/-
Faults: everything that can go wrong, by its cause.

A constructor of `Fault` tells what happened; `Fault.message` is the one place
where the wording is chosen, and `Fault.faultClass` the class under which a fault
is reported.  The classes are nested: argument and vocabulary faults are both
programming faults of a rule, and all classes of the engine itself are engine
faults.  A rule may also fail with a class and arguments of its own choice, the
classes of the engine included.

The faults of the engine hold the texts that their wording shows, so that it can
always be told.  A fault of a rule may hold values without a text, and then it cannot
be shown; that a text cannot be made is a fault itself, `Fault.text`.
-/
import TreeLint.Syntax.Kind
import TreeLint.Value
namespace TreeLint

/-- The class of a fault. -/
inductive FaultClass where
  /-- Any fault of the engine. -/
  | engine
  /-- A rule set cannot be used. -/
  | ruleRegistration
  /-- A handler was added to a frozen registry. -/
  | registryFrozen
  /-- A configuration is invalid. -/
  | config
  /-- A rule reports wrongly. -/
  | ruleProgramming
  /-- A report passes the wrong number of arguments. -/
  | diagnosticArgument
  /-- A report uses a kind that its rule does not declare. -/
  | undeclaredDiagnostic
  /-- A class from outside the engine. -/
  | other (name : String)
deriving DecidableEq, Repr

namespace FaultClass

/-- The name of a class. -/
def name : FaultClass → String
  | .engine => "LintEngineError"
  | .ruleRegistration => "RuleRegistrationError"
  | .registryFrozen => "RegistryFrozenError"
  | .config => "ConfigError"
  | .ruleProgramming => "RuleProgrammingError"
  | .diagnosticArgument => "DiagnosticArgumentError"
  | .undeclaredDiagnostic => "UndeclaredDiagnosticError"
  | .other name => name

/-- The classes of the engine. -/
def engineClasses : List FaultClass :=
  [.engine, .ruleRegistration, .registryFrozen, .config, .ruleProgramming, .diagnosticArgument,
    .undeclaredDiagnostic]

/-- The class with a name. -/
def ofName (name : String) : FaultClass :=
  (engineClasses.find? (·.name == name)).getD (.other name)

/-- Whether a class says that a rule reports wrongly. -/
def isProgramming : FaultClass → Bool
  | .ruleProgramming | .diagnosticArgument | .undeclaredDiagnostic => true
  | _ => false

/-- Whether a fault of this class, when it comes from a rule that registers, is passed on as it
is. -/
def isRegistration : FaultClass → Bool
  | .ruleRegistration | .registryFrozen => true
  | _ => false

end FaultClass

/-- A reason why a rule set is refused. -/
inductive RuleProblem where
  /-- An object of the list, given by the text that shows it, has no card. -/
  | noCard (shown : String)
  /-- A rule cannot register handlers. -/
  | noSetup (rule : String)
  /-- A rule has the name of an earlier one. -/
  | duplicateName (rule : String)
  /-- A rule declares no diagnostic kind. -/
  | noKinds (rule : String)
  /-- A rule declares something that is not a diagnostic kind, given by the text that shows it. -/
  | notAKind (rule shown : String)
  /-- A rule declares a diagnostic kind of another rule. -/
  | foreignKind (rule code owner : String)
  /-- A template leaves out an argument; the text lists those that it uses. -/
  | unusedArgument (code slots : String)
  /-- Two rules declare the same identifier. -/
  | sharedId (code owner rule : String)
  /-- A rule declares the same identifier twice. -/
  | repeatedId (rule code : String)
deriving DecidableEq, Repr

/-- The wording of a reason to refuse a rule set. -/
def RuleProblem.message : RuleProblem → String
  | noCard shown => s!"{shown} has no RuleMeta"
  | noSetup rule => s!"Rule '{rule}' does not implement register_node_processors"
  | duplicateName rule => s!"Duplicate rule name '{rule}'"
  | noKinds rule => s!"Rule '{rule}' declares no diagnostic kinds"
  | notAKind rule shown =>
    s!"Rule '{rule}' declares {shown}, which is not a DiagnosticKind"
  | foreignKind rule code owner => s!"Rule '{rule}' declares '{code}' owned by '{owner}'"
  | unusedArgument code slots => s!"Diagnostic '{code}' has non-contiguous placeholders {slots}"
  | sharedId code owner rule =>
    s!"Diagnostic id '{code}' is declared by both '{owner}' and '{rule}'"
  | repeatedId rule code => s!"Rule '{rule}' declares '{code}' twice"

/-- A reason why a configuration is refused; a value is given by the text that shows it. -/
inductive ConfigProblem where
  /-- An option that lists patterns has another value. -/
  | notPatterns (option shown : String)
  /-- An option that is keyed by rule names has another value. -/
  | notMapping (option shown : String)
  /-- The limit of findings is no integer. -/
  | limitNotInteger (shown : String)
  /-- The limit of findings is negative. -/
  | limitNegative
  /-- A severity is none of the known ones. -/
  | unknownSeverity (rule severity : String)
  /-- A configuration file holds something other than a mapping. -/
  | notOptions (path : String)
  /-- A configuration file holds options that do not exist. -/
  | unknownOptions (path : String) (names : List String)
deriving DecidableEq, Repr

/-- The severities that a configuration may name. -/
def severities : List String := ["info", "warn", "error"]

/-- The wording of a reason to refuse a configuration. -/
def ConfigProblem.message : ConfigProblem → String
  | notPatterns option shown => s!"{option} must be a list of rule name patterns, got {shown}"
  | notMapping option shown => s!"{option} must be a mapping keyed by rule name, got {shown}"
  | limitNotInteger shown => s!"max_findings_per_file must be an integer, got {shown}"
  | limitNegative => "max_findings_per_file must be a non-negative integer"
  | unknownSeverity rule severity =>
    let known := String.intercalate ", " severities
    s!"Invalid severity '{severity}' for rule '{rule}' (expected one of {known})"
  | notOptions path => s!"{path}: top level must be a mapping"
  | unknownOptions path names =>
    let listed := String.intercalate ", " names
    s!"{path}: unknown option(s) {listed}"

/-- A reason why a file cannot be read or written. -/
inductive FileProblem where
  /-- Nothing is there. -/
  | notFound
  /-- A directory would take the place of something else. -/
  | taken
  /-- Something on the way is no directory. -/
  | notDirectory
  /-- A directory is there. -/
  | isDirectory
  /-- The file holds no text. -/
  | notText
  /-- The path holds the null character. -/
  | nullInPath
  /-- The path, or a name in it, is too long. -/
  | tooLong
deriving DecidableEq, Repr

/-- The name of the class of a problem with a file. -/
def FileProblem.className : FileProblem → String
  | notFound => "FileNotFoundError"
  | taken => "FileExistsError"
  | notDirectory => "NotADirectoryError"
  | isDirectory => "IsADirectoryError"
  | notText => "UnicodeDecodeError"
  | nullInPath => "ValueError"
  | tooLong => "OSError"

/-- The wording of a problem with a file, as far as it does not depend on the system. -/
def FileProblem.message : FileProblem → String
  | nullInPath => "embedded null byte"
  | _ => ""

/-- The wording about an integer with too many digits; reading it tells how many. -/
def longIntegerMessage (digits : Option Nat) : String :=
  let limit := Value.digitLimit
  let count := match digits with
    | some n => s!": value has {n} digits"
    | none => ""
  s!"Exceeds the limit ({limit} digits) for integer string conversion{count}; " ++
    "use sys.set_int_max_str_digits() to increase the limit"

namespace TextFault

/-- The name of the class of a reason why a text cannot be made. -/
def className : TextFault → String
  | longInteger => "ValueError"
  | tooDeep => "RecursionError"
  | refused className _ | untold className _ => className

/-- The wording of a reason why a text cannot be made. -/
def message : TextFault → Except TextFault String
  | longInteger => .ok (longIntegerMessage none)
  | tooDeep => .ok "maximum recursion depth exceeded while getting the repr of an object"
  | refused _ message => .ok message
  | untold _ cause => .error cause

end TextFault

/-- What went wrong. -/
inductive Fault where
  /-- A report passes a number of arguments that its template does not expect; both numbers are
  given by their texts. -/
  | argumentCount (code expected actual : String)
  /-- A report uses a kind that its rule does not declare. -/
  | undeclared (rule code : String)
  /-- A rule adds a handler to a frozen registry. -/
  | frozen (rule : String)
  /-- A rule adds a handler for something that is no node kind, given by the text that shows it. -/
  | unknownKind (rule shown : String)
  /-- A rule adds something that is not a handler. -/
  | notCallable (rule : String) (kind : NodeKind)
  /-- A handler is added under a name that is not in the rule set. -/
  | outsideRuleSet (rule : String)
  /-- A rule failed while it registered its handlers; the cause is given by its message. -/
  | setupFailed (rule cause : String)
  /-- A rule set did not pass the checks. -/
  | invalidRuleSet (problems : List RuleProblem)
  /-- A configuration did not pass the checks. -/
  | invalidConfig (problem : ConfigProblem)
  /-- A file cannot be read or written. -/
  | file (problem : FileProblem)
  /-- A node has two places in one tree. -/
  | sharedNode (node : String)
  /-- There is no report format of this name. -/
  | unknownFormat (name : String)
  /-- A location is asked of a file without line starts. -/
  | noLineStart
  /-- Something was asked for a part that it does not have. -/
  | noMember (owner member : String)
  /-- A value does not fit the model it should fill. -/
  | outOfRange
  /-- Something without length was asked for its length. -/
  | uncountable
  /-- An integer is written with too many digits to be read. -/
  | longNumeral (digits : Nat)
  /-- A text cannot be made. -/
  | text (why : TextFault)
  /-- A number is too large for what it should be used for. -/
  | overflow
  /-- Something does not fit into the memory. -/
  | outOfMemory
  /-- A node kind is asked for by something that is not the name of one, given by the text that
  shows it. -/
  | noSuchKind (shown : String)
  /-- A failure of the system, with its number, its message, and the files that it names. -/
  | system (className : String) (number message : Value) (files : List Value)
  /-- A fault of any class, with arguments of any kind. -/
  | raised (faultClass : FaultClass) (arguments : List Value)
  /-- A fault of any class that has texts of its own: one for warnings, and its message. -/
  | worded (faultClass : FaultClass) (shown message : Except TextFault String)
deriving Repr

namespace Fault

/-- The class of a fault. -/
def faultClass : Fault → FaultClass
  | argumentCount .. => .diagnosticArgument
  | undeclared .. => .undeclaredDiagnostic
  | frozen _ => .registryFrozen
  | unknownKind .. | notCallable .. | outsideRuleSet _ | setupFailed .. | invalidRuleSet _ =>
    .ruleRegistration
  | invalidConfig _ => .config
  | file problem => .other problem.className
  | sharedNode _ | unknownFormat _ => .other "ValueError"
  | noLineStart => .other "IndexError"
  | noMember .. => .other "AttributeError"
  | outOfRange => .other "ValidationError"
  | uncountable => .other "TypeError"
  | longNumeral _ | noSuchKind _ => .other "ValueError"
  | text why => .ofName why.className
  | overflow => .other "OverflowError"
  | outOfMemory => .other "MemoryError"
  | system className .. => .other className
  | raised c _ | worded c .. => c

/-- Whether a fault says that a rule reports wrongly. -/
def isProgramming (f : Fault) : Bool := f.faultClass.isProgramming

/-- Whether a fault, when it comes from a rule that registers, is passed on as it is. -/
def isRegistration (f : Fault) : Bool := f.faultClass.isRegistration

/-! ### Faults that show something -/

/-- What is made of a text, or the fault that there is none. -/
def told {α : Type} (text : Except TextFault α) : Except Fault α := text.mapError .text

/-- The fault that shows a text, or else the fault that the text cannot be made. -/
def showing (shown : Except TextFault String) (fault : String → Fault) : Fault :=
  match shown with
  | .ok s => fault s
  | .error why => .text why

@[simp] theorem told_ok {α : Type} (a : α) : told (.ok a) = .ok a := rfl

@[simp] theorem told_error {α : Type} (why : TextFault) :
    told (.error why : Except TextFault α) = .error (.text why) := rfl

/-- A text can be told exactly if there is one. -/
theorem told_eq_ok_iff {α : Type} {text : Except TextFault α} {a : α} :
    told text = .ok a ↔ text = .ok a := by
  cases text <;> simp

@[simp] theorem showing_ok (s : String) (fault : String → Fault) :
    showing (.ok s) fault = fault s := rfl

@[simp] theorem showing_error (why : TextFault) (fault : String → Fault) :
    showing (.error why) fault = .text why := rfl

/-! ### Wordings -/

section

variable [Machine]

/-- The text of the arguments of a fault: a single one is shown by itself, and quoted if the fault
is a failed look-up; several are shown as a row in parentheses. -/
def argumentText (c : FaultClass) : List Value → Except TextFault String
  | [] => .ok ""
  | [v] => if c = .other "KeyError" then v.quoted else v.text
  | vs => return Value.row "(" ")" (← Value.quotedItems vs)

/-- The wording about the files that a failure of the system names: the first and the last of three
values, if they are there. -/
def filesText : List Value → Except TextFault String
  | [] | .null :: _ => .ok ""
  | [first, _, .null] | [first] | [first, _] => return ": " ++ (← first.quoted)
  | first :: _ :: second :: _ => return ": " ++ (← first.quoted) ++ " -> " ++ (← second.quoted)

/-- The arguments that a failure of the system keeps: a file that is named is not among them. -/
def systemArguments (number message : Value) : List Value → List Value
  | [] => [number, message]
  | .null :: rest => number :: message :: .null :: rest
  | _ => [number, message]

/-- The wording of a fault. -/
def message : Fault → Except TextFault String
  | argumentCount code expected actual =>
    .ok s!"Diagnostic '{code}' expects {expected} argument(s), got {actual}"
  | undeclared rule code => .ok s!"Rule '{rule}' reported undeclared diagnostic '{code}'"
  | frozen rule => .ok s!"Rule '{rule}' tried to register after the registry was frozen"
  | unknownKind rule shown => .ok s!"Rule '{rule}' registered for unknown node kind {shown}"
  | notCallable rule kind =>
    let shown := kind.name
    .ok s!"Rule '{rule}' registered a non-callable handler for '{shown}'"
  | outsideRuleSet rule => .ok s!"Rule '{rule}' is not part of this registry's rule set"
  | setupFailed rule cause => .ok s!"Rule '{rule}' failed to register node processors: {cause}"
  | invalidRuleSet problems =>
    .ok ("Invalid rule set:\n  " ++ String.intercalate "\n  " (problems.map RuleProblem.message))
  | invalidConfig problem => .ok problem.message
  | file problem => .ok problem.message
  | sharedNode node => .ok s!"{node} appears more than once in the tree"
  | unknownFormat name => .ok s!"Unknown format: {name}"
  | noLineStart => .ok "list index out of range"
  | noMember owner member => .ok s!"'{owner}' object has no attribute '{member}'"
  | outOfRange | overflow | outOfMemory => .ok ""
  | uncountable => .ok "object of type 'NoneType' has no len()"
  | longNumeral digits => .ok (longIntegerMessage (some digits))
  | text why => why.message
  | noSuchKind shown => .ok s!"{shown} is not a valid NodeKind"
  | system _ number message files => do
    let number ← number.text
    let message ← message.text
    return s!"[Errno {number}] {message}" ++ (← filesText files)
  | raised c arguments => argumentText c arguments
  | worded _ _ message => message

/-- A fault as a warning shows it: its class, and its message or its arguments in parentheses. -/
def shown : Fault → Except TextFault String
  | raised c arguments => return c.name ++ Value.row "(" ")" (← Value.quotedItems arguments)
  | system className number message files =>
    return className ++
      Value.row "(" ")" (← Value.quotedItems (systemArguments number message files))
  | worded _ shown _ => shown
  | f => return f.faultClass.name ++ Value.row "(" ")" [Text.quoted (← f.message)]

/-- A fault as the record of a failed handler shows it: its class and its message. -/
def recorded (f : Fault) : Except TextFault String :=
  return f.faultClass.name ++ ": " ++ (← f.message)

end

end Fault

end TreeLint
