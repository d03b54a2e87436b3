/-
Faults that are named by a class.

A rule may fail with a class and arguments of its own choice.  The classes of the
engine that build their message of the arguments take a fixed number of them, a
failure of the system that has a number belongs to a class of its own by it, and a
failed conversion of a text tells which characters it failed on.  `Fault.ofClass`
gives the fault; arguments that do not fit are themselves a fault.
-/
import TreeLint.Fault
namespace TreeLint.Fault

/-- Names in a sentence. -/
def listed : List String → String
  | [] => ""
  | [a] => a
  | [a, b] => a ++ " and " ++ b
  | names => String.intercalate ", " names.dropLast ++ ", and " ++ names.getLastD ""

/-- The fault of a class that takes some arguments, given another number of them. -/
def wrongCount (name : String) (taken : List String) (given : Nat) : Fault :=
  let missing := (taken.drop given).map Text.quoted
  let wording :=
    if missing.isEmpty then
      let expected := taken.length + 1
      let actual := given + 1
      s!"takes {expected} positional arguments but {actual} were given"
    else
      let count := missing.length
      let plural := if count == 1 then "" else "s"
      s!"missing {count} required positional argument{plural}: " ++ listed missing
  .raised (.other "TypeError") [.string (name ++ ".__init__() " ++ wording)]

/-- The classes that have other names too. -/
def aliases : List (String × String) := [("IOError", "OSError"), ("EnvironmentError", "OSError")]

/-- The classes of failures of the system by their numbers. -/
def systemClasses : List (Int × String) := [
  (1, "PermissionError"), (2, "FileNotFoundError"), (3, "ProcessLookupError"),
  (4, "InterruptedError"), (10, "ChildProcessError"), (11, "BlockingIOError"),
  (13, "PermissionError"), (17, "FileExistsError"), (20, "NotADirectoryError"),
  (21, "IsADirectoryError"), (32, "BrokenPipeError"), (103, "ConnectionAbortedError"),
  (104, "ConnectionResetError"), (108, "BrokenPipeError"), (110, "TimeoutError"),
  (111, "ConnectionRefusedError"), (114, "BlockingIOError"), (115, "BlockingIOError")]

/-- The class of all failures of the system. -/
def systemClass : String := "OSError"

/-- The more special classes of failures of the system. -/
def systemSubclasses : List String := "ConnectionError" :: systemClasses.map (·.2)

/-- A failure of the system with a number and a message; a file may be named behind them. -/
def ofSystem (name : String) (number message : Value) (more : List Value) : Fault :=
  let special :=
    match number.integer? with
    | some n => systemClasses.lookup n
    | none => none
  .system (if name == systemClass then special.getD name else name) number message more

/-! ### Failed conversions of texts -/

/-- The fault of a value that is not of the kind that it should be. -/
def wrongKind (wording : String) : Fault := .raised (.other "TypeError") [.string wording]

/-- The text that is the argument at a place. -/
def textArgument (place : Nat) : Value → Except Fault String
  | .string s => .ok s
  | v =>
    let given := if v.kindName == "NoneType" then "None" else v.kindName
    .error (wrongKind s!"argument {place} must be str, not {given}")

/-- The position in a text that is an argument. -/
def positionArgument (v : Value) : Except Fault Int :=
  match v.integer? with
  | none =>
    let given := v.kindName
    .error (wrongKind s!"'{given}' object cannot be interpreted as an integer")
  | some n =>
    if -(Nat.pow 2 63 : Int) ≤ n ∧ n < (Nat.pow 2 63 : Int) then .ok n
    else
      .error (.raised (.other "OverflowError")
        [.string "Python int too large to convert to C ssize_t"])

/-- A text that cannot be converted at some of its positions. -/
structure Conversion where
  /-- What the wording starts with. -/
  opening : String
  /-- The text. -/
  object : String
  /-- The first position. -/
  start : Int
  /-- The position behind the last. -/
  stop : Int
  /-- Why it cannot be converted. -/
  reason : String

/-- The wording of a failed conversion.  A single character is shown; if it should stand before the
start of the text, the wording fails. -/
def Conversion.message (c : Conversion) : Except TextFault String :=
  let opening := c.opening
  let start := c.start
  let reason := c.reason
  if c.start < c.object.length ∧ c.stop = c.start + 1 then
    match if c.start < 0 then none else c.object.toList[c.start.toNat]? with
    | some char =>
      let shown := Text.codeEscape false (Text.codeOf char)
      .ok s!"{opening} character '{shown}' in position {start}: {reason}"
    | none => .error (.refused "SystemError" "returned a result with an exception set")
  else
    let last := c.stop - 1
    .ok s!"{opening} characters in position {start}-{last}: {reason}"

/-- The class of texts that cannot be written in an encoding. -/
def encodeClass : String := "UnicodeEncodeError"

/-- The class of bytes that are no text in an encoding. -/
def decodeClass : String := "UnicodeDecodeError"

/-- The class of texts that cannot be translated. -/
def translateClass : String := "UnicodeTranslateError"

/-- The fault of a class of failed conversions that takes another number of arguments. -/
def wrongArity (taken given : Nat) : Fault :=
  wrongKind s!"function takes exactly {taken} arguments ({given} given)"

/-- The failed conversion that arguments describe.  Bytes cannot be given as an argument. -/
def conversion? (name : String) : List Value → Except Fault Conversion
  | [object, start, stop, reason] => do
    if name ≠ translateClass then throw (wrongArity 5 4)
    let object ← textArgument 1 object
    let start ← positionArgument start
    let stop ← positionArgument stop
    return ⟨"can't translate", object, start, stop, ← textArgument 4 reason⟩
  | [encoding, object, start, stop, reason] => do
    if name = translateClass then throw (wrongArity 4 5)
    let encoding ← textArgument 1 encoding
    if name = decodeClass then
      let _ ← positionArgument start
      let _ ← positionArgument stop
      let _ ← textArgument 5 reason
      let given := object.kindName
      throw (wrongKind s!"a bytes-like object is required, not '{given}'")
    let object ← textArgument 2 object
    let start ← positionArgument start
    let stop ← positionArgument stop
    return ⟨s!"'{encoding}' codec can't encode", object, start, stop, ← textArgument 5 reason⟩
  | arguments => throw (wrongArity (if name = translateClass then 4 else 5) arguments.length)

/-! ### Any class -/

variable [Machine]

/-- The failure of a conversion with arguments: they are shown in warnings, and the message tells
which characters cannot be converted. -/
def ofConversion (name : String) (arguments : List Value) : Fault :=
  match conversion? name arguments with
  | .ok c => .worded (.other name) (Fault.raised (.other name) arguments).shown c.message
  | .error f => f

/-- The fault of a class with arguments. -/
def ofClass (name : String) (arguments : List Value) : Fault :=
  let name := (aliases.lookup name).getD name
  if name == FaultClass.diagnosticArgument.name then
    match arguments with
    | [code, expected, actual] =>
      match (do return (← code.text, ← expected.text, ← actual.text) : Except TextFault _) with
      | .ok (code, expected, actual) => .argumentCount code expected actual
      | .error why => .text why
    | _ => wrongCount name ["code_id", "expected", "actual"] arguments.length
  else if name == FaultClass.undeclaredDiagnostic.name then
    match arguments with
    | [rule, code] => showing rule.text (fun rule => showing code.text (.undeclared rule))
    | _ => wrongCount name ["rule_name", "code_id"] arguments.length
  else if name == systemClass || systemSubclasses.contains name then
    match arguments with
    | number :: message :: more =>
      if more.length ≤ 3 then ofSystem name number message more
      else .raised (.other name) arguments
    | _ => .raised (.other name) arguments
  else if [encodeClass, decodeClass, translateClass].contains name then ofConversion name arguments
  else .raised (.ofName name) arguments

end TreeLint.Fault
