/-
Diagnostic kinds and the cards of rules.

A diagnostic kind is a named, templated category of finding, owned by a rule.
The card of a rule tells who it is and lists the kinds it declares; an entry of
that list may be something that is not a diagnostic kind, which the checks on
rule sets refuse.
-/
import TreeLint.Diagnostic.Template
import TreeLint.Fault
namespace TreeLint

/-- A category of finding. -/
structure DiagnosticKind where
  /-- The name of the rule that owns the kind. -/
  name : String
  /-- The stable identifier of the kind. -/
  id : String
  /-- The message template. -/
  template : String
  /-- The severity of the findings of this kind, unless a rule's is overridden. -/
  severity : String
  /-- A hint how to mend what was found. -/
  correction : Option String
deriving DecidableEq, Repr

namespace DiagnosticKind

/-- The pieces of the message template. -/
def pieces (code : DiagnosticKind) : List TemplatePiece :=
  Template.pieces code.template.toList

/-- Goes on with the pieces of the message template, if all its indexes can be read. -/
def withPieces {α : Type} (code : DiagnosticKind) (next : List TemplatePiece → Except Fault α) :
    Except Fault α :=
  match Template.tooLong? Value.digitLimit code.pieces with
  | some width => .error (.longNumeral width)
  | none => next code.pieces

/-- The argument indexes that the template uses, ascending. -/
def slotIndexes (code : DiagnosticKind) : Except Fault (List Nat) :=
  code.withPieces (fun ps => .ok (Template.indexes ps))

/-- The number of arguments that the template expects. -/
def arity (code : DiagnosticKind) : Except Fault Nat :=
  code.withPieces (fun ps => .ok (Template.arity ps))

/-- The greatest number of indexes that can be counted. -/
def countLimit : Nat := Nat.pow 2 63 - 1

section

variable [Machine]

/-- Whether the template uses every argument it expects.  To tell that one is left out, all the
indexes that it should use are listed, and a list that is too long is a fault. -/
def isWellFormed (code : DiagnosticKind) : Except Fault Bool :=
  code.withPieces (fun ps =>
    if Template.isWellFormed ps then .ok true
    else if countLimit < Template.arity ps then .error .overflow
    else if Machine.listLimit < Template.arity ps then .error .outOfMemory
    else .ok false)

/-- The text that a piece of a template becomes.  The index of a slot is read first, and then its
argument is shown. -/
def fillPiece (arguments : List Value) : TemplatePiece → Except Fault String
  | .char c => .ok c.toString
  | .slot i width =>
    if Value.digitLimit < width then .error (.longNumeral width)
    else
      match arguments[i]? with
      | some v => Fault.told v.text
      | none => .ok Template.missingArgument

/-- The texts that some pieces become, up to the first that fails. -/
def fillPieces (arguments : List Value) : List TemplatePiece → Except Fault (List String)
  | [] => .ok []
  | piece :: rest => do
    let first ← fillPiece arguments piece
    let others ← fillPieces arguments rest
    return first :: others

/-- The message for a list of arguments. -/
def format (code : DiagnosticKind) (arguments : List Value) : Except Fault String :=
  return String.join (← fillPieces arguments code.pieces)

end

theorem withPieces_of_none {α : Type} {code : DiagnosticKind}
    (h : Template.tooLong? Value.digitLimit code.pieces = none)
    (next : List TemplatePiece → Except Fault α) : code.withPieces next = next code.pieces := by
  simp only [withPieces, h]

theorem withPieces_of_some {α : Type} {code : DiagnosticKind} {width : Nat}
    (h : Template.tooLong? Value.digitLimit code.pieces = some width)
    (next : List TemplatePiece → Except Fault α) :
    code.withPieces next = .error (.longNumeral width) := by
  simp only [withPieces, h]

end DiagnosticKind

/-- The family of a rule. -/
inductive RuleGroup where
  /-- Rules that find mistakes. -/
  | errors
  /-- Rules that ask for a style. -/
  | style
deriving DecidableEq, Repr

/-- The name of a family of rules. -/
def RuleGroup.name : RuleGroup → String
  | .errors => "errors"
  | .style => "style"

/-- An entry of the list of kinds that a rule declares. -/
inductive DeclaredKind where
  /-- A diagnostic kind. -/
  | kind (code : DiagnosticKind)
  /-- Something else. -/
  | other (value : Value)
deriving Repr

/-- The diagnostic kind of an entry. -/
def DeclaredKind.kind? : DeclaredKind → Option DiagnosticKind
  | .kind code => some code
  | .other _ => none

/-- What a rule tells about itself. -/
structure RuleCard where
  /-- The unique name of the rule. -/
  name : String
  /-- A description in one line. -/
  description : String
  /-- The family of the rule. -/
  group : RuleGroup
  /-- The kinds of finding that the rule may report. -/
  codes : List DeclaredKind
  /-- A long description with examples. -/
  details : String
deriving Repr

/-- The identifier of an entry; something that is not a diagnostic kind has none. -/
def DeclaredKind.id : DeclaredKind → Except Fault String
  | .kind code => .ok code.id
  | .other value => .error (.noMember value.kindName "id")

/-- The identifiers of the kinds that a rule declares. -/
def RuleCard.codeIds (card : RuleCard) : Except Fault (List String) :=
  card.codes.mapM DeclaredKind.id

end TreeLint
