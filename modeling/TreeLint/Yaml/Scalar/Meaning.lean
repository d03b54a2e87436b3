/-
What scalars stand for.

`Tag.valueOf` gives the value of a scalar of a kind.  A plain scalar whose kind
was found by its text nearly always has one; a scalar whose kind was named
before it may not.
-/
import TreeLint.Decimal.Numeral
import TreeLint.Text.Base64
import TreeLint.Text.Lowercase
import TreeLint.Yaml.Cursor
import TreeLint.Yaml.Tag
namespace TreeLint.Yaml

open Decimal

/-- A fault of a class from outside the engine, with a message. -/
def scalarFault (name message : String) : Problem :=
  .fault (.raised (.other name) [.string message])

/-- A scalar has no character where one is needed. -/
def tooShort : Problem := scalarFault "IndexError" "string index out of range"

/-- The sign of a number, and the characters behind it; an empty text has none. -/
def readSign? (s : List Char) : Except Problem (Bool × List Char) :=
  match s with
  | [] => .error tooShort
  | _ => .ok (Numeral.isNegative s, Numeral.unsigned s)

/-! ### Integers -/

/-- The number of characters after which a text in a message is cut. -/
def shownLength : Nat := 200

/-- The problem with a text that is no integer. -/
def notInt (base : Nat) (s : List Char) : Problem :=
  let shown := String.ofList ((Text.quoted (String.ofList s)).toList.take shownLength)
  scalarFault "ValueError" s!"invalid literal for int() with base {base}: {shown}"

/-- The integer that a text writes in a base. -/
def readInt (base : Nat) (s : List Char) : Except Problem Int :=
  match Numeral.readInt Value.digitLimit base s with
  | .ok n => .ok n
  | .error .invalid => .error (notInt base s)
  | .error (.tooLong digits) => .error (.fault (.longNumeral digits))

/-- The number that its sixtieths make. -/
def ofSixtieths (parts : List Int) : Int := parts.foldl (fun n p => n * 60 + p) 0

/-- The integer that a scalar stands for. -/
def intOf (text : List Char) : Except Problem Value := do
  let (negative, s) ← readSign? (text.filter (· != '_'))
  let n ← match s with
    | [] => throw tooShort
    | ['0'] => pure 0
    | '0' :: 'b' :: rest => readInt 2 rest
    | '0' :: 'x' :: rest => readInt 16 rest
    | '0' :: _ => readInt 8 s
    | _ =>
      if s.contains ':' then ofSixtieths <$> (s.splitOn ':').mapM (readInt 10)
      else readInt 10 s
  return .int (Numeral.signed negative n)

/-! ### Numbers with a point -/

/-- The float that a text in small letters writes. -/
def readFloat (s : List Char) : Except Problem Float :=
  match Numeral.readFloat? s with
  | some x => .ok x
  | none =>
    .error (scalarFault "ValueError"
      ("could not convert string to float: " ++ Text.quoted (String.ofList s)))

/-- The float that its sixtieths make, added up from the last: every part is multiplied by its power
of sixty, which has to have a float. -/
def floatOfSixtieths (parts : List Float) : Except Problem Float :=
  go 1 0.0 parts.reverse
where
  /-- Adds parts, the first of them multiplied by a number, to a sum. -/
  go (unit : Nat) (sum : Float) : List Float → Except Problem Float
    | [] => .ok sum
    | p :: rest =>
      let factor := ofQuotient unit 1
      if factor.isInf then .error (.fault .overflow) else go (unit * 60) (sum + p * factor) rest

/-- What is no number, of which there is one only. -/
def notANumber : Float := 0.0 / 0.0

/-- The float that a scalar stands for. -/
def floatOf (text : List Char) : Except Problem Value := do
  let (negative, s) ← readSign? (Text.lowercase (text.filter (· != '_')))
  let x ←
    if s == ['.', 'i', 'n', 'f'] then pure (1.0 / 0.0)
    else if s == ['.', 'n', 'a', 'n'] then return .float notANumber
    else if s.contains ':' then do floatOfSixtieths (← (s.splitOn ':').mapM readFloat)
    else readFloat s
  return .float (if negative then -x else x)

/-! ### All kinds -/

/-- The words for truth values in lower case. -/
def boolWords : List (String × Bool) := [
  ("yes", true), ("no", false), ("true", true), ("false", false), ("on", true), ("off", false)]

/-- The truth value that a scalar stands for. -/
def boolOf (text : String) : Except Problem Value :=
  let word := String.ofList (Text.lowercase text.toList)
  match boolWords.lookup word with
  | some b => .ok (.bool b)
  | none => .error (scalarFault "KeyError" word)

/-- The timestamp that a scalar stands for; a line end behind it does not count. -/
def timestampOf (text : String) : Except Problem Value :=
  let s := text.toList
  match Timestamp.read? (if s.getLast? == some '\n' then s.dropLast else s) with
  | none => .error (.fault (.noMember "NoneType" "groupdict"))
  | some t => t.value?.mapError (scalarFault "ValueError")

/-- The bytes that a scalar stands for. -/
def binaryOf (text : String) : Except Problem Value :=
  let s := text.toList
  if s.all (fun c => c.toNat < 0x80) then
    match Text.Base64.decode? s with
    | some bytes =>
      let shown := Text.quotedBytes bytes
      .ok (.foreign (.ofText shown !bytes.isEmpty))
    | none => .error .malformed
  else .error .malformed

/-- The value of a scalar of a kind. -/
def Tag.valueOf (tag : Tag) (text : String) : Except Problem Value :=
  match tag with
  | .null => .ok .null
  | .bool => boolOf text
  | .int => intOf text.toList
  | .float => floatOf text.toList
  | .timestamp => timestampOf text
  | .string => .ok (.string text)
  | .binary => binaryOf text
  | .merge | .nameless | .list | .mapping | .set | .orderedMapping | .pairs | .other _ =>
    .error .malformed

end TreeLint.Yaml
