/-
Numerals: the texts that write numbers.

A numeral has blanks around it, a sign, and digits; those of every script count,
and so does every blank, but a text without foreign characters may only hold the
plain blanks.  An integer may name its base once more before its digits, and one
to base ten is not read if it has too many digits.  A float has digits, a point
and an exponent, or is one of three words.
-/
import TreeLint.Decimal.Nearest
import TreeLint.Text.Blank
import TreeLint.Text.DecimalDigit
import TreeLint.Text.Radix
namespace TreeLint.Decimal.Numeral

/-- Why a text is no numeral. -/
inductive Problem where
  /-- It has another form. -/
  | invalid
  /-- It has too many digits, so many. -/
  | tooLong (digits : Nat)
deriving DecidableEq, Repr

/-- The digit of a value below ten. -/
def digitChar (value : Nat) : Char := Char.ofNat ('0'.toNat + value)

/-- A foreign character as a plain digit or blank; any other one has no meaning. -/
def plainChar (c : Char) : Char :=
  if c.toNat < 0x7F then c
  else if Text.isBlank c then ' '
  else match Text.digitValue? c with
    | some d => digitChar d
    | none => '?'

/-- A text with plain digits and blanks for the foreign ones. -/
def plainText (s : List Char) : List Char :=
  if s.all (fun c => c.toNat < 0x80) then s else s.map plainChar

/-- Whether a character is a plain blank. -/
def isSpace (c : Char) : Bool := c == ' ' || (9 ≤ c.toNat && c.toNat ≤ 13)

/-- A text without the plain blanks around it. -/
def trim (s : List Char) : List Char :=
  ((s.dropWhile isSpace).reverse.dropWhile isSpace).reverse

/-- A text without its sign. -/
def unsigned : List Char → List Char
  | c :: rest => if c == '+' || c == '-' then rest else c :: rest
  | [] => []

/-- Whether a text has a minus sign. -/
def isNegative (s : List Char) : Bool := s.head? == some '-'

/-- A number with its sign. -/
def signed (negative : Bool) (n : Int) : Int := if negative then -n else n

/-! ### Integers -/

/-- The letter that names a base. -/
def baseLetter? (base : Nat) : Option Char :=
  if base = 2 then some 'b'
  else if base = 8 then some 'o'
  else if base = 16 then some 'x'
  else none

/-- Digits without the name of their base before them. -/
def withoutBase (base : Nat) (s : List Char) : List Char :=
  match s with
  | '0' :: letter :: rest => if baseLetter? base == some letter.toLower then rest else s
  | _ => s

/-- The integer that a text writes in a base, with at most `limit` digits to base ten. -/
def readInt (limit base : Nat) (s : List Char) : Except Problem Int :=
  let s := trim (plainText s)
  let body := withoutBase base (unsigned s)
  let digits := body.takeWhile (fun c => (Text.radixDigit? base c).isSome)
  if base = 10 && limit < digits.length then .error (.tooLong digits.length)
  else
    match Text.ofRadix? base body with
    | some n => if body.isEmpty then .error .invalid else .ok (signed (isNegative s) n)
    | none => .error .invalid

/-! ### Floats -/

/-- The words for floats that are not finite. -/
def words : List (String × Float) := [
  ("inf", 1.0 / 0.0), ("infinity", 1.0 / 0.0), ("nan", 0.0 / 0.0)]

/-- The power of ten that an exponent in small letters writes; nothing writes zero. -/
def readExponent? : List Char → Option Int
  | [] => some 0
  | e :: rest =>
    let digits := unsigned rest
    if e == 'e' && !digits.isEmpty then
      (Text.ofRadix? 10 digits).map (fun n => signed (isNegative rest) n)
    else none

/-- The float that digits write, possibly with a point and an exponent. -/
def readDigits? (s : List Char) : Option Float := do
  let negative := isNegative s
  let s := unsigned s
  let whole := s.takeWhile Char.isDigit
  let s := s.dropWhile Char.isDigit
  let (places, s) := match s with
    | '.' :: rest => (rest.takeWhile Char.isDigit, rest.dropWhile Char.isDigit)
    | rest => ([], rest)
  if whole.isEmpty && places.isEmpty then none
  let power ← readExponent? s
  let digits ← Text.ofRadix? 10 (whole ++ places)
  return nearestSigned negative digits (power - places.length)

/-- The float that a text in small letters writes. -/
def readFloat? (s : List Char) : Option Float :=
  let s := trim (plainText s)
  match words.lookup (String.ofList (unsigned s)) with
  | some x => some (if isNegative s then -x else x)
  | none => readDigits? s

@[simp] theorem plainText_nil : plainText [] = [] := rfl

theorem plainText_of_all {s : List Char} (h : s.all (fun c => c.toNat < 0x80) = true) :
    plainText s = s := by
  simp only [plainText, h, if_true]

end TreeLint.Decimal.Numeral
