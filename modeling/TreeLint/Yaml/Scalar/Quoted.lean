/-
Quoted scalars.

Between single quotes only the quote itself is written twice; between double
quotes a backslash opens an escape.  A line end within a quoted scalar folds as
it does in a plain one, and blanks at the ends of its lines are dropped.
-/
import TreeLint.Yaml.Scalar.Plain
import TreeLint.Text.Radix
import TreeLint.Text.Surrogate
namespace TreeLint.Yaml.Quoted

/-- What a letter behind a backslash stands for. -/
def escapes : List (Char × Char) := [
  ('0', '\x00'), ('a', '\x07'), ('b', '\x08'), ('t', '\t'), ('\t', '\t'), ('n', '\n'),
  ('v', '\x0b'), ('f', '\x0c'), ('r', '\r'), ('e', '\x1b'), (' ', ' '), ('"', '"'),
  ('\\', '\\'), ('/', '/'), ('N', '\x85'), ('_', '\xa0'), ('L', '\u2028'), ('P', '\u2029')]

/-- The number of hexadecimal digits that a letter behind a backslash announces. -/
def escapeDigits : List (Char × Nat) := [('x', 2), ('u', 4), ('U', 8)]

/-- The greatest number that a character can have. -/
def greatestChar : Nat := 0x10FFFF

/-- The least number that does not even fit a machine word. -/
def wordLimit : Nat := 0x80000000

/-- The character with a number. -/
def charOf (n : Nat) : Except Problem Char :=
  if n ≤ greatestChar then .ok (Text.ofCode n)
  else if n < wordLimit then
    .error (.fault (.raised (.other "ValueError") [.string "chr() arg not in range(0x110000)"]))
  else .error (.fault .overflow)

/-- Line ends, and blanks and tabs before and between them; no mark between documents may begin
one of the lines. -/
def breaks : Nat → List Char → Cursor → Except Problem (List Char × Cursor)
  | 0, _, _ => .error .malformed
  | fuel + 1, found, c =>
    if c.isSeparator then .error .malformed
    else
      let c := c.pass isBlank
      match c.lineEnd? with
      | some (ch, c) => breaks fuel (ch :: found) c
      | none => .ok (found.reverse, c)

/-- Reads an escape behind its backslash. -/
def escape (c : Cursor) : Except Problem (List Char × Cursor) :=
  match c.peek? with
  | none => .error .malformed
  | some ch =>
    match escapes.lookup ch, escapeDigits.lookup ch with
    | some meant, _ => .ok ([meant], c.next)
    | none, some count =>
      let c := c.next
      let digits := c.rest.take count
      if digits.length < count then .error .malformed
      else match Text.ofRadix? 16 digits with
        | some n => (charOf n).map (fun meant => ([meant], c.skip count))
        | none => .error .malformed
    | none, none =>
      match c.lineEnd? with
      | some (_, c) => breaks (c.rest.length + 1) [] c
      | none => .error .malformed

/-- Blanks and line ends within a quoted scalar. -/
def gap (c : Cursor) : Except Problem (List Char × Cursor) :=
  let blanks := c.run isBlank
  let c := c.pass isBlank
  match c.peek? with
  | none => .error .malformed
  | some _ =>
    match c.lineEnd? with
    | none => .ok (blanks, c)
    | some (first, c) => do
      let (others, c) ← breaks (c.rest.length + 1) [] c
      return (Plain.folded first others, c)

/-- Reads the characters of a quoted scalar and the quote behind them. -/
def chars (double : Bool) : Nat → List Char → Cursor → Except Problem (List Char × Cursor)
  | 0, _, _ => .error .malformed
  | fuel + 1, found, c =>
    match c.rest with
    | [] => .error .malformed
    | ch :: rest =>
      if !double && ch == '\'' && rest.head? == some '\'' then
        chars double fuel ('\'' :: found) (c.skip 2)
      else if ch == (if double then '"' else '\'') then .ok (found.reverse, c.next)
      else if double && ch == '\\' then do
        let (meant, c) ← escape c.next
        chars double fuel (meant.reverse ++ found) c
      else if isBlank ch || isBreak ch then do
        let (meant, c) ← gap c
        chars double fuel (meant.reverse ++ found) c
      else chars double fuel (ch :: found) c.next

/-- Reads a quoted scalar from its opening quote on. -/
def read (double : Bool) (c : Cursor) : Except Problem (List Char × Cursor) :=
  chars double (c.rest.length + 1) [] c.next

end TreeLint.Yaml.Quoted
