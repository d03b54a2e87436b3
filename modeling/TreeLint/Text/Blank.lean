/-
White space of source text.

A character is blank when a reader sees only space or a line or field break in
its place.  Comment directives are trimmed with `trimBlanks`, which removes the
blank characters at both ends of a text and no other character.
-/
namespace TreeLint.Text

/-- The white-space characters: the control characters that break lines or
fields, the space, and the space and line separators of every script. -/
def isBlank (c : Char) : Bool :=
  let n := c.toNat
  (9 ≤ n && n ≤ 13) || (28 ≤ n && n ≤ 32) || n == 0x85 || n == 0xA0 || n == 0x1680 ||
    (0x2000 ≤ n && n ≤ 0x200A) || n == 0x2028 || n == 0x2029 || n == 0x202F || n == 0x205F ||
    n == 0x3000

/-- The text without the blanks at its start. -/
def trimBlanksLeft (s : List Char) : List Char :=
  s.dropWhile isBlank

/-- The text without the blanks at its end. -/
def trimBlanksRight (s : List Char) : List Char :=
  (s.reverse.dropWhile isBlank).reverse

/-- The text without the blanks at its two ends. -/
def trimBlanks (s : List Char) : List Char :=
  trimBlanksRight (trimBlanksLeft s)

@[simp] theorem trimBlanksLeft_nil : trimBlanksLeft [] = [] := rfl

@[simp] theorem trimBlanksRight_nil : trimBlanksRight [] = [] := rfl

@[simp] theorem trimBlanks_nil : trimBlanks [] = [] := rfl

/-- Every character that core calls white space is blank. -/
theorem isBlank_of_isWhitespace {c : Char} (h : c.isWhitespace = true) : isBlank c = true := by
  simp only [Char.isWhitespace, Bool.or_eq_true, decide_eq_true_eq] at h
  rcases h with ((h | h) | h) | h <;> subst h <;> decide

end TreeLint.Text
