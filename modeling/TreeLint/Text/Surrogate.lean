/-
Halves of pairs of code units.

A text that is written in escapes may hold half of a pair, which is no character.
So that such a text is still a row of characters, a half stands in it as one of
the last characters for private use, at a fixed distance from its number; every
writer of escapes turns it back into its number.
-/
namespace TreeLint.Text

/-- The distance between a half of a pair and the character that stands for it. -/
def halfDistance : Nat := 0xFA000

/-- Whether a number is that of half of a pair. -/
def isHalf (n : Nat) : Bool := 0xD800 ≤ n && n < 0xE000

/-- The character with a number; for half of a pair the one that stands for it. -/
def ofCode (n : Nat) : Char :=
  if isHalf n then Char.ofNat (n + halfDistance) else Char.ofNat n

/-- The half of a pair that a character stands for. -/
def half? (c : Char) : Option Nat :=
  if halfDistance ≤ c.toNat && isHalf (c.toNat - halfDistance) then some (c.toNat - halfDistance)
  else none

/-- The number of a character; that of half of a pair for the one that stands for it. -/
def codeOf (c : Char) : Nat := (half? c).getD c.toNat

end TreeLint.Text
