/-
Bytes written in base 64.

Four characters of the alphabet write three bytes.  Every other character is
skipped, except that enough equals signs behind a group that is not full end the
text; a group that is not full and not ended so writes nothing, and then the text
as a whole writes nothing.
-/
namespace TreeLint.Text.Base64

/-- The number of values of a character. -/
def radix : Nat := 64

/-- The number that a character of the alphabet stands for. -/
def value? (c : Char) : Option Nat :=
  if 'A' ≤ c ∧ c ≤ 'Z' then some (c.toNat - 'A'.toNat)
  else if 'a' ≤ c ∧ c ≤ 'z' then some (c.toNat - 'a'.toNat + 26)
  else if '0' ≤ c ∧ c ≤ '9' then some (c.toNat - '0'.toNat + 52)
  else if c = '+' then some 62
  else if c = '/' then some 63
  else none

/-- A group of four characters that is being read. -/
structure Group where
  /-- The number of characters read. -/
  size : Nat := 0
  /-- The number that the bits make which are not yet part of a byte. -/
  waiting : Nat := 0
  /-- The number of equals signs since the last character. -/
  pads : Nat := 0

/-- The group with one character more, and the byte that is then full, if one is. -/
def Group.add (g : Group) (v : Nat) : Group × Option UInt8 :=
  let bits := g.waiting * radix + v
  match g.size with
  | 0 => (⟨1, v, 0⟩, none)
  | 1 => (⟨2, bits % 16, 0⟩, some (bits / 16).toUInt8)
  | 2 => (⟨3, bits % 4, 0⟩, some (bits / 4).toUInt8)
  | _ => (⟨0, 0, 0⟩, some bits.toUInt8)

/-- The bytes that the rest of a text writes behind those found before. -/
def decodeFrom (found : List UInt8) (g : Group) : List Char → Option (List UInt8)
  | [] => if g.size = 0 then some found.reverse else none
  | c :: rest =>
    if c = '=' then
      if g.size < 2 then decodeFrom found g rest
      else if 4 ≤ g.size + g.pads + 1 then some found.reverse
      else decodeFrom found { g with pads := g.pads + 1 } rest
    else
      match value? c with
      | none => decodeFrom found g rest
      | some v =>
        let step := g.add v
        decodeFrom (step.2.toList ++ found) step.1 rest

/-- The bytes that a text writes. -/
def decode? (s : List Char) : Option (List UInt8) := decodeFrom [] {} s

@[simp] theorem decode?_nil : decode? [] = some [] := rfl

theorem value?_lt {c : Char} {v : Nat} (h : value? c = some v) : v < radix := by
  unfold value? at h
  have hle (a b : Char) (hab : a ≤ b) : a.toNat ≤ b.toNat := hab
  split at h
  · next hc =>
    cases h
    have := hle _ _ hc.1
    have := hle _ _ hc.2
    simp only [radix, Char.reduceToNat] at *
    omega
  · split at h
    · next hc =>
      cases h
      have := hle _ _ hc.1
      have := hle _ _ hc.2
      simp only [radix, Char.reduceToNat] at *
      omega
    · split at h
      · next hc =>
        cases h
        have := hle _ _ hc.1
        have := hle _ _ hc.2
        simp only [radix, Char.reduceToNat] at *
        omega
      · split at h
        · cases h; decide
        · split at h
          · cases h; decide
          · cases h

end TreeLint.Text.Base64
