/-
The order of the members of a set.

A set keeps its members in a row of slots, and shows them from the first slot to
the last.  A number has a mark, the same for equal numbers, that says which slot
it looks at first; when that one is taken it looks at the slots next to it, and
then at others that depend on the mark as well.  The members look for their slots
in the order in which they came.  What is no number has no mark, and a set with
such a member shows its members as they came.
-/
import TreeLint.Value
namespace TreeLint.Value

/-- The exponent of the power of two below which marks lie. -/
def markBits : Nat := 61

/-- Marks are remainders by this prime; by it, half a number is the number times a power of two. -/
def markPrime : Nat := Nat.pow 2 markBits - 1

/-- The mark of an infinite number. -/
def infinityMark : Nat := 314159

/-- The mark of a number; minus one is not a mark. -/
def mark? (v : Value) : Option Int :=
  v.quotient?.map (fun q =>
    let halvings := q.2.log2 % markBits
    let size :=
      if q.2 = 0 then infinityMark
      else q.1.natAbs * Nat.pow 2 (markBits - halvings) % markPrime
    let mark : Int := if q.1 < 0 then -(size : Int) else size
    if mark = -1 then -2 else mark)

/-- The number of slots for a number of members: eight for few of them, and otherwise the least
power of two above twice their number. -/
def slotCount (members : Nat) : Nat :=
  if members < 5 then 8 else Nat.pow 2 ((2 * members).log2 + 1)

/-- The number of slots next to one that are looked at with it, if the row is long enough. -/
def neighbours : Nat := 9

/-- The slots that are looked at together with a slot. -/
def slotsFrom (count slot : Nat) : List Nat :=
  if slot + neighbours < count then List.range' slot (neighbours + 1) else [slot]

/-- The first slot that is free from a slot on, where `rest` is what is left of the mark.  When
nothing is left, the steps go through all slots, so that `fuel` steps are enough. -/
def freeSlot (count : Nat) (taken : List Nat) : Nat → Nat → Nat → Nat
  | 0, slot, _ => slot
  | fuel + 1, slot, rest =>
    match (slotsFrom count slot).find? (fun s => !taken.contains s) with
    | some s => s
    | none =>
      let rest := rest / 32
      freeSlot count taken fuel ((slot * 5 + 1 + rest) % count) rest

/-- The slot for a mark among slots that are taken. -/
def slotFor (count : Nat) (taken : List Nat) (mark : Int) : Nat :=
  let bits := (mark % (Nat.pow 2 64 : Nat)).toNat
  freeSlot count taken (count + 16) (bits % count) bits

/-- Members with their marks, if all of them have one. -/
def marked? : List Value → Option (List (Int × Value))
  | [] => some []
  | v :: rest =>
    match v.mark?, marked? rest with
    | some mark, some marks => some ((mark, v) :: marks)
    | _, _ => none

/-- Puts members in slots. -/
def placed (count : Nat) : List (Int × Value) → List (Nat × Value) → List (Nat × Value)
  | [], slots => slots
  | (mark, v) :: rest, slots =>
    placed count rest ((slotFor count (slots.map (·.1)) mark, v) :: slots)

/-- Members of a set in the order in which they are shown. -/
def shownOrder (members : List Value) : List Value :=
  match marked? members with
  | none => members
  | some marks =>
    ((placed (slotCount members.length) marks []).mergeSort (fun a b => a.1 ≤ b.1)).map (·.2)

theorem map_snd_of_marked? {members : List Value} {marks : List (Int × Value)}
    (h : marked? members = some marks) : marks.map (·.2) = members := by
  induction members generalizing marks with
  | nil => simp_all [marked?]
  | cons v rest ih =>
    simp only [marked?] at h
    split at h
    · rename_i found
      cases h
      simp [ih found]
    · cases h

theorem placed_perm (count : Nat) (marks : List (Int × Value)) (slots : List (Nat × Value)) :
    ((placed count marks slots).map (·.2)).Perm (marks.map (·.2) ++ slots.map (·.2)) := by
  induction marks generalizing slots with
  | nil => simp [placed]
  | cons m rest ih =>
    simp only [placed, List.map_cons, List.cons_append]
    exact (ih _).trans (by simp)

/-- A set shows each of its members once. -/
theorem shownOrder_perm (members : List Value) : (shownOrder members).Perm members := by
  unfold shownOrder
  split
  · exact List.Perm.refl _
  · rename_i marks h
    have sorted := (List.mergeSort_perm (placed (slotCount members.length) marks [])
      (fun a b => decide (a.1 ≤ b.1))).map (·.2)
    have all := placed_perm (slotCount members.length) marks []
    rw [map_snd_of_marked? h] at all
    exact sorted.trans (by simpa using all)

end TreeLint.Value
