namespace Stencil

/-! # What is left to read

A reader that takes something off the front of a list says so in its result type, and a loop of
such readers ends because every round leaves less.
-/

/-- What is left of `input` after at least one element was taken from its front. -/
structure Rest {α : Type} (input : List α) where
  tail : List α
  shorter : tail.length < input.length

/-- What is left of the rest of a list is a rest of the list. -/
def Rest.widen {α : Type} {input mid : List α} (r : Rest mid) (h : mid.length ≤ input.length) :
    Rest input :=
  ⟨r.tail, Nat.lt_of_lt_of_le r.shorter h⟩

theorem length_dropWhile_le {α : Type} (p : α → Bool) (l : List α) :
    (l.dropWhile p).length ≤ l.length :=
  (List.dropWhile_suffix p).length_le

end Stencil
