namespace Stencil.Text

/-! # Measures and order of text

Lengths of a text in UTF-16 code units and in UTF-8 bytes, and the order of two texts.
-/

/-- Code units of one character in UTF-16: two beyond the basic plane. -/
def units16 (c : Char) : Nat :=
  if c.toNat < 0x10000 then 1 else 2

/-- Length of a text in UTF-16 code units. -/
def length16 (cs : List Char) : Nat :=
  cs.foldr (fun c n => units16 c + n) 0

/-- Length of a text in UTF-8 bytes. -/
def byteLength (cs : List Char) : Nat :=
  cs.foldr (fun c n => c.utf8Size + n) 0

@[simp] theorem byteLength_nil : byteLength [] = 0 := rfl

@[simp] theorem byteLength_cons (c : Char) (cs : List Char) :
    byteLength (c :: cs) = c.utf8Size + byteLength cs := rfl

@[simp] theorem byteLength_append (xs ys : List Char) :
    byteLength (xs ++ ys) = byteLength xs + byteLength ys := by
  induction xs with
  | nil => simp
  | cons c xs ih => simp [ih, Nat.add_assoc]

/-- Texts in the order of their code points, which is also the order of their UTF-8 bytes. -/
def order : List Char → List Char → Ordering
  | [], [] => .eq
  | [], _ :: _ => .lt
  | _ :: _, [] => .gt
  | a :: as, b :: bs =>
    if a.toNat < b.toNat then .lt else if b.toNat < a.toNat then .gt else order as bs

/-- Whether the first text comes before the second or equals it. -/
def precedes (a b : String) : Bool :=
  order a.toList b.toList != .gt

end Stencil.Text
