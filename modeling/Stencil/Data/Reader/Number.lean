import Stencil.Data.Number
import Stencil.Data.Reader.Basic
namespace Stencil.Data

/-! # Reading numbers

A number is read from the front of a text as far as it goes on: a sign, digits, a point with digits,
an exponent. A sign, a point and an exponent mark have to be followed by a digit; what stands behind
the number is left for others to refuse. In all readers `cut` is the fault of a text that ends where
a digit has to follow.
-/

/-- Reads digits, at least one and as many as there are. -/
def readDigits (cut : Fault) : List Char → Except Fault (List Char × List Char)
  | [] => .error cut
  | c :: rest =>
    if c.isDigit then .ok (c :: rest.takeWhile Char.isDigit, rest.dropWhile Char.isDigit)
    else .error .malformed

/-- Reads the digits before the point. A zero in front of them stands alone. -/
def readWhole (cut : Fault) (cs : List Char) : Except Fault (List Char × List Char) :=
  match readDigits cut cs with
  | .ok ('0' :: _ :: _, _) => .error .malformed
  | r => r

/-- Reads a point and the digits behind it, if there is a point. -/
def readPlaces (cut : Fault) : List Char → Except Fault (Option (List Char) × List Char)
  | '.' :: rest => (readDigits cut rest).map fun r => (some r.1, r.2)
  | rest => .ok (none, rest)

/-- The sign of an exponent, which may be left out: whether it is a minus, and the text behind. -/
def exponentSign : List Char → Bool × List Char
  | '-' :: rest => (true, rest)
  | '+' :: rest => (false, rest)
  | rest => (false, rest)

/-- Reads an exponent, if there is one: whether it is negative, and its digits. -/
def readExponent (cut : Fault) : List Char → Except Fault (Option (Bool × List Char) × List Char)
  | [] => .ok (none, [])
  | c :: rest =>
    if c = 'e' || c = 'E' then
      (readDigits cut (exponentSign rest).2).map fun r => (some ((exponentSign rest).1, r.1), r.2)
    else .ok (none, c :: rest)

/-- Reads a number without its sign. -/
def readUnsigned (negative : Bool) (cut : Fault) (cs : List Char) :
    Except Fault (NumberLiteral × List Char) := do
  let (whole, rest) ← readWhole cut cs
  let (places, rest) ← readPlaces cut rest
  let (exponent, rest) ← readExponent cut rest
  return (⟨negative, whole, places, exponent⟩, rest)

/-- Reads a number. -/
def readNumber (cut : Fault) : List Char → Except Fault (NumberLiteral × List Char)
  | '-' :: rest => readUnsigned true cut rest
  | rest => readUnsigned false cut rest

theorem length_lt_of_readDigits {cut : Fault} {cs ds r : List Char}
    (h : readDigits cut cs = .ok (ds, r)) : r.length < cs.length := by
  cases cs with
  | nil => simp [readDigits] at h
  | cons c rest =>
    simp only [readDigits] at h
    split at h
    · simp only [Except.ok.injEq, Prod.mk.injEq] at h
      rw [← h.2]
      exact Nat.lt_succ_of_le (length_dropWhile_le _ rest)
    · simp at h

theorem length_lt_of_readWhole {cut : Fault} {cs ds r : List Char}
    (h : readWhole cut cs = .ok (ds, r)) : r.length < cs.length := by
  unfold readWhole at h
  split at h
  · simp at h
  · exact length_lt_of_readDigits h

theorem length_le_of_readPlaces {cut : Fault} {cs r : List Char} {ds : Option (List Char)}
    (h : readPlaces cut cs = .ok (ds, r)) : r.length ≤ cs.length := by
  unfold readPlaces at h
  split at h
  next rest =>
    cases hd : readDigits cut rest with
    | error e => simp [hd, Except.map] at h
    | ok q =>
      have hlt := length_lt_of_readDigits hd
      simp only [hd, Except.map, Except.ok.injEq, Prod.mk.injEq] at h
      rw [← h.2, List.length_cons]
      omega
  · simp only [Except.ok.injEq, Prod.mk.injEq] at h
    exact Nat.le_of_eq (congrArg List.length h.2.symm)

theorem length_exponentSign_le (cs : List Char) : (exponentSign cs).2.length ≤ cs.length := by
  unfold exponentSign
  split <;> simp

theorem length_le_of_readExponent {cut : Fault} {cs r : List Char} {e : Option (Bool × List Char)}
    (h : readExponent cut cs = .ok (e, r)) : r.length ≤ cs.length := by
  cases cs with
  | nil =>
    simp only [readExponent, Except.ok.injEq, Prod.mk.injEq] at h
    simp [← h.2]
  | cons c rest =>
    simp only [readExponent] at h
    split at h
    · cases hd : readDigits cut (exponentSign rest).2 with
      | error e => simp [hd, Except.map] at h
      | ok q =>
        have hlt := length_lt_of_readDigits hd
        have hle := length_exponentSign_le rest
        simp only [hd, Except.map, Except.ok.injEq, Prod.mk.injEq] at h
        rw [← h.2, List.length_cons]
        omega
    · simp only [Except.ok.injEq, Prod.mk.injEq] at h
      exact Nat.le_of_eq (congrArg List.length h.2.symm)

theorem length_lt_of_readUnsigned {negative : Bool} {cut : Fault} {cs r : List Char}
    {l : NumberLiteral} (h : readUnsigned negative cut cs = .ok (l, r)) :
    r.length < cs.length := by
  simp only [readUnsigned, bind, Except.bind] at h
  split at h
  · simp at h
  next a ha =>
    split at h
    · simp at h
    next b hb =>
      split at h
      · simp at h
      next c hc =>
        have hw := length_lt_of_readWhole ha
        have hp := length_le_of_readPlaces hb
        have he := length_le_of_readExponent hc
        simp only [pure, Except.pure, Except.ok.injEq, Prod.mk.injEq] at h
        rw [← h.2]
        omega

theorem length_lt_of_readNumber {cut : Fault} {cs r : List Char} {l : NumberLiteral}
    (h : readNumber cut cs = .ok (l, r)) : r.length < cs.length := by
  unfold readNumber at h
  split at h
  · exact Nat.lt_succ_of_lt (length_lt_of_readUnsigned h)
  · exact length_lt_of_readUnsigned h

end Stencil.Data
