import Stencil.Data.Reader.Basic
import Stencil.Text.Digit
import Stencil.Text.Units
namespace Stencil.Data

/-! # Reading strings

A string goes up to its closing quote. A backslash escapes the character behind it, or names a
character by its code units.
-/

/-- Value of a run of hexadecimal digits. -/
def hexRun? (cs : List Char) : Option Nat :=
  cs.foldl (fun n c => n.bind fun n => (Text.digit? 16 c).map (16 * n + ·)) (some 0)

/-- The code unit of four hexadecimal digits. Fewer than four bytes are a text cut short, whatever
they hold. -/
def readUnit (cs : List Char) : Except Fault (Nat × List Char) :=
  if Text.byteLength (cs.take 4) < 4 then .error .cutShort
  else match cs.take 4, hexRun? (cs.take 4) with
    | [_, _, _, _], some n => .ok (n, cs.drop 4)
    | _, _ => .error .malformed

/-- The second half of a character beyond the basic plane, whose first half was just read. -/
def readLowUnit (cs : List Char) : Except Fault (Nat × List Char) := do
  let rest ← readWord ['\\', 'u'] cs
  let (n, rest) ← readUnit rest
  if 0xDC00 ≤ n && n ≤ 0xDFFF then return (n, rest) else .error .malformed

/-- The character of an escape by number. With `skim` set its value does not matter, and half a
character is as good as a whole one. -/
def readNumbered (skim : Bool) (cs : List Char) : Except Fault (Char × List Char) := do
  let (n, rest) ← readUnit cs
  if skim || n < 0xD800 || 0xDFFF < n then return (Char.ofNat n, rest)
  else if 0xDC00 ≤ n then .error .malformed
  else
    let (low, rest) ← readLowUnit rest
    return (Char.ofNat (0x10000 + (n - 0xD800) * 0x400 + (low - 0xDC00)), rest)

/-- The character that follows a backslash in an escape of one letter. -/
def escapeLetter? : Char → Option Char
  | '"' => some '"'
  | '\\' => some '\\'
  | '/' => some '/'
  | 'b' => some '\x08'
  | 'f' => some '\x0c'
  | 'n' => some '\n'
  | 'r' => some '\r'
  | 't' => some '\t'
  | _ => none

/-- The character of an escape, from behind its backslash on. -/
def readEscape (skim : Bool) : List Char → Except Fault (Char × List Char)
  | [] => .error .cutShort
  | c :: rest =>
    if c = 'u' then readNumbered skim rest
    else match escapeLetter? c with
      | some e => .ok (e, rest)
      | none => .error .malformed

theorem length_le_of_readUnit {cs r : List Char} {n : Nat} (h : readUnit cs = .ok (n, r)) :
    r.length ≤ cs.length := by
  unfold readUnit at h
  split at h
  · simp at h
  · split at h
    · simp only [Except.ok.injEq, Prod.mk.injEq] at h
      simp [← h.2]
    · simp at h

theorem length_le_of_readLowUnit {cs r : List Char} {n : Nat} (h : readLowUnit cs = .ok (n, r)) :
    r.length ≤ cs.length := by
  simp only [readLowUnit, bind, Except.bind] at h
  split at h
  · simp at h
  next a ha =>
    split at h
    · simp at h
    next b hb =>
      obtain ⟨m, q⟩ := b
      have hw := length_le_of_readWord ha
      have hu := length_le_of_readUnit hb
      simp only [] at h
      split at h
      · simp only [pure, Except.pure, Except.ok.injEq, Prod.mk.injEq] at h
        rw [← h.2]
        omega
      · simp at h

theorem length_le_of_readNumbered {skim : Bool} {cs r : List Char} {c : Char}
    (h : readNumbered skim cs = .ok (c, r)) : r.length ≤ cs.length := by
  simp only [readNumbered, bind, Except.bind] at h
  split at h
  · simp at h
  next a ha =>
    obtain ⟨n, q⟩ := a
    have hu := length_le_of_readUnit ha
    simp only [] at h
    split at h
    · simp only [pure, Except.pure, Except.ok.injEq, Prod.mk.injEq] at h
      rw [← h.2]
      exact hu
    · split at h
      · simp at h
      · split at h
        · simp at h
        next b hb =>
          obtain ⟨m, q'⟩ := b
          have hl := length_le_of_readLowUnit hb
          simp only [pure, Except.pure, Except.ok.injEq, Prod.mk.injEq] at h
          rw [← h.2]
          omega

theorem length_lt_of_readEscape {skim : Bool} {cs r : List Char} {c : Char}
    (h : readEscape skim cs = .ok (c, r)) : r.length < cs.length := by
  cases cs with
  | nil => simp [readEscape] at h
  | cons d cs =>
    simp only [readEscape] at h
    split at h
    · exact Nat.lt_succ_of_le (length_le_of_readNumbered h)
    · split at h
      · simp only [Except.ok.injEq, Prod.mk.injEq] at h
        simp [← h.2]
      · simp at h

/-- The rest of a string, from behind its opening quote on; `before` holds the characters so far,
the last one first. -/
def readString (skim : Bool) (before : List Char) (cs : List Char) :
    Except Fault (String × List Char) :=
  match cs with
  | [] => .error .cutShort
  | c :: rest =>
    if c = '"' then .ok (String.ofList before.reverse, rest)
    else if c = '\\' then
      match h : readEscape skim rest with
      | .error e => .error e
      | .ok (e, after) =>
        have := length_lt_of_readEscape h
        readString skim (e :: before) after
    else if c.toNat < 0x20 then .error .malformed
    else readString skim (c :: before) rest
termination_by cs.length
decreasing_by all_goals simp_all <;> omega

theorem length_lt_of_readString {skim : Bool} {before cs r : List Char} {s : String}
    (h : readString skim before cs = .ok (s, r)) : r.length < cs.length := by
  fun_induction readString skim before cs with
  | case1 => simp at h
  | case2 before rest =>
    simp only [Except.ok.injEq, Prod.mk.injEq] at h
    simp [← h.2]
  | case3 => simp at h
  | case4 before rest _ e after _ hlt ih =>
    have := ih h
    simp only [List.length_cons]
    omega
  | case5 => simp at h
  | case6 before c rest _ _ _ ih => exact Nat.lt_succ_of_lt (ih h)

end Stencil.Data
