import Stencil.Text.Rest
namespace Stencil.Data

/-! # Reading data text

Data text is read from left to right and refused at its first fault. A text that is a beginning of
data text is told from one that is not.
-/

/-- Why a data text is refused. -/
inductive Fault
  /-- The text ends too early. -/
  | cutShort
  /-- The text is no data text. -/
  | malformed
  /-- The text holds data of another shape than was asked for. -/
  | wrongShape
deriving DecidableEq, Repr

/-- The name of a fault in messages. -/
def Fault.category : Fault → String
  | .cutShort => "eof"
  | .malformed => "syntax"
  | .wrongShape => "data"

/-- The four characters that may stand between tokens. -/
def isGap (c : Char) : Bool :=
  c == ' ' || c == '\n' || c == '\t' || c == '\r'

/-- The text from its next token on. -/
def skipGap (cs : List Char) : List Char :=
  cs.dropWhile isGap

theorem length_lt_of_skipGap {cs r : List Char} {c : Char} (h : skipGap cs = c :: r) :
    r.length < cs.length := by
  have := length_dropWhile_le isGap cs
  rw [show cs.dropWhile isGap = c :: r from h] at this
  simp only [List.length_cons] at this
  omega

/-- Takes the given word off the front. -/
def readWord : List Char → List Char → Except Fault (List Char)
  | [], cs => .ok cs
  | _ :: _, [] => .error .cutShort
  | w :: ws, c :: cs => if w = c then readWord ws cs else .error .malformed

theorem length_le_of_readWord {ws cs r : List Char} (h : readWord ws cs = .ok r) :
    r.length ≤ cs.length := by
  induction ws generalizing cs with
  | nil => cases h; exact Nat.le_refl _
  | cons w ws ih =>
    cases cs with
    | nil => simp [readWord] at h
    | cons c cs =>
      simp only [readWord] at h
      split at h
      · exact Nat.le_trans (ih h) (Nat.le_succ _)
      · simp at h

end Stencil.Data
