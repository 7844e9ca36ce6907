import Stencil.Files
namespace Stencil

/-! # Scripts

What a program does to files and to its output, said step by step. Every step asks for one thing,
and the script goes on with the answer. A script can be run on a tree of files that is a value, or
be carried out on real ones.
-/

/-- A script with a result. -/
inductive Script (α : Type)
  | done (a : α)
  /-- Asks for the text of a file; none if there is no such file or no text in it. -/
  | read (path : String) (next : Option String → Script α)
  /-- Makes a folder and those around it; the answer is whether it is there. -/
  | makeFolder (path : String) (next : Bool → Script α)
  /-- Puts a text into a file; the answer is whether that was possible. -/
  | write (path text : String) (next : Bool → Script α)
  /-- Prints a text. -/
  | print (text : String) (next : Script α)

/-- Files, and what was printed. -/
structure Disk where
  files : Files
  printed : String

namespace Script

/-- One script after the other. -/
def bind {α β : Type} : Script α → (α → Script β) → Script β
  | .done a, f => f a
  | .read path next, f => .read path fun t => bind (next t) f
  | .makeFolder path next, f => .makeFolder path fun b => bind (next b) f
  | .write path text next, f => .write path text fun b => bind (next b) f
  | .print text next, f => .print text (bind next f)

instance : Monad Script where
  pure := .done
  bind := bind

/-- The disk with a file written, if that is possible. -/
def put (d : Disk) (path text : String) : Disk × Bool :=
  match d.files.write? path text.toUTF8 with
  | some files => ({ d with files := files }, true)
  | none => (d, false)

/-- The disk with a folder made, if that is possible. -/
def putFolder (d : Disk) (path : String) : Disk × Bool :=
  match d.files.makeFolder? path with
  | some files => ({ d with files := files }, true)
  | none => (d, false)

/-- The result of a script on a disk, and the disk after it. -/
def run {α : Type} : Script α → Disk → α × Disk
  | .done a, d => (a, d)
  | .read path next, d => run (next (d.files.text? path)) d
  | .makeFolder path next, d => let (d, b) := putFolder d path; run (next b) d
  | .write path text next, d => let (d, b) := put d path text; run (next b) d
  | .print text next, d => run next { d with printed := d.printed ++ text }

@[simp] theorem run_pure {α : Type} (a : α) (d : Disk) : (pure a : Script α).run d = (a, d) := rfl

theorem run_bind {α β : Type} (s : Script α) (f : α → Script β) (d : Disk) :
    (s >>= f).run d = (f (s.run d).1).run (s.run d).2 := by
  show (bind s f).run d = _
  induction s generalizing d with
  | done a => rfl
  | read path next ih => exact ih _ _
  | makeFolder path next ih => exact ih _ _
  | write path text next ih => exact ih _ _
  | print text next ih => exact ih _

end Script

end Stencil
