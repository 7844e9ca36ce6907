import Stencil.CommandLine.Run
namespace Stencil

/-! # The program

Carries the script of a command line out on the files of the machine.
-/

/-- Carries a script out. -/
def Script.perform {α : Type} : Script α → IO α
  | .done a => return a
  | .read path next => do
    let text ← try some <$> IO.FS.readFile path catch _ => pure none
    perform (next text)
  | .makeFolder path next => do
    let made ← try IO.FS.createDirAll path; pure true catch _ => pure false
    perform (next made)
  | .write path text next => do
    let written ← try IO.FS.writeFile path text; pure true catch _ => pure false
    perform (next written)
  | .print text next => do
    IO.print text
    perform next

end Stencil

open Stencil.CommandLine

/-- Runs the command line; what went wrong is told on the error stream. -/
def main (args : List String) : IO UInt32 := do
  let outcome ← (run args).perform
  match outcome with
  | .success => pure ()
  | .failure f => IO.eprintln ("Error: " ++ f.message)
  | .misuse e => IO.eprintln ("error: " ++ e.message)
  return UInt32.ofNat outcome.exitCode
