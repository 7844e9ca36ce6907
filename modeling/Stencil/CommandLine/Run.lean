import Stencil.CommandLine.Arguments
import Stencil.Render
import Stencil.Script
namespace Stencil.CommandLine

open Stencil.Data (Value Fault)

/-! # Running a command line

Loads the options and the data, renders the templates, and prints the results or writes them into
a folder. The first thing that fails ends the run.
-/

/-- Why a run failed. -/
inductive Failure
  | unreadableConfig (path : String)
  | badConfig (path : String) (fault : Fault)
  | unreadableData (path : String)
  | badData (path : String) (fault : Fault)
  | unreadableTemplate (path : String)
  | noFolder (path : String)
  | noFileName (path : String)
  | unwritable (path : String)
deriving DecidableEq, Repr

/-- The wording of a failure. -/
def Failure.message : Failure → String
  | .unreadableConfig path => "Failed to read config file " ++ path
  | .badConfig path fault => "Invalid config file " ++ path ++ ": " ++ fault.category
  | .unreadableData path => "Failed to read data file " ++ path
  | .badData path fault => "Invalid JSON in data file " ++ path ++ ": " ++ fault.category
  | .unreadableTemplate path => "Failed to read template " ++ path
  | .noFolder path => "Failed to create output directory " ++ path
  | .noFileName path => "Template path has no file name: " ++ path
  | .unwritable path => "Failed to write " ++ path

/-- A script that may fail. -/
abbrev Task (α : Type) := ExceptT Failure Script α

/-- A task that fails. -/
def failed {α : Type} (f : Failure) : Task α :=
  ExceptT.mk (.done (.error f))

/-- The text of a file. -/
def readFile (path : String) (otherwise : Failure) : Task String :=
  ExceptT.mk (.read path fun
    | some text => .done (.ok text)
    | none => .done (.error otherwise))

/-- Makes a folder. -/
def makeFolder (path : String) : Task Unit :=
  ExceptT.mk (.makeFolder path fun made => .done (if made then .ok () else .error (.noFolder path)))

/-- Writes a file. -/
def writeFile (path text : String) : Task Unit :=
  ExceptT.mk (.write path text fun written =>
    .done (if written then .ok () else .error (.unwritable path)))

/-- Prints a text. -/
def printText (text : String) : Task Unit :=
  ExceptT.mk (.print text (.done (.ok ())))

/-- The options of a file, or the defaults without one. -/
def loadOptions : Option String → Task Options
  | none => return .default
  | some path => do
    match Options.read (← readFile path (.unreadableConfig path)) with
    | .ok o => return o
    | .error e => failed (.badConfig path e)

/-- The data of a file, or an empty object without one. -/
def loadData : Option String → Task Value
  | none => return .object []
  | some path => do
    match Value.read (← readFile path (.unreadableData path)) with
    | .ok v => return v
    | .error e => failed (.badData path e)

/-- The options with those of the command line in their place. -/
def Arguments.override (a : Arguments) (o : Options) : Options :=
  ⟨a.removeAttributes || o.removeAttributes, a.beginning.getD o.attributePrefix,
    a.hiddenClass.getD o.hiddenClass⟩

/-- Renders the template of a file. -/
def renderFile (o : Options) (data : Value) (template : String) : Task String := do
  return render o (← readFile template (.unreadableTemplate template)) data

/-- Renders the template of a file into a folder, under the same file name, and tells the path of
the result. -/
def renderInto (o : Options) (data : Value) (folder template : String) : Task String :=
  match Files.fileName? template with
  | none => failed (.noFileName template)
  | some name => do
    let target := Files.join folder name
    writeFile target (← renderFile o data template)
    return target

/-- Renders templates into a folder that is made first, and tells the paths of the results. -/
def renderAllInto (o : Options) (data : Value) (folder : String) (templates : List String) :
    Task (List String) := do
  makeFolder folder
  templates.mapM (renderInto o data folder)

/-- Renders templates and prints the results one after the other. -/
def printAll (o : Options) (data : Value) (templates : List String) : Task Unit :=
  templates.forM fun template => do printText (← renderFile o data template)

/-- Renders what a command line says. -/
def runRender (a : Arguments) : Task Unit := do
  let o := a.override (← loadOptions a.config)
  let data ← loadData a.data
  match a.outDir with
  | some folder => discard (renderAllInto o data folder a.templates)
  | none => printAll o data a.templates

/-- The name of the program and its version. -/
def versionLine : String := "render-template 0.1.0\n"

/-- What the program says about itself. -/
def helpText : String :=
  "\n".intercalate
    ["Render HTML templates driven by if / if-not / value / each attributes",
      "",
      "Usage: render-template [OPTIONS] <TEMPLATE>...",
      "",
      "Arguments:",
      "  <TEMPLATE>...  Template files to render",
      "",
      "Options:",
      "  -d, --data <JSON>           JSON file with the data context (default: \x7b\x7d)",
      "  -c, --config <JSON>         JSON file with render options",
      "  -r, --remove-attributes     Strip directive attributes and delete hidden elements",
      "      --prefix <PREFIX>       Directive attribute prefix, e.g. js-",
      "      --hidden-class <CLASS>  Class used to mark hidden elements",
      "  -o, --out-dir <DIR>         Write rendered files here instead of stdout",
      "  -h, --help                  Print help",
      "  -V, --version               Print version",
      ""]

/-- How a run ended. -/
inductive Outcome
  | success
  | failure (f : Failure)
  | misuse (e : UsageError)
deriving DecidableEq, Repr

/-- The exit code of a run. -/
def Outcome.exitCode : Outcome → Nat
  | .success => 0
  | .failure _ => 1
  | .misuse _ => 2

/-- Runs a command line. -/
def run (words : List String) : Script Outcome :=
  match Request.read words with
  | .error e => .done (.misuse e)
  | .ok .help => .print helpText (.done .success)
  | .ok .version => .print versionLine (.done .success)
  | .ok (.render a) => do
    match ← (runRender a).run with
    | .ok () => return .success
    | .error f => return .failure f

end Stencil.CommandLine
