namespace Stencil.CommandLine

/-! # Arguments

What the words of a command line ask for. Options may stand before, between and behind the
templates, each at most once; behind the word `--` everything is a template.
-/

/-- The options that take a value. -/
inductive Setting
  | data | config | beginning | hiddenClass | outDir
deriving DecidableEq, Repr

/-- Whether the value of an option is the path of something, which is never empty. -/
def Setting.isPath : Setting → Bool
  | .data | .config | .outDir => true
  | .beginning | .hiddenClass => false

/-- What the name of an option stands for. -/
inductive Switch
  | setting (s : Setting)
  | removeAttributes
  | help
  | version
deriving DecidableEq, Repr

/-- The meaning of a long name. -/
def Switch.ofName? : String → Option Switch
  | "data" => some (.setting .data)
  | "config" => some (.setting .config)
  | "remove-attributes" => some .removeAttributes
  | "prefix" => some (.setting .beginning)
  | "hidden-class" => some (.setting .hiddenClass)
  | "out-dir" => some (.setting .outDir)
  | "help" => some .help
  | "version" => some .version
  | _ => none

/-- The meaning of a letter. -/
def Switch.ofLetter? : Char → Option Switch
  | 'd' => some (.setting .data)
  | 'c' => some (.setting .config)
  | 'r' => some .removeAttributes
  | 'o' => some (.setting .outDir)
  | 'h' => some .help
  | 'V' => some .version
  | _ => none

/-- What is wrong with a command line. -/
inductive UsageError
  | unknownOption (word : String)
  | repeated
  | missingValue
  | unexpectedValue (word : String)
  | emptyPath
  | noTemplate
deriving DecidableEq, Repr

/-- The wording of an error. -/
def UsageError.message : UsageError → String
  | .unknownOption word => "unexpected argument '" ++ word ++ "' found"
  | .repeated => "an option cannot be used multiple times"
  | .missingValue => "an option is without its value"
  | .unexpectedValue word => "unexpected value in '" ++ word ++ "'"
  | .emptyPath => "a path is empty"
  | .noTemplate => "the required arguments were not provided: <TEMPLATE>..."

/-- What a command line says about a render. -/
structure Arguments where
  data : Option String
  config : Option String
  beginning : Option String
  hiddenClass : Option String
  outDir : Option String
  removeAttributes : Bool
  templates : List String
deriving DecidableEq, Repr

/-- What a command line asks for. -/
inductive Request
  | render (a : Arguments)
  | help
  | version
deriving DecidableEq, Repr

namespace Arguments

/-- The command line without words. -/
def none : Arguments :=
  ⟨.none, .none, .none, .none, .none, false, []⟩

/-- The value of an option. -/
def get? (a : Arguments) : Setting → Option String
  | .data => a.data
  | .config => a.config
  | .beginning => a.beginning
  | .hiddenClass => a.hiddenClass
  | .outDir => a.outDir

/-- Gives an option its value. -/
def put (a : Arguments) (value : String) : Setting → Arguments
  | .data => { a with data := some value }
  | .config => { a with config := some value }
  | .beginning => { a with beginning := some value }
  | .hiddenClass => { a with hiddenClass := some value }
  | .outDir => { a with outDir := some value }

/-- Gives an option its value, once. -/
def set (a : Arguments) (s : Setting) (value : String) : Except UsageError Arguments :=
  if (a.get? s).isSome then .error .repeated
  else if s.isPath && value = "" then .error .emptyPath
  else .ok (a.put value s)

/-- Turns the removal of directives on, once. -/
def setRemoval (a : Arguments) : Except UsageError Arguments :=
  if a.removeAttributes then .error .repeated else .ok { a with removeAttributes := true }

/-- Adds a template. -/
def addTemplate (a : Arguments) (path : String) : Except UsageError Arguments :=
  if path = "" then .error .emptyPath else .ok { a with templates := a.templates ++ [path] }

/-- What the command line asks for when it ends. -/
def finish (a : Arguments) : Except UsageError Request :=
  if a.templates.isEmpty then .error .noTemplate else .ok (.render a)

/-! ## Words -/

/-- Where the reading of a command line stands. -/
inductive Progress
  | next (a : Arguments)
  /-- The next word is the value of an option. -/
  | waiting (s : Setting) (a : Arguments)
  | stop (r : Request)

/-- Whether a word is an option. A single `-` is none. -/
def isOption (word : String) : Bool :=
  match word.toList with
  | '-' :: _ :: _ => true
  | _ => false

/-- Reads a long option from behind its two dashes on. -/
def readLong (a : Arguments) (word : List Char) : Except UsageError Progress :=
  let name := String.ofList (word.takeWhile (· ≠ '='))
  let value := match word.dropWhile (· ≠ '=') with
    | [] => Option.none
    | _ :: v => some (String.ofList v)
  match Switch.ofName? name, value with
  | .none, _ => .error (.unknownOption name)
  | some (.setting s), some v => (a.set s v).map .next
  | some (.setting s), .none => .ok (.waiting s a)
  | some _, some _ => .error (.unexpectedValue name)
  | some .removeAttributes, .none => a.setRemoval.map .next
  | some .help, .none => .ok (.stop .help)
  | some .version, .none => .ok (.stop .version)

/-- Reads letters from behind their dash on. The letter of an option with a value takes all that
follows it, without a first `=`, as that value. -/
def readLetters (a : Arguments) : List Char → Except UsageError Progress
  | [] => .ok (.next a)
  | c :: rest =>
    match Switch.ofLetter? c with
    | .none => .error (.unknownOption (String.ofList [c]))
    | some (.setting s) =>
      match rest with
      | [] => .ok (.waiting s a)
      | '=' :: v => (a.set s (String.ofList v)).map .next
      | v => (a.set s (String.ofList v)).map .next
    | some .removeAttributes => a.setRemoval.bind fun next => next.readLetters rest
    | some .help => .ok (.stop .help)
    | some .version => .ok (.stop .version)

/-- Reads an option. -/
def readOption (a : Arguments) (word : String) : Except UsageError Progress :=
  match word.toList with
  | '-' :: '-' :: long => a.readLong long
  | _ :: letters => a.readLetters letters
  | [] => .ok (.next a)

/-- Reads words; the first one may be the value of an option that waits for it. -/
def readWords (a : Arguments) : Option Setting → List String → Except UsageError Request
  | .none, [] => a.finish
  | some _, [] => .error .missingValue
  | waiting, word :: rest =>
    if isOption word then
      if waiting.isSome then .error .missingValue
      else if word = "--" then do
        let all ← rest.foldlM addTemplate a
        all.finish
      else do
        match ← a.readOption word with
        | .next b => b.readWords .none rest
        | .waiting s b => b.readWords (some s) rest
        | .stop r => return r
    else do
      let b ← match waiting with
        | some s => a.set s word
        | .none => a.addTemplate word
      b.readWords .none rest

end Arguments

/-- What a command line asks for. -/
def Request.read (words : List String) : Except UsageError Request :=
  Arguments.none.readWords none words

end Stencil.CommandLine
