namespace Stencil

/-! # Files

A tree of folders and files, as a program sees it that names them by paths. A path leads from the
root or from the working folder. Every file and every folder lies in a folder that exists.
-/

/-- A place in the tree: the names on the way to it from the root. -/
abbrev Place := List String

namespace Place

/-- The name of the folder around a folder. -/
def outward : String := ".."

/-- The place that a name leads to from a folder. Around the root there is nothing else. -/
def step (p : Place) (name : String) : Place :=
  if name = "" || name = "." then p
  else if name = outward then p.dropLast
  else p ++ [name]

end Place

/-! ## Paths -/

namespace Files

/-- The texts between the slashes of a path, from the characters of its first name on. -/
def namesFrom (name : List Char) : List Char → List String
  | [] => [String.ofList name.reverse]
  | '/' :: rest => String.ofList name.reverse :: namesFrom [] rest
  | c :: rest => namesFrom (c :: name) rest

/-- The texts between the slashes of a path. -/
def names (path : String) : List String :=
  namesFrom [] path.toList

/-- The last name of a path, if that is the name of something in a folder. Slashes and single dots
at the end do not count. -/
def fileName? (path : String) : Option String :=
  (((names path).filter fun n => n ≠ "" && n ≠ ".").getLast?).filter (· ≠ Place.outward)

/-- The path of a name in a folder. The empty path is that of the folder where a path begins. -/
def join (folder name : String) : String :=
  if folder.toList.getLast?.all (· = '/') then folder ++ name else folder ++ "/" ++ name

/-- Whether a path begins at the root of all folders. -/
def isAbsolute (path : String) : Bool :=
  path.toList.head? == some '/'

/-- Whether the last name of a path is a single dot. -/
def endsInDot (path : String) : Bool :=
  ((names path).filter (· ≠ "")).getLast? == some "."

end Files

/-- The working folder, the other folders, and the files with their contents, each place at most
once. The folders around the working folder are there as well. -/
structure Files where
  working : Place
  folders : List Place
  contents : List (Place × ByteArray)

namespace Files

/-- An empty working folder somewhere below the root. -/
def empty : Files :=
  ⟨["home", "work"], [], []⟩

/-- Whether there is a folder at a place. -/
def isFolder (fs : Files) (p : Place) : Bool :=
  p.isPrefixOf fs.working || fs.folders.contains p

/-- The contents of the file at a place. -/
def file? (fs : Files) (p : Place) : Option ByteArray :=
  fs.contents.lookup p

/-- The place that names lead to. All of them but the last one lead to folders. -/
def walk? (fs : Files) (p : Place) : List String → Option Place
  | [] => some p
  | name :: rest => if fs.isFolder p then fs.walk? (p.step name) rest else none

/-- Where a path begins: at the root or in the working folder. -/
def start (fs : Files) (path : String) : Place :=
  if isAbsolute path then [] else fs.working

/-- The place that a path leads to. -/
def place? (fs : Files) (path : String) : Option Place :=
  fs.walk? (fs.start path) (names path)

/-- The contents of the file that a path leads to. -/
def bytes? (fs : Files) (path : String) : Option ByteArray :=
  (fs.place? path).bind fs.file?

/-- The text of the file that a path leads to, if its contents are text. -/
def text? (fs : Files) (path : String) : Option String :=
  (fs.bytes? path).bind String.fromUTF8?

/-- The contents with those of one place replaced. -/
def put (p : Place) (bytes : ByteArray) :
    List (Place × ByteArray) → List (Place × ByteArray)
  | [] => [(p, bytes)]
  | (q, b) :: rest => if q = p then (p, bytes) :: rest else (q, b) :: put p bytes rest

theorem lookup_put_self (p : Place) (bytes : ByteArray) (l : List (Place × ByteArray)) :
    (put p bytes l).lookup p = some bytes := by
  induction l with
  | nil => simp [put]
  | cons e rest ih =>
    obtain ⟨q, b⟩ := e
    by_cases h : q = p
    · simp [put, h]
    · simpa [put, h, List.lookup_cons, beq_false_of_ne (Ne.symm h)] using ih

theorem lookup_put_of_ne {p q : Place} (h : q ≠ p) (bytes : ByteArray)
    (l : List (Place × ByteArray)) : (put p bytes l).lookup q = l.lookup q := by
  induction l with
  | nil => simp [put, List.lookup_cons, beq_false_of_ne h]
  | cons e rest ih =>
    obtain ⟨r, b⟩ := e
    by_cases hr : r = p
    · subst hr
      simp [put, List.lookup_cons, beq_false_of_ne h]
    · simp [put, hr, List.lookup_cons, ih]

/-- Writes a file. The folder of its path has to exist, and no folder may stand at its place. -/
def write? (fs : Files) (path : String) (bytes : ByteArray) : Option Files :=
  (fs.place? path).bind fun p =>
    if fs.isFolder p then none else some { fs with contents := put p bytes fs.contents }

/-- Makes the folder at a place, unless it is there; a file may not be. -/
def addFolder? (fs : Files) (p : Place) : Option Files :=
  if fs.isFolder p then some fs
  else if (fs.file? p).isSome then none
  else some { fs with folders := p :: fs.folders }

/-- Makes every folder that names lead through. -/
def addFolders? (fs : Files) (p : Place) : List String → Option Files
  | [] => some fs
  | name :: rest =>
    (fs.addFolder? (p.step name)).bind fun next => next.addFolders? (p.step name) rest

/-- Makes the folder that a path leads to, with those on the way. A path with a single dot at its
end makes none: it names a folder that is there. -/
def makeFolder? (fs : Files) (path : String) : Option Files :=
  if endsInDot path then
    if (fs.place? path).any fs.isFolder then some fs else none
  else fs.addFolders? (fs.start path) (names path)

/-- Adds a file with the folders on its way. -/
def add? (fs : Files) (path : String) (bytes : ByteArray) : Option Files :=
  (fs.addFolders? (fs.start path) (names path).dropLast).bind fun next => next.write? path bytes

end Files

end Stencil
