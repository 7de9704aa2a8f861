set_option autoImplicit false

namespace Songline

namespace Path

def splitSlashes : List Char → List (List Char)
  | [] => [[]]
  | c :: cs =>
    if c = '/' then [] :: splitSlashes cs
    else
      match splitSlashes cs with
      | [] => [[c]]
      | piece :: pieces => (c :: piece) :: pieces

def segments (path : String) : List String := (splitSlashes path.toList).map String.ofList

def isAbsolute (path : String) : Bool := path.toList.head? == some '/'

/-- The names of a path, after `/` if it is absolute. -/
def parts (path : String) : List String :=
  let named := fun s => s ≠ "" && s ≠ "."
  if isAbsolute path then "/" :: (segments path).filter named
  else
    match segments path with
    | "." :: rest => "." :: rest.filter named
    | all => all.filter named

def join (dir name : String) : String :=
  if dir = "" then name
  else if dir.toList.getLast? = some '/' then dir ++ name
  else dir ++ "/" ++ name

end Path

/-- Why the system refuses an operation on files. -/
inductive FileError
  | notFound
  | exists
  | notDirectory
  | isDirectory
  | nameTooLong
  | nulInName
  | notText
deriving DecidableEq, Repr

def FileError.message : FileError → String
  | notFound => "No such file or directory (os error 2)"
  | .exists => "File exists (os error 17)"
  | notDirectory => "Not a directory (os error 20)"
  | isDirectory => "Is a directory (os error 21)"
  | nameTooLong => "File name too long (os error 36)"
  | nulInName => "file name contained an unexpected NUL byte"
  | notText => "stream did not contain valid UTF-8"

inductive FileTree
  | file (bytes : ByteArray)
  | dir (entries : List (String × FileTree))

namespace FileTree

/-- The node at a place, given by the names that lead to it. -/
def at? : FileTree → List String → Option FileTree
  | n, [] => some n
  | .dir entries, name :: rest => (entries.lookup name).bind (·.at? rest)
  | .file _, _ :: _ => none

/-- Puts a node under a name, in the place of one that has it. -/
def putEntry (name : String) (n : FileTree) : List (String × FileTree) → List (String × FileTree)
  | [] => [(name, n)]
  | e :: entries =>
    if e.1 = name then (name, n) :: entries else e :: putEntry name n entries

/-- Puts a node at a place. Directories that would lead there must exist, or nothing changes. -/
def putAt (n : FileTree) : List String → FileTree → FileTree
  | [], _ => n
  | [name], .dir entries => .dir (putEntry name n entries)
  | name :: rest, .dir entries =>
    match entries.lookup name with
    | some child => .dir (putEntry name (putAt n rest child) entries)
    | none => .dir entries
  | _ :: _, .file bytes => .file bytes

def isDir : FileTree → Bool
  | .dir _ => true
  | .file _ => false

end FileTree

/-- A tree of directories and files, and the directory that relative paths start from. -/
structure Disk where
  root : FileTree
  /-- The names that lead to the working directory. -/
  cwd : List String

namespace Disk

def emptyAt (cwd : List String) : Disk :=
  ⟨cwd.foldr (fun name n => .dir [(name, n)]) (.dir []), cwd⟩

/-- Where a path starts. -/
def origin (d : Disk) (path : String) : List String := if Path.isAbsolute path then [] else d.cwd

/-- One step of a path from a place. -/
def enter (d : Disk) (place : List String) (name : String) : Except FileError (List String) :=
  match d.root.at? place with
  | some (.dir entries) =>
    if name = "" ∨ name = "." then .ok place
    else if name = ".." then .ok place.dropLast
    else if name.utf8ByteSize > 255 then .error .nameTooLong
    else if (entries.lookup name).isSome then .ok (place ++ [name])
    else .error .notFound
  | _ => .error .notDirectory

/-- Paths that no operation takes. -/
def check (path : String) : Except FileError Unit :=
  if path.toList.contains '\x00' then .error .nulInName
  else if path = "" then .error .notFound
  else if path.utf8ByteSize ≥ 4096 then .error .nameTooLong
  else .ok ()

def locate (d : Disk) (path : String) : Except FileError (List String) := do
  check path
  (Path.segments path).foldlM d.enter (d.origin path)

def node? (d : Disk) (path : String) : Option FileTree :=
  match d.locate path with
  | .ok place => d.root.at? place
  | .error _ => none

def contains (d : Disk) (path : String) : Bool := (d.node? path).isSome

def isDir (d : Disk) (path : String) : Bool := (d.node? path).any FileTree.isDir

def read (d : Disk) (path : String) : Except FileError ByteArray := do
  let place ← d.locate path
  match d.root.at? place with
  | some (.file bytes) => .ok bytes
  | some (.dir _) => .error .isDirectory
  | none => .error .notFound

def readText (d : Disk) (path : String) : Except FileError String := do
  match String.fromUTF8? (← d.read path) with
  | some text => .ok text
  | none => .error .notText

/-- The pieces of a path before its last name, that name, and whether slashes follow it. -/
def splitLast (path : String) : List String × String × Bool :=
  let segments := Path.segments path
  let trailing := segments.reverse.takeWhile (· = "")
  match segments.reverse.dropWhile (· = "") with
  | [] => ([], "", false)
  | name :: before => (before.reverse, name, !trailing.isEmpty)

/-- The directory in which a path would create something, and the name it would have. -/
def slot (d : Disk) (path : String) : Except FileError (List String × String × Bool) := do
  check path
  let (before, name, trailing) := splitLast path
  let place ← before.foldlM d.enter (d.origin path)
  if (d.root.at? place).any FileTree.isDir then .ok (place, name, trailing)
  else .error .notDirectory

/-- Names that lead somewhere but name nothing new. -/
def isDots (name : String) : Bool := name = "" || name = "." || name = ".."

/-- Writes a file, which need not exist before; its directory must. -/
def write (d : Disk) (path : String) (bytes : ByteArray) : Except FileError Disk := do
  let (place, name, trailing) ← d.slot path
  if trailing || isDots name then .error .isDirectory
  else if name.utf8ByteSize > 255 then .error .nameTooLong
  else
    match d.root.at? (place ++ [name]) with
    | some (.dir _) => .error .isDirectory
    | _ => .ok { d with root := FileTree.putAt (.file bytes) (place ++ [name]) d.root }

def createDir (d : Disk) (path : String) : Except FileError Disk := do
  let (place, name, _) ← d.slot path
  if isDots name then .error .exists
  else if name.utf8ByteSize > 255 then .error .nameTooLong
  else
    match d.root.at? (place ++ [name]) with
    | some _ => .error .exists
    | none => .ok { d with root := FileTree.putAt (.dir []) (place ++ [name]) d.root }

def ensureDir (d : Disk) (path : String) : Except FileError Unit × Disk :=
  match d.createDir path with
  | .ok d => (.ok (), d)
  | .error e => (if d.isDir path then .ok () else .error e, d)

/-- Creates a directory, after trying to create those that lead to it if one of them is missing.
What exists already is not created, and what was created before a failure stays. -/
def createDirWith (d : Disk) (path : String) (parents : Disk → Except FileError Unit × Disk) :
    Except FileError Unit × Disk :=
  match d.createDir path with
  | .error .notFound =>
    match parents d with
    | (.ok (), d) => d.ensureDir path
    | (.error e, d) => (.error e, d)
  | _ => d.ensureDir path

def pathOf (parts : List String) : String := parts.foldl Path.join ""

/-- Creates the directory of some parts, last part first, and those that lead to it. -/
def createParents : List String → Disk → Except FileError Unit × Disk
  | [], d => (.ok (), d)
  | last :: before, d => d.createDirWith (pathOf (last :: before).reverse) (createParents before)

/-- Creates a directory and those that lead to it. Nothing has to be created for an empty path. -/
def createDirAll (d : Disk) (path : String) : Except FileError Unit × Disk :=
  if path = "" then (.ok (), d)
  else d.createDirWith path (createParents (Path.parts path).dropLast.reverse)

/-- A file's path and content. -/
structure File where
  path : String
  bytes : ByteArray

mutual

def filesUnder (path : String) : FileTree → List File
  | .file bytes => [⟨path, bytes⟩]
  | .dir entries => filesIn path entries

def filesIn (path : String) : List (String × FileTree) → List File
  | [] => []
  | (name, n) :: entries => filesUnder (Path.join path name) n ++ filesIn path entries

end

mutual

/-- The directories of a node, under a path; each comes before those in it. -/
def dirsUnder (path : String) : FileTree → List String
  | .file _ => []
  | .dir entries => path :: dirsIn path entries

def dirsIn (path : String) : List (String × FileTree) → List String
  | [] => []
  | (name, n) :: entries => dirsUnder (Path.join path name) n ++ dirsIn path entries

end

/-- The files in the working directory and below, by their relative paths. -/
def files (d : Disk) : List File :=
  match d.root.at? d.cwd with
  | some n => filesUnder "" n
  | none => []

end Disk

end Songline
