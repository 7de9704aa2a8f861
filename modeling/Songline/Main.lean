import Songline.Shell

set_option autoImplicit false

/- The shell on the files of the system. Before each step the part of the disk that the step may
look at is fetched, and after it the files that have changed are written. -/
namespace Songline.Main

/-- What the system has at a path whose directory exists. -/
def look (path : String) : IO (Option FileTree) := do
  try return some (.file (← IO.FS.readBinFile path))
  catch
    | .noFileOrDirectory _ _ _ => return none
    | .inappropriateType _ _ _ => return some (.dir [])
    | e => throw e

def absolute (place : List String) : String := "/" ++ String.intercalate "/" place

/-- Puts what the system has at a place. The entries of a directory stay. -/
def fetchAt (d : Disk) (place : List String) : IO Disk := do
  match ← look (absolute place), d.root.at? place with
  | some (.dir _), some (.dir _) => return d
  | some n, _ => return { d with root := FileTree.putAt n place d.root }
  | none, _ => return d

/-- Fetches what lies on a way from a place. -/
def fetchWay (d : Disk) (place : List String) : List String → IO Disk
  | [] => return d
  | name :: rest =>
    if name = "" ∨ name = "." then fetchWay d place rest
    else if name = ".." then fetchWay d place.dropLast rest
    else do
      let place := place ++ [name]
      let d ← fetchAt d place
      match d.root.at? place with
      | some (.dir _) => fetchWay d place rest
      | _ => return d

def fetch (d : Disk) (path : String) : IO Disk := fetchWay d (d.origin path) (Path.segments path)

/-- Fetches the takes of a directory from a number on, up to the first that does not exist. -/
partial def fetchTakes (d : Disk) (dir : String) (n : Nat) : IO Disk := do
  let d ← fetch d (Takes.path dir n)
  if d.contains (Takes.path dir n) then fetchTakes d dir (n + 1) else return d

/-- Fetches what the answer to a line may look at. -/
def fetchFor (s : Shell) (line : String) : IO Disk := do
  let d := s.studio.disk
  match Command.parse? line, s.options.target with
  | some (.ok (.load path)), _ | some (.ok (.save path)), _ => fetch d path
  | some (.ok .play), .wav dir | none, .wav dir => fetchTakes d dir 1
  | _, _ => return d

/-- Writes a file, unless it is as it was before. -/
def storeFile (before : Disk) (file : Disk.File) : IO Unit := do
  let path := "/" ++ file.path
  match before.read path with
  | .ok old => if old.data != file.bytes.data then IO.FS.writeBinFile path file.bytes
  | .error _ => IO.FS.writeBinFile path file.bytes

/-- Creates a directory, unless it was there before. -/
def storeDir (before : Disk) (dir : String) : IO Unit := do
  let path := "/" ++ dir
  if !before.isDir path then IO.FS.createDir path

/-- Creates the directories that are new, and writes the files that are not as they were before. -/
def store (before after : Disk) : IO Unit := do
  (Disk.dirsUnder "" after.root).forM (storeDir before)
  (Disk.filesUnder "" after.root).forM (storeFile before)

def print (p : Printed) : IO Unit := do
  let out ← IO.getStdout
  out.putStr p.out
  out.flush
  (← IO.getStderr).putStr p.err

def fail (f : Failure) : IO UInt32 := do
  print (.errorLine f.text)
  return 1

partial def readLine (input : IO.FS.Stream) (line : ByteArray) : IO ByteArray := do
  let bytes ← input.read 1
  let line := line ++ bytes
  if bytes.isEmpty || bytes.toList = [10] then return line else readLine input line

partial def converse (input : IO.FS.Stream) (s : Shell) : IO UInt32 := do
  print ⟨s.prompt, ""⟩
  let bytes ← readLine input .empty
  if bytes.isEmpty then
    print (.line "")
    return 0
  match String.fromUTF8? bytes with
  | none => fail ⟨FileError.notText.message, []⟩
  | some line =>
    let disk ← fetchFor s line
    let (printed, next, s) := { s with studio := { s.studio with disk := disk } }.answer line
    store disk s.studio.disk
    print printed
    match next with
    | .goOn => converse input s
    | .leave => return 0

/-- The surroundings that the system gives: there is no output device. -/
def surroundings (a : Arguments) : IO Shell.Surroundings := do
  let home := (← IO.getEnv "HOME").getD "."
  let cwd := (Path.segments (← IO.currentDir).toString).filter (· ≠ "")
  let paths := [a.config.getD (Settings.standardPath home)] ++ a.score.toList
  let disk ← paths.foldlM fetch (Disk.emptyAt cwd)
  return ⟨home, none, disk⟩

def run (a : Arguments) : IO UInt32 := do
  match Shell.start (← surroundings a) a with
  | .error f => fail f
  | .ok (printed, s) =>
    print printed
    converse (← IO.getStdin) s

def start (arguments : List String) : IO UInt32 := do
  match Arguments.parse arguments with
  | .error e =>
    print (.errorLine ("error: " ++ e.message))
    return 2
  | .ok .help =>
    print ⟨Arguments.helpText, ""⟩
    return 0
  | .ok .version =>
    print ⟨Arguments.versionText, ""⟩
    return 0
  | .ok (.run a) => run a

end Songline.Main

def main (arguments : List String) : IO UInt32 := Songline.Main.start arguments
