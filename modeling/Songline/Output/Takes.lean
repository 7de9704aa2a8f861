import Songline.Files.Disk
import Songline.Output.WaveFile
import Songline.Playback

set_option autoImplicit false

namespace Songline

/-- Writes a wave file. One whose last frame is not whole is written, and refused after that. -/
def Disk.writeWave (d : Disk) (path : String) (format : SoundFormat) (samples : Samples) :
    Except AudioError Unit × Disk :=
  match d.write path (WaveFile.encode format samples) with
  | .error e => (.error (.wav e.message), d)
  | .ok d =>
    if WaveFile.isWhole format samples then (.ok (), d)
    else
      let cause := "The number of samples written is not a multiple of the number of channels."
      (.error (.wav cause), d)

/-- Numbered wave files in a directory, none of which is ever overwritten. -/
structure Takes where
  dir : String
  /-- The least number of the next take. -/
  next : Nat
  format : SoundFormat
deriving DecidableEq, Repr

namespace Takes

def ofDir (dir : String) (format : SoundFormat) : Takes := ⟨dir, 1, format⟩

/-- A number with four digits or more. -/
def numeral (n : Nat) : String :=
  let ds := Nat.toDigits 10 n
  String.ofList (List.replicate (4 - ds.length) '0' ++ ds)

def path (dir : String) (n : Nat) : String := Path.join dir ("turn-" ++ numeral n ++ ".wav")

def nameCount (d : Disk) (dir : String) : Nat :=
  match d.node? (if dir = "" then "." else dir) with
  | some (.dir entries) => entries.length
  | _ => 0

/-- The first of `steps` numbers that is free, or the one after them. -/
def firstFree (taken : Nat → Bool) : Nat → Nat → Nat
  | 0, n => n
  | steps + 1, n => if taken n then firstFree taken steps (n + 1) else n

/-- The number of the next take. As many numbers are tried as there are names in the directory, so
one of them or the one after them is free. -/
def nextNumber (t : Takes) (d : Disk) : Nat :=
  firstFree (fun n => d.contains (path t.dir n)) (nameCount d t.dir) t.next

/-- Writes a take, and gives its path. Its number is used up even if that fails. -/
def write (t : Takes) (samples : Samples) (d : Disk) : Except AudioError String × Takes × Disk :=
  match d.createDirAll t.dir with
  | (.error e, d) => (.error (.wav (t.dir ++ ": " ++ e.message)), t, d)
  | (.ok (), d) =>
    let n := t.nextNumber d
    let t := { t with next := n + 1 }
    match d.writeWave (path t.dir n) t.format samples with
    | (.ok (), d) => (.ok (path t.dir n), t, d)
    | (.error e, d) => (.error e, t, d)

end Takes

end Songline
