import Songline.Sound.Synth

set_option autoImplicit false

namespace Songline.WaveFile

def bytes16 (n : UInt16) : List UInt8 := [n.toUInt8, (n >>> 8).toUInt8]

def bytes32 (n : UInt32) : List UInt8 :=
  [n.toUInt8, (n >>> 8).toUInt8, (n >>> 16).toUInt8, (n >>> 24).toUInt8]

theorem bytes32_inj {m n : UInt32} (same : bytes32 m = bytes32 n) : m = n := by
  simp only [bytes32, List.cons.injEq, and_true, ← UInt8.toNat_inj, UInt32.toNat_toUInt8,
    UInt32.toNat_shiftRight, Nat.shiftRight_eq_div_pow, UInt32.toNat_ofNat, Nat.reduceMod,
    Nat.reducePow] at same
  have left := m.toNat_lt
  have right := n.toNat_lt
  apply UInt32.toNat_inj.mp
  omega

def tag (name : String) : List UInt8 := name.toUTF8.toList

/-- The identifier of the format: samples in floating point. -/
def floatFormat : List UInt8 :=
  [0x03, 0x00, 0x00, 0x00, 0x00, 0x00, 0x10, 0x00, 0x80, 0x00, 0x00, 0xAA, 0x00, 0x38, 0x9B, 0x71]

def sampleBytes : Nat := 4

/-- The speakers of so many channels; only 18 have a place. -/
def speakers (channels : Nat) : Nat := Nat.pow 2 (min channels 18) - 1

/-- The bytes of a chunk: its name, its size and its content. -/
def chunk (name : String) (content : List UInt8) : List UInt8 :=
  tag name ++ bytes32 (UInt32.ofNat content.length) ++ content

def formatContent (format : SoundFormat) : List UInt8 :=
  let channels := format.channels.toNat
  let frameBytes := sampleBytes * channels
  bytes16 0xFFFE ++ bytes16 format.channels ++ bytes32 format.rate ++
    bytes32 (UInt32.ofNat (format.rate.toNat * frameBytes)) ++ bytes16 (UInt16.ofNat frameBytes) ++
    bytes16 32 ++ bytes16 22 ++ bytes16 32 ++ bytes32 (UInt32.ofNat (speakers channels)) ++
    floatFormat

/-- All bytes before the samples, for so many of them. -/
def header (format : SoundFormat) (samples : Nat) : List UInt8 :=
  let size := sampleBytes * samples
  tag "RIFF" ++ bytes32 (UInt32.ofNat (60 + size)) ++ tag "WAVE" ++
    chunk "fmt " (formatContent format) ++ tag "data" ++ bytes32 (UInt32.ofNat size)

theorem length_header (format : SoundFormat) (samples : Nat) :
    (header format samples).length = 68 := by
  have name : ∀ s ∈ ["RIFF", "WAVE", "fmt ", "data"], (tag s).length = 4 := by decide +kernel
  simp [header, chunk, formatContent, bytes16, bytes32, floatFormat, name]

def pushSample (out : ByteArray) (x : Float32) : ByteArray :=
  (bytes32 x.toBits).foldl ByteArray.push out

theorem toList_pushSample (out : ByteArray) (x : Float32) :
    (pushSample out x).data.toList = out.data.toList ++ bytes32 x.toBits := by
  simp [pushSample, bytes32]

def encode (format : SoundFormat) (samples : Samples) : ByteArray :=
  samples.foldl pushSample ⟨(header format samples.size).toArray⟩

theorem toList_encode (format : SoundFormat) (samples : Samples) :
    (encode format samples).data.toList =
      header format samples.size ++ samples.toList.flatMap fun x => bytes32 x.toBits := by
  have pushed : ∀ out : ByteArray, (samples.toList.foldl pushSample out).data.toList =
      out.data.toList ++ samples.toList.flatMap fun x => bytes32 x.toBits := by
    induction samples.toList with
    | nil => exact fun out => (List.append_nil _).symm
    | cons x xs ih =>
        intro out
        rw [List.foldl_cons, ih, toList_pushSample, List.flatMap_cons, List.append_assoc]
  rw [encode, ← Array.foldl_toList, pushed]

theorem toBits_inj {x y : Float32} (same : x.toBits = y.toBits) : x = y := by
  obtain ⟨⟨bits, valid⟩⟩ := x
  obtain ⟨⟨bits', valid'⟩⟩ := y
  change bits = bits' at same
  subst same
  rfl

theorem flatMap_bytes32_inj {xs ys : List Float32}
    (same : xs.flatMap (fun x => bytes32 x.toBits) = ys.flatMap fun x => bytes32 x.toBits) :
    xs = ys := by
  induction xs generalizing ys with
  | nil =>
      cases ys with
      | nil => rfl
      | cons y ys => cases same
  | cons x xs ih =>
      cases ys with
      | nil => cases same
      | cons y ys =>
          rw [List.flatMap_cons, List.flatMap_cons] at same
          obtain ⟨first, rest⟩ := List.append_inj same rfl
          rw [toBits_inj (bytes32_inj first), ih rest]

/-- In one format, different samples make different files. -/
theorem encode_inj {format : SoundFormat} {xs ys : Samples}
    (same : encode format xs = encode format ys) : xs = ys := by
  have bytes := congrArg (fun file => file.data.toList) same
  simp only [toList_encode] at bytes
  have headers : (header format xs.size).length = (header format ys.size).length := by
    rw [length_header, length_header]
  apply Array.toList_inj.mp
  apply flatMap_bytes32_inj
  exact (List.append_inj bytes headers).2

/-- Whether the last frame has a sample for every channel. -/
def isWhole (format : SoundFormat) (samples : Samples) : Bool :=
  samples.size % format.channels.toNat = 0

end Songline.WaveFile
