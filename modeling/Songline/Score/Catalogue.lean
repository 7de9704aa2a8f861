import Songline.Sound.Waveform

set_option autoImplicit false

namespace Songline

/-- A family of sounds. -/
inductive Patch
  | keys
  | organ
  /-- Bowed strings and choirs. -/
  | pad
  | bass
  | lead (waveform : Waveform)
  | pluck
  | percussion
deriving DecidableEq, Repr

/-- A stock instrument. -/
structure Instrument where
  name : String
  patch : Patch
deriving DecidableEq, Repr

namespace Catalogue

def all : List Instrument :=
  [ -- keyboards
    ⟨"piano", .keys⟩, ⟨"acoustic-grand-piano", .keys⟩, ⟨"bright-acoustic-piano", .keys⟩,
    ⟨"electric-piano", .keys⟩, ⟨"celesta", .keys⟩, ⟨"glockenspiel", .keys⟩, ⟨"vibraphone", .keys⟩,
    ⟨"harpsichord", .pluck⟩, ⟨"marimba", .pluck⟩, ⟨"organ", .organ⟩, ⟨"church-organ", .organ⟩,
    ⟨"accordion", .organ⟩,
    -- strings
    ⟨"violin", .pad⟩, ⟨"viola", .pad⟩, ⟨"cello", .pad⟩, ⟨"contrabass", .pad⟩,
    ⟨"string-ensemble", .pad⟩, ⟨"choir", .pad⟩, ⟨"harp", .pluck⟩, ⟨"guitar", .pluck⟩,
    ⟨"acoustic-guitar", .pluck⟩, ⟨"electric-guitar", .pluck⟩, ⟨"banjo", .pluck⟩,
    -- basses
    ⟨"bass", .bass⟩, ⟨"acoustic-bass", .bass⟩, ⟨"electric-bass", .bass⟩, ⟨"synth-bass", .bass⟩,
    -- winds and brass
    ⟨"flute", .lead .sine⟩, ⟨"piccolo", .lead .sine⟩, ⟨"recorder", .lead .sine⟩,
    ⟨"clarinet", .lead .square⟩, ⟨"oboe", .lead .triangle⟩, ⟨"bassoon", .lead .triangle⟩,
    ⟨"saxophone", .lead .saw⟩, ⟨"trumpet", .lead .saw⟩, ⟨"trombone", .lead .saw⟩,
    ⟨"french-horn", .lead .triangle⟩, ⟨"tuba", .lead .triangle⟩,
    -- bare waveforms
    ⟨"sine-wave", .lead .sine⟩, ⟨"square-wave", .lead .square⟩, ⟨"sawtooth-wave", .lead .saw⟩,
    ⟨"triangle-wave", .lead .triangle⟩,
    -- drums
    ⟨"percussion", .percussion⟩, ⟨"drums", .percussion⟩]

/-- The name without the `midi-` that may stand before it. -/
def bareName (name : String) : String :=
  match name.toList with
  | 'm' :: 'i' :: 'd' :: 'i' :: '-' :: rest => String.ofList rest
  | _ => name

def find? (name : String) : Option Instrument := all.find? (·.name = bareName name)

end Catalogue

end Songline
