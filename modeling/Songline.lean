import Songline.Files.Disk
import Songline.Main
import Songline.Notation.Form
import Songline.Notation.Position
import Songline.Notation.Reader
import Songline.Notation.Reading
import Songline.Notation.SyntaxError
import Songline.Notation.Token
import Songline.Notation.TokenLine
import Songline.Notation.Word
import Songline.Number.Binary
import Songline.Number.Count
import Songline.Number.Literal
import Songline.Number.Saturating
import Songline.Number.Shortest
import Songline.Output.Engine
import Songline.Output.Mixer
import Songline.Output.Studio
import Songline.Output.Takes
import Songline.Output.WaveFile
import Songline.Pitch
import Songline.Playback
import Songline.Proofs.AddedEvents
import Songline.Proofs.Additions
import Songline.Proofs.Attributes
import Songline.Proofs.Auditions
import Songline.Proofs.ChannelFrames
import Songline.Proofs.CheckedCursor
import Songline.Proofs.CheckedDraft
import Songline.Proofs.CheckedReader
import Songline.Proofs.CheckedScanner
import Songline.Proofs.CheckedSession
import Songline.Proofs.CheckedWords
import Songline.Proofs.DeckRuns
import Songline.Proofs.DraftGrowth
import Songline.Proofs.DraftOrder
import Songline.Proofs.DraftSteps
import Songline.Proofs.DraftTables
import Songline.Proofs.EntryChoice
import Songline.Proofs.EntryReadings
import Songline.Proofs.FileContents
import Songline.Proofs.Filing
import Songline.Proofs.FirstOffence
import Songline.Proofs.FormErrors
import Songline.Proofs.GlobalSettings
import Songline.Proofs.Grammar
import Songline.Proofs.GrammarComplete
import Songline.Proofs.GrammarLevels
import Songline.Proofs.GrammarSound
import Songline.Proofs.IdealMixer
import Songline.Proofs.JoinedLines
import Songline.Proofs.LeadingDeclaration
import Songline.Proofs.Lexemes
import Songline.Proofs.LineKinds
import Songline.Proofs.LiveAsTake
import Songline.Proofs.LoadedLines
import Songline.Proofs.MixdownPlaces
import Songline.Proofs.NameMeaning
import Songline.Proofs.PartActions
import Songline.Proofs.PartIndependence
import Songline.Proofs.PartOrder
import Songline.Proofs.Passages
import Songline.Proofs.PercentRange
import Songline.Proofs.PlayingFlag
import Songline.Proofs.RackLoads
import Songline.Proofs.Redeclaration
import Songline.Proofs.RepeatRounds
import Songline.Proofs.Replay
import Songline.Proofs.RoundedTimes
import Songline.Proofs.SessionRuns
import Songline.Proofs.SignedZero
import Songline.Proofs.SparedFiles
import Songline.Proofs.StopRequests
import Songline.Proofs.TakeNumbers
import Songline.Proofs.TakeRuns
import Songline.Proofs.TextLines
import Songline.Proofs.Timeline
import Songline.Proofs.TokenPlaces
import Songline.Proofs.Translation
import Songline.Proofs.TurnCourse
import Songline.Proofs.UnrolledLines
import Songline.Proofs.Unrolling
import Songline.Proofs.VoiceGroups
import Songline.Proofs.VoiceIndependence
import Songline.Proofs.WholeRenders
import Songline.Proofs.WordReadings
import Songline.Proofs.WrittenNotes
import Songline.Proofs.WrittenTokens
import Songline.Score.Catalogue
import Songline.Score.Cursor
import Songline.Score.Draft
import Songline.Score.Event
import Songline.Score.Part
import Songline.Score.Score
import Songline.Score.Style
import Songline.Session
import Songline.Session.Command
import Songline.Settings
import Songline.Settings.Flaw
import Songline.Settings.Word
import Songline.Shell
import Songline.Shell.Arguments
import Songline.Sound.Drum
import Songline.Sound.Noise
import Songline.Sound.Pluck
import Songline.Sound.Rack
import Songline.Sound.Samples
import Songline.Sound.Synth
import Songline.Sound.Tone
import Songline.Sound.Waveform
import Songline.Text.Lines
import Songline.Text.Unprintable
import Songline.Time.Beat
import Songline.Time.Offset
import Songline.Yaml.Cursor
import Songline.Yaml.Fault
import Songline.Yaml.Node
import Songline.Yaml.Scalar
import Songline.Yaml.Token
