import Overlay.Command.Check
import Overlay.Command.Options
import Overlay.Command.Simulate

/-!
# The command line tool

What the tool writes and with which exit code it ends, as a function of its options and of the files
they name.  How a configuration is read from its file is left to a `ConfigReader`.
-/

namespace Overlay

namespace Command

/-- What the tool writes, line by line, and its exit code. -/
structure Outcome where
  code : UInt8
  output : List String := []
  log : List String := []
  errors : List String := []
  deriving DecidableEq, Repr

/-- A file that was asked for: there is none, or it has a content. -/
abbrev FileContent := Option String

/-- A reader of configurations.  It is given the content of the configuration file, if one was asked for,
and may look at what else it knows; the format of the file is its own matter. -/
abbrev ConfigReader := FileContent → Except ConfigFault Config

namespace Options

variable (o : Options) (read : ConfigReader) (configFile scriptFile : FileContent)

/-- The configuration that the tool works with. -/
def configuration : Except Failure Config :=
  match o.config, configFile with
  | none, _ => (read none).mapError .badConfig
  | some path, none => .error (.noConfig path)
  | some _, some text => (read (some text)).mapError .badConfig

/-- What `check` writes. -/
def runCheck : Except Failure Outcome := do
  let config ← o.configuration read configFile
  let (_, output) ← check (α := Float) config o.origin (o.script.getD "") scriptFile
  return { code := 0, output }

/-- The lines of a frame. -/
def frameLines (f : Frame Float) : List String :=
  [if o.pretty then f.json.pretty else f.json.compact]

/-- What `simulate` writes.  A step of zero is reported before any file is looked at. -/
def runSimulate : Except Failure Outcome := do
  if o.every = 0 then throw .zeroStep
  let config ← o.configuration read configFile
  let s ← simulate (α := Float) config o.origin (o.script.getD "") o.ticks o.every scriptFile
  let output := s.frames.toList.flatMap o.frameLines
  return { code := 0, output, log := s.log.toList.map LogLine.line }

/-- Runs the tool on the contents of the configuration file and of the script. -/
def run : Except Failure Outcome :=
  match o.task with
  | .check => o.runCheck read configFile scriptFile
  | .simulate => o.runSimulate read configFile scriptFile

/-- What the tool writes, whether it succeeds or fails. -/
def outcome : Outcome :=
  match o.run read configFile scriptFile with
  | .ok outcome => outcome
  | .error failure => { code := 1, errors := failure.report }

end Options

/-- What the tool writes about an argument that it does not understand. -/
def usage (arg : String) : Outcome :=
  { code := 2
    errors :=
      [s!"error: unexpected argument '{arg}'", "",
        "Usage: overlay <check|simulate> <SCRIPT> [OPTIONS]"] }

end Command

end Overlay
