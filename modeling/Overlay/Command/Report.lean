import Overlay.Picture

/-!
# Reports

What the command line tool tells its user: log lines while it works, and the failure that ended it.
-/

namespace Overlay

namespace Command

/-! ### Log -/

/-- The weight of a log line. -/
inductive Level
  | info
  | warn
  deriving DecidableEq, Repr

/-- The name of a level. -/
def Level.text : Level → String
  | info => "INFO"
  | warn => "WARN"

/-- A line of the log. -/
structure LogLine where
  level : Level
  text : String
  deriving DecidableEq, Repr

/-- A log line as it is written. -/
def LogLine.line (l : LogLine) : String := s!"{l.level.text} {l.text}"

/-- What the log says about a request to the host. -/
def describe : Request → String
  | .sound index => s!"Play sound {index}"
  | .place a =>
    s!"Appear {a.layer.text} part {a.part} at ({a.x}, {a.y}), triggered at {a.trigger.text toString}"
  | .waiting p => s!"Picture {p.text} is waiting"
  | .doneWaiting p => s!"Picture {p.text} stopped waiting"

/-! ### Failures -/

/-- Why a reader of configurations gives none. -/
inductive ConfigFault
  /-- What is to be read cannot be. -/
  | unreadable (reason : String)
  /-- What has been read is no configuration. -/
  | invalid (reason : String)
  deriving DecidableEq, Repr

/-- Why a command gave up. -/
inductive Failure
  /-- The step between printed frames is zero. -/
  | zeroStep
  /-- There is no configuration file at the path. -/
  | noConfig (path : String)
  | badConfig (fault : ConfigFault)
  /-- There is no script at the path. -/
  | noScript (path : String)
  /-- A line of a script is refused; `number` counts the lines that are not blank. -/
  | badLine (path : String) (number : Nat) (line : String) (fault : Fault)
  /-- A script is refused as a whole. -/
  | badScript (path : String) (fault : Fault)
  deriving DecidableEq, Repr

/-- What failed, and why if that is known apart. -/
def Failure.parts : Failure → String × Option String
  | zeroStep => ("--every must be at least 1", none)
  | noConfig path => (s!"Configuration file not found: {path}", none)
  | badConfig (.unreadable reason) => ("Failed to load engine configuration", some reason)
  | badConfig (.invalid reason) => ("Invalid engine configuration", some reason)
  | noScript path => (s!"Failed to read script: {path}", some "No such file or directory (os error 2)")
  | badLine path number line fault => (s!"{path}:{number}: `{line}`", some fault.message)
  | badScript path fault => (s!"Invalid script: {path}", some fault.message)

/-- The lines of the report about a failure. -/
def Failure.report (f : Failure) : List String :=
  let (what, why) := f.parts
  match why with
  | none => [s!"Error: {what}"]
  | some why => [s!"Error: {what}", "", "Caused by:", s!"    {why}"]

end Command

end Overlay
