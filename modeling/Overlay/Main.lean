import Overlay.Command.Tool

/-!
# Entry point

Reads the files that the arguments name and writes what the tool has to say.
-/

namespace Overlay

namespace Command

/-- The content of a file, or nothing if it cannot be read. -/
def readContent (path : Option String) : IO FileContent :=
  match path with
  | none => return none
  | some path => try some <$> IO.FS.readFile path catch _ => return none

/-- Writes an outcome and returns its exit code. -/
def write (o : Outcome) : IO UInt32 := do
  o.log.forM fun line => IO.eprintln line
  o.output.forM fun line => IO.println line
  o.errors.forM fun line => IO.eprintln line
  return o.code.toUInt32

/-- The reader of configurations that knows no format: it has the default configuration, and refuses every
file. -/
def defaultsOnly : ConfigReader
  | none => .ok {}
  | some _ => .error (.unreadable "no format of configuration files is known")

/-- Runs the tool on its arguments. -/
def runArguments (args : List String) : IO UInt32 := do
  match Options.ofArguments args with
  | .error arg => write (usage arg)
  | .ok o =>
    if o.script.isNone then write (usage "")
    else write (o.outcome defaultsOnly (← readContent o.config) (← readContent o.script))

end Command

end Overlay

/-- The command line tool. -/
def main (args : List String) : IO UInt32 := Overlay.Command.runArguments args
