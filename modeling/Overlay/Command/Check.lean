import Overlay.Command.Report
import Overlay.Script.Line

/-!
# Checking a script

The command `check` applies the lines of a script one after the other.  It fails at the first line
that is refused, and otherwise sums up the picture the script describes.
-/

namespace Overlay

namespace Command

variable {α : Type} [Scalar α]

/-- The picture after the lines, or the first refused line with its number, counting from
`number`. -/
def readNumbered (path : String) (p : Picture α) (number : Nat) :
    List String → Except Failure (Picture α)
  | [] => .ok p
  | line :: rest =>
    match p.readLine line with
    | .ok p => readNumbered path p (number + 1) rest
    | .error fault => .error (.badLine path number line fault)

/-- What there is to say about a picture, one line each. -/
def summary (lineCount : Nat) (p : Picture α) : List String :=
  let fill := if p.properties.repetition.fill then " (fill)" else ""
  [s!"✓ {lineCount} line(s) OK",
    s!"  Position:   {p.properties.pos.current.text Scalar.text}",
    s!"  Size:       {p.properties.size.text Scalar.text}",
    s!"  Repeat:     {p.properties.cellCount.text toString}{fill}"]
    ++ (p.properties.time.map fun time => s!"  Time:       {time.toNat} ms").toList
    ++ (p.properties.wait.map fun w =>
      s!"  Wait:       {w.delay.toNat} ms, target part {w.appearance.part}").toList
    ++ p.tracks.motions.map (fun m => s!"  Animation:  {m.kind.text} -> {m.kind.target.name}")
    ++ p.properties.followers.map fun next => s!"  Next:       {next.text}"

/-- Checks a script, `none` where there is no file at the path. -/
def check (config : Config) (origin : Origin) (path : String) (script : Option String) :
    Except Failure (Picture α × List String) :=
  match script with
  | none => .error (.noScript path)
  | some text =>
    let lines := Script.documentLines text
    (readNumbered path (.initial origin config) 1 lines).map fun p => (p, summary lines.length p)

end Command

end Overlay
