import Overlay.Command.Report
import Overlay.Json
import Overlay.Scalar.Binary64
import Overlay.Store

/-!
# Simulating a script

The command `simulate` puts the picture of a script into a store with one slot, starts it, and lets
so many ticks pass.  It prints a frame every few ticks and logs what the picture asks of its host.
-/

namespace Overlay

/-! ### Drawings as JSON -/

/-- A vector, its components by name. -/
def Vec.json (v : Vec Float) : Json := .obj [("x", .num v.x), ("y", .num v.y)]

/-- A rectangle, its fields by name. -/
def Rect.json (r : Rect Float) : Json :=
  .obj [("height", .num r.height), ("width", .num r.width), ("x", .num r.x), ("y", .num r.y)]

/-- A drawing, its fields by name. -/
def Drawing.json (d : Drawing Float) : Json :=
  .obj
    [("chip_size", d.pitch.json),
      ("dest", d.dest.json),
      ("fill_style", .str d.fillStyle),
      ("font", .str d.font),
      ("opacity", .num d.opacity),
      ("pivot", d.pivot.json),
      ("repeat", .obj [("x", .int d.count.x), ("y", .int d.count.y)]),
      ("rotation", .num d.rotation),
      ("shift", d.shift.json),
      ("source", d.source.json),
      ("text", .str d.text),
      ("text_align", .str d.align.text),
      ("text_baseline", .str d.baseline.text),
      ("tiles", .arr (d.tiles.map Rect.json))]

namespace Command

/-! ### Sessions -/

variable {α : Type} [Scalar α]

/-- The state of a picture after a tick. -/
structure Frame (α : Type) where
  tick : Nat
  /-- Milliseconds since the start. -/
  elapsed : Nat
  phase : Phase
  drawing : Option (Drawing α)

/-- A simulation: the store, the blink switch, and what has been written so far. -/
structure Session (α : Type) where
  store : Store α
  blink : Blink
  log : Array LogLine
  frames : Array (Frame α)

namespace Session

/-- Notes the requests to the host. -/
def note (s : Session α) (requests : List Request) : Session α :=
  { s with log := s.log ++ requests.map fun r => LogLine.mk .info (describe r) }

/-- The simulation of a picture that has just been started. -/
def begin (store : Store α) (p : Picture α) : Session α :=
  let (store, requests) := store.start
  let log := p.warnings.map fun text => LogLine.mk .warn text
  note { store, blink := .initial, log := log.toArray, frames := #[] } requests

/-- The frame after tick number `n`. -/
def frame? (s : Session α) (n : Nat) : Option (Frame α) :=
  s.store.slots.head?.join.map fun p =>
    { tick := n
      elapsed := n * s.store.config.tick.toNat
      phase := p.phase
      drawing := p.draw? s.blink.primary }

/-- Tick number `n` passes; there is a frame if its number is a multiple of `every`. -/
def tick (every : Nat) (s : Session α) (n : Nat) : Session α :=
  let (store, requests, followers) := s.store.update
  let s := { s with store }.note requests
  let timedOut := followers.map fun next =>
    LogLine.mk .info s!"Tick {n}: timed out, next picture {next.text}"
  let s :=
    { s with log := s.log ++ timedOut, blink := (s.blink.advance s.store.config.blinkPeriod).1 }
  if n % every = 0 then { s with frames := s.frames ++ (s.frame? n).toList } else s

end Session

/-- Simulates a script, `none` where there is no file at the path. -/
def simulate (config : Config) (origin : Origin) (path : String) (ticks every : Nat)
    (script : Option String) : Except Failure (Session α) :=
  if every = 0 then .error .zeroStep
  else
    match script with
    | none => .error (.noScript path)
    | some text =>
      let store : Store α := .ofConfig { config with capacity := 1 }
      match store.build 0 origin (Script.documentLines text) with
      | .error fault => .error (.badScript path fault)
      | .ok (store, p) =>
        .ok ((List.range ticks).foldl (fun s n => s.tick every (n + 1)) (.begin store p))

/-! ### Printing frames -/

/-- The name of a phase in a printed frame. -/
def phaseName : Phase → String
  | .pending => "Pending"
  | .visible => "Visible"
  | .timedOut => "TimedOut"

/-- A frame as it is printed, its fields in alphabetical order. -/
def Frame.json (f : Frame Float) : Json :=
  .obj
    [("elapsed_ms", .int f.elapsed),
      ("render", (f.drawing.map Drawing.json).getD .null),
      ("state", .str (phaseName f.phase)),
      ("tick", .int f.tick)]

end Command

end Overlay
