import Overlay.Clock
import Overlay.Drawing
import Overlay.Script.Directive

/-!
# Pictures

A picture is pending until it appears, then visible until it times out.  Starting a pending picture
makes it appear at once, or starts its delay and tells the host that it waits.  Appearing starts the
clock of the animations and the visible time, and asks the host for the sound and the part that go
with it.  Stopping only pauses: every clock keeps the time it has counted.  A picture that timed out
stays as it is.

Operations return the picture after them and the requests they make to the host, in order.
-/

namespace Overlay

inductive Request
  | sound (index : Nat)
  | place (part : Appearance)
  | waiting (picture : Pointer)
  | doneWaiting (picture : Pointer)
  deriving DecidableEq, Repr

inductive Phase
  /-- Not visible yet. -/
  | pending
  | visible
  /-- No longer visible, for good. -/
  | timedOut
  deriving DecidableEq, Repr

def Phase.text : Phase → String
  | pending => "Pending"
  | visible => "Visible"
  | timedOut => "Timed out"

structure Picture (α : Type) where
  origin : Origin
  properties : Properties α
  tracks : Tracks α := {}
  phase : Phase := .pending
  /-- Whether time passes for the picture. -/
  running : Bool := false
  /-- Whether the host has been told that the picture waits. -/
  waiting : Bool := false
  /-- The delay before appearing, once it has been started. -/
  delay : Option Countdown := none
  duration : Option Countdown := none
  window : Window := {}
  deriving DecidableEq, Repr

namespace Picture

variable {α : Type} [Scalar α]

def initial (origin : Origin) (config : Config) : Picture α :=
  { origin, properties := .initial config }

/-! ### Lines -/

def install (p : Picture α) (m : Motion α) : Picture α := { p with tracks := p.tracks.install m }

/-- The picture with an acceleration given to the motions of its kind. -/
def accelerate (p : Picture α) (a : Acceleration α) : Picture α :=
  { p with tracks := p.tracks.accelerate a }

/-- The picture after a directive, or why its properties refuse it. -/
def obey (p : Picture α) : Directive α → Except Fault (Picture α)
  | .setting s => (p.properties.set s).map fun properties => { p with properties }
  | .motion m => .ok (p.install m)
  | .acceleration a => .ok (p.accelerate a)

/-- The picture after a line, or why the line is refused.  A refused line gives no picture, and whoever
reads one goes on with the picture there was: everything a line says is read and checked before the first
property is written. -/
def readLine (p : Picture α) (text : String) : Except Fault (Picture α) := do
  let d ← Directive.ofText p.origin text
  p.obey d

/-- The picture after some lines, or why the first refused one is refused. -/
def readLines (p : Picture α) : List String → Except Fault (Picture α)
  | [] => .ok p
  | text :: rest =>
    match p.readLine text with
    | .ok p => p.readLines rest
    | .error fault => .error fault

def ofScript (origin : Origin) (config : Config) (lines : List String) : Except Fault (Picture α) :=
  (initial origin config : Picture α).readLines lines

/-- What is worth a warning after a script has been read: accelerations without a motion. -/
def warnings (p : Picture α) : List String :=
  p.tracks.orphans.map fun kind =>
    s!"Picture {p.origin.pointer.text}: accel_{kind.suffix} has no animation"

/-! ### Lifecycle -/

def appear (p : Picture α) : Picture α × List Request :=
  let sound := if p.origin.sound = 0 then [] else [.sound p.origin.sound]
  let doneWaiting := if p.waiting then [.doneWaiting p.origin.pointer] else []
  let place := ((p.properties.wait.bind Wait.spawn?).map Request.place).toList
  ({ p with
      phase := .visible
      waiting := false
      duration := p.properties.time.map fun time => (Countdown.ofDuration time).start
      window := p.properties.window.resume },
    sound ++ doneWaiting ++ place)

/-- The picture waits for its delay, which is fixed when it is first started. -/
def await (p : Picture α) (delay : Millis) : Picture α × List Request :=
  ({ p with
      running := true
      waiting := true
      delay := some (p.delay.getD (.ofDuration delay)).start },
    if p.waiting then [] else [.waiting p.origin.pointer])

/-- Starts the picture, or resumes it after a pause. -/
def start (p : Picture α) : Picture α × List Request :=
  if p.running then (p, [])
  else
    match p.phase with
    | .pending =>
      match p.properties.wait with
      | some w => p.await w.delay
      | none => { p with running := true }.appear
    | .visible =>
      ({ p with
          running := true
          window := p.window.resume
          duration := p.duration.map Countdown.start }, [])
    | .timedOut => (p, [])

def stop (p : Picture α) : Picture α × List Request :=
  if p.running then
    ({ p with
        running := false
        waiting := false
        delay := p.delay.map Countdown.stop
        duration := p.duration.map Countdown.stop
        window := p.window.pause },
      if p.waiting then [.doneWaiting p.origin.pointer] else [])
  else (p, [])

/-- One step of all animations. -/
def animate (p : Picture α) : Picture α :=
  { p with properties := p.tracks.apply p.properties, tracks := p.tracks.advance }

def timeOut (p : Picture α) : Picture α :=
  { p with phase := .timedOut, running := false, window := p.window.pause }

/-- Time passes for a pending picture that runs. -/
def updatePending (p : Picture α) (e : Millis) : Picture α × List Request :=
  match p.delay with
  | none => (p, [])
  | some delay =>
    let (delay, fires) := delay.tick e
    let p := { p with delay := some delay }
    if fires then p.appear else (p, [])

/-- Time passes for a visible picture that runs; the result says whether it times out.  The
animations step first, also when the visible time ends with this very step. -/
def updateVisible (p : Picture α) (e : Millis) : Picture α × Bool :=
  let (window, isOpen) := p.window.tick e
  let p := { p with window }
  let p := if isOpen then p.animate else p
  match p.duration with
  | none => (p, false)
  | some duration =>
    let (duration, fires) := duration.tick e
    let p := { p with duration := some duration }
    if fires then (p.timeOut, true) else (p, false)

/-- Time passes; the result says whether the picture times out now. -/
def update (p : Picture α) (e : Millis) : Picture α × List Request × Bool :=
  if p.running then
    match p.phase with
    | .pending =>
      let (p, requests) := p.updatePending e
      (p, requests, false)
    | .visible =>
      let (p, timesOut) := p.updateVisible e
      (p, [], timesOut)
    | .timedOut => (p, [], false)
  else (p, [], false)

/-! ### Views -/

/-- The drawing of a visible picture, given whether the blink switch shows the primary image. -/
def draw? (p : Picture α) (primary : Bool) : Option (Drawing α) :=
  if p.phase = .visible then some (p.properties.draw (p.origin.shownCrop primary)) else none

end Picture

end Overlay
