import Overlay.Picture

/-!
# Runs of a picture

Everything that can happen to a picture once it exists, as a type of operations, and what a list of
them makes of it: the picture at the end and the replies on the way.
-/

namespace Overlay

namespace Picture

inductive Op (α : Type)
  | start
  | stop
  | update (e : Millis)
  | line (text : String)
  | install (m : Motion α)
  | accelerate (a : Acceleration α)
  | move (d : Vec α)
  | jump (v : Vec α)
  | resize (d : Vec α)
  | rotate (d : α)
  | fade (d : α)

/-- What an operation answers: requests to the host, whether the picture timed out, and why a line
was refused. -/
structure Reply where
  requests : List Request := []
  timesOut : Bool := false
  fault : Option Fault := none
  deriving DecidableEq, Repr

variable {α : Type} [Scalar α]

/-- The picture with its properties changed. -/
def mapProperties (p : Picture α) (f : Properties α → Properties α) : Picture α :=
  { p with properties := f p.properties }

/-- The picture after an operation, and the reply.  A line that is refused leaves the picture as it was
(see `Picture.readLine`). -/
def perform (p : Picture α) : Op α → Picture α × Reply
  | .start =>
    let (p, requests) := p.start
    (p, { requests })
  | .stop =>
    let (p, requests) := p.stop
    (p, { requests })
  | .update e =>
    let (p, requests, timesOut) := p.update e
    (p, { requests, timesOut })
  | .line text =>
    match p.readLine text with
    | .ok p => (p, {})
    | .error fault => (p, { fault := some fault })
  | .install m => (p.install m, {})
  | .accelerate a => (p.accelerate a, {})
  | .move d => (p.mapProperties (·.move d), {})
  | .jump v => (p.mapProperties (·.jump v), {})
  | .resize d => (p.mapProperties (·.resize d), {})
  | .rotate d => (p.mapProperties (·.rotate d), {})
  | .fade d => (p.mapProperties (·.fade d), {})

/-- The picture after a list of operations, and a reply for each. -/
def run (p : Picture α) : List (Op α) → Picture α × List Reply
  | [] => (p, [])
  | op :: rest =>
    let (p, reply) := p.perform op
    let (p, replies) := p.run rest
    (p, reply :: replies)

end Picture

end Overlay
