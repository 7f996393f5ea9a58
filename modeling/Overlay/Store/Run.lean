import Overlay.Store

/-!
# Runs of a store

The operations that change a store, as a type, and what a list of them makes of a store.
-/

namespace Overlay

namespace Store

/-- An operation on a store. -/
inductive Op (α : Type)
  | build (id : Nat) (origin : Origin) (lines : List String)
  | insert (id : Nat) (p : Picture α)
  | erase (id : Nat)
  | startAt (id : Nat)
  | start
  | stop
  | update

/-- What an operation answers: requests to the host, the followers of pictures that timed out, and
why the operation was refused. -/
structure Reply where
  requests : List Request := []
  followers : List Pointer := []
  fault : Option Fault := none
  deriving DecidableEq, Repr

variable {α : Type} [Scalar α]

/-- The store after an operation, and the reply.  A refused operation changes nothing. -/
def perform (s : Store α) : Op α → Store α × Reply
  | .build id origin lines =>
    match s.build id origin lines with
    | .ok (s, _) => (s, {})
    | .error fault => (s, { fault := some fault })
  | .insert id p =>
    match s.insert id p with
    | .ok s => (s, {})
    | .error fault => (s, { fault := some fault })
  | .erase id =>
    match s.erase id with
    | .ok (s, _) => (s, {})
    | .error fault => (s, { fault := some fault })
  | .startAt id =>
    match s.startAt id with
    | .ok (s, requests) => (s, { requests })
    | .error fault => (s, { fault := some fault })
  | .start =>
    let (s, requests) := s.start
    (s, { requests })
  | .stop =>
    let (s, requests) := s.stop
    (s, { requests })
  | .update =>
    let (s, requests, followers) := s.update
    (s, { requests, followers })

/-- The store after a list of operations, and a reply for each. -/
def run (s : Store α) : List (Op α) → Store α × List Reply
  | [] => (s, [])
  | op :: rest =>
    let (s, reply) := s.perform op
    let (s, replies) := s.run rest
    (s, reply :: replies)

end Store

end Overlay
