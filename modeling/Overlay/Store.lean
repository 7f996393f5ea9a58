import Overlay.Picture

/-!
# Stores

A store has a fixed number of slots, each empty or holding a picture.  Operations on one slot check
its number first; operations on the whole store go through the slots in ascending order, and so do
their requests to the host.
-/

namespace Overlay

structure Store (α : Type) where
  slots : List (Option (Picture α))
  config : Config
  deriving DecidableEq, Repr

namespace Store

variable {α : Type}

/-- An empty store with as many slots as configured. -/
def ofConfig (config : Config) : Store α := { slots := List.replicate config.capacity none, config }

def ofCapacity (capacity : Nat) : Store α := ofConfig { capacity }

def capacity (s : Store α) : Nat := s.slots.length

/-- The pictures with their slots, in ascending order. -/
def occupied (s : Store α) : List (Nat × Picture α) :=
  s.slots.zipIdx.filterMap fun (slot, id) => slot.map (id, ·)

/-- The content of a slot, which must exist. -/
def slot (s : Store α) (id : Nat) : Except Fault (Option (Picture α)) :=
  match s.slots[id]? with
  | some slot => .ok slot
  | none => .error (.noSlot id s.capacity)

def put (s : Store α) (id : Nat) (content : Option (Picture α)) : Store α :=
  { s with slots := s.slots.set id content }

/-- Puts a picture into a slot, in place of what was there. -/
def insert (s : Store α) (id : Nat) (p : Picture α) : Except Fault (Store α) := do
  let _ ← s.slot id
  return s.put id (some p)

/-- Empties a slot; the result holds the picture that was in it. -/
def erase (s : Store α) (id : Nat) : Except Fault (Store α × Option (Picture α)) := do
  let removed ← s.slot id
  return (s.put id none, removed)

variable [Scalar α]

/-- Builds a picture from a script into a slot.  The slot keeps its content if the script is
refused. -/
def build (s : Store α) (id : Nat) (origin : Origin) (lines : List String) :
    Except Fault (Store α × Picture α) := do
  let _ ← s.slot id
  let p ← Picture.ofScript origin s.config lines
  return (s.put id (some p), p)

/-- Starts the picture in a slot, if there is one. -/
def startAt (s : Store α) (id : Nat) : Except Fault (Store α × List Request) := do
  match ← s.slot id with
  | none => return (s, [])
  | some p =>
    let (p, requests) := p.start
    return (s.put id (some p), requests)

/-! ### Operations on all slots -/

/-- Changes every picture and lists what each change yields, in the order of the slots. -/
def each {β : Type} (s : Store α) (f : Picture α → Picture α × β) : Store α × List β :=
  let results := s.slots.map (Option.map f)
  ({ s with slots := results.map (Option.map Prod.fst) }, results.filterMap (Option.map Prod.snd))

def start (s : Store α) : Store α × List Request :=
  let (s, requests) := s.each Picture.start
  (s, requests.flatten)

def stop (s : Store α) : Store α × List Request :=
  let (s, requests) := s.each Picture.stop
  (s, requests.flatten)

/-- A tick passes for all pictures.  The last result names the followers of those that time out. -/
def update (s : Store α) : Store α × List Request × List Pointer :=
  let (s, results) := s.each fun p =>
    let (p, requests, timesOut) := p.update s.config.tick
    (p, requests, if timesOut then p.properties.followers else [])
  (s, results.flatMap Prod.fst, results.flatMap Prod.snd)

/-- The drawings of all visible pictures with their slots. -/
def drawings (s : Store α) (primary : Bool) : List (Nat × Drawing α) :=
  s.occupied.filterMap fun (id, p) => (p.draw? primary).map (id, ·)

end Store

end Overlay
