import Overlay.Property.Kind
import Overlay.Property.Value

/-!
# Settings

A `Setting` is what a property line says: the value of a property after every check that looks at
the line alone.  Reading one also looks at the origin of the picture, and at nothing else.  The range
of an opacity is left to the rate that takes it.
-/

namespace Overlay

/-- The value a property line gives. -/
inductive Setting (α : Type)
  | pos (v : Vec Int)
  | time (duration : Millis) (follower : Option Pointer)
  | timeAnim (start : Millis) (finish : Option Millis)
  | wait (w : Wait)
  | next (pointers : List Pointer)
  | size (v : Vec Int)
  | clip (v : Vec Int)
  | angle (a : Angle α)
  | count (v : Vec Int)
  | interval (i : Interval)
  | opacity (value : α)
  | text (c : Caption)
  | font (f : Font)
  | color (c : Color)
  | fill (on : Bool)

namespace Line

variable (line : Line)

/-- Two whole numbers, at `i` and after it. -/
def requireWholes (i : Nat) : Except Fault (Vec Int) := do
  let x ← line.requireWhole i
  let y ← line.requireWhole (i + 1)
  return ⟨x, y⟩

/-- A number that was read at `i`, refused if it is negative. -/
def notNegative (i : Nat) (n : Int) : Except Fault Int :=
  if n < 0 then .error (.refused line.name (.negative n i)) else .ok n

/-- A whole number that is not negative. -/
def requireNatural (i : Nat) : Except Fault Int := line.requireWhole i >>= line.notNegative i

/-- A span of time. -/
def requireMillis (i : Nat) : Except Fault Millis := do
  let n ← line.requireNatural i
  return .ofNat n.toNat

/-- A whole number that is not negative, or nothing past the end of the line. -/
def natural (i : Nat) : Except Fault (Option Int) := do
  match ← line.whole i with
  | none => return none
  | some n => some <$> line.notNegative i n

/-- One channel of a color. -/
def requireChannel (i : Nat) : Except Fault UInt8 := do
  let n ← line.requireWhole i
  if 0 ≤ n ∧ n ≤ 255 then return .ofNat n.toNat else throw (.refused line.name (.channel n))

/-- Pairs of relative values up to the end of the line, seen from a pointer. -/
def requirePointers (own : Pointer) : Except Fault (List Pointer) :=
  if line.tokens.length % 2 = 0 then
    (List.range (line.tokens.length / 2)).mapM fun k => do
      let part ← line.requireRelative (2 * k)
      let id ← line.requireRelative (2 * k + 1)
      return ⟨part.resolve own.part, id.resolve own.id⟩
  else throw (.missing line.name line.tokens.length)

end Line

namespace Setting

variable {α : Type} [Scalar α]

/-- What a line says about a property, given the origin of the picture. -/
def read (o : Origin) (line : Line) : PropertyKind → Except Fault (Setting α)
  | .pos => pos <$> line.requireWholes 0
  | .time => do
    let duration ← line.requireMillis 0
    let follower ← line.natural 1
    return time duration ((follower.filter (· ≠ 0)).map fun part => ⟨part, o.pointer.id⟩)
  | .timeAnim => do
    let start ← line.requireMillis 0
    let finish := (← line.natural 1).map fun n => UInt32.ofNat n.toNat
    if finish.any (· < start) then throw (.refused line.name .endBeforeStart)
    return timeAnim start finish
  | .wait => do
    let delay ← line.requireMillis 0
    let part ← line.relativeOr 1 .same
    let x ← line.relativeOr 2 .same
    let y ← line.relativeOr 3 .same
    let layer ← line.layer 4
    let target : Spawn := { part, x, y, layer := layer.getD .object }
    return wait
      { delay, target, appearance := target.resolve o, spawns := decide (4 ≤ line.tokens.length) }
  | .next => next <$> line.requirePointers o.pointer
  | .size => do
    let width ← line.requireNatural 0
    let height ← line.requireNatural 1
    return size ⟨width, height⟩
  | .clip => do
    let v ← line.requireWholes 0
    if v.x < 1 ∨ v.y < 1 then throw (.refused line.name .emptyClip)
    return clip v
  | .angle => do
    let d ← line.requireScalar 0
    return angle (.ofDegrees d)
  | .repetition => do
    let v ← line.requireWholes 0
    if v.x < 0 ∨ v.y < 0 then throw (.refused line.name .negativeCount)
    return count v
  | .interval => do
    let gap ← line.requireWholes 0
    let x ← line.wholeOr 2 0
    let y ← line.wholeOr 3 0
    return interval { gap, shift := ⟨x, y⟩ }
  | .opacity => opacity <$> line.requireScalar 0
  | .text => do
    let content ← line.requireQuoted 0
    let align ← line.wholeOr 1 0
    let baseline ← line.wholeOr 2 0
    match Align.ofIndex? align, Baseline.ofIndex? baseline with
    | none, _ => throw (.refused line.name (.noAlignment align))
    | _, none => throw (.refused line.name (.noBaseline baseline))
    | some align, some baseline => return text { content, align, baseline }
  | .font => do
    let size ← line.requireWhole 0
    if size < 1 then throw (.refused line.name .emptyFont)
    let bold ← line.switchOr 1 false
    let italic ← line.switchOr 2 false
    let family ← line.quotedOr 3 defaultFamily
    return font { size := size.toNat, bold, italic, family }
  | .color => do
    let red ← line.requireChannel 0
    let green ← line.requireChannel 1
    let blue ← line.requireChannel 2
    return color { red, green, blue }

/-- What a line says about filling the field. -/
def readFill (line : Line) : Except Fault (Setting α) := fill <$> line.requireSwitch 0

end Setting

end Overlay
