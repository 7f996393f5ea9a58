/-!
# Property names

The properties of a picture and the names a script gives them.
-/

namespace Overlay

inductive PropertyKind
  | pos
  | time
  | timeAnim
  | wait
  | next
  | size
  | clip
  | angle
  | repetition
  | interval
  | opacity
  | text
  | font
  | color
  deriving DecidableEq, Repr

namespace PropertyKind

/-- All properties, in the order of their declaration. -/
def all : List PropertyKind :=
  [pos, time, timeAnim, wait, next, size, clip, angle, repetition, interval, opacity, text, font,
    color]

def name : PropertyKind → String
  | pos => "pos"
  | time => "time"
  | timeAnim => "time_anim"
  | wait => "wait"
  | next => "next"
  | size => "size"
  | clip => "clip"
  | angle => "angle"
  | repetition => "repeat"
  | interval => "interval"
  | opacity => "opacity"
  | text => "text"
  | font => "font"
  | color => "color"

def ofName? (s : String) : Option PropertyKind := all.find? fun k => k.name = s

theorem mem_all (k : PropertyKind) : k ∈ all := by cases k <;> decide

theorem ofName?_name (k : PropertyKind) : ofName? k.name = some k := by cases k <;> decide

theorem name_of_ofName? {s : String} {k : PropertyKind} (h : ofName? s = some k) : k.name = s := by
  simpa using List.find?_some h

end PropertyKind

end Overlay
