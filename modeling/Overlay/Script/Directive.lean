import Overlay.Motion

/-!
# Directives

What a whole line says to a picture: a setting, a motion or an acceleration.  The name of the line
chooses the reader; a name that belongs to nothing is a fault of its own.
-/

namespace Overlay

/-- The meaning of a line. -/
inductive Directive (α : Type)
  | setting (s : Setting α)
  | motion (m : Motion α)
  | acceleration (a : Acceleration α)

/-- What the name of a line stands for. -/
inductive Subject
  | fill
  | property (kind : PropertyKind)
  | motion (kind : MotionKind)
  | acceleration (kind : MotionKind)
  deriving DecidableEq, Repr

namespace Subject

/-- The rest of `name` after `stem`, if it begins with it. -/
def dropStem? (stem name : String) : Option String :=
  if stem.toList.isPrefixOf name.toList then
    some (String.ofList (name.toList.drop stem.length))
  else none

/-- What a name stands for. -/
def ofName (name : String) : Except Fault Subject :=
  if name = "fill" then .ok fill
  else
    match PropertyKind.ofName? name with
    | some kind => .ok (property kind)
    | none =>
      match dropStem? "anim_" name, dropStem? "accel_" name with
      | some suffix, _ =>
        match MotionKind.ofSuffix? suffix with
        | some kind => .ok (motion kind)
        | none => .error (.unknownAnimation name)
      | none, some suffix =>
        match MotionKind.ofSuffix? suffix with
        | some kind => .ok (acceleration kind)
        | none => .error (.unknownAnimation name)
      | none, none => .error (.unknownProperty name)

end Subject

namespace Directive

variable {α : Type} [Scalar α]

/-- What a line says about a subject, given the origin of the picture. -/
def readAs (o : Origin) (line : Line) : Subject → Except Fault (Directive α)
  | .fill => setting <$> Setting.readFill line
  | .property kind => setting <$> Setting.read o line kind
  | .motion kind => motion <$> Motion.read line kind
  | .acceleration kind => acceleration <$> Acceleration.read line kind

/-- What a line says, given the origin of the picture. -/
def ofLine (o : Origin) (line : Line) : Except Fault (Directive α) := do
  let subject ← Subject.ofName line.name
  readAs o line subject

/-- What a text says, given the origin of the picture. -/
def ofText (o : Origin) (text : String) : Except Fault (Directive α) := do
  let line ← Line.parse text
  ofLine o line

end Directive

end Overlay
