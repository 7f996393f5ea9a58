import Overlay.Origin

/-!
# Options

The arguments of the command line tool: a command, a script, and options in any order, each with its
values in the arguments after it or behind an equals sign.  Lists of numbers may be written as one
argument with commas or as several.
-/

namespace Overlay

namespace Command

/-- What the tool is to do. -/
inductive Task
  | check
  | simulate
  deriving DecidableEq, Repr

/-- The arguments of the tool. -/
structure Options where
  task : Task
  script : Option String := none
  /-- Path of the configuration file. -/
  config : Option String := none
  part : Int := 0
  trigger : Option (Vec Int × Int) := none
  crop : Vec Int := ⟨0, 0⟩
  secondCrop : Vec Int := ⟨0, 0⟩
  sound : Nat := 0
  ticks : Nat := 100
  every : Nat := 1
  pretty : Bool := false
  deriving DecidableEq, Repr

/-- The origin of the picture that the options describe. -/
def Options.origin (o : Options) : Origin :=
  let base : Origin :=
    { Origin.ofPointer ⟨o.part, 0⟩ with
      crop := o.crop, secondCrop := o.secondCrop, sound := o.sound }
  match o.trigger with
  | some (trigger, triggerPart) => { base with trigger, triggerPart }
  | none => base

/-! ### Reading arguments -/

/-- The integer a text denotes: digits, perhaps behind a sign, and nothing else. -/
def readInteger? (s : String) : Option Int :=
  let (sign, digits) := splitSign s.toList
  if digits.isEmpty || !digits.all Char.isDigit then none
  else some (withSign sign (digitsValue digits))

/-- The first `n` integers of some arguments, which may hold several with commas between them, and
the arguments after them.  An integer that does not fit is not taken. -/
def takeIntegers (fits : Int → Bool) (n : Nat) : List String → Option (List Int × List String)
  | [] => if n = 0 then some ([], []) else none
  | arg :: rest =>
    if n = 0 then some ([], arg :: rest)
    else do
      let values ← (arg.splitOn ",").mapM readInteger?
      if values.length ≤ n && values.all fits then
        let (more, rest) ← takeIntegers fits (n - values.length) rest
        return (values ++ more, rest)
      else none

/-- The first `n` integers of 32 bits with a sign. -/
def takeWholes (n : Nat) (args : List String) : Option (List Int × List String) :=
  takeIntegers (fun v => decide (IsWhole v)) n args

/-- The natural number of 32 bits at the head of some arguments, and the arguments after it. -/
def takeNatural (args : List String) : Option (Nat × List String) := do
  match ← takeIntegers (fun v => decide (0 ≤ v ∧ v < UInt32.size)) 1 args with
  | ([n], rest) => some (n.toNat, rest)
  | _ => none

/-- The two integers at the head of some arguments, and the arguments after them. -/
def takeVec (args : List String) : Option (Vec Int × List String) := do
  match ← takeWholes 2 args with
  | ([x, y], rest) => some (⟨x, y⟩, rest)
  | _ => none

/-- The options after the option `name` has been read from `args`, and the arguments after it. -/
def Options.take (o : Options) (name : String) (args : List String) :
    Option (Options × List String) :=
  match name with
  | "--parts-number" => do
    match ← takeWholes 1 args with
    | ([part], rest) => some ({ o with part }, rest)
    | _ => none
  | "--trigger" => do
    match ← takeWholes 3 args with
    | ([x, y, id], rest) => some ({ o with trigger := some (⟨x, y⟩, id) }, rest)
    | _ => none
  | "--crop" => (takeVec args).map fun (crop, rest) => ({ o with crop }, rest)
  | "--second-crop" => (takeVec args).map fun (secondCrop, rest) => ({ o with secondCrop }, rest)
  | "--sound" => (takeNatural args).map fun (sound, rest) => ({ o with sound }, rest)
  | "--config" | "-c" =>
    match args with
    | path :: rest => some ({ o with config := some path }, rest)
    | [] => none
  | "--ticks" | "-t" =>
    if o.task = .simulate then (takeNatural args).map fun (ticks, rest) => ({ o with ticks }, rest)
    else none
  | "--every" | "-e" =>
    if o.task = .simulate then (takeNatural args).map fun (every, rest) => ({ o with every }, rest)
    else none
  | "--pretty" | "-p" =>
    if o.task = .simulate then some ({ o with pretty := true }, args) else none
  | _ => none

/-- The options after all arguments have been read, or the argument that could not be.  Every round
uses up an argument, and `fuel` is their number. -/
def Options.takeAll : Nat → Options → List String → Except String Options
  | _, o, [] => .ok o
  | 0, _, arg :: _ => .error arg
  | fuel + 1, o, arg :: rest =>
    if arg.startsWith "-" then
      match o.take arg rest with
      | some (o, rest) => o.takeAll fuel rest
      | none => .error arg
    else
      match o.script with
      | none => { o with script := some arg }.takeAll fuel rest
      | some _ => .error arg

/-- The arguments with `--name=value` taken apart. -/
def splitArguments (args : List String) : List String :=
  args.flatMap fun arg =>
    if arg.startsWith "--" then
      match arg.splitOn "=" with
      | [] => []
      | [name] => [name]
      | name :: value => [name, String.intercalate "=" value]
    else [arg]

/-- The options that some arguments stand for, or the argument that stands for none. -/
def Options.ofArguments (args : List String) : Except String Options :=
  let read (task : Task) (rest : List String) : Except String Options :=
    let rest := splitArguments rest
    ({ task } : Options).takeAll rest.length rest
  match args with
  | "check" :: rest => read .check rest
  | "simulate" :: rest => read .simulate rest
  | arg :: _ => .error arg
  | [] => .error ""

end Command

end Overlay
