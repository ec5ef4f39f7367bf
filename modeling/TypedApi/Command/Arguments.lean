/-!
Arguments of a command line.

An argument that begins with a dash is an option, unless it is the dash alone.
An option is given by its long name or, if it has one, by its letter; letters
may be joined behind one dash. A value is the rest of the argument behind an
equals sign or behind the letter, or else the next argument whatever that is.
All that follows two dashes is positional. Where options must come first, the
first positional argument ends them.

An unknown option, a value that is missing and one that is not wanted are
faults of the line as a whole, so a line is read completely or not at all.
-/

set_option autoImplicit false

namespace TypedApi.Command

/-- A switch that a command knows. The long name includes its dashes. -/
structure Switch where
  long : String
  letter : Option Char := none
  takesValue : Bool := false
deriving DecidableEq, Repr, Inhabited

/-- A switch as it was given: its long name, and its value if it takes one. -/
structure Given where
  long : String
  value : Option String := none
deriving DecidableEq, Repr, Inhabited

/-- A line of arguments, read. -/
structure Arguments where
  given : List Given := []
  positional : List String := []
deriving DecidableEq, Repr, Inhabited

namespace Arguments

/-- Whether a switch was given. -/
def has (a : Arguments) (long : String) : Bool :=
  a.given.any fun g => g.long = long

/-- The value of the last of the switches with this name. -/
def value? (a : Arguments) (long : String) : Option String :=
  (a.given.reverse.find? fun g => g.long = long).bind (·.value)

/-- What the last of two opposed switches says. -/
def choice? (a : Arguments) (yes no : String) : Option Bool :=
  (a.given.reverse.find? fun g => g.long = yes || g.long = no).map fun g => g.long = yes

/-- The first given of some switches. -/
def first? (a : Arguments) (longs : List String) : Option String :=
  (a.given.find? fun g => longs.contains g.long).map (·.long)

end Arguments

/-- What one argument gives: switches, and the name of one that waits for its value. -/
structure Reading where
  given : List Given := []
  waiting : Option String := none

/-- The part of an argument before the first equals sign, and the part behind it if there is
one. -/
def splitValue (cs : List Char) : List Char × Option (List Char) :=
  let name := cs.takeWhile (· ≠ '=')
  if name.length = cs.length then (cs, none) else (name, some (cs.drop (name.length + 1)))

/-- Read an argument as a long name; `none` if the value behind it is not wanted. -/
def readLong (s : Switch) (value : Option (List Char)) : Option Reading :=
  match s.takesValue, value with
  | true, some v => some { given := [⟨s.long, some (String.ofList v)⟩] }
  | true, none => some { waiting := some s.long }
  | false, some _ => none
  | false, none => some { given := [⟨s.long, none⟩] }

/-- Read letters joined behind one dash. -/
def readLetters (switches : List Switch) : List Char → Option Reading
  | [] => some {}
  | c :: rest =>
    match switches.find? fun s => s.letter = some c with
    | none => none
    | some s =>
      if s.takesValue then
        if rest.isEmpty then some { waiting := some s.long }
        else some { given := [⟨s.long, some (String.ofList rest)⟩] }
      else
        (readLetters switches rest).map fun r => { r with given := ⟨s.long, none⟩ :: r.given }

/-- Read an argument that begins with a dash. -/
def readSwitch (switches : List Switch) (arg : String) : Option Reading :=
  let (name, value) := splitValue arg.toList
  match switches.find? fun s => s.long = String.ofList name with
  | some s => readLong s value
  | none =>
    match arg.toList with
    | '-' :: '-' :: _ => none
    | '-' :: letters => readLetters switches letters
    | _ => none

/-- Whether an argument is read as a switch. -/
def isSwitch (arg : String) : Bool :=
  match arg.toList with
  | '-' :: _ :: _ => true
  | _ => false

/-- Read a line of arguments. If they are mixed, switches may follow positional arguments. -/
def readArguments (switches : List Switch) (mixed : Bool) : List String → Option Arguments
  | [] => some {}
  | arg :: rest =>
    if arg = "--" then some { positional := rest }
    else if isSwitch arg then
      match readSwitch switches arg with
      | none => none
      | some { given, waiting := none } =>
        (readArguments switches mixed rest).map fun a => { a with given := given ++ a.given }
      | some { given, waiting := some long } =>
        match rest with
        | [] => none
        | value :: others =>
          (readArguments switches mixed others).map fun a =>
            { a with given := given ++ ⟨long, some value⟩ :: a.given }
    else if mixed then
      (readArguments switches mixed rest).map fun a => { a with positional := arg :: a.positional }
    else some { positional := arg :: rest }

end TypedApi.Command
