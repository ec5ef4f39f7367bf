import TypedApi.Url.Domain.Composition
import TypedApi.Url.Domain.Context
import TypedApi.Url.Domain.Direction
import TypedApi.Url.Domain.Punycode
/-!
The names of hosts.

A name is made of labels with dots between them, and there may be one more dot
at its end. A label outside ASCII is written in ASCII behind a mark, so every name
has a form in ASCII: `encode?` gives it, and `decode?` goes back. Both refuse a
name with a label that breaks the rules or one that is too long.
-/

set_option autoImplicit false

namespace TypedApi.Url.Domain

/-- The greatest length of a label in ASCII. -/
def maxLabel : Nat := 63

/-- The greatest length of a name, one less if there is no dot at its end. -/
def maxName : Nat := 254

/-- What stands before a label that is written in ASCII. -/
def asciiMark : List Char := ['x', 'n', '-', '-']

/-- Whether all characters of a text are ASCII. -/
def isAscii (cs : List Char) : Bool :=
  cs.all fun c => c.toNat < 0x80

/-- Whether the hyphens of a label are where they may be: not at its ends, and not in its third and
fourth place, where they would look like the mark of an ASCII form. -/
def areHyphensPlaced (cs : List Char) : Bool :=
  (cs.drop 2).take 2 != ['-', '-'] && cs.head? != some '-' && cs.getLast? != some '-'

/-- Whether a label keeps all rules. -/
def isLabel (cs : List Char) : Bool :=
  !cs.isEmpty && isComposed cs && areHyphensPlaced cs && !cs.head?.any isMark &&
    areAdmitted [] cs && isDirected cs

/-- The label that an ASCII form stands for. -/
def label? (cs : List Char) : Option (List Char) :=
  let cs := cs.map Char.toLower
  if asciiMark.isPrefixOf cs then
    let written := cs.drop asciiMark.length
    if written.isEmpty || written.getLast? = some '-' then none
    else (Punycode.decode? written).filter isLabel
  else if isLabel cs then some cs else none

/-- The ASCII form of a label. -/
def asciiLabel? (cs : List Char) : Option (List Char) :=
  let form? :=
    if isAscii cs then (label? cs).map fun _ => cs
    else if isLabel cs then some (asciiMark ++ Punycode.encode cs) else none
  form?.filter fun form => form.length ≤ maxLabel

/-- Whether a character separates labels: a dot, or one of those that stand for it in the scripts
of East Asia. -/
def isDot (c : Char) : Bool :=
  [0x2e, 0x3002, 0xff0e, 0xff61].contains c.toNat

/-- The pieces of a text between dots. -/
def pieces : List Char → List (List Char)
  | [] => [[]]
  | c :: rest =>
    if isDot c then [] :: pieces rest
    else
      match pieces rest with
      | piece :: others => (c :: piece) :: others
      | [] => [[c]]

/-- The labels of a name, and whether there is a dot at its end. -/
def labels (cs : List Char) : List (List Char) × Bool :=
  let ps := pieces cs
  if 1 < ps.length && ps.getLast? = some [] then (ps.dropLast, true) else (ps, false)

/-- A name with a form of each of its labels; there is none if it is too long. -/
def mapLabels? (form? : List Char → Option (List Char)) (cs : List Char) : Option (List Char) := do
  let (ls, isEnded) := labels cs
  if maxName < cs.length then none
  let name := List.intercalate ['.'] (← ls.mapM form?)
  return if isEnded then name ++ ['.'] else name

/-- A name in ASCII. -/
def encode? (cs : List Char) : Option (List Char) :=
  (mapLabels? asciiLabel? cs).filter fun name =>
    name.length ≤ if name.getLast? = some '.' then maxName else maxName - 1

/-- The name that is written in ASCII. -/
def decode? (cs : List Char) : Option (List Char) :=
  mapLabels? label? cs

end TypedApi.Url.Domain
