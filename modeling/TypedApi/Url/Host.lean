import TypedApi.Text.Blank
import TypedApi.Text.Lower
import TypedApi.Url.Basic
import TypedApi.Url.Domain.Basic
import TypedApi.Url.Percent
/-!
Hosts.

A host is given by number, by a name in ASCII, or by a name in other scripts,
which is kept by its form in ASCII. What looks like a number has to be one. Of a
name in ASCII nothing is asked when it is read, but one that looks like the form
of another name must be that before it can be looked up.
-/

set_option autoImplicit false

namespace TypedApi.Url

/-! # Hosts given by number

The older form is four decimal numbers below 256 with dots between them. The newer
one is eight groups of up to four hexadecimal digits with colons between them. Two
colons stand for the groups that are missing, the last two groups may be given in
the older form, and a zone may follow after a percent sign.
-/

/-- Whether a character is one of the ten decimal digits. -/
def isDecimalDigit (c : Char) : Bool :=
  '0' ≤ c && c ≤ '9'

/-- Whether a text is runs of decimal digits, one more than `n`, with any one character between two
of them. -/
def areDigitRuns (n : Nat) : List Char → Bool
  | [] => false
  | c :: rest =>
    isDecimalDigit c &&
      match n, rest with
      | 0, _ => rest.all isDecimalDigit
      | _ + 1, [] => false
      | m + 1, d :: after => areDigitRuns m after || areDigitRuns (m + 1) (d :: after)

/-- Whether a host looks like four numbers. -/
def looksLikeFour (cs : List Char) : Bool :=
  areDigitRuns 3 cs

/-- The number that decimal digits spell. -/
def decimal (cs : List Char) : Nat :=
  cs.foldl (fun n c => 10 * n + (c.toNat - 0x30)) 0

/-- Whether a text is a number below 256 without zeros in front. -/
def isOctet (cs : List Char) : Bool :=
  !cs.isEmpty && cs.all isDecimalDigit && cs.length ≤ 3 && (cs.head? ≠ some '0' || cs = ['0']) &&
    decimal cs < 256

/-- Whether a text is four numbers with dots between them. -/
def isFourNumbers (cs : List Char) : Bool :=
  (Text.splitAt '.' cs).length = 4 && (Text.splitAt '.' cs).all isOctet

/-- Whether a text is a group of hexadecimal digits. -/
def isGroup (cs : List Char) : Bool :=
  !cs.isEmpty && cs.length ≤ 4 &&
    cs.all fun c => isDecimalDigit c || ('a' ≤ c && c ≤ 'f') || ('A' ≤ c && c ≤ 'F')

/-- The count of groups that some texts are, the last of which may be four numbers instead. -/
def countGroups? : List (List Char) → Option Nat
  | [] => some 0
  | [g] => if isGroup g then some 1 else if isFourNumbers g then some 2 else none
  | g :: rest => if isGroup g then (countGroups? rest).map (· + 1) else none

/-- The texts between the colons of a run of groups. -/
def groupsOf (cs : List Char) : List (List Char) :=
  if cs.isEmpty then [] else Text.splitAt ':' cs

/-- The text before the first two colons in a row and the text after them. -/
def cutColons? : List Char → Option (List Char × List Char)
  | [] => none
  | ':' :: ':' :: rest => some ([], rest)
  | c :: rest => (cutColons? rest).map fun p => (c :: p.1, p.2)

/-- Whether a text is eight groups, or fewer with two colons for the rest. -/
def isEightGroups (cs : List Char) : Bool :=
  match cutColons? cs with
  | none => countGroups? (groupsOf cs) = some 8
  | some (before, after) =>
    (groupsOf before).all isGroup &&
      (countGroups? (groupsOf after)).any fun n => (groupsOf before).length + n ≤ 7

/-- Whether a text is eight groups, with a zone after them or not. -/
def isGroups (cs : List Char) : Bool :=
  match Text.splitAt '%' cs with
  | [groups] => isEightGroups groups
  | [groups, zone] => !zone.isEmpty && isEightGroups groups
  | _ => false

/-! # Hosts -/

/-- The characters that hosts admit beside letters and digits. -/
def hostSigns : List Char :=
  "-._~!$&'()*+,;=\"`\x7b\x7d%|\\".toList

/-- Whether a host admits a character as it is. -/
def inHost (c : Char) : Bool :=
  c.isAlphanum || hostSigns.contains c

/-- A host in the form in which it is kept; one in brackets is kept without them. -/
def readHost (cs : List Char) : Except UrlProblem (List Char) :=
  if cs.isEmpty then .ok []
  else if looksLikeFour cs then
    if isFourNumbers cs then .ok cs else .error (.badFourNumbers (String.ofList cs))
  else if cs.head? = some '[' && cs.getLast? = some ']' then
    let inner := (cs.drop 1).dropLast
    if Domain.isAscii inner && isGroups inner then .ok inner
    else .error (.badGroups (String.ofList cs))
  else if Domain.isAscii cs then .ok (escape inHost (cs.map Char.toLower))
  else
    match Domain.encode? (Text.lower (String.ofList cs)).toList with
    | some name => .ok name
    | none => .error (.badName (String.ofList cs))

/-- The host in its own script: a name that begins with a label in ASCII form is turned back. There
is none if that form stands for no name. -/
def ownHost? (host : List Char) : Option (List Char) :=
  if Domain.asciiMark.isPrefixOf host then Domain.decode? host else some host

end TypedApi.Url
