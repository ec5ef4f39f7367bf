import TypedApi.Text.Digit
/-!
The words of a name.

A name from a document may hold any characters. Its words are made of ASCII
letters and digits; every other character separates. A run of letters and
digits is cut in two passes: first wherever a capital follows a lower-case
letter or a digit (`pet|Id`), then wherever the last capital of an acronym
begins a word of its own (`HTTP|Server`). A digit never starts a word after a
letter, so `Variant01` is one word.
-/

set_option autoImplicit false

namespace TypedApi.Name

/-- Whether a character is an ASCII capital. -/
def isCapital (c : Char) : Bool :=
  'A' ≤ c && c ≤ 'Z'

/-- Whether a character is a lower-case ASCII letter. -/
def isSmall (c : Char) : Bool :=
  'a' ≤ c && c ≤ 'z'

/-- Whether a character is an ASCII digit. -/
def isNumeric (c : Char) : Bool :=
  '0' ≤ c && c ≤ '9'

/-- Whether a character can be part of a word. -/
def isWordChar (c : Char) : Bool :=
  isCapital c || isSmall c || isNumeric c

/-- The maximal runs of word characters; `run` is the one begun, reversed. -/
def chunksFrom (run : List Char) : List Char → List (List Char)
  | [] => if run.isEmpty then [] else [run.reverse]
  | c :: rest =>
    if isWordChar c then chunksFrom (c :: run) rest
    else if run.isEmpty then chunksFrom [] rest
    else run.reverse :: chunksFrom [] rest

/-- The maximal runs of word characters. -/
def chunks (cs : List Char) : List (List Char) :=
  chunksFrom [] cs

/-- Cut before every capital that follows a lower-case letter or a digit. -/
def cutRises : List Char → List (List Char)
  | [] => []
  | c :: rest =>
    match rest, cutRises rest with
    | d :: _, piece :: pieces =>
      if (isSmall c || isNumeric c) && isCapital d then [c] :: piece :: pieces
      else (c :: piece) :: pieces
    | _, _ => [[c]]

/-- Cut before the last of several capitals when a lower-case letter follows it. `word` is the
word begun, reversed, and `capitals` counts the capitals at its end. -/
def cutAcronymsFrom (word : List Char) (capitals : Nat) : List Char → List (List Char)
  | [] => if word.isEmpty then [] else [word.reverse]
  | c :: rest =>
    if isCapital c then cutAcronymsFrom (c :: word) (capitals + 1) rest
    else
      match word with
      | last :: before =>
        if isSmall c && 2 ≤ capitals then before.reverse :: cutAcronymsFrom [c, last] 0 rest
        else cutAcronymsFrom (c :: word) 0 rest
      | [] => cutAcronymsFrom [c] 0 rest

/-- Cut before the last of several capitals when a lower-case letter follows it. -/
def cutAcronyms (piece : List Char) : List (List Char) :=
  cutAcronymsFrom [] 0 piece

/-- The words of a name, in order. -/
def wordChars (cs : List Char) : List (List Char) :=
  (chunks cs).flatMap fun chunk => (cutRises chunk).flatMap cutAcronyms

/-- The words of a name, in order. -/
def words (name : String) : List String :=
  (wordChars name.toList).map String.ofList

/-- A word with a capital first and small letters after. -/
def capitalize : List Char → List Char
  | [] => []
  | c :: rest => c.toUpper :: rest.map Char.toLower

/-- The name as one word per capital: `PetId`. -/
def upperCamel (name : String) : String :=
  String.ofList ((wordChars name.toList).flatMap capitalize)

/-- The name as lower-case words with underscores between: `pet_id`. -/
def snake (name : String) : String :=
  String.ofList (List.intercalate ['_'] ((wordChars name.toList).map fun w => w.map Char.toLower))

/-! # Names that generated modules can use

A name must not be a keyword of the generated language nor a name that a
generated module imports. `escape` makes any text safe on its own;
`deconflict` makes it distinct from the names already taken as well, by
appending the least counter that works.
-/

/-- The keywords of the generated language. -/
def keywords : List String :=
  ["False", "None", "True", "and", "as", "assert", "async", "await", "break", "class", "continue",
   "def", "del", "elif", "else", "except", "finally", "for", "from", "global", "if", "import",
   "in", "is", "lambda", "nonlocal", "not", "or", "pass", "raise", "return", "try", "while",
   "with", "yield"]

/-- The names that every generated module imports. -/
def imported : List String :=
  ["annotations", "Annotated", "Any", "BaseModel", "ConfigDict", "Enum", "Field", "FrozenSet",
   "IPv4Address", "IPv6Address", "List", "Literal", "Optional", "Protocol", "RootModel", "Union",
   "UUID", "date", "datetime"]

/-- Whether a name is a keyword or imported. -/
def isReserved (name : String) : Bool :=
  keywords.contains name || imported.contains name

/-- A name made safe: the empty name is an underscore, a leading digit gets one before it, and a
reserved word one after it. -/
def escape (name : String) : String :=
  match name.toList with
  | [] => "_"
  | c :: _ =>
    let started := if Text.isDigit c then "_" ++ name else name
    if isReserved started then started ++ "_" else started

/-- The first name not taken among the base with the counters from `suffix` on; the fuel bounds
the counters tried. -/
def firstFree (taken : List String) (base : String) (suffix : Nat) : Nat → String
  | 0 => base ++ toString suffix
  | fuel + 1 =>
    let proposed := base ++ toString suffix
    if taken.contains proposed then firstFree taken base (suffix + 1) fuel else proposed

/-- A safe name that is not taken: the escaped name itself, or with the least counter from one on
that makes it free. One of the counters up to the count of taken names does. -/
def deconflict (name : String) (taken : List String) : String :=
  let base := escape name
  if taken.contains base then firstFree taken base 1 taken.length else base

end TypedApi.Name
