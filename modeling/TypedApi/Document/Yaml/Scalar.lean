import TypedApi.Decimal.Arithmetic
import TypedApi.Document.Yaml.Tag
import TypedApi.Text.Base64
import TypedApi.Text.Blank
/-!
What scalars spell.

A plain scalar without a tag is typed by its form: Booleans and null by a few
words, integers in four bases and in base sixty, floats with a point, dates
with or without a time of day. All else is text. A scalar whose tag names a
kind must spell a value of it, and may do so in more ways than the forms admit:
a second sign is one of them, and digits of other scripts are.
-/

set_option autoImplicit false

namespace TypedApi.Document.Yaml

/-! ## Forms -/

/-- The words for true, in small letters. -/
def trueWords : List String := ["yes", "true", "on"]

/-- The words for false, in small letters. -/
def falseWords : List String := ["no", "false", "off"]

/-- The three ways to write a word: in small letters, with a capital, in capitals. -/
def casings (word : String) : List String :=
  let cs := word.toList
  [word, String.ofList (cs.take 1 |>.map Char.toUpper) ++ String.ofList (cs.drop 1),
   String.ofList (cs.map Char.toUpper)]

/-- Whether a text is one of some words in one of their casings. -/
def isWord (words : List String) (s : String) : Bool :=
  words.any fun w => (casings w).contains s

/-- Drop a sign. -/
def unsigned : List Char → List Char
  | '+' :: cs => cs
  | '-' :: cs => cs
  | cs => cs

/-- Whether a number has a minus. -/
def isNegative (cs : List Char) : Bool :=
  cs.head? = some '-'

/-- Whether a text has characters, and only such as pass a test or are underscores. -/
def isRun (p : Char → Bool) (cs : List Char) : Bool :=
  !cs.isEmpty && cs.all fun c => p c || c = '_'

/-- Whether a text begins with a digit and goes on with digits and underscores. -/
def isDigits (cs : List Char) : Bool :=
  cs.head?.any Char.isDigit && isRun Char.isDigit cs

/-- Whether a text is a count of sixtieths: one or two digits, the first of two below six. -/
def isSixtieth : List Char → Bool
  | [a] => a.isDigit
  | [a, b] => '0' ≤ a && a ≤ '5' && b.isDigit
  | _ => false

/-- Whether a text without a sign spells an integer. -/
def isUnsignedInteger (cs : List Char) : Bool :=
  match cs with
  | ['0'] => true
  | '0' :: 'b' :: rest => isRun (fun c => c = '0' || c = '1') rest
  | '0' :: 'x' :: rest => isRun (fun c => (Json.hexValue? c).isSome) rest
  | '0' :: rest => isRun (fun c => '0' ≤ c && c ≤ '7') rest
  | _ =>
    match Text.splitAt ':' cs with
    | first :: sixtieths => isDigits first && sixtieths.all isSixtieth
    | [] => false

/-- Whether a text spells an integer. -/
def isInteger (cs : List Char) : Bool :=
  isUnsignedInteger (unsigned cs)

/-- Cut a text at the first point. -/
def cutAtPoint (cs : List Char) : List Char × Option (List Char) :=
  match cs.dropWhile (· ≠ '.') with
  | [] => (cs, none)
  | _ :: rest => (cs.takeWhile (· ≠ '.'), some rest)

/-- Whether a text is an exponent, whose sign is not optional. -/
def isExponent : List Char → Bool
  | e :: s :: digits =>
    (e = 'e' || e = 'E') && (s = '+' || s = '-') && !digits.isEmpty && digits.all Char.isDigit
  | _ => false

/-- Whether a text is the fraction of a float and an exponent if there is one. -/
def isFraction (exponent : Bool) (cs : List Char) : Bool :=
  let rest := cs.dropWhile fun c => c.isDigit || c = '_'
  rest.isEmpty || (exponent && isExponent rest)

/-- Whether a text spells a float. A sign needs a digit behind it, or the word for infinity. -/
def isFloat (cs : List Char) : Bool :=
  let body := unsigned cs
  if isDotWord (casings "inf") body || isDotWord ["nan", "NaN", "NAN"] cs then true
  else
    match cutAtPoint body with
    | (_, none) => false
    | ([], some fraction) =>
      body.length = cs.length && fraction.head?.any Char.isDigit && isFraction true fraction
    | (whole, some fraction) =>
      match Text.splitAt ':' whole with
      | [digits] => isDigits digits && isFraction true fraction
      | first :: sixtieths =>
        isDigits first && sixtieths.all isSixtieth && isFraction false fraction
      | [] => false
where
  /-- Whether a text is a point and one of some words. -/
  isDotWord (words : List String) (cs : List Char) : Bool :=
    match cs with
    | '.' :: rest => words.contains (String.ofList rest)
    | _ => false

/-- The parts of a date and time as they are written. -/
structure MomentParts where
  year : List Char
  month : List Char
  day : List Char
  time : Option (List Char × List Char × List Char × List Char) := none
  /-- The distance from the reference zone: its sign, hours and minutes. -/
  zone : Option (Bool × List Char × List Char) := none

/-- Digits at the start of a text, at least and at most so many. -/
def digitsUpTo (least most : Nat) (cs : List Char) : Option (List Char × List Char) :=
  let digits := (cs.take most).takeWhile Char.isDigit
  if least ≤ digits.length then some (digits, cs.drop digits.length) else none

/-- A character that must come next. -/
def expectChar (c : Char) : List Char → Option (List Char)
  | d :: rest => if c = d then some rest else none
  | [] => none

/-- Whether a character is a space or a tab. -/
def isSpaceOrTab (c : Char) : Bool :=
  c = ' ' || c = '\t'

/-- The zone at the end of a time: missing, the reference zone, or a distance from it. -/
def zoneParts? (cs : List Char) : Option (Option (Bool × List Char × List Char)) :=
  if cs.isEmpty then some none
  else
    match cs.dropWhile isSpaceOrTab with
    | ['Z'] => some (some (false, ['0'], ['0']))
    | sign :: rest =>
      if sign = '+' || sign = '-' then do
        let (hours, rest) ← digitsUpTo 1 2 rest
        if rest.isEmpty then return some (sign = '-', hours, ['0'])
        let (minutes, rest) ← digitsUpTo 2 2 (← expectChar ':' rest)
        if rest.isEmpty then return some (sign = '-', hours, minutes) else none
      else none
    | [] => none

/-- What separates a date from a time: a letter or blanks. -/
def dropDivider? : List Char → Option (List Char)
  | 'T' :: rest => some rest
  | 't' :: rest => some rest
  | c :: rest => if isSpaceOrTab c then some (rest.dropWhile isSpaceOrTab) else none
  | [] => none

/-- The parts of a date or of a date and a time. -/
def momentParts? (cs : List Char) : Option MomentParts := do
  let (year, rest) ← digitsUpTo 4 4 cs
  let (month, rest) ← digitsUpTo 1 2 (← expectChar '-' rest)
  let (day, rest) ← digitsUpTo 1 2 (← expectChar '-' rest)
  if rest.isEmpty then return { year, month, day }
  let (hour, rest) ← digitsUpTo 1 2 (← dropDivider? rest)
  let (minute, rest) ← digitsUpTo 2 2 (← expectChar ':' rest)
  let (second, rest) ← digitsUpTo 2 2 (← expectChar ':' rest)
  let (fraction, rest) :=
    match rest with
    | '.' :: more => (more.takeWhile Char.isDigit, more.dropWhile Char.isDigit)
    | rest => ([], rest)
  return { year, month, day, time := some (hour, minute, second, fraction), zone := ← zoneParts? rest }

/-- Whether a text spells a date or a date and a time. A date alone has two digits for the month
and for the day. -/
def isMoment (cs : List Char) : Bool :=
  match momentParts? cs with
  | some parts => parts.time.isSome || (parts.month.length = 2 && parts.day.length = 2)
  | none => false

/-- A text without one line feed at its end. -/
def dropFinalBreak (cs : List Char) : List Char :=
  if cs.getLast? = some '\n' then cs.dropLast else cs

/-- The kind of a scalar by its form. One line feed at the end does not count, except alone. -/
def Tag.ofPlain (content : String) : Tag :=
  if content = "\n" then .text
  else
    let cs := dropFinalBreak content.toList
    let s := String.ofList cs
    if isWord (trueWords ++ falseWords) s then .bool
    else if isFloat cs then .float
    else if isInteger cs then .int
    else if s = "<<" then .merge
    else if s = "~" || s = "" || isWord ["null"] s then .null
    else if isMoment cs then .moment
    else if s = "=" then .default
    else if s = "!" || s = "&" || s = "*" then .unknown
    else .text

/-! ## Values -/

/-- A number without its underscores. -/
def dropUnderscores (cs : List Char) : List Char :=
  cs.filter (· ≠ '_')

/-- The integer that parts in base sixty spell, each of them an integer. -/
def sexagesimal? (parts : List (List Char)) : Option Int :=
  parts.foldlM (fun n part => do return n * 60 + (← Text.integer? (String.ofList part))) 0

/-- The integer that a text without underscores and without its first sign spells. -/
def unsignedInteger? (cs : List Char) : Option Int :=
  match cs with
  | [] => none
  | ['0'] => some 0
  | '0' :: 'b' :: rest => Text.integerIn? 2 'b' rest
  | '0' :: 'x' :: rest => Text.integerIn? 16 'x' rest
  | '0' :: rest => Text.integerIn? 8 'o' ('0' :: rest)
  | cs => sexagesimal? (Text.splitAt ':' cs)

/-- The integer that a text spells. -/
def integer? (cs : List Char) : Option Int :=
  let cs := dropUnderscores cs
  (unsignedInteger? (unsigned cs)).map fun n => if isNegative cs then -n else n

/-- The float that ASCII digits with a point and an exponent spell, either of which may be
missing. -/
def decimal? (cs : List Char) : Option Binary64 :=
  let whole := cs.takeWhile Char.isDigit
  let rest := cs.dropWhile Char.isDigit
  let (fraction, rest) :=
    match rest with
    | '.' :: more => (more.takeWhile Char.isDigit, more.dropWhile Char.isDigit)
    | rest => ([], rest)
  if whole.isEmpty && fraction.isEmpty then none
  else
    let exponent : Option Int :=
      match rest with
      | [] => some 0
      | e :: digits =>
        if e = 'e' then
          let magnitude := unsigned digits
          if !magnitude.isEmpty && magnitude.all Char.isDigit then
            some (Binary64.signed (isNegative digits) (Json.digitsValue magnitude))
          else none
        else none
    exponent.map fun e =>
      .ofDecimal false (Json.digitsValue (whole ++ fraction)) (e - fraction.length)

/-- A decimal digit of any script as the ASCII digit of its value. -/
def asciiDigit (c : Char) : Char :=
  match Text.decimalValue? c with
  | some d => Nat.digitChar d
  | none => c

/-- The float that a text in small letters spells: a decimal or the word of a special value, a
sign, and blank characters around it. -/
def number? (cs : List Char) : Option Binary64 :=
  let cs := (Text.trimMargin cs).map asciiDigit
  let body := unsigned cs
  let magnitude :=
    if body = "inf".toList || body = "infinity".toList then some (Binary64.infinity false)
    else if body = "nan".toList then some .nan
    else decimal? body
  magnitude.map (·.withSign (isNegative cs))

/-- The float that parts in base sixty spell, the last part first: `total` is the sum so far and
`unit` the weight of the next part, which must not exceed the range of floats. -/
def sixtieths? (total : Binary64) (unit : Int) : List (List Char) → Option Binary64
  | [] => some total
  | part :: rest => do
    let digit ← number? part
    let weight ← Binary64.ofInt? unit
    sixtieths? (total.add (digit.mul weight)) (unit * 60) rest

/-- The float that a text in base sixty spells, its parts having colons between them. -/
def sexagesimalFloat? (cs : List Char) : Option Binary64 :=
  sixtieths? (.zero false) 1 (Text.splitAt ':' cs).reverse

/-- The float that a text spells. -/
def float? (cs : List Char) : Option Binary64 :=
  let cs := (dropUnderscores cs).map Char.toLower
  let body := unsigned cs
  let magnitude :=
    if body = ".inf".toList then some (Binary64.infinity false)
    else if body = ".nan".toList then some .nan
    else if body.contains ':' then sexagesimalFloat? body
    else number? body
  magnitude.map fun x => if isNegative cs then x.negate else x

/-- The count of millionths that the digits of a fraction of a second spell. -/
def millionths (digits : List Char) : Nat :=
  let kept := digits.take 6
  Json.digitsValue (kept ++ List.replicate (6 - kept.length) '0')

/-- The moment that parts spell, if there is such a day and such a time of day. -/
def MomentParts.moment? (p : MomentParts) : Option Moment :=
  let year := Json.digitsValue p.year
  let month := Json.digitsValue p.month
  let day := Json.digitsValue p.day
  if year = 0 || month = 0 || 12 < month || day = 0 || Moment.daysIn year month < day then none
  else
    match p.time with
    | none => some { year, month, day }
    | some (h, m, s, fraction) =>
      let hour := Json.digitsValue h
      let minute := Json.digitsValue m
      let second := Json.digitsValue s
      let offset := p.zone.map fun (negative, hours, minutes) =>
        let distance : Int := Json.digitsValue hours * 60 + Json.digitsValue minutes
        if negative then -distance else distance
      if 23 < hour || 59 < minute || 59 < second || offset.any fun o => 1440 ≤ o.natAbs then none
      else some { year, month, day, time := some (hour, minute, second, millionths fraction), offset }

/-- The Boolean that a word spells, in any letter case. -/
def boolean? (s : String) : Option Bool :=
  let word := String.ofList (s.toList.map Char.toLower)
  if trueWords.contains word then some true
  else if falseWords.contains word then some false
  else none

/-- An answer that is missing because a text spells no value of its kind. -/
def orMalformedScalar {α : Type} : Option α → Except Fault α
  | some a => .ok a
  | none => .error .malformed

/-- The value that a text spells under a tag. -/
def scalarValue (tag : Tag) (s : String) : Except Fault Document :=
  let cs := s.toList
  match tag with
  | .null => .ok .null
  | .bool => (orMalformedScalar (boolean? s)).map .bool
  | .int => (orMalformedScalar (integer? cs)).map .int
  | .float => (orMalformedScalar (float? cs)).map .float
  | .text => .ok (.text s)
  | .bytes =>
    if cs.all fun c => c.toNat < 0x80 then
      match Text.base64? cs with
      | some bs => .ok (.bytes bs)
      | none => .error .unreadable
    else .error .unreadable
  | .moment =>
    (orMalformedScalar ((momentParts? (dropFinalBreak cs)).bind MomentParts.moment?)).map .moment
  | .sequence | .mapping | .pairs | .collection | .merge | .default | .unknown =>
    .error .unreadable

end TypedApi.Document.Yaml
