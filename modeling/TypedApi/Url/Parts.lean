/-!
The parts of an address as they stand in its text.

An address has up to five parts: a scheme before a colon, an authority after two
slashes, a path, a query after a question mark, and a fragment after a number
sign. Every text can be cut in this way, and `text_ofText` says that nothing gets
lost. The authority in turn names a user, a host and a port.
-/

set_option autoImplicit false

namespace TypedApi.Url

/-- The parts of an address. -/
structure Parts where
  scheme : Option (List Char) := none
  authority : Option (List Char) := none
  path : List Char := []
  query : Option (List Char) := none
  fragment : Option (List Char) := none
deriving DecidableEq, Repr

/-- Whether a character may stand in a scheme. -/
def isSchemeChar (c : Char) : Bool :=
  c.isAlphanum || c = '+' || c = '-' || c = '.'

/-- Whether a text may stand before the colon as a scheme: it is empty or begins with a letter. -/
def isScheme : List Char → Bool
  | [] => true
  | c :: _ => c.isAlpha

/-- Cut off the scheme. -/
def cutScheme (cs : List Char) : Option (List Char) × List Char :=
  match cs.dropWhile isSchemeChar with
  | ':' :: rest =>
    if isScheme (cs.takeWhile isSchemeChar) then (some (cs.takeWhile isSchemeChar), rest)
    else (none, cs)
  | _ => (none, cs)

/-- Whether a character is part of an authority, and not the beginning of the next part. -/
def inAuthority (c : Char) : Bool :=
  c ≠ '/' && c ≠ '?' && c ≠ '#'

/-- Whether a character is part of a path, and not the beginning of the next part. -/
def inPath (c : Char) : Bool :=
  c ≠ '?' && c ≠ '#'

/-- Whether a character is part of a query, and not the beginning of the fragment. -/
def inQuery (c : Char) : Bool :=
  c ≠ '#'

/-- Cut off the authority. -/
def cutAuthority : List Char → Option (List Char) × List Char
  | '/' :: '/' :: rest => (some (rest.takeWhile inAuthority), rest.dropWhile inAuthority)
  | cs => (none, cs)

/-- Cut off the query. -/
def cutQuery : List Char → Option (List Char) × List Char
  | '?' :: rest => (some (rest.takeWhile inQuery), rest.dropWhile inQuery)
  | cs => (none, cs)

/-- The fragment, if the text is one. -/
def fragmentOf? : List Char → Option (List Char)
  | '#' :: rest => some rest
  | _ => none

namespace Parts

/-- The parts of a text. -/
def ofText (cs : List Char) : Parts :=
  let scheme := cutScheme cs
  let authority := cutAuthority scheme.2
  let query := cutQuery (authority.2.dropWhile inPath)
  { scheme := scheme.1
    authority := authority.1
    path := authority.2.takeWhile inPath
    query := query.1
    fragment := fragmentOf? query.2 }

/-- A scheme with its colon. -/
def schemeText : Option (List Char) → List Char
  | some s => s ++ [':']
  | none => []

/-- Another part behind its mark. -/
def partText (mark : List Char) : Option (List Char) → List Char
  | some part => mark ++ part
  | none => []

/-- The parts put together. -/
def text (p : Parts) : List Char :=
  schemeText p.scheme ++ partText ['/', '/'] p.authority ++ p.path ++ partText ['?'] p.query ++
    partText ['#'] p.fragment

end Parts

/-! ## Nothing gets lost -/

open Parts (schemeText partText)

theorem text_cutScheme (cs : List Char) : schemeText (cutScheme cs).1 ++ (cutScheme cs).2 = cs := by
  fun_cases cutScheme cs with
  | case1 rest h hs =>
    have := List.takeWhile_append_dropWhile (p := isSchemeChar) (l := cs)
    rw [h] at this
    simpa [schemeText] using this
  | case2 rest h hs => simp [schemeText]
  | case3 h => simp [schemeText]

theorem text_cutAuthority (cs : List Char) :
    partText ['/', '/'] (cutAuthority cs).1 ++ (cutAuthority cs).2 = cs := by
  fun_cases cutAuthority cs with
  | case1 rest => simp [partText, List.takeWhile_append_dropWhile]
  | case2 cs h => simp [partText]

theorem text_cutQuery (cs : List Char) :
    partText ['?'] (cutQuery cs).1 ++ (cutQuery cs).2 = cs := by
  fun_cases cutQuery cs with
  | case1 rest => simp [partText, List.takeWhile_append_dropWhile]
  | case2 cs h => simp [partText]

/-- What is left after a part begins with no character of it. -/
theorem head_dropWhile {test : Char → Bool} {cs : List Char} {c : Char} {rest : List Char}
    (h : cs.dropWhile test = c :: rest) : test c = false := by
  induction cs with
  | nil => simp at h
  | cons d ds ih =>
    rw [List.dropWhile_cons] at h
    split at h
    · exact ih h
    · next hd => cases h; simpa using hd

/-- A text that begins with a number sign, if it is not empty, is a fragment behind its mark. -/
theorem text_fragmentOf (cs : List Char) (h : ∀ c rest, cs = c :: rest → c = '#') :
    partText ['#'] (fragmentOf? cs) = cs := by
  cases cs with
  | nil => rfl
  | cons c rest => obtain rfl := h c rest rfl; rfl

/-- After the path and the query only the fragment is left. -/
theorem head_cutQuery (cs : List Char) (c : Char) (rest : List Char)
    (h : (cutQuery (cs.dropWhile inPath)).2 = c :: rest) : c = '#' := by
  cases hp : cs.dropWhile inPath with
  | nil => simp [hp, cutQuery] at h
  | cons d ds =>
    have hd : inPath d = false := head_dropWhile hp
    rw [hp] at h
    by_cases hq : d = '?'
    · subst hq
      simpa [inQuery] using head_dropWhile h
    · simp only [cutQuery] at h
      split at h
      · next he => exact absurd (List.cons.inj he).1 hq
      · obtain rfl := (List.cons.inj h).1
        simpa [inPath, hq] using hd

/-- The text of the parts of a text is that text. -/
theorem Parts.text_ofText (cs : List Char) : (ofText cs).text = cs := by
  simp only [text, ofText]
  rw [text_fragmentOf _ (head_cutQuery _), List.append_assoc, text_cutQuery, List.append_assoc,
    List.takeWhile_append_dropWhile, List.append_assoc, text_cutAuthority, text_cutScheme]

/-! ## The authority -/

/-- What an authority names. -/
structure Authority where
  userInfo : List Char := []
  host : List Char := []
  port : List Char := []
deriving DecidableEq, Repr

namespace Authority

/-- The text before the last occurrence of a character and the text after it; all of it is after
one that does not occur. -/
def cutLast (mark : Char) (cs : List Char) : List Char × List Char :=
  let tail := (cs.reverse.takeWhile (· ≠ mark)).reverse
  ((cs.take (cs.length - tail.length)).dropLast, tail)

/-- Cut off the host: a text in brackets, up to the last one that closes, or what is before a
colon. -/
def cutHost (cs : List Char) : List Char × List Char :=
  if cs.head? = some '[' && cs.contains ']' then
    let tail := (cs.reverse.takeWhile (· ≠ ']')).reverse
    (cs.take (cs.length - tail.length), tail)
  else (cs.takeWhile (· ≠ ':'), cs.dropWhile (· ≠ ':'))

/-- What the text of an authority names: the user before the last at sign, the host, and the port
after a colon. -/
def ofText (cs : List Char) : Authority :=
  let (userInfo, rest) := cutLast '@' cs
  let (host, rest) := cutHost rest
  { userInfo, host, port := if rest.head? = some ':' then rest.drop 1 else rest }

end Authority

end TypedApi.Url
