import TypedApi.Document.Yaml.Block
import TypedApi.Document.Yaml.Plain
import TypedApi.Document.Yaml.Quoted
import TypedApi.Document.Yaml.Tag
/-!
Tokens: a text cut into the marks of the format.

Indentation becomes marks as well: a block opens where a line is indented
further than what holds it, and is closed by the first that is not. A mapping
may begin without a mark of its own; that is known only at the colon after its
first key. So the place of everything that might turn out to be a key is
remembered until its line ends, and the marks for key and mapping are put in
there when the colon comes.
-/

set_option autoImplicit false

namespace TypedApi.Document.Yaml

/-- A mark of the format. -/
inductive Token where
  | versionDirective (major : Nat)
  | tagDirective (handle start : String)
  | otherDirective
  | documentStart
  | documentEnd
  | blockSequenceStart
  | blockMappingStart
  | blockEnd
  | flowSequenceStart
  | flowSequenceEnd
  | flowMappingStart
  | flowMappingEnd
  | blockEntry
  | flowEntry
  | key
  | value
  | anchor (name : String)
  | reference (name : String)
  | tag (tag : WrittenTag)
  | scalar (text : String) (plain : Bool)
deriving DecidableEq, Repr, Inhabited

/-- Something that may turn out to be a key: where its tokens begin and where it stands. A
required one stands where a block mapping could go on with nothing else. -/
structure Candidate where
  position : Nat
  required : Bool
  index : Nat
  line : Nat
  column : Nat
deriving Repr, Inhabited

/-- What is known in the middle of a text. -/
structure Lexer where
  cursor : Cursor
  flowDepth : Nat := 0
  /-- The indentation of the innermost block, below zero outside of all. -/
  indent : Int := -1
  /-- The indentations of the blocks around it. -/
  outer : List Int := []
  /-- Whether a key may begin here. -/
  keyAllowed : Bool := true
  /-- The candidate of each flow depth. -/
  candidates : List (Nat × Candidate) := []
  tokens : Array Token := #[]
deriving Inhabited

/-- A step of cutting a text into tokens. -/
abbrev Lex := StateT Lexer (Except Fault)

namespace Lex

/-- Add a token. -/
def emit (t : Token) : Lex Unit :=
  modify fun l => { l with tokens := l.tokens.push t }

/-- Move the cursor. -/
def moveTo (c : Cursor) : Lex Unit :=
  modify fun l => { l with cursor := c }

/-- Whether a key may begin from here on. -/
def allowKey (b : Bool) : Lex Unit :=
  modify fun l => { l with keyAllowed := b }

/-! ## Between tokens -/

/-- Go on to the next token, over spaces, comments and line breaks. -/
def gapFrom (inFlow : Bool) : Nat → Bool → Cursor → Bool × Cursor
  | 0, allowed, c => (allowed, c)
  | fuel + 1, allowed, c =>
    let c := (c.skipWhile (· = ' ')).skipComment
    match c.lineBreak? with
    | some (_, next) => gapFrom inFlow fuel (allowed || !inFlow) next
    | none => (allowed, c)

/-- Go on to the next token. Outside of flow collections a key may begin on a new line. -/
def skipGap : Lex Unit := do
  let l ← get
  let c := if l.cursor.index = 0 && l.cursor.peek = some '\ufeff' then l.cursor.step else l.cursor
  let (keyAllowed, cursor) := gapFrom (0 < l.flowDepth) (c.rest.length + 1) l.keyAllowed c
  modify fun l => { l with keyAllowed, cursor }

/-- How far the colon of a key may be from its beginning. -/
def keyLimit : Nat := 1024

/-- Whether a candidate can no longer become a key: it is on another line or too far back. -/
def isStale (l : Lexer) (k : Candidate) : Bool :=
  k.line ≠ l.cursor.line || k.index + keyLimit < l.cursor.index

/-- Forget the candidates that can no longer become keys. -/
def dropStale : Lex Unit := do
  let l ← get
  if l.candidates.any fun p => isStale l p.2 && p.2.required then throw .unreadable
  modify fun l => { l with candidates := l.candidates.filter fun p => !isStale l p.2 }

/-- Forget the candidate of the current depth. -/
def dropCandidate : Lex Unit := do
  let l ← get
  if l.candidates.any fun p => p.1 = l.flowDepth && p.2.required then throw .unreadable
  modify fun l => { l with candidates := l.candidates.filter fun p => p.1 ≠ l.flowDepth }

/-- Remember the token that comes next as a candidate, if a key may begin here. -/
def saveCandidate : Lex Unit := do
  let l ← get
  if l.keyAllowed then
    dropCandidate
    let c := l.cursor
    let candidate : Candidate := {
      position := l.tokens.size
      required := l.flowDepth = 0 && l.indent = c.column
      index := c.index
      line := c.line
      column := c.column }
    modify fun l => { l with candidates := (l.flowDepth, candidate) :: l.candidates }

/-! ## Indentation -/

/-- Close the blocks that are indented further than a column. -/
def closeTo (column : Int) : List Int → Int → Array Token → Int × List Int × Array Token
  | [], indent, tokens => (indent, [], tokens)
  | next :: outer, indent, tokens =>
    if column < indent then closeTo column outer next (tokens.push .blockEnd)
    else (indent, next :: outer, tokens)

/-- Close the blocks that are indented further than a column, outside of flow collections. -/
def unwind (column : Int) : Lex Unit :=
  modify fun l =>
    if 0 < l.flowDepth then l
    else
      let (indent, outer, tokens) := closeTo column l.outer l.indent l.tokens
      { l with indent, outer, tokens }

/-- Open a block at a column that is indented further than the innermost one: its token is put in
at a position. -/
def openBlock (column : Nat) (position : Nat) (t : Token) : Lex Unit :=
  modify fun l =>
    if l.indent < (column : Int) then
      { l with
        outer := l.indent :: l.outer
        indent := column
        tokens := l.tokens.insertIdxIfInBounds position t }
    else l

/-- Open a block at the cursor. -/
def openBlockHere (t : Token) : Lex Unit := do
  let l ← get
  openBlock l.cursor.column l.tokens.size t

/-! ## Tokens -/

/-- A number of a directive. -/
def directiveNumber (c : Cursor) : Except Fault (Nat × Cursor) :=
  match c.span Char.isDigit with
  | ([], _) => .error .unreadable
  | (digits, after) =>
    if digits.length ≤ Text.digitLimit then .ok (Json.digitsValue digits, after)
    else .error .malformed

/-- The directive that begins here. -/
def directive (c : Cursor) : Except Fault (Token × Cursor) := do
  let (name, c) := c.step.span isNameChar
  if name.isEmpty || !isSpaceOrEnd c.peek then throw .unreadable
  let spaced := c.skipWhile (· = ' ')
  match String.ofList name with
  | "YAML" =>
    let (major, c) ← directiveNumber spaced
    if c.peek ≠ some '.' then throw .unreadable
    let (_, c) ← directiveNumber c.step
    if !isSpaceOrEnd c.peek then throw .unreadable
    return (.versionDirective major, ← c.skipIgnored)
  | "TAG" =>
    let (h, c) ← handle spaced
    if c.peek ≠ some ' ' then throw .unreadable
    let (start, c) ← address (c.skipWhile (· = ' '))
    if !isSpaceOrEnd c.peek then throw .unreadable
    return (.tagDirective h start, ← c.skipIgnored)
  | _ => return (.otherDirective, ← (c.skipWhile (!isBreak ·)).skipIgnored)

/-- A token that ends all blocks: a directive or a mark between documents. -/
def separator (t : Token) (after : Cursor) : Lex Unit := do
  unwind (-1)
  dropCandidate
  allowKey false
  emit t
  moveTo after

/-- The beginning of a flow collection. -/
def openFlow (t : Token) : Lex Unit := do
  saveCandidate
  emit t
  modify fun l => { l with flowDepth := l.flowDepth + 1, keyAllowed := true, cursor := l.cursor.step }

/-- The end of a flow collection; there must be one to end. -/
def closeFlow (t : Token) : Lex Unit := do
  dropCandidate
  emit t
  let l ← get
  match l.flowDepth with
  | 0 => throw .unreadable
  | depth + 1 =>
    modify fun l => { l with flowDepth := depth, keyAllowed := false, cursor := l.cursor.step }

/-- The mark between elements of a flow collection. -/
def flowEntry : Lex Unit := do
  allowKey true
  dropCandidate
  emit .flowEntry
  modify fun l => { l with cursor := l.cursor.step }

/-- The mark before an element of a block sequence. -/
def blockEntry : Lex Unit := do
  let l ← get
  if l.flowDepth = 0 then
    if !l.keyAllowed then throw .unreadable
    openBlockHere .blockSequenceStart
  allowKey true
  dropCandidate
  emit .blockEntry
  moveTo l.cursor.step

/-- A mark that says that a key follows. -/
def explicitKey : Lex Unit := do
  let l ← get
  if l.flowDepth = 0 then
    if !l.keyAllowed then throw .unreadable
    openBlockHere .blockMappingStart
  allowKey (l.flowDepth = 0)
  dropCandidate
  emit .key
  moveTo l.cursor.step

/-- A colon: what went before on the line is a key if it can be one. -/
def keyValue : Lex Unit := do
  let l ← get
  match l.candidates.find? fun p => p.1 = l.flowDepth with
  | some (_, k) =>
    modify fun l => { l with
      candidates := l.candidates.filter fun p => p.1 ≠ l.flowDepth
      tokens := l.tokens.insertIdxIfInBounds k.position .key
      keyAllowed := false }
    if l.flowDepth = 0 then openBlock k.column k.position .blockMappingStart
  | none =>
    if l.flowDepth = 0 then
      if !l.keyAllowed then throw .unreadable
      openBlockHere .blockMappingStart
    allowKey (l.flowDepth = 0)
    dropCandidate
  emit .value
  moveTo l.cursor.step

/-- A name after its indicator. -/
def nodeName (c : Cursor) : Except Fault (String × Cursor) :=
  let (name, after) := c.step.span isNameChar
  let ended := isGap after.peek || after.peek.any fun ch => "?:,]\x7d%@\x60".toList.contains ch
  if name.isEmpty || !ended then .error .unreadable else .ok (String.ofList name, after)

/-- A token that a key may begin with. -/
def nodeStart (read : Cursor → Except Fault (Token × Cursor)) : Lex Unit := do
  saveCandidate
  allowKey false
  let (t, after) ← read (← get).cursor
  emit t
  moveTo after

/-- A block scalar. -/
def block (folded : Bool) : Lex Unit := do
  allowKey true
  dropCandidate
  let l ← get
  let (content, after) ← blockScalar folded l.indent l.cursor
  emit (.scalar content false)
  moveTo after

/-- A plain scalar. A key may follow it on a new line. -/
def plain : Lex Unit := do
  saveCandidate
  let l ← get
  let reading := plainScalar (0 < l.flowDepth) (l.indent + 1) l.cursor
  emit (.scalar (String.ofList reading.text) true)
  modify fun l => { l with keyAllowed := reading.broken, cursor := reading.cursor }

/-- The token that begins with a character, at the cursor. -/
def tokenAt (ch : Char) : Lex Unit := do
  let l ← get
  let c := l.cursor
  let inFlow : Bool := 0 < l.flowDepth
  let gapped := isGap (c.peekAt 1)
  if ch = '%' && c.column = 0 then
    unwind (-1)
    dropCandidate
    let (t, after) ← directive c
    separator t after
  else if c.column = 0 && c.atMark '-' then separator .documentStart (c.skip 3)
  else if c.column = 0 && c.atMark '.' then separator .documentEnd (c.skip 3)
  else if ch = '[' then openFlow .flowSequenceStart
  else if ch = '{' then openFlow .flowMappingStart
  else if ch = ']' then closeFlow .flowSequenceEnd
  else if ch = '}' then closeFlow .flowMappingEnd
  else if ch = ',' then flowEntry
  else if ch = '-' && gapped then blockEntry
  else if ch = '?' && (inFlow || gapped) then explicitKey
  else if ch = ':' && (inFlow || gapped) then keyValue
  else if ch = '*' then nodeStart fun c => (nodeName c).map fun p => (.reference p.1, p.2)
  else if ch = '&' then nodeStart fun c => (nodeName c).map fun p => (.anchor p.1, p.2)
  else if ch = '!' then nodeStart fun c => (writtenTag c).map fun p => (.tag p.1, p.2)
  else if ch = '|' && !inFlow then block false
  else if ch = '>' && !inFlow then block true
  else if ch = '\'' then nodeStart fun c => (quotedScalar false c).map fun p => (.scalar p.1 false, p.2)
  else if ch = '"' then nodeStart fun c => (quotedScalar true c).map fun p => (.scalar p.1 false, p.2)
  else if startsPlain inFlow c then plain
  else throw .unreadable

/-- Go on by one token, or to the end of the text; gives whether that is reached. -/
def advance : Lex Bool := do
  skipGap
  dropStale
  let l ← get
  unwind l.cursor.column
  match l.cursor.peek with
  | none =>
    unwind (-1)
    dropCandidate
    return true
  | some ch =>
    tokenAt ch
    return false

/-- How many tokens cannot change any more: those before the first that may turn out to be a key. -/
def settled (l : Lexer) : Nat :=
  ((l.candidates.filter fun p => !isStale l p.2).map fun p => p.2.position).foldl min l.tokens.size

end Lex

/-- The tokens of a text as far as they go, and why they go no further if that is not the end of
the text. -/
structure Scanned where
  tokens : List Token
  fault : Option Fault := none
deriving Repr, Inhabited

/-- The tokens from a state on. Before a fault only those are kept that could not change any
more. -/
def Lexer.scanFrom : Nat → Lexer → Scanned
  | 0, _ => ⟨[], some .unreadable⟩
  | fuel + 1, l =>
    match Lex.advance.run l with
    | .error fault => ⟨l.tokens.toList.take (Lex.settled l), some fault⟩
    | .ok (true, done) => ⟨done.tokens.toList, none⟩
    | .ok (false, next) => scanFrom fuel next

/-- Whether a character may be part of a text in the format. -/
def isAdmitted (c : Char) : Bool :=
  let n := c.toNat
  n = 0x9 || n = 0xa || n = 0xd || (0x20 ≤ n && n ≤ 0x7e) || n = 0x85 ||
    (0xa0 ≤ n && n ≤ 0xd7ff) || (0xe000 ≤ n && n ≤ 0xfffd) ||
    (0x10000 ≤ n && (Text.halfUnit? c).isNone)

/-- The tokens of a text. -/
def Token.scan (text : String) : Scanned :=
  let cs := text.toList
  if cs.all isAdmitted then Lexer.scanFrom (cs.length + 1) { cursor := { rest := cs } }
  else ⟨[], some .unreadable⟩

end TypedApi.Document.Yaml
