/-!
The SHA-256 digest of a text.

The message is the UTF-8 form of the text, padded to whole blocks of sixteen
words with a one bit and the length. Each block is expanded to sixty-four
words and mixed into eight words of state.
-/

set_option autoImplicit false

namespace TypedApi.Docs.Digest

/-- The constants of the sixty-four rounds. -/
def roundConstants : Array UInt32 :=
  #[0x428a2f98, 0x71374491, 0xb5c0fbcf, 0xe9b5dba5, 0x3956c25b, 0x59f111f1, 0x923f82a4, 0xab1c5ed5,
    0xd807aa98, 0x12835b01, 0x243185be, 0x550c7dc3, 0x72be5d74, 0x80deb1fe, 0x9bdc06a7, 0xc19bf174,
    0xe49b69c1, 0xefbe4786, 0x0fc19dc6, 0x240ca1cc, 0x2de92c6f, 0x4a7484aa, 0x5cb0a9dc, 0x76f988da,
    0x983e5152, 0xa831c66d, 0xb00327c8, 0xbf597fc7, 0xc6e00bf3, 0xd5a79147, 0x06ca6351, 0x14292967,
    0x27b70a85, 0x2e1b2138, 0x4d2c6dfc, 0x53380d13, 0x650a7354, 0x766a0abb, 0x81c2c92e, 0x92722c85,
    0xa2bfe8a1, 0xa81a664b, 0xc24b8b70, 0xc76c51a3, 0xd192e819, 0xd6990624, 0xf40e3585, 0x106aa070,
    0x19a4c116, 0x1e376c08, 0x2748774c, 0x34b0bcb5, 0x391c0cb3, 0x4ed8aa4a, 0x5b9cca4f, 0x682e6ff3,
    0x748f82ee, 0x78a5636f, 0x84c87814, 0x8cc70208, 0x90befffa, 0xa4506ceb, 0xbef9a3f7, 0xc67178f2]

/-- The state before the first block. -/
def initialState : List UInt32 :=
  [0x6a09e667, 0xbb67ae85, 0x3c6ef372, 0xa54ff53a, 0x510e527f, 0x9b05688c, 0x1f83d9ab, 0x5be0cd19]

/-- Rotation to the right. -/
def rotate (x : UInt32) (n : UInt32) : UInt32 :=
  (x >>> n) ||| (x <<< (32 - n))

/-- Four bytes as a word, the first the most significant; missing bytes are zero. -/
def word (bytes : List UInt8) : UInt32 :=
  ((List.range 4).foldl (fun acc i => (acc <<< 8) ||| (bytes.getD i 0).toUInt32) 0)

/-- The bytes of a message as words; the fuel is the count of words. -/
def wordsOf : Nat → List UInt8 → List UInt32
  | 0, _ => []
  | fuel + 1, bytes => word (bytes.take 4) :: wordsOf fuel (bytes.drop 4)

/-- The message with its padding, in words. -/
def padded (bytes : List UInt8) : List UInt32 :=
  let zeros := (119 - bytes.length % 64) % 64
  let bits := bytes.length * 8
  let length := (List.range 8).map fun i => UInt8.ofNat (bits / Nat.pow 256 (7 - i) % 256)
  let whole := bytes ++ [0x80] ++ List.replicate zeros 0 ++ length
  wordsOf (whole.length / 4) whole

/-- The sixty-four words of a block. -/
def schedule (block : List UInt32) : Array UInt32 :=
  (List.range 48).foldl (fun w i =>
    let a := w.getD (i + 1) 0
    let b := w.getD (i + 14) 0
    let s0 := rotate a 7 ^^^ rotate a 18 ^^^ (a >>> 3)
    let s1 := rotate b 17 ^^^ rotate b 19 ^^^ (b >>> 10)
    w.push (w.getD i 0 + s0 + w.getD (i + 9) 0 + s1)) block.toArray

/-- One round on the eight words of state. -/
def round (state : List UInt32) (w k : UInt32) : List UInt32 :=
  match state with
  | [a, b, c, d, e, f, g, h] =>
    let s1 := rotate e 6 ^^^ rotate e 11 ^^^ rotate e 25
    let ch := (e &&& f) ^^^ ((e ^^^ 0xffffffff) &&& g)
    let t1 := h + s1 + ch + k + w
    let s0 := rotate a 2 ^^^ rotate a 13 ^^^ rotate a 22
    let maj := (a &&& b) ^^^ (a &&& c) ^^^ (b &&& c)
    [t1 + s0 + maj, a, b, c, d + t1, e, f, g]
  | other => other

/-- Mix a block into the state. -/
def compress (state block : List UInt32) : List UInt32 :=
  let w := schedule block
  let mixed := (List.range 64).foldl
    (fun s i => round s (w.getD i 0) (roundConstants.getD i 0)) state
  List.zipWith (· + ·) state mixed

/-- Mix all blocks into the state; the fuel is the count of blocks. -/
def compressAll (state : List UInt32) : Nat → List UInt32 → List UInt32
  | 0, _ => state
  | fuel + 1, words => compressAll (compress state (words.take 16)) fuel (words.drop 16)

/-- A word as eight hexadecimal digits. -/
def hexWord (w : UInt32) : List Char :=
  (List.range 8).map fun i => Nat.digitChar (w.toNat / Nat.pow 16 (7 - i) % 16)

/-- The digest of a text in hexadecimal. -/
def ofText (text : String) : String :=
  let words := padded text.toUTF8.toList
  String.ofList ((compressAll initialState (words.length / 16) words).flatMap hexWord)

end TypedApi.Docs.Digest
