import SchemaAtlas.Text.Hex

/-!
# Document ids

A document is identified by its content: `sha256:` and the SHA-256 digest of its UTF-8 bytes in
hexadecimal. The digest pads the message to blocks of 64 bytes and folds each block into eight
words of 32 bits.
-/

namespace SchemaAtlas.Digest

/-- The round constants: the first 32 bits of the fractions of the cube roots of the first 64
primes. -/
def roundConstants : List UInt32 :=
  [0x428a2f98, 0x71374491, 0xb5c0fbcf, 0xe9b5dba5, 0x3956c25b, 0x59f111f1, 0x923f82a4, 0xab1c5ed5,
   0xd807aa98, 0x12835b01, 0x243185be, 0x550c7dc3, 0x72be5d74, 0x80deb1fe, 0x9bdc06a7, 0xc19bf174,
   0xe49b69c1, 0xefbe4786, 0x0fc19dc6, 0x240ca1cc, 0x2de92c6f, 0x4a7484aa, 0x5cb0a9dc, 0x76f988da,
   0x983e5152, 0xa831c66d, 0xb00327c8, 0xbf597fc7, 0xc6e00bf3, 0xd5a79147, 0x06ca6351, 0x14292967,
   0x27b70a85, 0x2e1b2138, 0x4d2c6dfc, 0x53380d13, 0x650a7354, 0x766a0abb, 0x81c2c92e, 0x92722c85,
   0xa2bfe8a1, 0xa81a664b, 0xc24b8b70, 0xc76c51a3, 0xd192e819, 0xd6990624, 0xf40e3585, 0x106aa070,
   0x19a4c116, 0x1e376c08, 0x2748774c, 0x34b0bcb5, 0x391c0cb3, 0x4ed8aa4a, 0x5b9cca4f, 0x682e6ff3,
   0x748f82ee, 0x78a5636f, 0x84c87814, 0x8cc70208, 0x90befffa, 0xa4506ceb, 0xbef9a3f7, 0xc67178f2]

/-- The eight words of the digest between blocks. -/
structure State where
  a : UInt32
  b : UInt32
  c : UInt32
  d : UInt32
  e : UInt32
  f : UInt32
  g : UInt32
  h : UInt32

/-- The words before the first block: the first 32 bits of the fractions of the square roots of
the first eight primes. -/
def State.start : State :=
  { a := 0x6a09e667, b := 0xbb67ae85, c := 0x3c6ef372, d := 0xa54ff53a
    e := 0x510e527f, f := 0x9b05688c, g := 0x1f83d9ab, h := 0x5be0cd19 }

/-- A word turned to the right. -/
def rotate (x n : UInt32) : UInt32 :=
  (x >>> n) ||| (x <<< (32 - n))

/-- One round, with its constant and the word of the schedule. -/
def State.round (s : State) (k w : UInt32) : State :=
  let s1 := rotate s.e 6 ^^^ rotate s.e 11 ^^^ rotate s.e 25
  let choice := (s.e &&& s.f) ^^^ ((~~~s.e) &&& s.g)
  let t1 := s.h + s1 + choice + k + w
  let s0 := rotate s.a 2 ^^^ rotate s.a 13 ^^^ rotate s.a 22
  let majority := (s.a &&& s.b) ^^^ (s.a &&& s.c) ^^^ (s.b &&& s.c)
  { a := t1 + (s0 + majority), b := s.a, c := s.b, d := s.c
    e := s.d + t1, f := s.e, g := s.f, h := s.g }

/-- Adds the words of two states. -/
def State.add (s t : State) : State :=
  { a := s.a + t.a, b := s.b + t.b, c := s.c + t.c, d := s.d + t.d
    e := s.e + t.e, f := s.f + t.f, g := s.g + t.g, h := s.h + t.h }

/-- The words of a state in order. -/
def State.words (s : State) : List UInt32 :=
  [s.a, s.b, s.c, s.d, s.e, s.f, s.g, s.h]

/-- The next word of a schedule of which the words so far are given, last first. -/
def nextWord (schedule : List UInt32) : UInt32 :=
  let at' (i : Nat) := schedule.getD (i - 1) 0
  let x := at' 15
  let y := at' 2
  let s0 := rotate x 7 ^^^ rotate x 18 ^^^ (x >>> 3)
  let s1 := rotate y 17 ^^^ rotate y 19 ^^^ (y >>> 10)
  at' 16 + s0 + at' 7 + s1

/-- The schedule of a block of sixteen words. -/
def schedule (block : List UInt32) : List UInt32 :=
  ((List.range 48).foldl (fun words _ => nextWord words :: words) block.reverse).reverse

/-- Folds a block into a state. -/
def State.compress (s : State) (block : List UInt32) : State :=
  s.add ((roundConstants.zip (schedule block)).foldl (fun t (k, w) => t.round k w) s)

/-- Bytes as words, four at a time, most significant first. -/
def words : List UInt8 → List UInt32
  | a :: b :: c :: d :: rest =>
    ((a.toUInt32 <<< 24) ||| (b.toUInt32 <<< 16) ||| (c.toUInt32 <<< 8) ||| d.toUInt32) ::
      words rest
  | _ => []

/-- A number as eight bytes, most significant first. -/
def lengthBytes (n : Nat) : List UInt8 :=
  (List.range 8).reverse.map fun i => UInt8.ofNat (n >>> (8 * i))

/-- A message filled up to whole blocks: a one bit, zeros, and the length in bits. -/
def pad (bytes : List UInt8) : List UInt8 :=
  let zeros := List.replicate ((119 - bytes.length % 64) % 64) 0
  bytes ++ 0x80 :: zeros ++ lengthBytes (bytes.length * 8)

/-- Folds the words of whole blocks into a state; `fuel` bounds the number of blocks. -/
def State.absorb (s : State) : Nat → List UInt32 → State
  | 0, _ => s
  | fuel + 1, ws => if ws.isEmpty then s else (s.compress (ws.take 16)).absorb fuel (ws.drop 16)

/-- The SHA-256 digest of a text in lower-case hexadecimal. -/
def sha256 (text : String) : String :=
  let ws := words (pad text.toUTF8.toList)
  let digest := State.start.absorb ws.length ws
  String.ofList (digest.words.flatMap fun w => Text.lowerHexDigits 8 w.toNat)

/-- The id of a document with the given text. -/
def documentId (text : String) : String :=
  "sha256:" ++ sha256 text

end SchemaAtlas.Digest
