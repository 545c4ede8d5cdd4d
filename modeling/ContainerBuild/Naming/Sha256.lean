namespace ContainerBuild
namespace Sha256

/-!
# The hash function SHA-256

A message of bytes is padded to whole blocks of sixteen words, and each block mixes its message
schedule of sixty-four words into a state of eight.  All arithmetic is on words of 32 bits.
-/

/-- The state between blocks, and the eight words that a block stirs. -/
structure State where
  a : UInt32
  b : UInt32
  c : UInt32
  d : UInt32
  e : UInt32
  f : UInt32
  g : UInt32
  h : UInt32
deriving DecidableEq

/-- Fractional parts of the square roots of the first eight primes. -/
def initial : State :=
  ⟨0x6a09e667, 0xbb67ae85, 0x3c6ef372, 0xa54ff53a,
    0x510e527f, 0x9b05688c, 0x1f83d9ab, 0x5be0cd19⟩

/-- Fractional parts of the cube roots of the first sixty-four primes, one for each round. -/
def roundConstants : List UInt32 := [
  0x428a2f98, 0x71374491, 0xb5c0fbcf, 0xe9b5dba5, 0x3956c25b, 0x59f111f1, 0x923f82a4, 0xab1c5ed5,
  0xd807aa98, 0x12835b01, 0x243185be, 0x550c7dc3, 0x72be5d74, 0x80deb1fe, 0x9bdc06a7, 0xc19bf174,
  0xe49b69c1, 0xefbe4786, 0x0fc19dc6, 0x240ca1cc, 0x2de92c6f, 0x4a7484aa, 0x5cb0a9dc, 0x76f988da,
  0x983e5152, 0xa831c66d, 0xb00327c8, 0xbf597fc7, 0xc6e00bf3, 0xd5a79147, 0x06ca6351, 0x14292967,
  0x27b70a85, 0x2e1b2138, 0x4d2c6dfc, 0x53380d13, 0x650a7354, 0x766a0abb, 0x81c2c92e, 0x92722c85,
  0xa2bfe8a1, 0xa81a664b, 0xc24b8b70, 0xc76c51a3, 0xd192e819, 0xd6990624, 0xf40e3585, 0x106aa070,
  0x19a4c116, 0x1e376c08, 0x2748774c, 0x34b0bcb5, 0x391c0cb3, 0x4ed8aa4a, 0x5b9cca4f, 0x682e6ff3,
  0x748f82ee, 0x78a5636f, 0x84c87814, 0x8cc70208, 0x90befffa, 0xa4506ceb, 0xbef9a3f7, 0xc67178f2]

/-- Turn a word to the right. -/
def rotateRight (word : UInt32) (count : UInt32) : UInt32 :=
  (word >>> count) ||| (word <<< (32 - count))

/-- The word of four bytes, the first the most significant. -/
def wordOfBytes (a b c d : UInt8) : UInt32 :=
  (a.toUInt32 <<< 24) ||| (b.toUInt32 <<< 16) ||| (c.toUInt32 <<< 8) ||| d.toUInt32

/-- The words of a run of bytes; a rest of fewer than four is left out. -/
def words : List UInt8 → List UInt32
  | a :: b :: c :: d :: rest => wordOfBytes a b c d :: words rest
  | _ => []

/-- The bytes of a number, the most significant first. -/
def bytesOfNat (count value : Nat) : List UInt8 :=
  (List.range count).map fun place => UInt8.ofNat (value >>> (8 * (count - 1 - place)))

/-- A message with a one bit, zeros, and its length in bits, filling whole blocks. -/
def pad (message : List UInt8) : List UInt8 :=
  let zeros := (64 - (message.length + 9) % 64) % 64
  message ++ 0x80 :: List.replicate zeros 0 ++ bytesOfNat 8 (8 * message.length)

/-- The blocks of a padded message, sixteen words each. -/
def blocks (words : List UInt32) : List (List UInt32) :=
  (List.range (words.length / 16)).map fun index => (words.drop (16 * index)).take 16

/-- The word that follows sixteen words of a schedule. -/
def nextWord (words : Array UInt32) : UInt32 :=
  let wordAt (back : Nat) : UInt32 := words.getD (words.size - back) 0
  let far := wordAt 15
  let near := wordAt 2
  wordAt 16 + (rotateRight far 7 ^^^ rotateRight far 18 ^^^ (far >>> 3)) +
    wordAt 7 + (rotateRight near 17 ^^^ rotateRight near 19 ^^^ (near >>> 10))

/-- The sixty-four words that a block is mixed in by. -/
def schedule (block : List UInt32) : List UInt32 :=
  ((List.range 48).foldl (fun words _ => words.push (nextWord words)) block.toArray).toList

/-- One round: mix in a round constant and a word of the schedule. -/
def mixRound (s : State) (input : UInt32 × UInt32) : State :=
  let high := rotateRight s.e 6 ^^^ rotateRight s.e 11 ^^^ rotateRight s.e 25
  let choice := (s.e &&& s.f) ^^^ (~~~s.e &&& s.g)
  let first := s.h + high + choice + input.1 + input.2
  let low := rotateRight s.a 2 ^^^ rotateRight s.a 13 ^^^ rotateRight s.a 22
  let majority := (s.a &&& s.b) ^^^ (s.a &&& s.c) ^^^ (s.b &&& s.c)
  ⟨first + (low + majority), s.a, s.b, s.c, s.d + first, s.e, s.f, s.g⟩

/-- Mix a block into the state. -/
def mixBlock (s : State) (block : List UInt32) : State :=
  let t := (roundConstants.zip (schedule block)).foldl mixRound s
  ⟨s.a + t.a, s.b + t.b, s.c + t.c, s.d + t.d, s.e + t.e, s.f + t.f, s.g + t.g, s.h + t.h⟩

/-- The eight words of the hash of a message. -/
def digest (message : List UInt8) : List UInt32 :=
  let s := (blocks (words (pad message))).foldl mixBlock initial
  [s.a, s.b, s.c, s.d, s.e, s.f, s.g, s.h]

/-- A word as eight hexadecimal digits in lower case. -/
def hexOfWord (word : UInt32) : List Char :=
  (List.range 8).map fun place => Nat.digitChar (word.toNat >>> (4 * (7 - place)) % 16)

/-- The hash of a text in hexadecimal digits. -/
def hexDigest (text : String) : List Char :=
  (digest text.toUTF8.toList).flatMap hexOfWord

end Sha256
end ContainerBuild
