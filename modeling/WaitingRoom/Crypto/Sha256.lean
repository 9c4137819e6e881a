/-!
# SHA-256

The hash that signatures of tokens are made over.
-/

namespace WaitingRoom.Crypto

/-- The constants of the 64 rounds: the first 32 bits of the fractional parts of the
cube roots of the first 64 primes. -/
def roundConstants : List UInt32 :=
  [0x428a2f98, 0x71374491, 0xb5c0fbcf, 0xe9b5dba5, 0x3956c25b, 0x59f111f1, 0x923f82a4, 0xab1c5ed5,
   0xd807aa98, 0x12835b01, 0x243185be, 0x550c7dc3, 0x72be5d74, 0x80deb1fe, 0x9bdc06a7, 0xc19bf174,
   0xe49b69c1, 0xefbe4786, 0x0fc19dc6, 0x240ca1cc, 0x2de92c6f, 0x4a7484aa, 0x5cb0a9dc, 0x76f988da,
   0x983e5152, 0xa831c66d, 0xb00327c8, 0xbf597fc7, 0xc6e00bf3, 0xd5a79147, 0x06ca6351, 0x14292967,
   0x27b70a85, 0x2e1b2138, 0x4d2c6dfc, 0x53380d13, 0x650a7354, 0x766a0abb, 0x81c2c92e, 0x92722c85,
   0xa2bfe8a1, 0xa81a664b, 0xc24b8b70, 0xc76c51a3, 0xd192e819, 0xd6990624, 0xf40e3585, 0x106aa070,
   0x19a4c116, 0x1e376c08, 0x2748774c, 0x34b0bcb5, 0x391c0cb3, 0x4ed8aa4a, 0x5b9cca4f, 0x682e6ff3,
   0x748f82ee, 0x78a5636f, 0x84c87814, 0x8cc70208, 0x90befffa, 0xa4506ceb, 0xbef9a3f7, 0xc67178f2]

/-- The eight words a hash is computed in. -/
structure HashState where
  a : UInt32
  b : UInt32
  c : UInt32
  d : UInt32
  e : UInt32
  f : UInt32
  g : UInt32
  h : UInt32

namespace HashState

/-- The words to start from: the first 32 bits of the fractional parts of the square
roots of the first eight primes. -/
def initial : HashState :=
  ⟨0x6a09e667, 0xbb67ae85, 0x3c6ef372, 0xa54ff53a, 0x510e527f, 0x9b05688c, 0x1f83d9ab, 0x5be0cd19⟩

/-- Adds two states word by word. -/
def add (s t : HashState) : HashState :=
  ⟨s.a + t.a, s.b + t.b, s.c + t.c, s.d + t.d, s.e + t.e, s.f + t.f, s.g + t.g, s.h + t.h⟩

/-- The words in order. -/
def words (s : HashState) : List UInt32 := [s.a, s.b, s.c, s.d, s.e, s.f, s.g, s.h]

end HashState

/-- Rotates a word to the right. -/
def rotateRight (w : UInt32) (n : UInt32) : UInt32 := (w >>> n) ||| (w <<< (32 - n))

/-- One round, with its constant and its word of the message. -/
def hashRound (s : HashState) (constant word : UInt32) : HashState :=
  let sum1 := rotateRight s.e 6 ^^^ rotateRight s.e 11 ^^^ rotateRight s.e 25
  let choice := (s.e &&& s.f) ^^^ (~~~s.e &&& s.g)
  let first := s.h + sum1 + choice + constant + word
  let sum0 := rotateRight s.a 2 ^^^ rotateRight s.a 13 ^^^ rotateRight s.a 22
  let majority := (s.a &&& s.b) ^^^ (s.a &&& s.c) ^^^ (s.b &&& s.c)
  ⟨first + (sum0 + majority), s.a, s.b, s.c, s.d + first, s.e, s.f, s.g⟩

/-- The next word of the schedule, from the last sixteen, the newest first. -/
def nextWord (newest : List UInt32) : UInt32 :=
  let w15 := newest.getD 14 0
  let w2 := newest.getD 1 0
  let s0 := rotateRight w15 7 ^^^ rotateRight w15 18 ^^^ (w15 >>> 3)
  let s1 := rotateRight w2 17 ^^^ rotateRight w2 19 ^^^ (w2 >>> 10)
  newest.getD 15 0 + s0 + newest.getD 6 0 + s1

/-- The schedule of a block, the newest word first, `count` words longer. -/
def extendSchedule : (count : Nat) → List UInt32 → List UInt32
  | 0, ws => ws
  | count + 1, ws => extendSchedule count (nextWord ws :: ws)

/-- Takes a block of sixteen words into the hash. -/
def hashBlock (s : HashState) (block : List UInt32) : HashState :=
  let schedule := (extendSchedule 48 block.reverse).reverse
  s.add ((roundConstants.zip schedule).foldl (fun s (k, w) => hashRound s k w) s)

/-- The words of a row of bytes, four bytes each, the highest first. -/
def wordsOfBytes : List UInt8 → List UInt32
  | a :: b :: c :: d :: rest =>
    ((a.toUInt32 <<< 24) ||| (b.toUInt32 <<< 16) ||| (c.toUInt32 <<< 8) ||| d.toUInt32) ::
      wordsOfBytes rest
  | _ => []

/-- The bytes of a number, `width` of them, the highest first. -/
def bytesOfNat : (width : Nat) → Nat → List UInt8
  | 0, _ => []
  | width + 1, n => bytesOfNat width (n / 256) ++ [UInt8.ofNat n]

/-- The number a row of bytes stands for, the highest first. -/
def natOfBytes (bytes : List UInt8) : Nat := bytes.foldl (fun n b => 256 * n + b.toNat) 0

/-- The message filled up to whole blocks: a one bit, zeros, and its length in bits. -/
def padMessage (message : List UInt8) : List UInt8 :=
  let zeros := (119 - message.length % 64) % 64
  message ++ 0x80 :: List.replicate zeros 0 ++ bytesOfNat 8 (8 * message.length)

/-- Takes the words of whole blocks into the hash, `count` blocks at most. -/
def hashBlocks : (count : Nat) → HashState → List UInt32 → HashState
  | 0, s, _ => s
  | count + 1, s, ws =>
    if ws.isEmpty then s else hashBlocks count (hashBlock s (ws.take 16)) (ws.drop 16)

/-- The hash of a message. -/
def sha256 (message : List UInt8) : List UInt8 :=
  let ws := wordsOfBytes (padMessage message)
  (hashBlocks ws.length HashState.initial ws).words.flatMap fun w => bytesOfNat 4 w.toNat

end WaitingRoom.Crypto
