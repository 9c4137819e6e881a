import WaitingRoom.Crypto.Der
import WaitingRoom.Crypto.Pem

/-!
# Signatures

RSA signatures over SHA-256 with the padding of PKCS #1, version 1.5, and the public
keys that verify them.
-/

namespace WaitingRoom.Crypto

/-- The power of a number to a modulus, `fuel` being at least the number of binary
digits of the exponent. -/
def powerModWithin : (fuel : Nat) → (result base exponent modulus : Nat) → Nat
  | 0, result, _, _, _ => result
  | fuel + 1, result, base, exponent, modulus =>
    if exponent == 0 then result
    else
      let result := if exponent % 2 == 1 then result * base % modulus else result
      powerModWithin fuel result (base * base % modulus) (exponent / 2) modulus

/-- The power of a number to a modulus. -/
def powerMod (base exponent modulus : Nat) : Nat :=
  powerModWithin (exponent.log2 + 1) (1 % modulus) (base % modulus) exponent modulus

/-- What precedes a hash inside the padding: it names SHA-256. -/
def hashInfo : List UInt8 :=
  [0x30, 0x31, 0x30, 0x0d, 0x06, 0x09, 0x60, 0x86, 0x48, 0x01, 0x65, 0x03, 0x04, 0x02, 0x01, 0x05,
   0x00, 0x04, 0x20]

/-- The padded hash of a message, `size` bytes long. -/
def paddedHash (size : Nat) (message : List UInt8) : List UInt8 :=
  let tail := hashInfo ++ sha256 message
  0x00 :: 0x01 :: List.replicate (size - tail.length - 3) 0xff ++ 0x00 :: tail

/-- A public key. -/
structure PublicKey where
  modulus : Nat
  exponent : Nat
  deriving DecidableEq, Repr

namespace PublicKey

/-- The number of bytes of the modulus, and of every signature. -/
def size (k : PublicKey) : Nat := (k.modulus.log2 + 8) / 8

/-- Whether the key is one that signatures are checked with: an odd modulus of 2048 to
8192 bits, whole bytes counted at the lower end, and an odd exponent from 3 on. -/
def isUsable (k : PublicKey) : Bool :=
  2048 ≤ k.size * 8 && k.modulus.log2 + 1 ≤ 8192 && k.modulus % 2 == 1 &&
    3 ≤ k.exponent && k.exponent < Nat.pow 2 33 && k.exponent % 2 == 1

/-- Reads a key from its bytes: a sequence of two positive numbers. -/
def parse? (bytes : List UInt8) : Option PublicKey := do
  let (body, rest) ← strictBlock? 0x30 bytes
  let (modulus, more) ← strictPositive? body
  let (exponent, last) ← strictPositive? more
  if rest.isEmpty && last.isEmpty then some ⟨modulus, exponent⟩ else none

end PublicKey

/-- Whether a signature over a message verifies with the key some bytes hold. -/
def verifies (key message signature : List UInt8) : Bool :=
  match PublicKey.parse? key with
  | none => false
  | some k =>
    let s := natOfBytes signature
    k.isUsable && signature.length == k.size && 0 < s && s < k.modulus &&
      bytesOfNat k.size (powerMod s k.exponent k.modulus) == paddedHash k.size message

/-- The labels under which a key is wrapped together with the name of its algorithm. -/
def wrappedLabels : List String := ["PUBLIC KEY", "CERTIFICATE", "PRIVATE KEY"]

/-- The labels under which the numbers of a key stand alone. -/
def bareLabels : List String := ["RSA PUBLIC KEY", "RSA PRIVATE KEY"]

/-- The bytes of the key a text holds: a wrapped key must name RSA, a bare one is taken
as it is. Whether the bytes are a key that verifies anything is left open. -/
def keyBytes? (text : String) : Option (List UInt8) := do
  let block ← PemBlock.parse? text.toList
  let blocks ← DerBlock.blocks? block.bytes
  let label := String.ofList block.label
  if bareLabels.contains label then some block.bytes
  else if wrappedLabels.contains label then
    if DerBlock.firstAlgorithm? blocks == some DerBlock.rsaId then DerBlock.firstContent? blocks
    else none
  else none

end WaitingRoom.Crypto
