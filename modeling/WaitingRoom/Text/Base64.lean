import WaitingRoom.Text.Ascii

/-!
# Base64

Bytes spelled with 64 signs, six bits each, in the two alphabets that keys and tokens
use. Reading is strict: no sign outside the alphabet, no bits left over, and padding
exactly as the alphabet's users write it.
-/

namespace WaitingRoom.Text

/-- A way of spelling bytes: the signs of the values 62 and 63, and whether the text is
filled up with equals signs to a multiple of four. -/
structure Base64Alphabet where
  sign62 : Char
  sign63 : Char
  padded : Bool

/-- The alphabet of keys. -/
def standardBase64 : Base64Alphabet := ⟨'+', '/', true⟩

/-- The alphabet of tokens, safe in addresses and without padding. -/
def urlBase64 : Base64Alphabet := ⟨'-', '_', false⟩

namespace Base64Alphabet

/-- The value of a sign. -/
def value? (a : Base64Alphabet) (c : Char) : Option Nat :=
  if 'A' ≤ c && c ≤ 'Z' then some (c.toNat - 'A'.toNat)
  else if 'a' ≤ c && c ≤ 'z' then some (c.toNat - 'a'.toNat + 26)
  else if isDigit c then some (c.toNat - '0'.toNat + 52)
  else if c == a.sign62 then some 62
  else if c == a.sign63 then some 63
  else none

/-- The low eight bits of a number as a byte. -/
def byte (n : Nat) : UInt8 := UInt8.ofNat n

/-- The bytes of a row of six-bit values, put behind the bytes `done` that are given
last byte first; bits that fill no byte must be zero. -/
def gather (done : List UInt8) : List Nat → Option (List UInt8)
  | [] => some done.reverse
  | [_] => none
  | [a, b] => if b % 16 == 0 then some (byte (a * 4 + b / 16) :: done).reverse else none
  | [a, b, c] =>
    if c % 4 == 0 then
      some (byte (b % 16 * 16 + c / 4) :: byte (a * 4 + b / 16) :: done).reverse
    else none
  | a :: b :: c :: d :: rest =>
    gather (byte (c % 4 * 64 + d) :: byte (b % 16 * 16 + c / 4) :: byte (a * 4 + b / 16) :: done)
      rest

/-- Removes the padding of a text, if it has as much as it needs. -/
def unpad? (cs : List Char) : Option (List Char) :=
  if cs.length % 4 != 0 then none
  else
    match cs.reverse with
    | '=' :: '=' :: rest => some rest.reverse
    | '=' :: rest => some rest.reverse
    | _ => some cs

/-- Reads the bytes a text spells. -/
def decode? (a : Base64Alphabet) (cs : List Char) : Option (List UInt8) := do
  let signs ← if a.padded then unpad? cs else some cs
  let values ← signs.mapM a.value?
  gather [] values

end Base64Alphabet

end WaitingRoom.Text
