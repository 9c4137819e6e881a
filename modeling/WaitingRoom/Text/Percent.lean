import WaitingRoom.Text.Ascii
import WaitingRoom.Text.Utf8

/-!
# Percent encoding

Paths and forms may spell a byte as a percent sign and two hexadecimal digits. A percent
sign with anything else behind it stands for itself.
-/

namespace WaitingRoom.Text

/-- The percent sign as a byte. -/
def percentSign : UInt8 := 0x25

/-- The byte that two hexadecimal digits spell. -/
def byteOfHex? (high low : UInt8) : Option UInt8 := do
  let h ← hexValue? (Char.ofNat high.toNat)
  let l ← hexValue? (Char.ofNat low.toNat)
  return UInt8.ofNat (16 * h + l)

/-- The bytes that some bytes spell. -/
def percentDecode : List UInt8 → List UInt8
  | [] => []
  | c :: high :: low :: rest =>
    if c == percentSign then
      match byteOfHex? high low with
      | some b => b :: percentDecode rest
      | none => c :: percentDecode (high :: low :: rest)
    else c :: percentDecode (high :: low :: rest)
  | c :: rest => c :: percentDecode rest

/-- The text that a segment of a path spells, unless it is none. -/
def decodeSegment? (segment : String) : Option String :=
  strictText? (percentDecode (utf8Bytes segment))

/-- The text that a part of a form spells, where a plus sign is a blank; bytes that are no
text are replaced. -/
def decodeFormPart (part : List Char) : String :=
  let blanks := part.map fun c => if c == '+' then ' ' else c
  lenientText (percentDecode (utf8Bytes (String.ofList blanks)))

/-- The stretches of a text between the occurrences of a character. -/
def splitAt (separator : Char) : List Char → List (List Char)
  | [] => [[]]
  | c :: rest =>
    match splitAt separator rest with
    | [] => [[c]]
    | first :: more => if c == separator then [] :: first :: more else (c :: first) :: more

/-- The keys and values of a form, in order. A part without an equals sign is a key with
an empty value; empty parts are none. -/
def formPairs (form : String) : List (String × String) :=
  ((splitAt '&' form.toList).filter fun part => !part.isEmpty).map fun part =>
    (decodeFormPart (part.takeWhile (· != '=')),
      decodeFormPart ((part.dropWhile (· != '=')).drop 1))

end WaitingRoom.Text
