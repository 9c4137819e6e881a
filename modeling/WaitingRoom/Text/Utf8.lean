/-!
# UTF-8

Bytes as characters. A stretch of bytes that no character is decoded from is kept
as a gap, so that strict readers can refuse it and lenient ones can replace it.
-/

namespace WaitingRoom.Text

/-- The bytes of a text. -/
def utf8Bytes (s : String) : List UInt8 := s.toList.flatMap String.utf8EncodeChar

/-- Whether a byte continues a character begun before it. -/
def isContinuation (b : UInt8) : Bool := 0x80 ≤ b && b < 0xC0

/-- Whether `second` may follow the lead byte `lead` of a character of three or four
bytes: overlong forms, surrogates and values beyond the last code point are left out. -/
def mayFollow (lead second : UInt8) : Bool :=
  if lead == 0xE0 then 0xA0 ≤ second && second < 0xC0
  else if lead == 0xED then 0x80 ≤ second && second < 0xA0
  else if lead == 0xF0 then 0x90 ≤ second && second < 0xC0
  else if lead == 0xF4 then 0x80 ≤ second && second < 0x90
  else isContinuation second

/-- The low six bits of a continuation byte. -/
def sixBits (b : UInt8) : Nat := b.toNat % 64

/-- The first character of some bytes, `none` where they begin with a gap, and how
many bytes it takes. A gap is the longest beginning of a character that the next byte
does not continue, and at least one byte. -/
def firstCharacter (lead : UInt8) (rest : List UInt8) : Option Char × Nat :=
  if lead < 0x80 then (some (Char.ofNat lead.toNat), 1)
  else if 0xC2 ≤ lead && lead < 0xE0 then
    match rest with
    | b :: _ =>
      if isContinuation b then (some (Char.ofNat (lead.toNat % 32 * 64 + sixBits b)), 2)
      else (none, 1)
    | [] => (none, 1)
  else if 0xE0 ≤ lead && lead < 0xF0 then
    match rest with
    | b :: c :: _ =>
      if !mayFollow lead b then (none, 1)
      else if !isContinuation c then (none, 2)
      else (some (Char.ofNat (lead.toNat % 16 * 4096 + sixBits b * 64 + sixBits c)), 3)
    | [b] => if mayFollow lead b then (none, 2) else (none, 1)
    | [] => (none, 1)
  else if 0xF0 ≤ lead && lead < 0xF5 then
    match rest with
    | b :: c :: d :: _ =>
      if !mayFollow lead b then (none, 1)
      else if !isContinuation c then (none, 2)
      else if !isContinuation d then (none, 3)
      else
        (some (Char.ofNat
          (lead.toNat % 8 * 262144 + sixBits b * 4096 + sixBits c * 64 + sixBits d)), 4)
    | [b, c] =>
      if !mayFollow lead b then (none, 1) else if isContinuation c then (none, 3) else (none, 2)
    | [b] => if mayFollow lead b then (none, 2) else (none, 1)
    | [] => (none, 1)
  else (none, 1)

/-- The characters of some bytes, gaps as `none`; `skip` bytes belong to the character
before and `done` holds what is decoded, last character first. -/
def decodeUtf8From (skip : Nat) (done : List (Option Char)) : List UInt8 → List (Option Char)
  | [] => done.reverse
  | b :: rest =>
    match skip with
    | skip + 1 => decodeUtf8From skip done rest
    | 0 =>
      let (c, size) := firstCharacter b rest
      decodeUtf8From (size - 1) (c :: done) rest

/-- The characters of some bytes, gaps as `none`. -/
def decodeUtf8 (bytes : List UInt8) : List (Option Char) := decodeUtf8From 0 [] bytes

/-- The text some bytes encode, if they encode one. -/
def strictText? (bytes : List UInt8) : Option String :=
  ((decodeUtf8 bytes).mapM id).map String.ofList

/-- The text of some bytes, each gap replaced by U+FFFD. -/
def lenientText (bytes : List UInt8) : String :=
  String.ofList ((decodeUtf8 bytes).map (·.getD (Char.ofNat 0xFFFD)))

end WaitingRoom.Text
