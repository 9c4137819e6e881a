import WaitingRoom.Crypto.Sha256
import WaitingRoom.Text.Utf8

/-!
# Distinguished encoding

The nested blocks that keys and certificates are encoded in. Two readers are needed: a
tolerant one that looks for an algorithm and for the bits of a key anywhere in the
blocks, and a strict one for the two numbers of a public key.
-/

namespace WaitingRoom.Crypto

/-- A block, as far as readers of keys look into it. -/
inductive DerBlock
  | sequence (blocks : List DerBlock)
  | objectId (arcs : List Nat)
  | bits (bytes : List UInt8)
  | octets (bytes : List UInt8)
  | other

namespace DerBlock

/-- A number in groups of seven bits, the highest bit of a byte set where another
follows; and what comes after it. -/
def base128 (value : Nat) : List UInt8 → Option (Nat × List UInt8)
  | [] => none
  | b :: rest =>
    let value := value * 128 + b.toNat % 128
    if b < 0x80 then some (value, rest) else base128 value rest

/-- The length of a block, and what comes after it. -/
def length? : List UInt8 → Option (Nat × List UInt8)
  | [] => none
  | b :: rest =>
    if b < 0x80 then some (b.toNat, rest)
    else
      let size := b.toNat % 128
      if 8 < size || rest.length < size then none
      else some (natOfBytes (rest.take size), rest.drop size)

/-- The number of a block's kind, and what comes after it. -/
def tag? (first : UInt8) (rest : List UInt8) : Option (Nat × List UInt8) :=
  if first.toNat % 32 == 31 then base128 0 rest else some (first.toNat % 32, rest)

/-- The further arcs of an object identifier; each takes up a byte at least. -/
def arcsWithin : (budget : List UInt8) → List UInt8 → Option (List Nat)
  | _, [] => some []
  | [], _ :: _ => none
  | _ :: budget, bytes => do
    let (arc, rest) ← base128 0 bytes
    let arcs ← arcsWithin budget rest
    return arc :: arcs

/-- The arcs of an object identifier; the first byte holds the first two. -/
def objectId? : List UInt8 → Option (List Nat)
  | [] => none
  | b :: rest => do
    let arcs ← arcsWithin rest rest
    let n := b.toNat
    let first := if n < 40 then 0 else if n < 80 then 1 else 2
    return first :: (n - 40 * first) :: arcs

/-- Whether a character may stand in a printable string. -/
def isPrintable (b : UInt8) : Bool :=
  let c := Char.ofNat b.toNat
  c.isAlphanum || " '()+,-./:=?".toList.contains c

/-- Whether bytes are decimal digits that end in the letter Z. -/
def isDatedDigits (bytes : List UInt8) : Bool :=
  bytes.getLast? == some 90 && bytes.dropLast.all fun b => 48 ≤ b && b ≤ 57

/-- A block of a universal kind that holds no further blocks, if its content is sound. -/
def primitive? (kind : Nat) (body : List UInt8) : Option DerBlock :=
  match kind with
  | 1 => if body.length == 1 then some other else none
  | 3 =>
    match body with
    | [] => some (bits [])
    | unused :: bytes => if bytes.length * 8 < unused.toNat then none else some (bits bytes)
  | 4 => some (octets body)
  | 6 => (objectId? body).map objectId
  | 12 | 20 => (Text.strictText? body).map fun _ => other
  | 19 => if body.all isPrintable then some other else none
  | 22 => if body.all (· < 0x80) then some other else none
  | 23 => if body.length == 13 && isDatedDigits body then some other else none
  | 24 => if isDatedDigits body then some other else none
  | _ => some other

/-- The blocks some bytes are made of; nothing is no block. `fuel` is at least the
number of bytes. -/
def blocksWithin : (fuel : Nat) → List UInt8 → Option (List DerBlock)
  | _, [] => some []
  | 0, _ :: _ => none
  | fuel + 1, first :: rest => do
    let (kind, rest) ← tag? first rest
    let (size, rest) ← length? rest
    if rest.length < size then none
    else
      let body := rest.take size
      let block ←
        if 64 ≤ first.toNat then some other
        else if kind == 16 || kind == 17 then
          match body with
          | [] => none
          | body => (blocksWithin fuel body).map fun blocks =>
              if kind == 16 then sequence blocks else other
        else primitive? kind body
      let blocks ← blocksWithin fuel (rest.drop size)
      return block :: blocks

/-- The blocks some bytes are made of, at least one. -/
def blocks? (bytes : List UInt8) : Option (List DerBlock) :=
  if bytes.isEmpty then none else blocksWithin bytes.length bytes

/-- The object identifier of RSA. -/
def rsaId : List Nat := [1, 2, 840, 113549, 1, 1, 1]

/-- The object identifiers of the algorithms for keys: elliptic curves, RSA, Ed25519. -/
def algorithmIds : List (List Nat) := [[1, 2, 840, 10045, 2, 1], rsaId, [1, 3, 101, 112]]

mutual

/-- The algorithm named first within a block, sequences alone being searched. -/
def algorithm? : DerBlock → Option (List Nat)
  | objectId arcs => if algorithmIds.contains arcs then some arcs else none
  | sequence blocks => firstAlgorithm? blocks
  | _ => none

/-- The algorithm named first within some blocks. -/
def firstAlgorithm? : List DerBlock → Option (List Nat)
  | [] => none
  | block :: rest =>
    match algorithm? block with
    | some arcs => some arcs
    | none => firstAlgorithm? rest

end

mutual

/-- The bits or octets that come first within a block, sequences alone being searched. -/
def content? : DerBlock → Option (List UInt8)
  | bits bytes => some bytes
  | octets bytes => some bytes
  | sequence blocks => firstContent? blocks
  | _ => none

/-- The bits or octets that come first within some blocks. -/
def firstContent? : List DerBlock → Option (List UInt8)
  | [] => none
  | block :: rest =>
    match content? block with
    | some bytes => some bytes
    | none => firstContent? rest

end

end DerBlock

/-- The content of a block of the given kind in front, its length spelled as shortly as
possible, and what comes after the block. -/
def strictBlock? (kind : UInt8) : List UInt8 → Option (List UInt8 × List UInt8)
  | first :: size :: rest =>
    if first != kind then none
    else
      let found : Option (Nat × List UInt8) :=
        if size < 0x80 then some (size.toNat, rest)
        else if size == 0x81 then
          match rest with
          | a :: rest => if 128 ≤ a.toNat then some (a.toNat, rest) else none
          | _ => none
        else if size == 0x82 then
          match rest with
          | a :: b :: rest =>
            let n := a.toNat * 256 + b.toNat
            if 256 ≤ n then some (n, rest) else none
          | _ => none
        else none
      match found with
      | some (n, rest) => if rest.length < n then none else some (rest.take n, rest.drop n)
      | none => none
  | _ => none

/-- A positive number in front, without needless zeros, and what comes after it. -/
def strictPositive? (bytes : List UInt8) : Option (Nat × List UInt8) := do
  let (body, rest) ← strictBlock? 0x02 bytes
  match body with
  | [] => none
  | [b] => if b == 0 || 0x80 ≤ b then none else some (b.toNat, rest)
  | b :: c :: more =>
    if 0x80 ≤ b || (b == 0 && c < 0x80) then none else some (natOfBytes (b :: c :: more), rest)

end WaitingRoom.Crypto
