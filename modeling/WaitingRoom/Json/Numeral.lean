import WaitingRoom.Text.Decimal

/-!
# Numerals

Numbers as a JSON text spells them. A reader of integers takes only those written
with digits alone; of every other number it matters only whether a 64-bit binary
floating-point number can hold its magnitude.
-/

namespace WaitingRoom.Json

/-- A number as it is spelled: sign, digits, the digits after the point and the
exponent with its sign. -/
structure Numeral where
  negative : Bool := false
  whole : List Char
  fraction : List Char := []
  exponent : Option (Bool × List Char) := none
  deriving DecidableEq, Repr

namespace Numeral

/-- The spelling of an integer. -/
def ofInt (n : Int) : Numeral := { negative := n < 0, whole := Text.digits n.natAbs }

/-- Whether the number is spelled with digits alone. -/
def isWhole (n : Numeral) : Bool := n.fraction.isEmpty && n.exponent.isNone

/-- The largest unsigned number of 64 bits. -/
def wordMax : Nat := Nat.pow 2 64 - 1

/-- The integer a numeral stands for: digits alone, within 64 bits, and no negative
zero, which is no integer. -/
def integer? (n : Numeral) : Option Int :=
  let value := Text.valueOf n.whole
  if !n.isWhole then none
  else if n.negative then
    if value == 0 || Nat.pow 2 63 < value then none else some (-(value : Int))
  else if wordMax < value then none
  else some value

/-- A natural number rounded to 53 binary digits, ties to the even neighbour. -/
def round53 (n : Nat) : Nat :=
  let shift := n.log2 + 1 - 53
  let unit := Nat.pow 2 shift
  let quotient := n / unit
  let rest := n % unit
  if 2 * rest < unit || (2 * rest == unit && quotient % 2 == 0) then quotient * unit
  else (quotient + 1) * unit

/-- Takes up digits while the number they form stays within 64 bits; returns that
number and how many digits it holds. -/
def significant (value taken : Nat) : List Char → Nat × Nat
  | [] => (value, taken)
  | d :: rest =>
    let next := 10 * value + Text.digitValue d
    if wordMax < next then (value, taken) else significant next (taken + 1) rest

/-- The number some digits form, at most a billion, far beyond any exponent in range. -/
def boundedValue (ds : List Char) : Nat :=
  ds.foldl (fun n d => min (10 * n + Text.digitValue d) 1000000000) 0

/-- Whether a floating-point number of 64 bits can hold the number: its first digits,
as many as fit in 64 bits, times the power of ten the other digits and the exponent
leave. -/
def isFinite (n : Numeral) : Bool :=
  let (value, taken) := significant 0 0 n.whole
  let (value, fractional) := significant value 0 n.fraction
  let shift : Int := match n.exponent with
    | none => 0
    | some (negative, ds) => if negative then -(boundedValue ds : Int) else boundedValue ds
  let power : Int := ((n.whole.length - taken : Nat) : Int) - fractional + shift
  if value == 0 || power ≤ 0 then true
  else if 308 < power then false
  else round53 (round53 value * round53 (Nat.pow 10 power.toNat)) < Nat.pow 2 1024

/-- The spelling as characters. -/
def toChars (n : Numeral) : List Char :=
  (if n.negative then ['-'] else []) ++ n.whole ++
    (if n.fraction.isEmpty then [] else '.' :: n.fraction) ++
    match n.exponent with
    | none => []
    | some (negative, ds) => 'e' :: (if negative then '-' :: ds else ds)

end Numeral

end WaitingRoom.Json
