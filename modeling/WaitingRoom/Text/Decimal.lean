import WaitingRoom.Text.Ascii

/-!
# Decimal numbers in texts

Writing numbers with their decimal digits, reading digits back, and the signed
and unsigned forms settings and queries are written in.
-/

namespace WaitingRoom.Text

/-- The decimal digit of a value below ten. -/
def digitChar (n : Nat) : Char := Char.ofNat ('0'.toNat + n)

/-- The value of a decimal digit. -/
def digitValue (c : Char) : Nat := c.toNat - '0'.toNat

/-- The decimal digits of a number, without leading zeros. -/
def digits (n : Nat) : List Char :=
  if n < 10 then [digitChar n] else digits (n / 10) ++ [digitChar (n % 10)]

/-- The number a row of decimal digits stands for. -/
def valueOf (ds : List Char) : Nat := ds.foldl (fun n d => 10 * n + digitValue d) 0

/-- The last `width` decimal digits of a number, zeros in front. -/
def paddedDigits : (width : Nat) → Nat → List Char
  | 0, _ => []
  | width + 1, n => paddedDigits width (n / 10) ++ [digitChar (n % 10)]

/-- A natural number in decimal digits. -/
def ofNat (n : Nat) : String := String.ofList (digits n)

/-- An integer in decimal digits, a minus sign in front where it is negative. -/
def ofInt (n : Int) : String :=
  if n < 0 then "-" ++ ofNat n.natAbs else ofNat n.natAbs

/-- Reads a text that is one or more decimal digits. -/
def digitsOnly? (cs : List Char) : Option Nat :=
  if !cs.isEmpty && cs.all isDigit then some (valueOf cs) else none

/-- Reads an optional sign and at least one digit, nothing else. -/
def integer? (s : String) : Option Int :=
  match s.toList with
  | '+' :: rest => (digitsOnly? rest).map Int.ofNat
  | '-' :: rest => (digitsOnly? rest).map fun n => -(n : Int)
  | cs => (digitsOnly? cs).map Int.ofNat

/-- Reads a signed number of 64 bits. -/
def int64? (s : String) : Option Int :=
  (integer? s).filter fun n => -(Nat.pow 2 63 : Nat) ≤ n && n < (Nat.pow 2 63 : Nat)

/-- Reads a number of `bits` bits: an optional plus sign and at least one digit. -/
def natural? (bits : Nat) (s : String) : Option Nat :=
  let cs := match s.toList with
    | '+' :: rest => rest
    | cs => cs
  (digitsOnly? cs).filter (· < Nat.pow 2 bits)

@[simp] theorem paddedDigits_length (width n : Nat) : (paddedDigits width n).length = width := by
  induction width generalizing n with
  | zero => rfl
  | succ width ih => simp [paddedDigits, ih]

theorem digitValue_digitChar {n : Nat} (h : n < 10) : digitValue (digitChar n) = n := by
  have cases : n = 0 ∨ n = 1 ∨ n = 2 ∨ n = 3 ∨ n = 4 ∨ n = 5 ∨ n = 6 ∨ n = 7 ∨ n = 8 ∨ n = 9 := by
    omega
  rcases cases with rfl | rfl | rfl | rfl | rfl | rfl | rfl | rfl | rfl | rfl <;> decide

theorem valueOf_append_singleton (ds : List Char) (d : Char) :
    valueOf (ds ++ [d]) = 10 * valueOf ds + digitValue d := by
  simp [valueOf]

/-- Written digits read back as the number. -/
theorem valueOf_digits (n : Nat) : valueOf (digits n) = n := by
  induction n using digits.induct with
  | case1 n h => rw [digits, if_pos h]; simp [valueOf, digitValue_digitChar h]
  | case2 n h ih =>
    rw [digits, if_neg h, valueOf_append_singleton, ih,
      digitValue_digitChar (Nat.mod_lt n (by decide))]
    omega

/-- Padded digits read back as the number modulo the power of ten they have room for. -/
theorem valueOf_paddedDigits (width n : Nat) :
    valueOf (paddedDigits width n) = n % Nat.pow 10 width := by
  induction width generalizing n with
  | zero => simp [paddedDigits, valueOf, Nat.mod_one]
  | succ width ih =>
    have step : Nat.pow 10 (width + 1) = 10 * Nat.pow 10 width := Nat.mul_comm _ _
    rw [paddedDigits, valueOf_append_singleton, ih,
      digitValue_digitChar (Nat.mod_lt n (by decide)), step, Nat.mod_mul]
    omega

end WaitingRoom.Text
