import WaitingRoom.Text.Blank
import WaitingRoom.Text.Decimal

/-!
# Written digits

The digits a number is written with are digits, and no reader that skips blanks takes them
for blanks.
-/

namespace WaitingRoom.Text

theorem isDigit_digitChar {n : Nat} (h : n < 10) : isDigit (digitChar n) = true := by
  have hall : ∀ m < 10, isDigit (digitChar m) = true := by decide
  exact hall n h

/-- A number of a fixed width is written with digits alone. -/
theorem isDigit_of_mem_paddedDigits {width n : Nat} {c : Char} (h : c ∈ paddedDigits width n) :
    isDigit c = true := by
  induction width generalizing n with
  | zero => cases h
  | succ width ih =>
    rw [paddedDigits] at h
    rcases List.mem_append.mp h with hmore | hlast
    · exact ih hmore
    · obtain rfl := List.mem_singleton.mp hlast
      exact isDigit_digitChar (Nat.mod_lt n (by decide))

/-- A number is written with digits alone. -/
theorem isDigit_of_mem_digits {n : Nat} {c : Char} (h : c ∈ digits n) : isDigit c = true := by
  induction n using digits.induct with
  | case1 n hn =>
    rw [digits, if_pos hn] at h
    obtain rfl := List.mem_singleton.mp h
    exact isDigit_digitChar hn
  | case2 n hn ih =>
    rw [digits, if_neg hn] at h
    rcases List.mem_append.mp h with hmore | hlast
    · exact ih hmore
    · obtain rfl := List.mem_singleton.mp hlast
      exact isDigit_digitChar (Nat.mod_lt n (by decide))

theorem digits_ne_nil (n : Nat) : digits n ≠ [] := by
  rw [digits]
  split <;> simp

/-- A number is written with a zero in front only if it is zero. -/
theorem exists_digits_eq_cons (n : Nat) :
    ∃ d ds, digits n = d :: ds ∧ (d = '0' → ds = []) := by
  induction n using digits.induct with
  | case1 n hn =>
    rw [digits, if_pos hn]
    exact ⟨_, [], rfl, fun _ => rfl⟩
  | case2 n hn ih =>
    obtain ⟨d, ds, hfront, hzero⟩ := ih
    rw [digits, if_neg hn, hfront]
    refine ⟨d, _, List.cons_append, ?_⟩
    rintro rfl
    -- the digits in front are those of a tenth of the number, which is more than nothing
    have hvalue := valueOf_digits (n / 10)
    rw [hfront, hzero rfl, show valueOf ['0'] = 0 from rfl] at hvalue
    omega

theorem paddedDigits_ne_nil {width : Nat} (h : 0 < width) (n : Nat) :
    paddedDigits width n ≠ [] := by
  rw [← List.length_pos_iff, paddedDigits_length]
  exact h

theorem isBlank_of_isDigit {c : Char} (h : isDigit c = true) : isBlank c = false := by
  have hcode : 48 ≤ c.toNat ∧ c.toNat ≤ 57 := by
    simpa [isDigit, Char.le_def, UInt32.le_iff_toNat_le] using h
  simp [isBlank]
  omega

/-- Where a text begins with no blank, there are none to drop. -/
theorem dropBlanks_cons {c : Char} {rest : List Char} (h : isBlank c = false) :
    dropBlanks (c :: rest) = c :: rest := by
  rw [dropBlanks, List.dropWhile_cons_of_neg (by simp [h])]

end WaitingRoom.Text
