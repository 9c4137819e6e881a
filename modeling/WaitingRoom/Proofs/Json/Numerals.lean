import WaitingRoom.Json.Value
import WaitingRoom.Proofs.Text.Digits

/-!
# Integers as JSON

An integer that was written as JSON is taken off the text where it begins, up to its last digit.
What follows must not go on with the number: a digit would be taken for one of its own, a point
would begin a fraction and a letter an exponent.
-/

namespace WaitingRoom

namespace Json

namespace Numeral

/-- The integer that the sign and the digits in front of a point stand for. -/
def toInt (n : Numeral) : Int :=
  if n.negative then -(Text.valueOf n.whole : Int) else Text.valueOf n.whole

/-- Whether the number is spelled as integers are written. -/
def isPlain (n : Numeral) : Bool := n == ofInt n.toInt

/-- An integer is spelled as itself. -/
theorem toInt_ofInt (i : Int) : (ofInt i).toInt = i := by
  simp only [toInt, ofInt, Text.valueOf_digits, decide_eq_true_eq]
  split <;> omega

theorem isPlain_ofInt (i : Int) : (ofInt i).isPlain = true := by
  rw [isPlain, toInt_ofInt, beq_self_eq_true]

theorem eq_ofInt_of_isPlain {n : Numeral} (h : n.isPlain = true) : n = ofInt n.toInt :=
  eq_of_beq h

end Numeral

/-- Whether a value is an integer, spelled with digits alone behind its sign. -/
def Value.IsInt (v : Value) (i : Int) : Prop :=
  ∃ n, v = .number n ∧ n.isWhole = true ∧ n.toInt = i

/-- A value is but one integer. -/
theorem Value.IsInt.unique {v : Value} {i i' : Int} (h : v.IsInt i) (h' : v.IsInt i') : i = i' := by
  obtain ⟨n, rfl, -, rfl⟩ := h
  obtain ⟨n', hn, -, rfl⟩ := h'
  cases hn
  rfl

theorem Value.isInt_ofInt (i : Int) : (ofInt i).IsInt i :=
  ⟨Numeral.ofInt i, rfl, rfl, Numeral.toInt_ofInt i⟩

namespace Token

/-- Whether what follows a number does not go on with it. -/
def endsNumber : Source → Bool
  | some c :: _ => !(Text.isDigit c || c == '.' || c == 'e' || c == 'E')
  | _ => true

variable {rest : Source}

/-- Digits are taken as far as they go. -/
theorem takeDigits_append {ds : List Char} (hds : ∀ c ∈ ds, Text.isDigit c = true)
    (hends : endsNumber rest = true) (done : List Char) :
    takeDigits done (ds.map some ++ rest) = (done.reverse ++ ds, rest) := by
  induction ds generalizing done with
  | nil =>
    rw [List.map_nil, List.nil_append, List.append_nil]
    match rest with
    | [] | none :: _ => rfl
    | some c :: rest =>
      have hc : Text.isDigit c = false := by
        simp only [endsNumber, Bool.not_eq_true', Bool.or_eq_false_iff] at hends
        exact hends.1.1.1
      rw [takeDigits, if_neg (by simp [hc])]
  | cons d ds ih =>
    obtain ⟨hd, hds⟩ := List.forall_mem_cons.mp hds
    rw [List.map_cons, List.cons_append, takeDigits, if_pos hd, ih hds, List.reverse_cons,
      List.append_assoc, List.singleton_append]

/-- No fraction is taken where a number ends. -/
theorem takeFraction_of_endsNumber (hends : endsNumber rest = true) :
    takeFraction rest = some ([], rest) := by
  unfold takeFraction
  split
  · simp [endsNumber] at hends
  · rfl

/-- Neither is an exponent. -/
theorem takeExponent_of_endsNumber (hends : endsNumber rest = true) :
    takeExponent rest = some (none, rest) := by
  unfold takeExponent
  split
  · simp only [endsNumber, Bool.not_eq_true', Bool.or_eq_false_iff] at hends
    rw [if_neg (by simp [hends.1.2, hends.2])]
  · rfl
  · rfl

/-- A number is taken up to its last digit. -/
theorem takeNumber_digits (negative : Bool) {d : Char} {ds : List Char}
    (hds : ∀ c ∈ ds, Text.isDigit c = true) (hzero : d = '0' → ds = [])
    (hends : endsNumber rest = true) :
    takeNumber negative d (ds.map some ++ rest) =
      some (({ negative, whole := d :: ds } : Numeral), rest) := by
  simpa [takeNumber, takeDigits_append hds hends, takeFraction_of_endsNumber hends,
    takeExponent_of_endsNumber hends] using hzero

/-- A digit is no blank between tokens. -/
theorem isSpace_of_isDigit {d : Char} (hd : Text.isDigit d = true) : isSpace d = false := by
  rw [← Bool.not_eq_true]
  intro hspace
  simp only [isSpace, Bool.or_eq_true, beq_iff_eq] at hspace
  rcases hspace with ((rfl | rfl) | rfl) | rfl <;> cases hd

/-- A digit begins a number. -/
theorem takeToken_of_isDigit {d : Char} (hd : Text.isDigit d = true) (s : Source) :
    takeToken d s = (takeNumber false d s).map fun (n, rest) => (number n, rest) := by
  unfold takeToken
  split
  iterate 11 exact absurd hd (by decide)
  rw [if_pos hd]

/-- An integer is taken off where it begins, up to its last digit. -/
theorem takeToken_ofInt (i : Int) (hends : endsNumber rest = true) :
    ∃ c cs, (Numeral.ofInt i).toChars = c :: cs ∧ isSpace c = false ∧
      takeToken c (cs.map some ++ rest) = some (.number (.ofInt i), rest) := by
  obtain ⟨d, ds, hdigits, hzero⟩ := Text.exists_digits_eq_cons i.natAbs
  have hall : ∀ c ∈ d :: ds, Text.isDigit c = true := by
    rw [← hdigits]
    exact fun _ => Text.isDigit_of_mem_digits
  obtain ⟨hd, hds⟩ := List.forall_mem_cons.mp hall
  have hchars : (Numeral.ofInt i).toChars = (if i < 0 then ['-'] else []) ++ d :: ds := by
    simp [Numeral.toChars, Numeral.ofInt, hdigits]
  have htake := takeNumber_digits (decide (i < 0)) hds hzero hends
  rw [← hdigits] at htake
  by_cases hsign : i < 0
  · refine ⟨'-', d :: ds, by simp [hchars, hsign], by decide, ?_⟩
    rw [decide_eq_true hsign] at htake
    have hnumber : takeToken '-' ((d :: ds).map some ++ rest) =
        (takeNumber true d (ds.map some ++ rest)).map fun (n, rest) => (number n, rest) := by
      rw [List.map_cons, List.cons_append, takeToken]
      exact if_pos hd
    rw [hnumber, htake]
    simp [Numeral.ofInt, hsign]
  · refine ⟨d, ds, by simp [hchars, hsign], isSpace_of_isDigit hd, ?_⟩
    rw [decide_eq_false hsign] at htake
    rw [takeToken_of_isDigit hd, htake]
    simp [Numeral.ofInt, hsign]

end Token

end Json

end WaitingRoom
