import Mathlib.Algebra.Order.Field.Rat
import Mathlib.Tactic.Ring
import WaitingRoom.Proofs.Json.Members
import WaitingRoom.Proofs.Time.Quantities

/-!
# What quantities add up to

Quantities are added up exactly, and every number that is formed on the way has to fit in 64 bits.
Seconds and nanoseconds are summed apart, and what the nanoseconds come to beyond a second is
carried over. A sum that goes past the last second by nothing but that carry is told apart from
those that merely do not fit.
-/

namespace WaitingRoom.Time

open WaitingRoom.Time.Span (fits addTo exactShare addPart)

/-! ## Amounts -/

/-- Seconds and nanoseconds that are added to a sum. -/
structure Amount where
  seconds : Nat
  nanos : Nat

namespace Amount

/-- The nanoseconds of an amount in all. -/
def length (a : Amount) : Nat := a.seconds * 1000000000 + a.nanos

/-- Whether the numbers fit that are formed when an amount is added to a sum: the nanoseconds
without the seconds, and the seconds with what is carried over. -/
structure FitsOnto (a : Amount) (total : Nat) : Prop where
  nanos : total % 1000000000 + a.nanos < 2 ^ 64
  seconds : (total + a.length) / 1000000000 < 2 ^ 64

/-- Whether an amount takes a sum past the last second by nanoseconds that come to one second. -/
structure CarriesOff (a : Amount) (total : Nat) : Prop where
  nanos : total % 1000000000 + a.nanos = 1000000000
  seconds : (total + a.length) / 1000000000 = 2 ^ 64

variable {a : Amount} {total sum : Nat}

/-- Each number that is tested fits, and the sum is the one that is meant. -/
theorem addTo_of_fitsOnto (h : a.FitsOnto total) :
    addTo total a.seconds a.nanos = .ok (total + a.length) := by
  obtain ⟨hnanos, hseconds⟩ := h
  unfold length at hseconds ⊢
  unfold addTo
  simp only [fits, Nat.pow_eq, Bool.or_eq_true, Bool.not_eq_true', decide_eq_false_iff_not]
  rw [if_neg (by split <;> omega), if_neg (by omega), Nat.add_assoc]

/-- One second that is carried over is not looked at until it no longer fits. -/
theorem addTo_of_carriesOff (h : a.CarriesOff total) :
    addTo total a.seconds a.nanos = .error .carryOverflow := by
  obtain ⟨hnanos, hseconds⟩ := h
  unfold length at hseconds
  unfold addTo
  simp only [fits, Nat.pow_eq, Bool.or_eq_true, Bool.not_eq_true', decide_eq_false_iff_not]
  rw [if_neg (by split <;> omega), if_pos (by omega)]

/-- Any other amount is refused by one of the tests. -/
theorem addTo_of_not (hfits : ¬ a.FitsOnto total) (hcarries : ¬ a.CarriesOff total) :
    addTo total a.seconds a.nanos = .error .unreadable := by
  have hnot : ¬ (total % 1000000000 + a.nanos < 2 ^ 64 ∧
      (total + (a.seconds * 1000000000 + a.nanos)) / 1000000000 < 2 ^ 64) :=
    fun h => hfits ⟨h.1, h.2⟩
  have hexact : ¬ (total % 1000000000 + a.nanos = 1000000000 ∧
      (total + (a.seconds * 1000000000 + a.nanos)) / 1000000000 = 2 ^ 64) :=
    fun h => hcarries ⟨h.1, h.2⟩
  unfold addTo
  simp only [fits, Nat.pow_eq, Bool.or_eq_true, Bool.not_eq_true', decide_eq_false_iff_not]
  rw [if_pos (by split <;> omega)]

/-- An amount is added just if the numbers fit. -/
theorem addTo_eq_ok_iff :
    addTo total a.seconds a.nanos = .ok sum ↔ a.FitsOnto total ∧ sum = total + a.length := by
  by_cases hfits : a.FitsOnto total
  · rw [addTo_of_fitsOnto hfits, Except.ok.injEq, eq_comm]
    exact (and_iff_right hfits).symm
  · have hrefused : addTo total a.seconds a.nanos ≠ .ok sum := by
      by_cases hcarries : a.CarriesOff total
      · rw [addTo_of_carriesOff hcarries]
        rintro ⟨⟩
      · rw [addTo_of_not hfits hcarries]
        rintro ⟨⟩
    exact iff_of_false hrefused fun h => hfits h.1

/-- A sum is carried past the last second just by the amounts that do so. -/
theorem addTo_eq_carryOverflow_iff :
    addTo total a.seconds a.nanos = .error .carryOverflow ↔ a.CarriesOff total := by
  by_cases hcarries : a.CarriesOff total
  · exact iff_of_true (addTo_of_carriesOff hcarries) hcarries
  · refine iff_of_false ?_ hcarries
    by_cases hfits : a.FitsOnto total
    · rw [addTo_of_fitsOnto hfits]
      rintro ⟨⟩
    · rw [addTo_of_not hfits hcarries]
      rintro ⟨⟩

end Amount

/-! ## Quantities -/

theorem fits_iff {n : Nat} : fits n = true ↔ n < 2 ^ 64 := decide_eq_true_iff

/-- What fractions of a unit are counted in is this part of the unit: a second for hours and longer
units, a nanosecond for the others. -/
def TimeUnit.share (u : TimeUnit) : Nat := if u.isCoarse then u.seconds else u.nanos

namespace Quantity

/-- The number before the point. -/
def number (q : Quantity) : Nat := Text.valueOf q.whole

/-- The number behind the point. -/
def numerator (q : Quantity) : Nat := Text.valueOf (q.fraction.getD [])

/-- What the number behind the point is divided by. -/
def denominator (q : Quantity) : Nat := 10 ^ (q.fraction.getD []).length

/-- The nanoseconds that a quantity stands for. -/
def exact (q : Quantity) : ℚ := (q.number + q.numerator / q.denominator) * q.unit.nanos

/-- Whether the fraction of a quantity comes out even, in seconds for hours and longer units and in
nanoseconds for the others. Nanoseconds have no fraction. -/
structure IsEven (q : Quantity) : Prop where
  fraction : q.unit = .nanosecond → q.fraction = none
  dvd : q.denominator ∣ q.numerator * q.unit.share

instance (q : Quantity) : Decidable q.IsEven :=
  decidable_of_iff
    ((q.unit = .nanosecond → q.fraction = none) ∧ q.denominator ∣ q.numerator * q.unit.share)
    ⟨fun h => ⟨h.1, h.2⟩, fun h => ⟨h.fraction, h.dvd⟩⟩

/-- What the number before the point adds. -/
def wholeAmount (q : Quantity) : Amount := ⟨q.number * q.unit.seconds, q.number * q.unit.subsecond⟩

/-- What the number behind the point adds. -/
def fractionAmount (q : Quantity) : Amount :=
  if q.unit.isCoarse then ⟨q.numerator * q.unit.share / q.denominator, 0⟩
  else ⟨0, q.numerator * q.unit.share / q.denominator⟩

/-- The nanoseconds that a quantity adds. -/
def length (q : Quantity) : Nat := q.wholeAmount.length + q.fractionAmount.length

/-- Whether the numbers fit that are formed before a quantity is added: both sides of the point as
they are read, and the number before it in the unit. (A numerator is less than its denominator.) -/
structure NumbersFit (q : Quantity) : Prop where
  number : q.number < 2 ^ 64
  denominator : q.denominator < 2 ^ 64
  seconds : q.number * q.unit.seconds < 2 ^ 64
  subsecond : q.number * q.unit.subsecond < 2 ^ 64

/-- Whether all numbers fit that are formed when a quantity is added to a sum. -/
structure FitsOnto (q : Quantity) (total : Nat) : Prop where
  numbers : q.NumbersFit
  whole : q.wholeAmount.FitsOnto total
  product : q.numerator * q.unit.share < 2 ^ 64
  fraction : q.fractionAmount.FitsOnto (total + q.wholeAmount.length)

/-- How a quantity takes a sum past the last second by a carry alone: with its number before the
point, or with the one behind it where all else fits. -/
inductive CarriesOff (q : Quantity) (total : Nat) : Prop
  | whole (hnumbers : q.NumbersFit) (hcarries : q.wholeAmount.CarriesOff total)
  | fraction (hnumbers : q.NumbersFit) (hwhole : q.wholeAmount.FitsOnto total) (heven : q.IsEven)
      (hproduct : q.numerator * q.unit.share < 2 ^ 64)
      (hcarries : q.fractionAmount.CarriesOff (total + q.wholeAmount.length))

variable {q : Quantity} {total sum : Nat}

theorem denominator_lt_iff : q.denominator < 2 ^ 64 ↔ (q.fraction.getD []).length ≤ 19 := by
  unfold denominator
  generalize (q.fraction.getD []).length = digits
  constructor
  · intro h
    by_contra hmore
    have hpow : 10 ^ 20 ≤ 10 ^ digits := Nat.pow_le_pow_right (by decide) (by omega)
    omega
  · intro h
    have hpow : 10 ^ digits ≤ 10 ^ 19 := Nat.pow_le_pow_right (by decide) h
    omega

/-- A fraction is added where it comes out even. -/
theorem exactShare_bind {α : Type} (numerator factor denominator : Nat)
    (f : Nat → Except SpanFault α) :
    exactShare numerator factor denominator >>= f =
      if numerator * factor < 2 ^ 64 ∧ denominator ∣ numerator * factor then
        f (numerator * factor / denominator)
      else .error .unreadable := by
  simp only [exactShare, Bool.and_eq_true, fits_iff, beq_iff_eq, Nat.dvd_iff_mod_eq_zero]
  split_ifs with h
  · rw [ok_bind]
  · rw [error_bind]

/-- Adds the number behind the point to a sum, if it comes out even. -/
def addFraction (q : Quantity) (total : Nat) : Except SpanFault Nat :=
  if q.IsEven ∧ q.numerator * q.unit.share < 2 ^ 64 then
    addTo total q.fractionAmount.seconds q.fractionAmount.nanos
  else .error .unreadable

/-- Without a point nothing is added. -/
theorem addFraction_of_plain (hplain : q.fraction = none) (htotal : total / 1000000000 < 2 ^ 64) :
    q.addFraction total = .ok total := by
  have hnumerator : q.numerator = 0 := by rw [numerator, hplain]; rfl
  have heven : q.IsEven := ⟨fun _ => hplain, by rw [hnumerator, Nat.zero_mul]; exact dvd_zero _⟩
  have hamount : q.fractionAmount = ⟨0, 0⟩ := by
    simp only [fractionAmount, hnumerator, Nat.zero_mul, Nat.zero_div, ite_self]
  have hfits : Amount.FitsOnto ⟨0, 0⟩ total := by
    refine ⟨?_, htotal⟩
    show total % 1000000000 + 0 < 2 ^ 64
    omega
  have hproduct : q.numerator * q.unit.share < 2 ^ 64 := by
    rw [hnumerator, Nat.zero_mul]
    decide
  rw [addFraction, if_pos ⟨heven, hproduct⟩, hamount, Amount.addTo_of_fitsOnto hfits]
  rfl

/-- Behind a point the digits are read as the fraction of the quantity. -/
theorem addFraction_of_point (whole ds : List Char) (u : TimeUnit) (total : Nat) :
    addFraction ⟨whole, some ds, u⟩ total =
      if u == .nanosecond then .error .unreadable
      else if u.isCoarse then
        exactShare (Text.valueOf ds) u.seconds (Nat.pow 10 ds.length) >>= (addTo total · 0)
      else exactShare (Text.valueOf ds) u.nanos (Nat.pow 10 ds.length) >>= addTo total 0 := by
  have heven : IsEven ⟨whole, some ds, u⟩ ↔
      u ≠ .nanosecond ∧ 10 ^ ds.length ∣ Text.valueOf ds * u.share :=
    ⟨fun h => ⟨fun hunit => (nomatch h.fraction hunit), h.dvd⟩,
      fun h => ⟨fun hunit => absurd hunit h.1, h.2⟩⟩
  have hnumerator : numerator ⟨whole, some ds, u⟩ = Text.valueOf ds := rfl
  simp only [addFraction, heven, hnumerator, fractionAmount, denominator, Option.getD_some,
    exactShare_bind, beq_iff_eq, Nat.pow_eq]
  by_cases hnano : u = .nanosecond
  · rw [if_pos hnano, if_neg fun h => h.1.1 hnano]
  rw [if_neg hnano]
  cases hcoarse : u.isCoarse with
  | true =>
    have hshare : u.share = u.seconds := if_pos hcoarse
    simp only [if_true, hshare, ne_eq, hnano, not_false_eq_true, true_and]
    simp only [and_comm]
  | false =>
    have hshare : u.share = u.nanos := if_neg (by rw [hcoarse]; exact Bool.false_ne_true)
    simp only [Bool.false_eq_true, if_false, hshare, ne_eq, hnano, not_false_eq_true, true_and]
    simp only [and_comm]

/-- A quantity is added in two steps where the numbers before the first fit. -/
theorem addPart_of_numbersFit {p : SpanPart} (h : p.quantity? = some q) (hnumbers : q.NumbersFit) :
    addPart total p = addTo total q.wholeAmount.seconds q.wholeAmount.nanos >>= q.addFraction := by
  obtain ⟨u, hunit, rfl⟩ := Option.map_eq_some_iff.mp h
  have hnumber : fits (Text.valueOf p.whole) = true := fits_iff.mpr hnumbers.number
  have hdenominator : ¬ (p.fraction.getD []).length > 19 :=
    Nat.not_lt.mpr (denominator_lt_iff.mp hnumbers.denominator)
  have hseconds : fits (Text.valueOf p.whole * u.seconds) = true := fits_iff.mpr hnumbers.seconds
  have hsubsecond : fits (Text.valueOf p.whole * u.subsecond) = true :=
    fits_iff.mpr hnumbers.subsecond
  simp only [addPart, wholeAmount, number, hnumber, hunit, hseconds, hsubsecond, Bool.not_true,
    Bool.or_self, Bool.false_eq_true, if_false, if_neg hdenominator]
  cases hsum : addTo total (Text.valueOf p.whole * u.seconds)
      (Text.valueOf p.whole * u.subsecond) with
  | error fault => rw [error_bind, error_bind]
  | ok sum =>
    rw [ok_bind, ok_bind]
    cases p.fraction with
    | some ds => rw [addFraction_of_point]
    | none =>
      -- adding nothing changes no sum that fits, and this one was formed just now
      obtain ⟨hfits, rfl⟩ := (Amount.addTo_eq_ok_iff (a := ⟨_, _⟩)).mp hsum
      exact (addFraction_of_plain rfl hfits.seconds).symm

/-- A quantity is refused where one of those numbers does not fit. -/
theorem addPart_of_not_numbersFit {p : SpanPart} (h : p.quantity? = some q)
    (hnumbers : ¬ q.NumbersFit) : addPart total p = .error .unreadable := by
  obtain ⟨u, hunit, rfl⟩ := Option.map_eq_some_iff.mp h
  simp only [addPart, hunit]
  split
  · rfl
  rename_i hnumber
  split
  · rfl
  rename_i hdenominator
  split
  · rfl
  rename_i hproducts
  simp only [Bool.or_eq_true, Bool.not_eq_true', not_or, Bool.not_eq_false, fits_iff]
    at hnumber hproducts
  exact absurd ⟨hnumber, denominator_lt_iff.mpr (Nat.not_lt.mp hdenominator), hproducts.1,
    hproducts.2⟩ hnumbers

/-- A quantity is added to a sum just if its fraction comes out even and all numbers fit. -/
theorem addPart_eq_ok_iff {p : SpanPart} (h : p.quantity? = some q) :
    addPart total p = .ok sum ↔ q.IsEven ∧ q.FitsOnto total ∧ sum = total + q.length := by
  by_cases hnumbers : q.NumbersFit
  · rw [addPart_of_numbersFit h hnumbers]
    constructor
    · intro hsum
      obtain ⟨between, hwhole, hfraction⟩ := exists_of_bind_eq_ok hsum
      obtain ⟨hwholeFits, rfl⟩ := Amount.addTo_eq_ok_iff.mp hwhole
      unfold addFraction at hfraction
      split_ifs at hfraction with heven
      obtain ⟨hfractionFits, rfl⟩ := Amount.addTo_eq_ok_iff.mp hfraction
      exact ⟨heven.1, ⟨hnumbers, hwholeFits, heven.2, hfractionFits⟩, Nat.add_assoc _ _ _⟩
    · rintro ⟨heven, hfits, rfl⟩
      rw [Amount.addTo_of_fitsOnto hfits.whole, ok_bind, addFraction, if_pos ⟨heven, hfits.product⟩,
        Amount.addTo_of_fitsOnto hfits.fraction, length, Nat.add_assoc]
  · rw [addPart_of_not_numbersFit h hnumbers]
    exact iff_of_false (fun hsum => nomatch hsum) fun hall => hnumbers hall.2.1.numbers

/-- A quantity takes a sum past the last second by a carry just if one of its two numbers does. -/
theorem addPart_eq_carryOverflow_iff {p : SpanPart} (h : p.quantity? = some q) :
    addPart total p = .error .carryOverflow ↔ q.CarriesOff total := by
  by_cases hnumbers : q.NumbersFit
  · rw [addPart_of_numbersFit h hnumbers]
    constructor
    · intro hfault
      cases hwhole : addTo total q.wholeAmount.seconds q.wholeAmount.nanos with
      | error fault =>
        rw [hwhole, error_bind] at hfault
        rw [hfault] at hwhole
        exact .whole hnumbers (Amount.addTo_eq_carryOverflow_iff.mp hwhole)
      | ok between =>
        rw [hwhole, ok_bind, addFraction] at hfault
        obtain ⟨hwholeFits, rfl⟩ := Amount.addTo_eq_ok_iff.mp hwhole
        split_ifs at hfault with heven
        · exact .fraction hnumbers hwholeFits heven.1 heven.2
            (Amount.addTo_eq_carryOverflow_iff.mp hfault)
        · cases hfault
    · intro hcarries
      cases hcarries with
      | whole hnumbers hcarries =>
        rw [Amount.addTo_of_carriesOff hcarries, error_bind]
      | fraction hnumbers hwhole heven hproduct hcarries =>
        rw [Amount.addTo_of_fitsOnto hwhole, ok_bind, addFraction, if_pos ⟨heven, hproduct⟩,
          Amount.addTo_of_carriesOff hcarries]
  · rw [addPart_of_not_numbersFit h hnumbers]
    refine iff_of_false (fun hfault => nomatch hfault) fun hcarries => ?_
    cases hcarries with
    | whole h hcarries => exact hnumbers h
    | fraction h hwhole heven hproduct hcarries => exact hnumbers h

/-- A part whose unit has no name is refused. -/
theorem addPart_of_nameless {p : SpanPart} (h : p.quantity? = none) :
    addPart total p = .error .unreadable := by
  have hunit : TimeUnit.ofName? (String.ofList p.unitName) = none := Option.map_eq_none_iff.mp h
  simp only [addPart, hunit, ite_self]

/-- What the number behind the point adds is its share of the unit. -/
theorem fractionAmount_length (heven : q.IsEven) :
    q.fractionAmount.length * q.denominator = q.numerator * q.unit.nanos := by
  obtain ⟨quotient, hproduct⟩ := heven.dvd
  have hquotient : q.numerator * q.unit.share / q.denominator = quotient := by
    rw [hproduct]
    exact Nat.mul_div_cancel_left quotient (Nat.pow_pos (by decide))
  rw [fractionAmount, hquotient]
  cases hcoarse : q.unit.isCoarse with
  | true =>
    have hnanos : q.unit.nanos = q.unit.share * 1000000000 := by
      revert hcoarse
      cases q.unit <;> decide
    rw [if_pos rfl, Amount.length, hnanos, ← Nat.mul_assoc, hproduct]
    ring
  | false =>
    have hnanos : q.unit.nanos = q.unit.share := by
      rw [TimeUnit.share, hcoarse]
      rfl
    rw [if_neg Bool.false_ne_true, Amount.length, hnanos, hproduct]
    ring

/-- What is added is what the quantity stands for: nothing is rounded off. -/
theorem length_eq_exact (heven : q.IsEven) : (q.length : ℚ) = q.exact := by
  have hdenominator : (q.denominator : ℚ) ≠ 0 :=
    Nat.cast_ne_zero.mpr (pow_ne_zero _ (by decide))
  have hwhole : q.wholeAmount.length = q.number * q.unit.nanos := by
    simp only [Amount.length, wholeAmount, TimeUnit.nanos]
    ring
  have hfraction : (q.fractionAmount.length : ℚ) = q.numerator * q.unit.nanos / q.denominator := by
    rw [eq_div_iff hdenominator]
    exact_mod_cast fractionAmount_length heven
  rw [length, Nat.cast_add, hwhole, hfraction, exact, Nat.cast_mul]
  ring

end Quantity

/-! ## Rows of quantities -/

/-- The nanoseconds that some quantities add. -/
def rowLength (qs : List Quantity) : Nat := (qs.map Quantity.length).sum

/-- Whether quantities can be added to a sum one after the other: their fractions come out even,
and all numbers fit. -/
inductive AddsUp : Nat → List Quantity → Prop
  | nil (total : Nat) : AddsUp total []
  | cons {total : Nat} {q : Quantity} {qs : List Quantity} (heven : q.IsEven)
      (hfits : q.FitsOnto total) (hrest : AddsUp (total + q.length) qs) : AddsUp total (q :: qs)

/-- Whether the last of some quantities takes a sum past the last second by a carry, where those
before it can be added. -/
inductive RunsOver : Nat → List Quantity → Prop
  | last {total : Nat} {q : Quantity} (hcarries : q.CarriesOff total) : RunsOver total [q]
  | cons {total : Nat} {q : Quantity} {qs : List Quantity} (heven : q.IsEven)
      (hfits : q.FitsOnto total) (hrest : RunsOver (total + q.length) qs) : RunsOver total (q :: qs)

/-- What quantities add is what they stand for together. -/
theorem AddsUp.rowLength_eq_exact {total : Nat} {qs : List Quantity} (h : AddsUp total qs) :
    (rowLength qs : ℚ) = (qs.map Quantity.exact).sum := by
  induction h with
  | nil total => rfl
  | @cons total q qs heven hfits hrest ih =>
    have hcons : rowLength (q :: qs) = q.length + rowLength qs := rfl
    rw [hcons, Nat.cast_add, Quantity.length_eq_exact heven, ih, List.map_cons, List.sum_cons]

/-- Parts are added up just if they are quantities that can be. -/
theorem foldlM_addPart_eq_ok_iff {ps : List SpanPart} {total sum : Nat} :
    ps.foldlM addPart total = .ok sum ↔
      ∃ qs, ps.mapM SpanPart.quantity? = some qs ∧ AddsUp total qs ∧
        sum = total + rowLength qs := by
  induction ps generalizing total with
  | nil =>
    constructor
    · rintro ⟨⟩
      exact ⟨[], rfl, .nil _, rfl⟩
    · rintro ⟨qs, hqs, -, rfl⟩
      cases hqs
      rfl
  | cons p ps ih =>
    rw [List.foldlM_cons]
    constructor
    · intro h
      obtain ⟨between, hfirst, hmore⟩ := exists_of_bind_eq_ok h
      obtain ⟨qs, hqs, hadds, rfl⟩ := ih.mp hmore
      cases hq : p.quantity? with
      | none =>
        rw [Quantity.addPart_of_nameless hq] at hfirst
        cases hfirst
      | some q =>
        obtain ⟨heven, hfits, rfl⟩ := (Quantity.addPart_eq_ok_iff hq).mp hfirst
        exact ⟨q :: qs, mapM_quantity?_cons.mpr ⟨q, qs, hq, hqs, rfl⟩, .cons heven hfits hadds,
          Nat.add_assoc _ _ _⟩
    · rintro ⟨qs, hqs, hadds, rfl⟩
      obtain ⟨q, rest, hq, hrest, rfl⟩ := mapM_quantity?_cons.mp hqs
      cases hadds with
      | cons heven hfits hmore =>
        have hfirst := (Quantity.addPart_eq_ok_iff hq).mpr ⟨heven, hfits, rfl⟩
        rw [hfirst, ok_bind]
        exact ih.mpr ⟨rest, hrest, hmore, (Nat.add_assoc _ _ _).symm⟩

/-- Parts take a sum past the last second by a carry just if the first of them are quantities of
which the last does so. -/
theorem foldlM_addPart_eq_carryOverflow_iff {ps : List SpanPart} {total : Nat} :
    ps.foldlM addPart total = .error .carryOverflow ↔
      ∃ front behind qs, ps = front ++ behind ∧ front.mapM SpanPart.quantity? = some qs ∧
        RunsOver total qs := by
  induction ps generalizing total with
  | nil =>
    constructor
    · rintro ⟨⟩
    · rintro ⟨front, behind, qs, hnil, hqs, hruns⟩
      obtain ⟨rfl, rfl⟩ := List.append_eq_nil_iff.mp hnil.symm
      cases hqs
      cases hruns
  | cons p ps ih =>
    rw [List.foldlM_cons]
    constructor
    · intro h
      cases hq : p.quantity? with
      | none =>
        rw [Quantity.addPart_of_nameless hq] at h
        cases h
      | some q =>
        cases hfirst : addPart total p with
        | error fault =>
          rw [hfirst, error_bind] at h
          rw [h] at hfirst
          have hcarries := (Quantity.addPart_eq_carryOverflow_iff hq).mp hfirst
          exact ⟨[p], ps, [q], rfl, mapM_quantity?_cons.mpr ⟨q, [], hq, rfl, rfl⟩, .last hcarries⟩
        | ok between =>
          rw [hfirst, ok_bind] at h
          obtain ⟨heven, hfits, rfl⟩ := (Quantity.addPart_eq_ok_iff hq).mp hfirst
          obtain ⟨front, behind, qs, rfl, hqs, hruns⟩ := ih.mp h
          exact ⟨p :: front, behind, q :: qs, rfl, mapM_quantity?_cons.mpr ⟨q, qs, hq, hqs, rfl⟩,
            .cons heven hfits hruns⟩
    · rintro ⟨front, behind, qs, hps, hqs, hruns⟩
      cases front with
      | nil =>
        cases hqs
        cases hruns
      | cons p' front =>
        obtain ⟨rfl, rfl⟩ := List.cons.inj hps
        obtain ⟨q, rest, hq, hrest, rfl⟩ := mapM_quantity?_cons.mp hqs
        cases hruns with
        | last hcarries =>
          rw [(Quantity.addPart_eq_carryOverflow_iff hq).mpr hcarries, error_bind]
        | cons heven hfits hmore =>
          rw [(Quantity.addPart_eq_ok_iff hq).mpr ⟨heven, hfits, rfl⟩, ok_bind]
          exact ih.mpr ⟨front, behind, rest, rfl, hrest, hmore⟩

end WaitingRoom.Time
