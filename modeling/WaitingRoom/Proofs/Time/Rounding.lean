import Mathlib.Order.Compare
import Mathlib.Order.Monotone.Basic
import WaitingRoom.Time.Instant

/-!
# Instants as whole numbers

Databases keep instants as whole microseconds or milliseconds. Outside leap seconds, an
instant that is a whole number of them comes back as it was, and comes before and after the
same others as its number does.
-/

namespace WaitingRoom.Time.Instant

/-- An instant outside leap seconds that is a whole number of units of so many nanoseconds. -/
def IsWhole (unit : Nat) (t : Instant) : Prop := t.nano < nanosPerSecond ∧ t.nano % unit = 0

/-- A whole number of milliseconds is a whole number of microseconds. -/
theorem IsWhole.micros {t : Instant} (h : t.IsWhole 1000000) : t.IsWhole 1000 := by
  obtain ⟨hnano, hwhole⟩ := h
  exact ⟨hnano, by omega⟩

theorem of?_self {t : Instant} (second : Int) (nano : Nat) (hsecond : second = t.second)
    (hnano : nano = t.nano) : of? second nano = some t := by
  subst hsecond hnano
  rw [of?, dif_pos ⟨t.first_le, t.le_last, t.nano_lt⟩]

theorem toMicros_of_isWhole {t : Instant} (h : t.IsWhole 1000) :
    t.toMicros = (t.second - millennium) * 1000000 + (t.nano / 1000 : Nat) := by
  obtain ⟨-, hwhole⟩ := h
  have hexact : (t.second - millennium) * nanosPerSecond + t.nano =
      ((t.second - millennium) * 1000000 + (t.nano / 1000 : Nat)) * 1000 := by
    rw [nanosPerSecond]
    omega
  rw [toMicros, hexact, Int.mul_tdiv_cancel _ (by decide)]

/-- Whole microseconds come back as they were. -/
theorem ofMicros?_toMicros {t : Instant} (h : t.IsWhole 1000) : ofMicros? t.toMicros = some t := by
  rw [toMicros_of_isWhole h]
  obtain ⟨hnano, hwhole⟩ := h
  rw [nanosPerSecond] at hnano
  apply of?_self <;> omega

/-- Whole milliseconds come back as they were. -/
theorem ofMillis_toMillis {t : Instant} (h : t.IsWhole 1000000) : ofMillis t.toMillis = t := by
  have hback : ofMillis? t.toMillis = some t := by
    obtain ⟨hnano, hwhole⟩ := h
    rw [nanosPerSecond] at hnano
    rw [toMillis]
    apply of?_self <;> omega
  rw [ofMillis, hback]
  rfl

/-- Numbers that count a second in full before the next one compare as the seconds do, and
within a second as what is counted there. -/
theorem compare_mul_add (a b : Int) (scale : Nat) {m n : Nat} (hm : m < scale) (hn : n < scale) :
    compare (a * scale + m) (b * scale + n) = (compare a b).then (compare m n) := by
  rcases Int.lt_trichotomy a b with hlt | rfl | hgt
  · have hfirst : compare a b = .lt := Int.compare_eq_lt.mpr hlt
    rw [hfirst, Ordering.lt_then, Int.compare_eq_lt]
    have hscale : (a + 1) * scale ≤ b * scale :=
      Int.mul_le_mul_of_nonneg_right (by omega) (Int.natCast_nonneg _)
    rw [Int.add_mul] at hscale
    omega
  · rw [Std.compare_self, Ordering.eq_then]
    rcases Nat.lt_trichotomy m n with hlt | rfl | hgt
    · rw [Nat.compare_eq_lt.mpr hlt, Int.compare_eq_lt]
      omega
    · rw [Std.compare_self, Std.compare_self]
    · rw [Nat.compare_eq_gt.mpr hgt, Int.compare_eq_gt]
      omega
  · have hfirst : compare a b = .gt := Int.compare_eq_gt.mpr hgt
    rw [hfirst, Ordering.gt_then, Int.compare_eq_gt]
    have hscale : (b + 1) * scale ≤ a * scale :=
      Int.mul_le_mul_of_nonneg_right (by omega) (Int.natCast_nonneg _)
    rw [Int.add_mul] at hscale
    omega

/-- Nanoseconds that are whole units compare as the numbers of units do. -/
theorem compare_div {m n unit : Nat} (hunit : 0 < unit) (hm : m % unit = 0) (hn : n % unit = 0) :
    compare (m / unit) (n / unit) = compare m n := by
  obtain ⟨m, rfl⟩ := Nat.dvd_of_mod_eq_zero hm
  obtain ⟨n, rfl⟩ := Nat.dvd_of_mod_eq_zero hn
  have hmono : StrictMono fun k => unit * k := fun _ _ h => Nat.mul_lt_mul_of_pos_left h hunit
  rw [Nat.mul_div_cancel_left _ hunit, Nat.mul_div_cancel_left _ hunit, ← cmp_eq_compare,
    ← cmp_eq_compare]
  exact (hmono.cmp_map_eq m n).symm

/-- Whole microseconds compare as their numbers do. -/
theorem compare_toMicros {a b : Instant} (ha : a.IsWhole 1000) (hb : b.IsWhole 1000) :
    compare a.toMicros b.toMicros = a.compareTo b := by
  obtain ⟨hanano, hawhole⟩ := ha
  obtain ⟨hbnano, hbwhole⟩ := hb
  rw [nanosPerSecond] at hanano hbnano
  rw [toMicros_of_isWhole ⟨hanano, hawhole⟩, toMicros_of_isWhole ⟨hbnano, hbwhole⟩, compareTo,
    ← compare_div (by decide) hawhole hbwhole]
  have hshift : compare (a.second - millennium) (b.second - millennium) =
      compare a.second b.second := by
    have hmono : StrictMono fun n : Int => n - millennium := fun _ _ h =>
      Int.sub_lt_sub_right h millennium
    rw [← cmp_eq_compare, ← cmp_eq_compare]
    exact hmono.cmp_map_eq a.second b.second
  rw [← hshift]
  exact compare_mul_add _ _ 1000000 (by omega) (by omega)

/-- Whole milliseconds compare as their numbers do. -/
theorem compare_toMillis {a b : Instant} (ha : a.IsWhole 1000000) (hb : b.IsWhole 1000000) :
    compare a.toMillis b.toMillis = a.compareTo b := by
  obtain ⟨hanano, hawhole⟩ := ha
  obtain ⟨hbnano, hbwhole⟩ := hb
  rw [nanosPerSecond] at hanano hbnano
  rw [compareTo, ← compare_div (by decide) hawhole hbwhole]
  exact compare_mul_add _ _ 1000 (by omega) (by omega)

end WaitingRoom.Time.Instant
