import WaitingRoom.Proofs.Time.Rounding

/-!
# Instants as databases keep them

An instant that is no whole number of a database's units comes back from it as another one,
which is a whole number of them and is kept from then on. Only the leap second with which
time ends is no part of this: what it counts as lies beyond all instants.
-/

namespace WaitingRoom.Time.Instant

variable {t : Instant}

/-- An instant that does not lie in a leap second after the last second of time. -/
def IsTimely (t : Instant) : Prop := t.second < lastSecond ∨ t.nano < nanosPerSecond

instance (t : Instant) : Decidable t.IsTimely :=
  inferInstanceAs (Decidable (t.second < lastSecond ∨ t.nano < nanosPerSecond))

/-- The instant of the whole milliseconds. -/
def inMillis (t : Instant) : Instant := ofMillis t.toMillis

/-- The instant of the whole microseconds, as far as there is one. -/
def inMicros (t : Instant) : Instant := (ofMicros? t.toMicros).getD last

theorem IsWhole.isTimely {unit : Nat} (h : t.IsWhole unit) : t.IsTimely := .inr h.1

theorem inMillis_of_isWhole (h : t.IsWhole 1000000) : t.inMillis = t := ofMillis_toMillis h

theorem inMicros_of_isWhole (h : t.IsWhole 1000) : t.inMicros = t := by
  rw [inMicros, ofMicros?_toMicros h]
  rfl

/-- Seconds and nanoseconds within the bounds are those of an instant. -/
theorem exists_of?_eq (unit : Nat) (second : Int) (nano : Nat)
    (hsecond : firstSecond ≤ second ∧ second ≤ lastSecond) (hnano : nano < nanosPerSecond)
    (hwhole : nano % unit = 0) : ∃ back : Instant, of? second nano = some back ∧
      back.IsWhole unit := by
  refine ⟨⟨second, nano, hsecond.1, hsecond.2, .inl hnano⟩, ?_, hnano, hwhole⟩
  rw [of?, dif_pos ⟨hsecond.1, hsecond.2, .inl hnano⟩]

/-- Milliseconds are kept in full once they are whole. -/
theorem isWhole_inMillis (h : t.IsTimely) : t.inMillis.IsWhole 1000000 := by
  have hfirst := t.first_le
  have hlast := t.le_last
  have hnano := t.nano_lt
  simp only [IsTimely, firstSecond, lastSecond, nanosPerSecond] at h hfirst hlast hnano
  obtain ⟨back, hback, hwhole⟩ := exists_of?_eq 1000000 (t.toMillis / 1000)
    ((t.toMillis % 1000).toNat * 1000000)
    (by simp only [toMillis, firstSecond, lastSecond]; omega)
    (by simp only [nanosPerSecond]; omega) (by omega)
  have hmillis : ofMillis? t.toMillis = some back := hback
  rwa [inMillis, ofMillis, hmillis]

/-- The whole microseconds are those of an instant, and are kept in full. -/
theorem isWhole_inMicros (h : t.IsTimely) :
    ofMicros? t.toMicros = some t.inMicros ∧ t.inMicros.IsWhole 1000 := by
  have hfirst := t.first_le
  have hlast := t.le_last
  have hnano := t.nano_lt
  simp only [IsTimely, firstSecond, lastSecond, nanosPerSecond] at h hfirst hlast hnano
  have hreach : -8335547913600 * 1000000 ≤ t.toMicros ∧
      t.toMicros < 8209320192000 * 1000000 := by
    simp only [toMicros, millennium, nanosPerSecond]
    generalize hcount : (t.second - 946684800) * (1000000000 : Nat) + (t.nano : Int) = count
    -- Before the year 2000 the division rounds up.
    rcases Int.le_total 0 count with hafter | hbefore
    · rw [Int.tdiv_eq_ediv_of_nonneg hafter]
      omega
    · have hnegated : count.tdiv 1000 = -(-count / 1000) := by
        rw [← Int.tdiv_eq_ediv_of_nonneg (by omega), Int.neg_tdiv, Int.neg_neg]
      omega
  obtain ⟨back, hback, hwhole⟩ := exists_of?_eq 1000 (millennium + t.toMicros / 1000000)
    ((t.toMicros % 1000000).toNat * 1000)
    (by simp only [millennium, firstSecond, lastSecond]; omega)
    (by simp only [nanosPerSecond]; omega) (by omega)
  have hmicros : ofMicros? t.toMicros = some back := hback
  rw [inMicros, hmicros]
  exact ⟨rfl, hwhole⟩

/-- What microseconds stand for is a whole number of them. -/
theorem isWhole_of_ofMicros? {micros : Int} (h : ofMicros? micros = some t) : t.IsWhole 1000 := by
  rw [ofMicros?, of?] at h
  split at h
  · obtain rfl := Option.some.inj h
    constructor <;> simp only [nanosPerSecond] <;> omega
  · cases h

theorem isTimely_ofMillis (millis : Int) : (ofMillis millis).IsTimely := by
  rw [ofMillis, ofMillis?, of?]
  split
  · refine .inr ?_
    simp only [Option.getD_some, nanosPerSecond]
    omega
  · rw [Option.getD_none]
    split
    · exact .inr (by decide)
    · exact .inr (by decide)

theorem isTimely_inMicros (t : Instant) : t.inMicros.IsTimely := by
  rw [inMicros]
  cases hmicros : ofMicros? t.toMicros with
  | none => exact .inr (by decide)
  | some back => exact (isWhole_of_ofMicros? hmicros).isTimely

/-- An instant is kept in whole milliseconds just if it is one of them. -/
theorem inMillis_eq_self_iff : t.inMillis = t ↔ t.IsWhole 1000000 := by
  refine ⟨fun h => ?_, inMillis_of_isWhole⟩
  have htimely : t.IsTimely := h ▸ isTimely_ofMillis t.toMillis
  exact h ▸ isWhole_inMillis htimely

/-- An instant is kept in whole microseconds just if it is one of them. -/
theorem inMicros_eq_self_iff : t.inMicros = t ↔ t.IsWhole 1000 := by
  refine ⟨fun h => ?_, inMicros_of_isWhole⟩
  have htimely : t.IsTimely := h ▸ isTimely_inMicros t
  exact h ▸ (isWhole_inMicros htimely).2

end WaitingRoom.Time.Instant
