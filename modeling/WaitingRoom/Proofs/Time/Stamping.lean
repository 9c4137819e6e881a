import WaitingRoom.Time.Stamp
import WaitingRoom.Proofs.Text.Digits
import WaitingRoom.Proofs.Time.Calendar
import WaitingRoom.Proofs.Time.Rounding

/-!
# Time stamps read back

Every instant there is comes back from the text it is written as: years of any sign and
length, leap seconds, and fractions of three, six or nine digits. Each field is taken off
the text where it begins, whatever follows it; the date, the time of day and the fraction
then come to the instant again.
-/

namespace WaitingRoom.Time.Stamp

open Text

variable {rest : List Char}

/-! ## Fields -/

/-- Digits are read as their number, if there is room for no more or no digit follows. -/
theorem number?_append {most : Nat} {ds : List Char} (hdigits : ∀ c ∈ ds, isDigit c = true)
    (hne : ds ≠ []) (hmost : ds.length ≤ most)
    (hstop : ds.length = most ∨ ∀ c, rest.head? = some c → isDigit c = false) :
    number? most (ds ++ rest) = some (valueOf ds, rest) := by
  have htaken : ((ds ++ rest).take most).takeWhile isDigit = ds := by
    rw [List.take_append, List.take_of_length_le hmost, List.takeWhile_append_of_pos hdigits]
    rcases hstop with hfull | hstop
    · simp [hfull]
    · cases rest with
      | nil => simp
      | cons c rest =>
        have hc : isDigit c = false := hstop c rfl
        cases most - ds.length <;> simp [hc]
  rw [number?, htaken, if_neg (by simpa using hne), List.drop_left]

/-- A field of two digits, whatever follows it. -/
theorem field?_append {n : Nat} (hn : n < 100) (rest : List Char) :
    field? (paddedDigits 2 n ++ rest) = some (n, rest) := by
  have hblank : dropBlanks (paddedDigits 2 n ++ rest) = paddedDigits 2 n ++ rest :=
    dropBlanks_cons (isBlank_of_isDigit (isDigit_digitChar (Nat.mod_lt _ (by decide))))
  rw [field?, hblank, number?_append (fun c => isDigit_of_mem_paddedDigits)
    (paddedDigits_ne_nil (by decide) n) (by simp) (.inl (by simp)), valueOf_paddedDigits,
    Nat.mod_eq_of_lt hn]

theorem mark?_cons (mark : Char) (hmark : isBlank mark = false) (rest : List Char) :
    mark? mark (mark :: rest) = some rest := by
  rw [mark?, dropBlanks_cons hmark]
  simp

theorem timeMark?_cons (rest : List Char) : timeMark? ('T' :: rest) = some rest := rfl

theorem offset?_utc (rest : List Char) : offset? ('Z' :: rest) = some (0, rest) := rfl

theorem year?_minus (cs : List Char) :
    year? ('-' :: cs) = (number? cs.length cs).map fun (n, rest) => (-(n : Int), rest) := rfl

theorem year?_plus (cs : List Char) :
    year? ('+' :: cs) = (number? cs.length cs).map fun (n, rest) => ((n : Int), rest) := rfl

theorem year?_of_isDigit {c : Char} (h : isDigit c = true) (cs : List Char) :
    year? (c :: cs) = (number? 4 (c :: cs)).map fun (n, rest) => ((n : Int), rest) := by
  rw [year?, dropBlanks_cons (isBlank_of_isDigit h)]
  split
  · rename_i hsign
    obtain ⟨rfl, -⟩ := List.cons.inj hsign
    cases h
  · rename_i hsign
    obtain ⟨rfl, -⟩ := List.cons.inj hsign
    cases h
  · rfl

/-- A year of any sign and length, if no digit follows. -/
theorem year?_append (year : Int) (rest : List Char)
    (hstop : ∀ c, rest.head? = some c → isDigit c = false) :
    year? (yearChars year ++ rest) = some (year, rest) := by
  have hpadded {most : Nat} (hmost : 4 ≤ most) (hshort : year.natAbs < 10000) :
      number? most (paddedDigits 4 year.natAbs ++ rest) = some (year.natAbs, rest) := by
    rw [number?_append (fun c => isDigit_of_mem_paddedDigits) (paddedDigits_ne_nil (by decide) _)
      (by simpa) (.inr hstop), valueOf_paddedDigits, Nat.mod_eq_of_lt hshort]
  generalize hds :
    (if year.natAbs < 10000 then paddedDigits 4 year.natAbs else digits year.natAbs) = ds
  have hsigned : number? (ds ++ rest).length (ds ++ rest) = some (year.natAbs, rest) := by
    subst hds
    split
    · exact hpadded (by simp) ‹_›
    · rw [number?_append (fun c => isDigit_of_mem_digits) (digits_ne_nil _) (by simp)
        (.inr hstop), valueOf_digits]
  simp only [yearChars, hds]
  split
  · rename_i hplain
    obtain ⟨hfirst, hlast⟩ : 0 ≤ year ∧ year < 10000 := by simpa using hplain
    have hshort : year.natAbs < 10000 := by omega
    rw [if_pos hshort] at hds
    subst hds
    change year? (digitChar _ :: _) = _
    rw [year?_of_isDigit (isDigit_digitChar (Nat.mod_lt _ (by decide)))]
    change (number? 4 (paddedDigits 4 year.natAbs ++ rest)).map _ = _
    rw [hpadded (Nat.le_refl 4) hshort]
    exact congrArg (fun y => some (y, rest)) (Int.natAbs_of_nonneg hfirst)
  · rw [List.cons_append]
    split
    · rw [year?_minus, hsigned]
      exact congrArg (fun y => some (y, rest)) (by omega)
    · rw [year?_plus, hsigned]
      exact congrArg (fun y => some (y, rest)) (by omega)

/-- The digits after the point stand for as many nanoseconds as their place says. -/
theorem fraction?_point {width : Nat} (hpos : 0 < width) (hwidth : width ≤ 9) (n : Nat)
    (hstop : ∀ c, rest.head? = some c → isDigit c = false) :
    fraction? ('.' :: paddedDigits width n ++ rest) =
      some (n % Nat.pow 10 width * Nat.pow 10 (9 - width), rest) := by
  have htaken : (paddedDigits width n ++ rest).takeWhile isDigit = paddedDigits width n := by
    rw [List.takeWhile_append_of_pos fun c => isDigit_of_mem_paddedDigits]
    cases rest with
    | nil => simp
    | cons c rest => simp [hstop c rfl]
  have hkept : (paddedDigits width n).take 9 = paddedDigits width n :=
    List.take_of_length_le (by simpa)
  rw [List.cons_append, fraction?, htaken, hkept,
    if_neg (by simpa using paddedDigits_ne_nil hpos n), valueOf_paddedDigits, List.drop_left,
    paddedDigits_length]

/-- The fraction of a second, if neither a digit nor a point follows. -/
theorem fraction?_append {nano : Nat} (hnano : nano < nanosPerSecond) (rest : List Char)
    (hstop : ∀ c, rest.head? = some c → isDigit c = false ∧ c ≠ '.') :
    fraction? (fractionChars nano ++ rest) = some (nano, rest) := by
  have hdigit c (hc : rest.head? = some c) : isDigit c = false := (hstop c hc).1
  rw [nanosPerSecond] at hnano
  unfold fractionChars
  split
  · rename_i hzero
    obtain rfl : nano = 0 := by simpa using hzero
    rw [List.nil_append]
    unfold fraction?
    split
    · exact absurd rfl (hstop '.' rfl).2
    · rfl
  · split
    · rename_i hmillis
      have hwhole : nano % 1000000 = 0 := by simpa using hmillis
      have hback : nano / 1000000 % 1000 * 1000000 = nano := by omega
      rw [fraction?_point (by decide) (by decide) _ hdigit]
      exact congrArg (fun n => some (n, rest)) hback
    · split
      · rename_i hmicros
        have hwhole : nano % 1000 = 0 := by simpa using hmicros
        have hback : nano / 1000 % 1000000 * 1000 = nano := by omega
        rw [fraction?_point (by decide) (by decide) _ hdigit]
        exact congrArg (fun n => some (n, rest)) hback
      · have hback : nano % 1000000000 * 1 = nano := by omega
        rw [fraction?_point (by decide) (by decide) _ hdigit]
        exact congrArg (fun n => some (n, rest)) hback

/-! ## The instant -/

/-- What follows a field goes on from what the field is read as. -/
theorem bind_of_eq_some {α β : Type} {o : Option α} {f : α → Option β} {a : α} {b : Option β}
    (ho : o = some a) (hf : f a = b) : (o >>= f) = b := by
  rw [ho]
  exact hf

/-- The fields of a time stamp, if they are those of a date and a time of day there is, come to
the instant they are read as. -/
theorem parse?_fields {date : Date} {hour minute second nano : Nat} (hdate : date.isValid = true)
    (hyear : -262143 ≤ date.year ∧ date.year ≤ 262142) (hhour : hour < 24)
    (hminute : minute < 60) (hsecond : second ≤ 60) (hnano : nano < nanosPerSecond) :
    parse? (String.ofList (yearChars date.year ++ '-' :: paddedDigits 2 date.month ++
      '-' :: paddedDigits 2 date.day ++ 'T' :: paddedDigits 2 hour ++
      ':' :: paddedDigits 2 minute ++ ':' :: paddedDigits 2 second ++ fractionChars nano ++
      ['Z'])) =
      Instant.of? (date.toDays * secondsPerDay + hour * 3600 + minute * 60 +
          (if second == 60 then 59 else second : Nat))
        (if second == 60 then nanosPerSecond + nano else nano) := by
  obtain ⟨hmonth, hday⟩ := Date.lt_of_isValid hdate
  rw [parse?, String.toList_ofList]
  simp only [List.append_assoc, List.cons_append]
  refine bind_of_eq_some (year?_append date.year ('-' :: _) (by simp; decide)) ?_
  refine bind_of_eq_some (mark?_cons '-' (by decide) _) ?_
  refine bind_of_eq_some (field?_append hmonth _) ?_
  refine bind_of_eq_some (mark?_cons '-' (by decide) _) ?_
  refine bind_of_eq_some (field?_append hday _) ?_
  refine bind_of_eq_some (timeMark?_cons _) ?_
  refine bind_of_eq_some (field?_append (by omega) _) ?_
  refine bind_of_eq_some (mark?_cons ':' (by decide) _) ?_
  refine bind_of_eq_some (field?_append (by omega) _) ?_
  refine bind_of_eq_some (mark?_cons ':' (by decide) _) ?_
  refine bind_of_eq_some (field?_append (by omega) _) ?_
  refine bind_of_eq_some (fraction?_append hnano ['Z'] (by simp; decide)) ?_
  refine bind_of_eq_some (offset?_utc []) ?_
  rw [Int.sub_zero]
  change (if (false || !date.isValid || _ || _ || _) = true then _ else _) = _
  rw [Bool.false_or, if_neg (by simp [hdate, hhour, hminute, hsecond]), if_neg (by simp [hyear])]

/-- The text of an instant is read as the instant. -/
theorem parse?_render (t : Instant) : parse? (render t) = some t := by
  have hfirst := t.first_le
  have hlast := t.le_last
  have hnano := t.nano_lt
  rw [firstSecond] at hfirst
  rw [lastSecond] at hlast
  rw [nanosPerSecond] at hnano
  have hday : (secondsPerDay : Int) = 86400 := rfl
  have hyear := Date.year_mem (t.second / 86400) (by omega) (by omega)
  rw [render, toChars, wholeChars, hday,
    parse?_fields (Date.isValid_ofDays _) hyear (by omega) (by omega)
      (by rw [nanosPerSecond]; omega) (Nat.mod_lt _ (by decide)),
    Date.toDays_ofDays, hday, nanosPerSecond]
  -- The second is written as the sixtieth in leap seconds alone.
  by_cases hleap : 1000000000 ≤ t.nano
  · have hsixtieth : ((t.second % 86400).toNat % 60 + t.nano / 1000000000 == 60) = true := by
      simp only [beq_iff_eq]
      omega
    rw [if_pos hsixtieth, if_pos hsixtieth]
    apply Instant.of?_self <;> omega
  · have hplain : ¬((t.second % 86400).toNat % 60 + t.nano / 1000000000 == 60) = true := by
      simp only [beq_iff_eq]
      omega
    rw [if_neg hplain, if_neg hplain]
    apply Instant.of?_self <;> omega

end WaitingRoom.Time.Stamp
