import WaitingRoom.Proofs.Time.Totals

/-!
# Waits

A setting says how long to wait as a row of quantities. The wait is what they stand for together,
to the nanosecond, or there is none: a text that is no such row, whose numbers do not fit or whose
quantities come to nothing turns it off. A sum that passes the last second by a carry alone is
neither.
-/

namespace WaitingRoom.Time

open Text (AllBlank strip)

/-- Whether a text is a row of quantities that can be added up. -/
structure SpellsSpan (cs : List Char) (qs : List Quantity) : Prop where
  nonempty : qs ≠ []
  spells : Spells cs qs
  addsUp : AddsUp 0 qs

/-- Whether a text begins with quantities that pass the last second by a carry alone. -/
def SpellsOverrun (cs : List Char) : Prop := ∃ qs left, Begins cs qs left ∧ RunsOver 0 qs

namespace Span

variable {s : String}

/-- A text is read as a span once its parts have been added up. -/
theorem parse_eq (s : String) :
    parse s = (parts s.toList).1.foldlM addPart 0 >>= fun total =>
      if (parts s.toList).2 && !(parts s.toList).1.isEmpty then .ok ⟨total⟩
      else .error .unreadable := rfl

/-- A span is read just from a row of quantities that can be added up, and it is exactly what they
stand for together. -/
theorem parse_eq_ok_iff {d : Span} :
    parse s = .ok d ↔
      ∃ qs, SpellsSpan s.toList qs ∧ (d.nanos : ℚ) = (qs.map Quantity.exact).sum := by
  rw [parse_eq]
  constructor
  · intro h
    obtain ⟨total, hsum, hend⟩ := exists_of_bind_eq_ok h
    split at hend
    · rename_i hall
      rw [Bool.and_eq_true, Bool.not_eq_true', List.isEmpty_eq_false_iff] at hall
      obtain ⟨qs, hqs, hadds, rfl⟩ := foldlM_addPart_eq_ok_iff.mp hsum
      have hspells : Spells s.toList qs := spells_iff.mpr ⟨_, Prod.ext rfl hall.1, hqs⟩
      obtain ⟨p, ps, hps⟩ := List.exists_cons_of_ne_nil hall.2
      rw [hps] at hqs
      obtain ⟨q, rest, -, -, rfl⟩ := mapM_quantity?_cons.mp hqs
      cases hend
      refine ⟨q :: rest, ⟨List.cons_ne_nil q rest, hspells, hadds⟩, ?_⟩
      rw [← hadds.rowLength_eq_exact, Nat.zero_add]
    · cases hend
  · rintro ⟨qs, ⟨hne, hspells, hadds⟩, hexact⟩
    obtain ⟨ps, hparts, hqs⟩ := spells_iff.mp hspells
    rw [← hadds.rowLength_eq_exact, Nat.cast_inj] at hexact
    have hsum : ps.foldlM addPart 0 = .ok d.nanos :=
      foldlM_addPart_eq_ok_iff.mpr ⟨qs, hqs, hadds, by rw [hexact, Nat.zero_add]⟩
    have hps : ps.isEmpty = false := by
      cases ps with
      | nil => exact absurd (Option.some.inj hqs).symm hne
      | cons p ps => rfl
    rw [hparts, hsum, ok_bind, hps]
    rfl

/-- A row of quantities that can be added up is read as a span. -/
theorem parse_of_spellsSpan {qs : List Quantity} (h : SpellsSpan s.toList qs) :
    parse s = .ok ⟨rowLength qs⟩ :=
  parse_eq_ok_iff.mpr ⟨qs, h, h.addsUp.rowLength_eq_exact⟩

/-- A text that is read as no span is no row of quantities that can be added up. -/
theorem not_spellsSpan_of_fault {fault : SpanFault} (h : parse s = .error fault)
    (qs : List Quantity) : ¬ SpellsSpan s.toList qs := by
  intro hqs
  rw [parse_of_spellsSpan hqs] at h
  cases h

/-- The sum passes the last second by a carry just if quantities do that a text begins with. -/
theorem parse_eq_carryOverflow_iff :
    parse s = .error .carryOverflow ↔ SpellsOverrun s.toList := by
  have hsum : parse s = .error .carryOverflow ↔
      (parts s.toList).1.foldlM addPart 0 = .error .carryOverflow := by
    rw [parse_eq]
    cases (parts s.toList).1.foldlM addPart 0 with
    | error fault => rw [error_bind, Except.error.injEq, Except.error.injEq]
    | ok total =>
      rw [ok_bind]
      split <;> simp
  rw [hsum, foldlM_addPart_eq_carryOverflow_iff]
  constructor
  · rintro ⟨front, behind, qs, hparts, hqs, hruns⟩
    obtain ⟨left, hbegins⟩ := begins_iff.mpr ⟨front, behind, hparts, hqs⟩
    exact ⟨qs, left, hbegins, hruns⟩
  · rintro ⟨qs, left, hbegins, hruns⟩
    obtain ⟨front, behind, hparts, hqs⟩ := begins_iff.mp ⟨left, hbegins⟩
    exact ⟨front, behind, qs, hparts, hqs, hruns⟩

/-- Where a span must have a length, what is made of one is made of one that has. -/
theorem ite_nanos_eq_iff {α : Type} {refused : α} {make : Span → α}
    (hinjective : Function.Injective make) (hrefused : ∀ d, refused ≠ make d) {d wait : Span} :
    (if d.nanos = 0 then refused else make d) = make wait ↔ d = wait ∧ 0 < wait.nanos := by
  split_ifs with hzero
  · refine iff_of_false (hrefused wait) ?_
    rintro ⟨rfl, hpos⟩
    omega
  · rw [hinjective.eq_iff, iff_self_and]
    rintro rfl
    omega

/-- A blank text and a lone dash are no spans. -/
theorem parse_of_turnedOff (h : (s.isEmpty || s == "-") = true) : parse s = .error .unreadable := by
  rw [Bool.or_eq_true, String.isEmpty_iff, beq_iff_eq] at h
  rcases h with rfl | rfl <;> rfl

/-- A wait as a text that is read in any case: what turns it off is no span. -/
theorem parseWait_eq (s : String) :
    parseWait s =
      match parse (Text.trim s) with
      | .ok wait => if wait.nanos = 0 then .off else .after wait
      | .error .carryOverflow => .carryOverflow
      | .error .unreadable =>
        if (Text.trim s).isEmpty || Text.trim s == "-" then .off else .refused := by
  unfold parseWait
  by_cases hoff : ((Text.trim s).isEmpty || Text.trim s == "-") = true
  · simp only [parse_of_turnedOff hoff, hoff, if_true]
  · simp only [hoff, beq_iff_eq]
    rcases parse (Text.trim s) with (_ | _) | _ <;> rfl

/-- A wait is a span that has a length. -/
theorem parseWait_eq_after_iff {wait : Span} :
    parseWait s = .after wait ↔
      ∃ qs, SpellsSpan (strip s.toList) qs ∧ 0 < wait.nanos ∧
        (wait.nanos : ℚ) = (qs.map Quantity.exact).sum := by
  have hwait : parseWait s = .after wait ↔ parse (Text.trim s) = .ok wait ∧ 0 < wait.nanos := by
    rw [parseWait_eq]
    rcases parse (Text.trim s) with (_ | _) | d
    · refine iff_of_false ?_ fun h => nomatch h.1
      dsimp only
      split_ifs <;> rintro ⟨⟩
    · exact iff_of_false (fun h => nomatch h) fun h => nomatch h.1
    · dsimp only
      rw [Except.ok.injEq]
      exact ite_nanos_eq_iff (fun _ _ => WaitSetting.after.inj) (by rintro _ ⟨⟩)
  rw [hwait, parse_eq_ok_iff, Text.toList_trim]
  constructor
  · rintro ⟨⟨qs, hqs, hexact⟩, hpos⟩
    exact ⟨qs, hqs, hpos, hexact⟩
  · rintro ⟨qs, hqs, hpos, hexact⟩
    exact ⟨⟨qs, hqs, hexact⟩, hpos⟩

/-- A wait runs over just if the span does. -/
theorem parseWait_eq_carryOverflow_iff :
    parseWait s = .carryOverflow ↔ SpellsOverrun (strip s.toList) := by
  rw [← Text.toList_trim, ← parse_eq_carryOverflow_iff, parseWait_eq]
  rcases parse (Text.trim s) with (_ | _) | d
  · refine iff_of_false ?_ fun h => nomatch h
    dsimp only
    split_ifs <;> rintro ⟨⟩
  · exact iff_of_true rfl rfl
  · refine iff_of_false ?_ fun h => nomatch h
    dsimp only
    split_ifs <;> rintro ⟨⟩

/-- Blanks around a text make no difference to the wait. -/
theorem parseWait_surrounded {before after : List Char} (hbefore : AllBlank before)
    (hafter : AllBlank after) (s : String) :
    parseWait (String.ofList (before ++ s.toList ++ after)) = parseWait s := by
  have htrim : Text.trim (String.ofList (before ++ s.toList ++ after)) = Text.trim s := by
    rw [Text.trim, String.toList_ofList, Text.strip_append_right hafter,
      Text.strip_append_left hbefore, Text.trim]
  rw [parseWait_eq, htrim, ← parseWait_eq]

/-- **Waits are exact or off.** A wait is read just from a row of quantities that can be added up
and come to more than nothing, and then it is exactly what they stand for together. The sum runs
over where the text begins with quantities that pass the last second by a carry alone; any other
text turns the wait off. Blanks around the text make no difference. -/
theorem waits_are_exact_or_off (s : String) :
    (∀ before after, AllBlank before → AllBlank after →
      parseWait (String.ofList (before ++ s.toList ++ after)) = parseWait s) ∧
    (∀ wait, parseWait s = .after wait ↔
      ∃ qs, SpellsSpan (strip s.toList) qs ∧ 0 < wait.nanos ∧
        (wait.nanos : ℚ) = (qs.map Quantity.exact).sum) ∧
    (parseWait s = .carryOverflow ↔ SpellsOverrun (strip s.toList)) ∧
    ((∀ qs, SpellsSpan (strip s.toList) qs → (qs.map Quantity.exact).sum = 0) →
      ¬ SpellsOverrun (strip s.toList) → parseWait s = .off ∨ parseWait s = .refused) := by
  refine ⟨fun before after hbefore hafter => parseWait_surrounded hbefore hafter s,
    fun wait => parseWait_eq_after_iff, parseWait_eq_carryOverflow_iff,
    fun hnothing hfits => ?_⟩
  cases hwait : parseWait s with
  | off => exact .inl rfl
  | refused => exact .inr rfl
  | carryOverflow => exact absurd (parseWait_eq_carryOverflow_iff.mp hwait) hfits
  | after wait =>
    obtain ⟨qs, hqs, hpos, hexact⟩ := parseWait_eq_after_iff.mp hwait
    rw [hnothing qs hqs, Nat.cast_eq_zero] at hexact
    omega

/-- An hour and thirty minutes and a half are exact, with blanks around them or without; a
nanosecond and a half is no wait. -/
theorem hour_and_half_is_exact :
    parseWait "\u00a01h 30.5m\t" = parseWait "1h 30.5m" ∧
      parseWait "1h 30.5m" = .after ⟨5430000000000⟩ ∧
      (∃ qs, SpellsSpan (strip "1h 30.5m".toList) qs ∧
        (qs.map Quantity.exact).sum = 5430000000000) ∧
      (parseWait "1.5ns" = .off ∨ parseWait "1.5ns" = .refused) := by
  have hread : parseWait "1h 30.5m" = .after ⟨5430000000000⟩ := by decide +kernel
  obtain ⟨qs, hqs, -, hexact⟩ := ((waits_are_exact_or_off "1h 30.5m").2.1 _).mp hread
  have hrefused : parse "1.5ns" = .error .unreadable := by decide +kernel
  refine ⟨?_, hread, ⟨qs, hqs, by rw [← hexact]; rfl⟩, ?_⟩
  · exact (waits_are_exact_or_off "1h 30.5m").1 ['\u00a0'] ['\t'] (by decide) (by decide)
  · refine (waits_are_exact_or_off "1.5ns").2.2.2 (fun qs hqs => ?_) fun hover => ?_
    · exact absurd hqs (not_spellsSpan_of_fault hrefused qs)
    · have hread := (parse_eq_carryOverflow_iff (s := "1.5ns")).mpr hover
      rw [hrefused] at hread
      cases hread

/-- A second of nanoseconds after all seconds there are: the row cannot be added up, and still it is
not refused. -/
theorem last_second_runs_over :
    (∀ qs, ¬ SpellsSpan (strip "18446744073709551615s 1000000000ns".toList) qs) ∧
      parseWait "18446744073709551615s 1000000000ns" = .carryOverflow := by
  have hread : parse "18446744073709551615s 1000000000ns" = .error .carryOverflow := by
    decide +kernel
  exact ⟨not_spellsSpan_of_fault hread, by decide +kernel⟩

end Span

end WaitingRoom.Time
