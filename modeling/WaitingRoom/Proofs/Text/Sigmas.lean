import WaitingRoom.Text.Lowercase

/-!
# The lower case of a stretch of text

All characters take their lower case on their own but the capital sigma, which looks at the
letters on both sides of it. So a stretch of a text has in lower case what it has by itself just
if its capital sigmas take the same form in both places.
-/

namespace WaitingRoom.Text

/-- Whether a capital sigma is a final one after the characters `before`, last character first,
and in front of `rest`. -/
def isFinalBetween (before rest : List Char) : Bool := reachesCased before && !reachesCased rest

/-- The lower case of a character after the characters `before`, last character first, and in
front of `rest`. -/
def lowerBetween (before : List Char) (c : Char) (rest : List Char) : List Char :=
  if c == capitalSigma then
    if isFinalBetween before rest then [finalSigma] else [innerSigma]
  else lowerChar c

/-- The lower case of a stretch of text after the characters `before`, last character first, and
in front of `after`. -/
def lowerWithin (before after : List Char) : List Char → List Char
  | [] => []
  | c :: rest => lowerBetween before c (rest ++ after) ++ lowerWithin (c :: before) after rest

/-- A text to its end is a stretch that nothing follows. -/
theorem lowerFrom_eq_lowerWithin (before cs : List Char) :
    lowerFrom before cs = lowerWithin before [] cs := by
  induction cs generalizing before with
  | nil => rfl
  | cons c rest ih =>
    rw [lowerFrom, lowerWithin, ih, List.append_nil]
    rfl

/-- Two stretches that follow one another. -/
theorem lowerWithin_append (before after first second : List Char) :
    lowerWithin before after (first ++ second) =
      lowerWithin before (second ++ after) first ++
        lowerWithin (first.reverse ++ before) after second := by
  induction first generalizing before with
  | nil => rfl
  | cons c rest ih =>
    rw [List.cons_append, lowerWithin, lowerWithin, ih, List.append_assoc, List.append_assoc,
      List.reverse_cons, List.append_assoc, List.singleton_append]

/-- How long the lower case of a character is does not depend on its place. -/
theorem length_lowerBetween (before rest front after : List Char) (c : Char) :
    (lowerBetween before c rest).length = (lowerBetween front c after).length := by
  unfold lowerBetween
  split
  · split <;> split <;> rfl
  · rfl

/-- A character has the same lower case in two places unless it is a capital sigma that is final
in one of them only. -/
theorem lowerBetween_eq_iff {before rest front after : List Char} {c : Char} :
    lowerBetween before c rest = lowerBetween front c after ↔
      (c = capitalSigma → isFinalBetween before rest = isFinalBetween front after) := by
  have hforms : finalSigma ≠ innerSigma := by decide
  unfold lowerBetween
  by_cases hc : c = capitalSigma
  · cases isFinalBetween before rest <;> cases isFinalBetween front after <;>
      simp [hc, hforms, hforms.symm]
  · simp [hc]

/-- Whether the capital sigmas of a stretch of text take between two others the form that they
take where it stands by itself. -/
def SigmasKeepForm (before stretch after : List Char) : Prop :=
  ∀ first second, stretch = first ++ capitalSigma :: second →
    isFinalBetween (first.reverse ++ before) (second ++ after) =
      isFinalBetween first.reverse second

/-- The sigmas of a stretch keep their form if there are none. -/
theorem SigmasKeepForm.of_not_mem {before stretch after : List Char}
    (hnone : capitalSigma ∉ stretch) : SigmasKeepForm before stretch after := by
  rintro first second rfl
  exact absurd (List.mem_append_right _ List.mem_cons_self) hnone

/-- What is left of a stretch of text, of which `done` is behind, has the lower case that it has
where the stretch stands by itself just if its sigmas keep their form. -/
theorem lowerWithin_eq_iff_of_done (done before after rest : List Char) :
    lowerWithin (done ++ before) after rest = lowerWithin done [] rest ↔
      ∀ first second, rest = first ++ capitalSigma :: second →
        isFinalBetween (first.reverse ++ (done ++ before)) (second ++ after) =
          isFinalBetween (first.reverse ++ done) second := by
  induction rest generalizing done with
  | nil => simp [lowerWithin]
  | cons c rest ih =>
    have hlength := length_lowerBetween (done ++ before) (rest ++ after) done (rest ++ []) c
    have hsplit :
        lowerWithin (done ++ before) after (c :: rest) = lowerWithin done [] (c :: rest) ↔
        lowerBetween (done ++ before) c (rest ++ after) = lowerBetween done c rest ∧
          lowerWithin (c :: done ++ before) after rest = lowerWithin (c :: done) [] rest := by
      rw [lowerWithin, lowerWithin]
      rw [List.append_nil] at hlength ⊢
      refine ⟨fun heq => List.append_inj heq hlength, ?_⟩
      rintro ⟨hfirst, hlater⟩
      rw [hfirst]
      exact congrArg _ hlater
    rw [hsplit, lowerBetween_eq_iff, ih]
    constructor
    · rintro ⟨hfirst, hlater⟩ first second hrest
      rcases List.cons_eq_append_iff.mp hrest with ⟨rfl, hsigma⟩ | ⟨first, rfl, hsigma⟩
      · obtain ⟨hc, rfl⟩ := List.cons.inj hsigma
        exact hfirst hc.symm
      · have hkept := hlater first second hsigma
        simpa using hkept
    · intro hall
      refine ⟨fun hc => hall [] rest (by rw [hc]; rfl), fun first second hrest => ?_⟩
      have hkept := hall (c :: first) second (by rw [hrest]; rfl)
      simpa using hkept

/-- A stretch of text has the lower case that it has by itself just if its sigmas keep their
form. -/
theorem lowerWithin_eq_iff {before stretch after : List Char} :
    lowerWithin before after stretch = lowerFrom [] stretch ↔
      SigmasKeepForm before stretch after := by
  rw [lowerFrom_eq_lowerWithin]
  have hwhole := lowerWithin_eq_iff_of_done [] before after stretch
  simpa [SigmasKeepForm] using hwhole

/-- Whether a term stands in a text as it is, with its capital sigmas in the form that they have
in the term alone. -/
def StandsIn (term text : String) : Prop :=
  ∃ before after, text.toList = before ++ term.toList ++ after ∧
    SigmasKeepForm before.reverse term.toList after

/-- A term without a capital sigma stands in every text of which it is a stretch. -/
theorem StandsIn.of_isInfix {term text : String} (hnone : capitalSigma ∉ term.toList)
    (hin : term.toList <:+: text.toList) : StandsIn term text := by
  obtain ⟨before, after, heq⟩ := hin
  exact ⟨before, after, heq.symm, .of_not_mem hnone⟩

/-- A term that stands in a text does so in lower case. -/
theorem StandsIn.lowerCase_isInfix {term text : String} (h : StandsIn term text) :
    lowerCase term <:+: lowerCase text := by
  obtain ⟨before, after, htext, hkeep⟩ := h
  have hterm : lowerWithin before.reverse after term.toList = lowerCase term :=
    lowerWithin_eq_iff.mpr hkeep
  have hwhole : lowerCase text = lowerWithin [] (term.toList ++ after) before ++
      lowerCase term ++ lowerFrom (term.toList.reverse ++ before.reverse) after := by
    rw [lowerCase, htext, lowerFrom_eq_lowerWithin, lowerWithin_append, lowerWithin_append,
      lowerFrom_eq_lowerWithin, ← hterm]
    simp
  rw [hwhole]
  exact List.infix_append _ _ _

end WaitingRoom.Text
