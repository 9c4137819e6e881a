import WaitingRoom.Text.Blank

/-!
# The pieces of a text

Characters at which a text is cut leave pieces of it, as blanks leave words. A piece stands between
two cuts, or between a cut and an end of the text, however many cuts there are on either side. A
text with a cut in it has the pieces of what stands before the cut, and then the pieces of what
stands behind it.
-/

namespace WaitingRoom.Text

variable {cuts : Char → Bool} {cs before after piece : List Char} {c : Char}

/-- Whether some characters are a piece of a text: they are one or more, the text is not cut at any
of them, and it is cut right before them and right behind them, unless it begins or ends there. -/
structure IsPiece (cuts : Char → Bool) (cs piece : List Char) : Prop where
  ne_nil : piece ≠ []
  uncut : ∀ c ∈ piece, cuts c = false
  bounded : ∃ before after, cs = before ++ piece ++ after ∧
    (∀ c, before.getLast? = some c → cuts c = true) ∧ ∀ c, after.head? = some c → cuts c = true

/-- The pieces of a text, in the order they stand in. -/
def pieces (cuts : Char → Bool) (cs : List Char) : List (List Char) :=
  (cs.splitOnP cuts).filter fun piece => !piece.isEmpty

/-- A text that is not cut has no pieces but itself, and none if it is empty. -/
theorem pieces_of_uncut (h : ∀ c ∈ cs, cuts c = false) :
    pieces cuts cs = if cs.isEmpty then [] else [cs] := by
  rw [pieces, List.splitOnP_eq_singleton h]
  cases cs <;> rfl

/-- A text that is cut has the pieces before the cut and the pieces behind it. -/
theorem pieces_append_cons (hc : cuts c = true) (before after : List Char) :
    pieces cuts (before ++ c :: after) = pieces cuts before ++ pieces cuts after := by
  rw [pieces, List.splitOnP_append_cons before after hc, List.filter_append, pieces, pieces]

/-- The pieces are the same where other characters take the place of those that are cut at, as long
as they are cut at too. -/
theorem pieces_map {cuts' : Char → Bool} {f : Char → Char} (hcuts : ∀ c, cuts (f c) = cuts' c)
    (hkept : ∀ c, cuts' c = false → f c = c) (cs : List Char) :
    pieces cuts (cs.map f) = pieces cuts' cs := by
  have hsplit : (cs.map f).splitOnP cuts = cs.splitOnP cuts' := by
    induction cs with
    | nil => rfl
    | cons c rest ih =>
      rw [List.map_cons, List.splitOnP_cons_eq_if_modifyHead, List.splitOnP_cons_eq_if_modifyHead,
        ih, hcuts]
      cases hc : cuts' c with
      | true => rfl
      | false => rw [hkept c hc]
  rw [pieces, hsplit, pieces]

/-! ## What is a piece -/

/-- A text that is not cut is its own piece, unless it is empty. -/
theorem isPiece_iff_of_uncut (h : ∀ c ∈ cs, cuts c = false) :
    IsPiece cuts cs piece ↔ cs ≠ [] ∧ piece = cs := by
  constructor
  · rintro ⟨hne, -, before, after, rfl, hbefore, hafter⟩
    have hfront : before = [] := by
      rw [← List.getLast?_eq_none_iff, Option.eq_none_iff_forall_ne_some]
      intro c hc
      have huncut := h c (by simp [List.mem_of_getLast? hc])
      rw [hbefore c hc] at huncut
      cases huncut
    have hback : after = [] := by
      rw [← List.head?_eq_none_iff, Option.eq_none_iff_forall_ne_some]
      intro c hc
      have huncut := h c (by simp [List.mem_of_head? hc])
      rw [hafter c hc] at huncut
      cases huncut
    subst hfront hback
    simpa using hne
  · rintro ⟨hne, rfl⟩
    exact ⟨hne, h, [], [], by simp, nofun, nofun⟩

/-- What is a piece before a cut is a piece of the whole text. -/
theorem IsPiece.append_cons (h : IsPiece cuts before piece) (hc : cuts c = true)
    (after : List Char) : IsPiece cuts (before ++ c :: after) piece := by
  obtain ⟨hne, huncut, front, back, rfl, hfront, hback⟩ := h
  refine ⟨hne, huncut, front, back ++ c :: after, by simp, hfront, fun d hd => ?_⟩
  cases back with
  | nil =>
    obtain rfl : c = d := Option.some.inj hd
    exact hc
  | cons e back => exact hback d hd

/-- So is what is a piece behind it. -/
theorem IsPiece.cons_append (h : IsPiece cuts after piece) (hc : cuts c = true)
    (before : List Char) : IsPiece cuts (before ++ c :: after) piece := by
  obtain ⟨hne, huncut, front, back, rfl, hfront, hback⟩ := h
  refine ⟨hne, huncut, before ++ c :: front, back, by simp, fun d hd => ?_, hback⟩
  rw [List.getLast?_append, List.getLast?_cons] at hd
  cases hlast : front.getLast? with
  | none =>
    obtain rfl : c = d := by simpa [hlast] using hd
    exact hc
  | some e =>
    obtain rfl : e = d := by simpa [hlast] using hd
    exact hfront e hlast

/-- A stretch of a text that lacks a character of it lies before that or behind it. -/
theorem beside_of_not_mem {front back : List Char} (hc : c ∉ piece)
    (h : before ++ c :: after = front ++ piece ++ back) :
    (∃ rest, before = front ++ piece ++ rest ∧ back = rest ++ c :: after) ∨
      ∃ rest, front = before ++ c :: rest ∧ after = rest ++ piece ++ back := by
  rw [List.append_assoc] at h
  rcases List.append_eq_append_iff.mp h with ⟨rest, rfl, hrest⟩ | ⟨rest, rfl, hrest⟩
  · rcases List.cons_eq_append_iff.mp hrest with ⟨rfl, hbehind⟩ | ⟨rest, rfl, rfl⟩
    · rcases List.append_eq_cons_iff.mp hbehind with ⟨rfl, rfl⟩ | ⟨_, rfl, _⟩
      · exact .inl ⟨[], by simp, rfl⟩
      · exact absurd List.mem_cons_self hc
    · exact .inr ⟨rest, rfl, (List.append_assoc ..).symm⟩
  · rcases List.append_eq_append_iff.mp hrest with ⟨rest, rfl, hback⟩ | ⟨more, rfl, hmore⟩
    · exact .inl ⟨rest, (List.append_assoc ..).symm, hback⟩
    · rcases List.cons_eq_append_iff.mp hmore with ⟨rfl, rfl⟩ | ⟨_, rfl, _⟩
      · exact .inl ⟨[], by simp, rfl⟩
      · exact absurd (by simp) hc

/-- A piece of a text that is cut lies on one side of the cut. -/
theorem isPiece_append_cons (hc : cuts c = true) :
    IsPiece cuts (before ++ c :: after) piece ↔
      IsPiece cuts before piece ∨ IsPiece cuts after piece := by
  constructor
  · rintro ⟨hne, huncut, front, back, hsplit, hfront, hback⟩
    have hnot : c ∉ piece := fun hmem => by
      rw [huncut c hmem] at hc
      cases hc
    rcases beside_of_not_mem hnot hsplit with ⟨rest, rfl, rfl⟩ | ⟨rest, rfl, rfl⟩
    · refine .inl ⟨hne, huncut, front, rest, rfl, hfront, fun d hd => hback d ?_⟩
      rw [List.head?_append, hd]
      rfl
    · refine .inr ⟨hne, huncut, rest, back, rfl, fun d hd => hfront d ?_, hback⟩
      rw [List.getLast?_append, List.getLast?_cons, hd]
      rfl
  · rintro (h | h)
    · exact h.append_cons hc after
    · exact h.cons_append hc before

/-- The pieces of a text are what is a piece of it. -/
theorem mem_pieces_iff {cs : List Char} : piece ∈ pieces cuts cs ↔ IsPiece cuts cs piece := by
  by_cases huncut : ∀ c ∈ cs, cuts c = false
  · rw [pieces_of_uncut huncut, isPiece_iff_of_uncut huncut]
    cases cs with
    | nil => simp
    | cons c rest => simp
  · -- at a cut both sides split into what is shorter
    obtain ⟨c, hmem, hc⟩ : ∃ c ∈ cs, cuts c = true := by simpa using huncut
    obtain ⟨before, after, hsplit⟩ := List.append_of_mem hmem
    have hlength := congrArg List.length hsplit
    rw [List.length_append, List.length_cons] at hlength
    have hbefore : piece ∈ pieces cuts before ↔ IsPiece cuts before piece := mem_pieces_iff
    have hafter : piece ∈ pieces cuts after ↔ IsPiece cuts after piece := mem_pieces_iff
    rw [hsplit, pieces_append_cons hc, List.mem_append, isPiece_append_cons hc, hbefore, hafter]
termination_by cs.length

/-! ## Words -/

/-- What is gone through with a word in progress has the words of both together. -/
theorem wordsFrom_eq {word : List Char} (hword : ∀ c ∈ word, isBlank c = false) (cs : List Char) :
    wordsFrom word cs = pieces isBlank (word.reverse ++ cs) := by
  induction cs generalizing word with
  | nil =>
    rw [wordsFrom, List.append_nil, pieces_of_uncut (by simpa using hword), List.isEmpty_reverse]
  | cons c rest ih =>
    rw [wordsFrom]
    by_cases hc : isBlank c = true
    · have hrest : wordsFrom [] rest = pieces isBlank rest := ih (by simp)
      have hdone : pieces isBlank word.reverse = if word.isEmpty then [] else [word.reverse] := by
        rw [pieces_of_uncut (by simpa using hword), List.isEmpty_reverse]
      rw [if_pos hc, hrest, pieces_append_cons hc, hdone]
      split <;> rfl
    · have hgrown : ∀ d ∈ c :: word, isBlank d = false :=
        List.forall_mem_cons.mpr ⟨eq_false_of_ne_true hc, hword⟩
      rw [if_neg hc, ih hgrown, List.reverse_cons, List.append_assoc, List.singleton_append]

/-- The words of a text are the pieces that blanks leave of it. -/
theorem words_eq (s : String) : words s = (pieces isBlank s.toList).map String.ofList := by
  rw [words, wordsFrom_eq (by simp), List.reverse_nil, List.nil_append]

end WaitingRoom.Text
