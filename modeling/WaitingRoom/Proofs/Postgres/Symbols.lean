import WaitingRoom.Proofs.Postgres.Like

/-!
# The symbols of a pattern

A pattern is a row of symbols, unless it ends within an escape, and a text is like it just if the
symbols spell the text. The pattern of a term is made of the characters of the term between two
signs for any text, whatever the characters are, so it stands for the texts with the term in them.
-/

namespace WaitingRoom.Postgres.Pattern

/-- What a pattern is made of: signs for any text and for any character, and characters. -/
inductive Symbol
  | anyText
  | anyCharacter
  | just (c : Char)
  deriving DecidableEq, Repr

/-- The symbols of a pattern, where the character behind a backslash is taken as it is; `none` if
nothing is behind it. -/
def symbols? : List Char → Option (List Symbol)
  | [] => some []
  | '%' :: rest => (symbols? rest).map (.anyText :: ·)
  | '_' :: rest => (symbols? rest).map (.anyCharacter :: ·)
  | '\\' :: c :: rest => (symbols? rest).map (.just c :: ·)
  | '\\' :: [] => none
  | c :: rest => (symbols? rest).map (.just c :: ·)

/-- Whether symbols spell a text, character by character, where characters are told apart by a
key. -/
inductive Spells (key : Char → Char) : List Symbol → List Char → Prop
  | nil : Spells key [] []
  | anyText {symbols : List Symbol} {text : List Char} (skipped : List Char)
      (hrest : Spells key symbols text) : Spells key (.anyText :: symbols) (skipped ++ text)
  | anyCharacter {symbols : List Symbol} {text : List Char} (d : Char)
      (hrest : Spells key symbols text) : Spells key (.anyCharacter :: symbols) (d :: text)
  | just {symbols : List Symbol} {text : List Char} {c d : Char} (hkey : key c = key d)
      (hrest : Spells key symbols text) : Spells key (.just c :: symbols) (d :: text)

/-- Whether a text is one of those that a pattern stands for. -/
def StandsFor (key : Char → Char) (pattern text : List Char) : Prop :=
  ∃ symbols, symbols? pattern = some symbols ∧ Spells key symbols text

/-- Whether a pattern ends within an escape: a backslash is behind a whole pattern. -/
def EndsInEscape (pattern : List Char) : Prop :=
  ∃ front, pattern = front ++ ['\\'] ∧ (symbols? front).isSome

variable {key : Char → Char} {pattern rest text : List Char}

/-- The character behind a backslash is a symbol whatever it means otherwise. -/
theorem symbols?_escape (c : Char) (rest : List Char) :
    symbols? ('\\' :: c :: rest) = (symbols? rest).map (.just c :: ·) := rfl

/-- A character that means nothing else in patterns is a symbol on its own. -/
theorem symbols?_cons {c : Char} (hpercent : c ≠ '%') (hunderscore : c ≠ '_') (hslash : c ≠ '\\')
    (rest : List Char) : symbols? (c :: rest) = (symbols? rest).map (.just c :: ·) :=
  symbols?.eq_6 c rest hpercent hunderscore (fun _ _ h => absurd h hslash)
    (fun h => absurd h hslash)

/-- A character that would be a backslash neither with something behind it nor without is none. -/
theorem ne_backslash {c : Char} (hescape : ∀ d tail, c = '\\' → rest = d :: tail → False)
    (hlone : c = '\\' → rest = [] → False) : c ≠ '\\' := by
  intro hc
  cases rest with
  | nil => exact hlone hc rfl
  | cons d tail => exact hescape d tail hc rfl

/-- Behind a whole pattern a backslash begins an escape that does not end. -/
theorem symbols?_concat_backslash (h : (symbols? pattern).isSome) :
    symbols? (pattern ++ ['\\']) = none := by
  fun_induction symbols? pattern with
  | case1 => rfl
  | case2 rest ih | case3 rest ih | case4 c rest ih =>
    simp [symbols?, ih (by simpa using h)]
  | case5 => cases h
  | case6 c rest hpercent hunderscore hescape hlone ih =>
    rw [List.cons_append, symbols?_cons hpercent hunderscore (ne_backslash hescape hlone),
      ih (by simpa using h)]
    rfl

/-- A pattern has symbols unless it ends within an escape. -/
theorem symbols?_eq_none_iff : symbols? pattern = none ↔ EndsInEscape pattern := by
  refine ⟨fun h => ?_, fun ⟨front, heq, hfront⟩ => heq ▸ symbols?_concat_backslash hfront⟩
  fun_induction symbols? pattern with
  | case1 => cases h
  | case2 rest ih =>
    obtain ⟨front, rfl, hfront⟩ := ih (Option.map_eq_none_iff.mp h)
    exact ⟨'%' :: front, rfl, by simpa [symbols?] using hfront⟩
  | case3 rest ih =>
    obtain ⟨front, rfl, hfront⟩ := ih (Option.map_eq_none_iff.mp h)
    exact ⟨'_' :: front, rfl, by simpa [symbols?] using hfront⟩
  | case4 c rest ih =>
    obtain ⟨front, rfl, hfront⟩ := ih (Option.map_eq_none_iff.mp h)
    exact ⟨'\\' :: c :: front, rfl, by simpa [symbols?] using hfront⟩
  | case5 => exact ⟨[], rfl, rfl⟩
  | case6 c rest hpercent hunderscore hescape hlone ih =>
    obtain ⟨front, rfl, hfront⟩ := ih (Option.map_eq_none_iff.mp h)
    refine ⟨c :: front, rfl, ?_⟩
    rw [symbols?_cons hpercent hunderscore (ne_backslash hescape hlone)]
    simpa using hfront

/-! ## What patterns stand for, by their first symbol -/

/-- A pattern stands for what its first symbol and the rest of it spell. -/
theorem standsFor_of_first {s : Symbol}
    (hfirst : symbols? pattern = (symbols? rest).map (s :: ·)) :
    StandsFor key pattern text ↔
      ∃ symbols, symbols? rest = some symbols ∧ Spells key (s :: symbols) text := by
  simp [StandsFor, hfirst]

/-- A percent sign stands for any beginning of a text. -/
theorem standsFor_percent :
    StandsFor key ('%' :: rest) text ↔ ∃ tail ∈ text.tails, StandsFor key rest tail := by
  rw [standsFor_of_first rfl]
  constructor
  · rintro ⟨symbols, hsymbols, hspells⟩
    cases hspells with
    | anyText skipped hrest =>
      exact ⟨_, (List.mem_tails _ _).mpr (List.suffix_append _ _), symbols, hsymbols, hrest⟩
  · rintro ⟨tail, htail, symbols, hsymbols, hspells⟩
    obtain ⟨skipped, rfl⟩ := (List.mem_tails _ _).mp htail
    exact ⟨symbols, hsymbols, .anyText skipped hspells⟩

/-- An underscore stands for any one character. -/
theorem standsFor_underscore :
    StandsFor key ('_' :: rest) text ↔ ∃ d tail, text = d :: tail ∧ StandsFor key rest tail := by
  rw [standsFor_of_first rfl]
  constructor
  · rintro ⟨symbols, hsymbols, hspells⟩
    cases hspells with
    | anyCharacter d hrest => exact ⟨d, _, rfl, symbols, hsymbols, hrest⟩
  · rintro ⟨d, tail, rfl, symbols, hsymbols, hspells⟩
    exact ⟨symbols, hsymbols, .anyCharacter d hspells⟩

/-- What is read as a certain character stands for that character. -/
theorem standsFor_just {c : Char} (hfirst : symbols? pattern = (symbols? rest).map (.just c :: ·)) :
    StandsFor key pattern text ↔
      ∃ d tail, text = d :: tail ∧ key c = key d ∧ StandsFor key rest tail := by
  rw [standsFor_of_first hfirst]
  constructor
  · rintro ⟨symbols, hsymbols, hspells⟩
    cases hspells with
    | just hkey hrest => exact ⟨_, _, rfl, hkey, symbols, hsymbols, hrest⟩
  · rintro ⟨d, tail, rfl, hkey, symbols, hsymbols, hspells⟩
    exact ⟨symbols, hsymbols, .just hkey hspells⟩

/-- The matcher finds the texts that the symbols of a pattern spell. -/
theorem isLike_iff : isLike key pattern text = true ↔ StandsFor key pattern text := by
  fun_induction isLike key pattern text with
  | case1 text =>
    constructor
    · intro h
      obtain rfl := List.isEmpty_iff.mp h
      exact ⟨[], rfl, .nil⟩
    · rintro ⟨symbols, hsymbols, hspells⟩
      cases hsymbols
      cases hspells
      rfl
  | case2 pattern text ih => simp [standsFor_percent, ih]
  | case3 pattern => simp [standsFor_underscore]
  | case4 pattern c rest ih => simp [standsFor_underscore, ih]
  | case5 c pattern => simp [standsFor_just (symbols?_escape c pattern)]
  | case6 c pattern d rest ih => simp [standsFor_just (symbols?_escape c pattern), ih]
  | case7 text => simp [StandsFor, symbols?]
  | case8 c pattern hpercent hunderscore hescape hlone =>
    simp [standsFor_just (symbols?_cons hpercent hunderscore (ne_backslash hescape hlone) pattern)]
  | case9 c pattern hpercent hunderscore hescape hlone d rest ih =>
    simp [standsFor_just (symbols?_cons hpercent hunderscore (ne_backslash hescape hlone) pattern),
      ih]

/-! ## The pattern of a term -/

/-- A character is written as itself, whatever it means in patterns otherwise. -/
theorem symbols?_literal_append (c : Char) (rest : List Char) :
    symbols? (literal c ++ rest) = (symbols? rest).map (.just c :: ·) := by
  unfold literal
  split
  · exact symbols?_escape c rest
  · rename_i hc
    have hpercent : c ≠ '%' := by rintro rfl; exact hc rfl
    have hunderscore : c ≠ '_' := by rintro rfl; exact hc rfl
    have hslash : c ≠ '\\' := by rintro rfl; exact hc rfl
    exact symbols?_cons hpercent hunderscore hslash rest

/-- The symbols of the pattern of a term are its characters between two signs for any text. -/
theorem symbols?_containing (term : String) :
    symbols? (containing term).toList =
      some (.anyText :: term.toList.map .just ++ [.anyText]) := by
  have hliteral (cs : List Char) : symbols? (cs.flatMap literal ++ ['%']) =
      some (cs.map .just ++ [.anyText]) := by
    induction cs with
    | nil => rfl
    | cons c cs ih =>
      rw [List.flatMap_cons, List.append_assoc, symbols?_literal_append, ih]
      rfl
  rw [containing, String.toList_ofList]
  exact congrArg (Option.map (.anyText :: ·)) (hliteral term.toList)

/-- The pattern of a term, whatever characters are in it, does not end within an escape, and it
stands for the texts in which the term occurs, both where characters are themselves and where
they are told apart by a key. -/
theorem term_is_matched_literally (term text : String) :
    ¬ EndsInEscape (containing term).toList ∧
    (StandsFor id (containing term).toList text.toList ↔ term.toList <:+: text.toList) ∧
    ∀ key, StandsFor key (containing term).toList text.toList ↔
      term.toList.map key <:+: text.toList.map key := by
  have hkey (key : Char → Char) : StandsFor key (containing term).toList text.toList ↔
      term.toList.map key <:+: text.toList.map key := by
    rw [← isLike_iff, isLike_containing, Text.occursIn_iff]
  refine ⟨?_, ?_, hkey⟩
  · rw [← symbols?_eq_none_iff, symbols?_containing]
    exact Option.some_ne_none _
  · simpa using hkey id

end WaitingRoom.Postgres.Pattern
