import Mathlib.Data.List.TakeWhile
import WaitingRoom.Proofs.Text.Stripping
import WaitingRoom.Time.Span

/-!
# How quantities are written

A span is written as a row of quantities: numbers, with digits behind a point or without, and the
name of a unit. Blanks may stand between quantities and within their numbers, and a quantity ends
at a blank or where the next one begins. What is read from a text, up to where it can be read, are
the quantities that it begins with.
-/

namespace WaitingRoom.Time

open Text (isBlank isDigit dropBlanks AllBlank)
open WaitingRoom.Time.Span (isUnitLetter isNumberChar takePart partsWithin)

namespace TimeUnit

theorem mem_all (u : TimeUnit) : u ∈ all := by
  cases u <;> decide

/-- No two units share a name. -/
theorem ofName?_of_mem {u : TimeUnit} {name : String} (h : name ∈ u.names) :
    ofName? name = some u := by
  have hall : ∀ u ∈ all, ∀ name ∈ u.names, ofName? name = some u := by decide +kernel
  exact hall u u.mem_all name h

/-- The unit of a name is the one that has it. -/
theorem ofName?_eq_some_iff {u : TimeUnit} {name : String} :
    ofName? name = some u ↔ name ∈ u.names := by
  constructor
  · intro h
    have hcontains := List.find?_some h
    simpa using hcontains
  · exact ofName?_of_mem

/-- A name of a unit is made of letters, of which it has at least one. -/
theorem letters_of_mem {u : TimeUnit} {name : List Char} (h : String.ofList name ∈ u.names) :
    name ≠ [] ∧ ∀ c ∈ name, isUnitLetter c = true := by
  have hall : ∀ u ∈ all, ∀ name ∈ u.names,
      name.toList ≠ [] ∧ name.toList.all isUnitLetter = true := by decide +kernel
  have hname := hall u u.mem_all _ h
  rwa [String.toList_ofList, List.all_eq_true] at hname

end TimeUnit

/-- A number of a unit: its digits before the point, those behind it if there is a point, and the
unit. -/
structure Quantity where
  whole : List Char
  fraction : Option (List Char)
  unit : TimeUnit

/-- The quantity of a part whose unit has a name. -/
def SpanPart.quantity? (p : SpanPart) : Option Quantity :=
  (TimeUnit.ofName? (String.ofList p.unitName)).map fun u => ⟨p.whole, p.fraction, u⟩

/-- Parts are quantities if the first of them and the others are. -/
theorem mapM_quantity?_cons {p : SpanPart} {ps : List SpanPart} {qs : List Quantity} :
    (p :: ps).mapM SpanPart.quantity? = some qs ↔
      ∃ q rest, p.quantity? = some q ∧ ps.mapM SpanPart.quantity? = some rest ∧ qs = q :: rest := by
  rw [List.mapM_cons, Option.bind_eq_bind, Option.bind_eq_some_iff]
  constructor
  · rintro ⟨q, hq, hmore⟩
    obtain ⟨rest, hrest, hcons⟩ := Option.bind_eq_some_iff.mp hmore
    cases hcons
    exact ⟨q, rest, hq, hrest, rfl⟩
  · rintro ⟨q, rest, hq, hrest, rfl⟩
    exact ⟨q, hq, by rw [hrest]; rfl⟩

/-- Whether some text is a number: it begins with a digit and has nothing but digits and blanks. -/
structure IsNumber (cs : List Char) : Prop where
  head : ∃ d, cs.head? = some d ∧ isDigit d = true
  all : ∀ c ∈ cs, isNumberChar c = true

/-- Whether a quantity may end where this text begins. -/
def EndsQuantity (rest : List Char) : Prop := ∀ c ∈ rest.head?, isNumberChar c = true

instance : (rest : List Char) → Decidable (EndsQuantity rest)
  | [] => isTrue fun _ h => nomatch h
  | c :: _ =>
    decidable_of_iff (isNumberChar c = true)
      ⟨fun h _ hd => Option.some.inj hd ▸ h, fun h => h c rfl⟩

/-- How a quantity is written: a number, behind a point at least one digit more, and a name of the
unit. -/
inductive Writes : List Char → Quantity → Prop
  | plain {number name : List Char} {u : TimeUnit} (hnumber : IsNumber number)
      (hname : String.ofList name ∈ u.names) :
      Writes (number ++ name) ⟨number.filter isDigit, none, u⟩
  | point {number behind name : List Char} {u : TimeUnit} (hnumber : IsNumber number)
      (hbehind : ∀ c ∈ behind, isNumberChar c = true) (hdigit : ∃ d ∈ behind, isDigit d = true)
      (hname : String.ofList name ∈ u.names) :
      Writes (number ++ '.' :: (behind ++ name))
        ⟨number.filter isDigit, some (behind.filter isDigit), u⟩

/-- How a text begins with some quantities, and what is left of it behind them. -/
inductive Begins : List Char → List Quantity → List Char → Prop
  | done (cs : List Char) : Begins cs [] cs
  | next {blanks text rest left : List Char} {q : Quantity} {qs : List Quantity}
      (hblanks : AllBlank blanks) (hwrites : Writes text q) (hends : EndsQuantity rest)
      (hrest : Begins rest qs left) : Begins (blanks ++ (text ++ rest)) (q :: qs) left

/-- Whether a text is a row of quantities. -/
def Spells (cs : List Char) (qs : List Quantity) : Prop :=
  ∃ left, Begins cs qs left ∧ AllBlank left

/-! ## One quantity -/

/-- A stretch of a text is taken up to the first character that does not belong to it. -/
theorem takeWhile_append_stop {p : Char → Bool} {front rest : List Char}
    (hfront : ∀ c ∈ front, p c = true) (hrest : ∀ c, rest.head? = some c → p c = false) :
    (front ++ rest).takeWhile p = front ∧ (front ++ rest).dropWhile p = rest := by
  rw [List.takeWhile_append_of_pos hfront, List.dropWhile_append_of_pos hfront]
  cases rest with
  | nil => simp
  | cons c rest =>
    have hc : p c = false := hrest c rfl
    simp [hc]

/-- Letters of units stand in no number and are no points. -/
theorem not_isNumberChar_of_isUnitLetter {c : Char} (h : isUnitLetter c = true) :
    isNumberChar c = false ∧ c ≠ '.' := by
  have hcode : 97 ≤ c.toNat ∧ c.toNat ≤ 122 ∨ 65 ≤ c.toNat ∧ c.toNat ≤ 90 ∨ c.toNat = 181 := by
    simp only [isUnitLetter, Text.isLetter, Bool.or_eq_true, Bool.and_eq_true, decide_eq_true_eq,
      beq_iff_eq, or_assoc] at h
    rcases h with hlower | hupper | rfl
    · exact .inl hlower
    · exact .inr (.inl hupper)
    · exact .inr (.inr rfl)
  constructor
  · have hdigit : isDigit c = false := by
      rw [isDigit, Bool.and_eq_false_iff, decide_eq_false_iff_not, decide_eq_false_iff_not]
      by_contra hboth
      rw [not_or, not_not, not_not] at hboth
      have hlast : c.toNat ≤ 57 := hboth.2
      omega
    have hblank : isBlank c = false := by
      simp only [isBlank, Bool.or_eq_false_iff, Bool.and_eq_false_iff, decide_eq_false_iff_not,
        beq_eq_false_iff_ne]
      omega
    rw [isNumberChar, hdigit, hblank]
    rfl
  · rintro rfl
    revert hcode
    decide

/-- A character of a number is none of a unit. -/
theorem not_isUnitLetter_of_isNumberChar {c : Char} (h : isNumberChar c = true) :
    isUnitLetter c = false := by
  rw [← Bool.not_eq_true]
  intro hletter
  rw [(not_isNumberChar_of_isUnitLetter hletter).1] at h
  cases h

/-- The name of a unit is taken where a quantity ends behind it. -/
theorem takeWhile_name {u : TimeUnit} {name rest : List Char}
    (hname : String.ofList name ∈ u.names) (hrest : EndsQuantity rest) :
    (name ++ rest).takeWhile isUnitLetter = name ∧ (name ++ rest).dropWhile isUnitLetter = rest :=
  takeWhile_append_stop (TimeUnit.letters_of_mem hname).2
    fun c hc => not_isUnitLetter_of_isNumberChar (hrest c hc)

/-- A number is taken where the name of a unit stands behind it. -/
theorem takeWhile_number {u : TimeUnit} {number name : List Char}
    (hnumber : ∀ c ∈ number, isNumberChar c = true) (hname : String.ofList name ∈ u.names)
    (rest : List Char) :
    (number ++ (name ++ rest)).takeWhile isNumberChar = number ∧
      (number ++ (name ++ rest)).dropWhile isNumberChar = name ++ rest := by
  apply takeWhile_append_stop hnumber
  intro c hc
  obtain ⟨hne, hletters⟩ := TimeUnit.letters_of_mem hname
  obtain ⟨d, more, rfl⟩ := List.exists_cons_of_ne_nil hne
  obtain rfl : d = c := Option.some.inj hc
  exact (not_isNumberChar_of_isUnitLetter (hletters d List.mem_cons_self)).1

/-- The name of a unit and what follows it do not begin with a point. -/
theorem point_not_head {u : TimeUnit} {name rest more : List Char}
    (hname : String.ofList name ∈ u.names) : name ++ rest ≠ '.' :: more := by
  intro h
  obtain ⟨hne, hletters⟩ := TimeUnit.letters_of_mem hname
  obtain ⟨d, name, rfl⟩ := List.exists_cons_of_ne_nil hne
  obtain ⟨rfl, -⟩ := List.cons.inj h
  exact (not_isNumberChar_of_isUnitLetter (hletters _ List.mem_cons_self)).2 rfl

/-- A part with what is left behind it, if a quantity may end there and a point has digits behind
it. -/
def endPart (p : SpanPart) (rest : List Char) : Option (SpanPart × List Char) :=
  if p.fraction ≠ some [] ∧ EndsQuantity rest then some (p, rest) else none

/-- The end of a part, as it is looked at character by character. -/
theorem endPart_eq (whole : List Char) (fraction : Option (List Char)) (name rest : List Char) :
    endPart ⟨whole, fraction, name⟩ rest =
      match rest with
      | c :: _ =>
        if fraction == some [] || !isNumberChar c then none
        else some (⟨whole, fraction, name⟩, rest)
      | [] => if fraction == some [] then none else some (⟨whole, fraction, name⟩, []) := by
  cases rest with
  | nil => by_cases h : fraction = some [] <;> simp [endPart, EndsQuantity, h]
  | cons c rest =>
    by_cases h : fraction = some []
    · simp [endPart, h]
    · cases hc : isNumberChar c <;> simp [endPart, EndsQuantity, h, hc]

/-- A part without a point is its number and what stands behind that. -/
theorem takePart_plain {cs : List Char}
    (h : ∀ more, cs.dropWhile isNumberChar ≠ '.' :: more) :
    takePart cs =
      endPart ⟨(cs.takeWhile isNumberChar).filter isDigit, none,
          (cs.dropWhile isNumberChar).takeWhile isUnitLetter⟩
        ((cs.dropWhile isNumberChar).dropWhile isUnitLetter) := by
  rw [endPart_eq]
  unfold takePart
  split
  rename_i fraction rest hsplit
  split at hsplit
  · rename_i more heq
    exact absurd heq (h more)
  · cases hsplit
    rfl

/-- A part with a point is its number, the number behind the point, and what stands behind that. -/
theorem takePart_point {cs behind : List Char} (h : cs.dropWhile isNumberChar = '.' :: behind) :
    takePart cs =
      endPart ⟨(cs.takeWhile isNumberChar).filter isDigit,
          some ((behind.takeWhile isNumberChar).filter isDigit),
          (behind.dropWhile isNumberChar).takeWhile isUnitLetter⟩
        ((behind.dropWhile isNumberChar).dropWhile isUnitLetter) := by
  rw [endPart_eq]
  unfold takePart
  rw [h]
  rfl

/-- A quantity that a text begins with is read from it. -/
theorem takePart_of_writes {text rest : List Char} {q : Quantity} (h : Writes text q)
    (hrest : EndsQuantity rest) :
    ∃ p : SpanPart, takePart (text ++ rest) = some (p, rest) ∧ p.quantity? = some q := by
  have hunit {name : List Char} {u : TimeUnit} (hname : String.ofList name ∈ u.names)
      (whole : List Char) (fraction : Option (List Char)) :
      (SpanPart.mk whole fraction name).quantity? = some ⟨whole, fraction, u⟩ := by
    rw [SpanPart.quantity?, TimeUnit.ofName?_of_mem hname]
    rfl
  cases h with
  | @plain number name u hnumber hname =>
    obtain ⟨hnumberTaken, hnumberLeft⟩ := takeWhile_number hnumber.all hname rest
    obtain ⟨hnameTaken, hnameLeft⟩ := takeWhile_name hname hrest
    refine ⟨⟨number.filter isDigit, none, name⟩, ?_, hunit hname _ _⟩
    have hplain : ∀ more, (number ++ (name ++ rest)).dropWhile isNumberChar ≠ '.' :: more := by
      rw [hnumberLeft]
      exact fun more => point_not_head hname
    rw [List.append_assoc, takePart_plain hplain, hnumberTaken, hnumberLeft, hnameTaken, hnameLeft]
    exact if_pos ⟨by simp, hrest⟩
  | @point number behind name u hnumber hbehind hdigit hname =>
    obtain ⟨hbehindTaken, hbehindLeft⟩ := takeWhile_number hbehind hname rest
    obtain ⟨hnameTaken, hnameLeft⟩ := takeWhile_name hname hrest
    have hpoint : ∀ c, ('.' :: (behind ++ (name ++ rest))).head? = some c →
        isNumberChar c = false := by
      rintro c ⟨⟩
      decide
    obtain ⟨hnumberTaken, hnumberLeft⟩ := takeWhile_append_stop hnumber.all hpoint
    have hdigits : some (behind.filter isDigit) ≠ some [] := by
      obtain ⟨d, hd, hisDigit⟩ := hdigit
      intro hnone
      have hmem : d ∈ behind.filter isDigit := List.mem_filter.mpr ⟨hd, hisDigit⟩
      rw [Option.some.inj hnone] at hmem
      cases hmem
    refine ⟨⟨number.filter isDigit, some (behind.filter isDigit), name⟩, ?_, hunit hname _ _⟩
    rw [List.append_assoc, List.cons_append, List.append_assoc, takePart_point hnumberLeft,
      hnumberTaken, hbehindTaken, hbehindLeft, hnameTaken, hnameLeft]
    exact if_pos ⟨hdigits, hrest⟩

/-- What is read from a text that begins with a digit is a quantity that it begins with, if the
unit has a name. -/
theorem writes_of_takePart {cs rest : List Char} {p : SpanPart} {q : Quantity}
    (hhead : ∃ d, cs.head? = some d ∧ isDigit d = true) (h : takePart cs = some (p, rest))
    (hq : p.quantity? = some q) :
    ∃ text, cs = text ++ rest ∧ Writes text q ∧ EndsQuantity rest := by
  obtain ⟨u, hunit, rfl⟩ := Option.map_eq_some_iff.mp hq
  have hname : String.ofList p.unitName ∈ u.names := TimeUnit.ofName?_eq_some_iff.mp hunit
  have hcs := cs.takeWhile_append_dropWhile (p := isNumberChar)
  have hnumber : IsNumber (cs.takeWhile isNumberChar) := by
    obtain ⟨d, hd, hdigit⟩ := hhead
    refine ⟨⟨d, ?_, hdigit⟩, fun c hc => List.mem_takeWhile_imp hc⟩
    obtain ⟨more, rfl⟩ := List.head?_eq_some_iff.mp hd
    simp [isNumberChar, hdigit]
  by_cases hpoint : ∃ behind, cs.dropWhile isNumberChar = '.' :: behind
  · obtain ⟨behind, hbehind⟩ := hpoint
    have hsplit := behind.takeWhile_append_dropWhile (p := isNumberChar)
    have hlast := (behind.dropWhile isNumberChar).takeWhile_append_dropWhile (p := isUnitLetter)
    rw [takePart_point hbehind, endPart] at h
    split at h
    · rename_i hends
      cases h
      obtain ⟨hfraction, hends⟩ := hends
      have hdigit : ∃ d ∈ behind.takeWhile isNumberChar, isDigit d = true := by
        obtain ⟨d, hd⟩ := List.exists_mem_of_ne_nil _ fun hnil => hfraction (congrArg some hnil)
        exact ⟨d, List.mem_filter.mp hd⟩
      refine ⟨_, ?_, .point hnumber (fun c hc => List.mem_takeWhile_imp hc) hdigit hname, hends⟩
      rw [List.append_assoc, List.cons_append, List.append_assoc, hlast, hsplit, ← hbehind, hcs]
    · cases h
  · have hplain : ∀ more, cs.dropWhile isNumberChar ≠ '.' :: more :=
      fun more heq => hpoint ⟨more, heq⟩
    have hlast := (cs.dropWhile isNumberChar).takeWhile_append_dropWhile (p := isUnitLetter)
    rw [takePart_plain hplain, endPart] at h
    split at h
    · rename_i hends
      cases h
      refine ⟨_, ?_, .plain hnumber hname, hends.2⟩
      rw [List.append_assoc, hlast, hcs]
    · cases h

/-! ## Rows of quantities -/

/-- A quantity begins with a digit. -/
theorem Writes.head {text : List Char} {q : Quantity} (h : Writes text q) :
    ∃ d rest, text = d :: rest ∧ isDigit d = true := by
  have hnumber {number more : List Char} (h : IsNumber number) :
      ∃ d rest, number ++ more = d :: rest ∧ isDigit d = true := by
    obtain ⟨d, hd, hdigit⟩ := h.head
    obtain ⟨rest, rfl⟩ := List.head?_eq_some_iff.mp hd
    exact ⟨d, rest ++ more, rfl, hdigit⟩
  cases h with
  | plain h hname => exact hnumber h
  | point h hbehind hdigit hname => exact hnumber h

/-- Nothing is read from a text that does not begin with a digit behind its blanks. -/
theorem partsWithin_of_not_digit {budget cs rest : List Char} {c : Char}
    (hcs : dropBlanks cs = c :: rest) (hc : isDigit c = false) :
    partsWithin budget cs = ([], false) := by
  unfold partsWithin
  rw [hcs]
  simp [hc]

/-- Nothing is read from blanks, and that is all of them. -/
theorem partsWithin_of_allBlank {budget cs : List Char} (h : AllBlank cs) :
    partsWithin budget cs = ([], true) := by
  unfold partsWithin
  rw [Text.dropBlanks_eq_nil_iff.mpr h]

/-- Behind its blanks a text is read part by part. -/
theorem partsWithin_of_digit {b c : Char} {budget cs rest : List Char}
    (hcs : dropBlanks cs = c :: rest) (hc : isDigit c = true) :
    partsWithin (b :: budget) cs =
      match takePart (c :: rest) with
      | none => ([], false)
      | some (p, left) =>
        (p :: (partsWithin budget left).1, (partsWithin budget left).2) := by
  rw [partsWithin, hcs]
  cases hpart : takePart (c :: rest) with
  | none => simp [hc, hpart]
  | some found => simp [hc, hpart]

/-- The quantities that a text begins with are read from it, and if there are but blanks behind
them, that is all. -/
theorem parts_of_begins {cs left : List Char} {qs : List Quantity} (h : Begins cs qs left) :
    ∀ budget : List Char, cs.length ≤ budget.length →
      ∃ front behind complete, partsWithin budget cs = (front ++ behind, complete) ∧
        front.mapM SpanPart.quantity? = some qs ∧
        (AllBlank left → behind = [] ∧ complete = true) := by
  induction h with
  | done cs =>
    intro budget hbudget
    refine ⟨[], (partsWithin budget cs).1, (partsWithin budget cs).2, rfl, rfl, fun hblank => ?_⟩
    rw [partsWithin_of_allBlank hblank]
    exact ⟨rfl, rfl⟩
  | @next blanks text rest left q qs hblanks hwrites hends hrest ih =>
    intro budget hbudget
    obtain ⟨d, more, htext, hdigit⟩ := hwrites.head
    obtain ⟨p, hpart, hq⟩ := takePart_of_writes hwrites hends
    have hdrop : dropBlanks (blanks ++ (text ++ rest)) = d :: (more ++ rest) := by
      have hd : isBlank d = false := Text.isBlank_of_isDigit hdigit
      rw [Text.dropBlanks_append hblanks, htext, List.cons_append, Text.dropBlanks_cons hd]
    cases budget with
    | nil => simp [htext] at hbudget
    | cons b budget =>
      have hshorter : rest.length ≤ budget.length := by
        simp only [htext, List.length_append, List.length_cons] at hbudget
        omega
      obtain ⟨front, behind, complete, hparts, hqs, hall⟩ := ih budget hshorter
      refine ⟨p :: front, behind, complete, ?_, ?_, hall⟩
      · rw [htext, List.cons_append] at hpart
        rw [partsWithin_of_digit hdrop hdigit, hpart]
        simp only [hparts, List.cons_append]
      · exact mapM_quantity?_cons.mpr ⟨q, qs, hq, hqs, rfl⟩

/-- Nothing is read from a text but its end or a part in front; what follows the part is read in the
same way. -/
theorem partsWithin_cases (budget cs : List Char) :
    AllBlank cs ∧ partsWithin budget cs = ([], true) ∨ partsWithin budget cs = ([], false) ∨
      ∃ blanks text budget' rest p, AllBlank blanks ∧ cs = blanks ++ text ∧
        (∃ d, text.head? = some d ∧ isDigit d = true) ∧ takePart text = some (p, rest) ∧
        partsWithin budget cs =
          (p :: (partsWithin budget' rest).1, (partsWithin budget' rest).2) := by
  have hcs := cs.takeWhile_append_dropWhile (p := isBlank)
  cases hdrop : dropBlanks cs with
  | nil =>
    have hblank : AllBlank cs := Text.dropBlanks_eq_nil_iff.mp hdrop
    exact .inl ⟨hblank, partsWithin_of_allBlank hblank⟩
  | cons c text =>
    right
    cases hc : isDigit c with
    | false => exact .inl (partsWithin_of_not_digit hdrop hc)
    | true =>
      cases budget with
      | nil =>
        left
        unfold partsWithin
        rw [hdrop]
        simp [hc]
      | cons b budget =>
        rw [partsWithin_of_digit hdrop hc]
        cases hpart : takePart (c :: text) with
        | none => exact .inl rfl
        | some found =>
          refine .inr ⟨cs.takeWhile isBlank, c :: text, budget, found.2, found.1,
            fun d hd => List.mem_takeWhile_imp hd, ?_, ⟨c, rfl, hc⟩, hpart, rfl⟩
          rw [← hdrop]
          exact hcs.symm

/-- A text begins with the quantities that are read from it first, and if those are all and it is
read to its end, there are but blanks behind them. -/
theorem begins_of_parts {cs : List Char} {front behind : List SpanPart} {complete : Bool}
    {qs : List Quantity} {budget : List Char}
    (h : partsWithin budget cs = (front ++ behind, complete))
    (hqs : front.mapM SpanPart.quantity? = some qs) :
    ∃ left, Begins cs qs left ∧ (behind = [] → complete = true → AllBlank left) := by
  induction front generalizing budget cs qs with
  | nil =>
    cases hqs
    refine ⟨cs, .done cs, ?_⟩
    rintro rfl rfl
    rcases partsWithin_cases budget cs with ⟨hblank, -⟩ | hnone | ⟨_, _, _, _, p, -, -, -, -, hsome⟩
    · exact hblank
    · rw [hnone] at h
      cases h
    · rw [hsome] at h
      cases h
  | cons p front ih =>
    rcases partsWithin_cases budget cs with ⟨-, hend⟩ | hnone |
      ⟨blanks, text, budget', rest, p', hblanks, rfl, hhead, hpart, hsome⟩
    · rw [hend] at h
      cases h
    · rw [hnone] at h
      cases h
    rw [hsome] at h
    obtain ⟨hlist, hcomplete⟩ := Prod.mk.inj h
    obtain ⟨rfl, hfront⟩ := List.cons.inj hlist
    have hrest : partsWithin budget' rest = (front ++ behind, complete) :=
      Prod.ext hfront hcomplete
    obtain ⟨q, qs', hq, hqs', rfl⟩ := mapM_quantity?_cons.mp hqs
    obtain ⟨left, hbegins, hall⟩ := ih hrest hqs'
    obtain ⟨written, rfl, hwrites, hends⟩ := writes_of_takePart hhead hpart hq
    exact ⟨left, .next hblanks hwrites hends hbegins, hall⟩

/-- A text is a row of quantities just if it is read to its end and the units of all parts have
names. -/
theorem spells_iff {cs : List Char} {qs : List Quantity} :
    Spells cs qs ↔ ∃ ps, Span.parts cs = (ps, true) ∧ ps.mapM SpanPart.quantity? = some qs := by
  constructor
  · rintro ⟨left, hbegins, hblank⟩
    obtain ⟨front, behind, complete, hparts, hqs, hall⟩ :=
      parts_of_begins hbegins cs (Nat.le_refl _)
    obtain ⟨rfl, rfl⟩ := hall hblank
    exact ⟨front, by rw [Span.parts, hparts, List.append_nil], hqs⟩
  · rintro ⟨ps, hparts, hqs⟩
    have hread : partsWithin cs cs = (ps ++ [], true) := by
      rw [List.append_nil]
      exact hparts
    obtain ⟨left, hbegins, hall⟩ := begins_of_parts hread hqs
    exact ⟨left, hbegins, hall rfl rfl⟩

/-- A text begins with some quantities just if they are read from it first. -/
theorem begins_iff {cs : List Char} {qs : List Quantity} :
    (∃ left, Begins cs qs left) ↔
      ∃ front behind, (Span.parts cs).1 = front ++ behind ∧
        front.mapM SpanPart.quantity? = some qs := by
  constructor
  · rintro ⟨left, hbegins⟩
    obtain ⟨front, behind, complete, hparts, hqs, -⟩ :=
      parts_of_begins hbegins cs (Nat.le_refl _)
    exact ⟨front, behind, by rw [Span.parts, hparts], hqs⟩
  · rintro ⟨front, behind, hparts, hqs⟩
    have hread : partsWithin cs cs = (front ++ behind, (Span.parts cs).2) := by
      rw [← hparts]
      rfl
    obtain ⟨left, hbegins, -⟩ := begins_of_parts hread hqs
    exact ⟨left, hbegins⟩

end WaitingRoom.Time
