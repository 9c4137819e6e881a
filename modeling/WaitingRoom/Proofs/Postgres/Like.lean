import Mathlib.Data.List.Infix
import WaitingRoom.Postgres.Pattern
import WaitingRoom.Text.Lowercase

/-!
# What patterns stand for

Which texts are like a pattern, and that the pattern of a term stands for the texts with the
term somewhere in them. Characters are told apart by a key: by themselves, or by their lower
case where case does not matter.
-/

namespace WaitingRoom.Postgres.Pattern

/-- Whether a text is like a pattern: a percent sign stands for any text, an underscore for
any character, a character behind a backslash for itself, and every other one for itself.
A text is like no pattern that ends within an escape. -/
def isLike (key : Char → Char) : (pattern text : List Char) → Bool
  | [], text => text.isEmpty
  | '%' :: pattern, text => text.tails.any fun rest => isLike key pattern rest
  | '_' :: pattern, text =>
    match text with
    | [] => false
    | _ :: rest => isLike key pattern rest
  | '\\' :: c :: pattern, text =>
    match text with
    | [] => false
    | d :: rest => key c == key d && isLike key pattern rest
  | '\\' :: [], _ => false
  | c :: pattern, text =>
    match text with
    | [] => false
    | d :: rest => key c == key d && isLike key pattern rest

variable (key : Char → Char)

/-- An escaped character stands for itself. -/
theorem isLike_literal (c : Char) (pattern text : List Char) :
    isLike key (literal c ++ pattern) text =
      match text with
      | [] => false
      | d :: rest => key c == key d && isLike key pattern rest := by
  unfold literal
  split
  · rfl
  · rename_i hc
    have hpercent : c ≠ '%' := by rintro rfl; exact hc rfl
    have hunderscore : c ≠ '_' := by rintro rfl; exact hc rfl
    have hslash : c ≠ '\\' := by rintro rfl; exact hc rfl
    rw [List.singleton_append, isLike.eq_def]
    split <;> rename_i heq
    · cases heq
    · exact absurd (List.cons.inj heq).1 hpercent
    · exact absurd (List.cons.inj heq).1 hunderscore
    · exact absurd (List.cons.inj heq).1 hslash
    · exact absurd (List.cons.inj heq).1 hslash
    · obtain ⟨rfl, rfl⟩ := List.cons.inj heq
      rfl

/-- A percent sign at the end stands for whatever is left. -/
theorem isLike_percent (text : List Char) : isLike key ['%'] text = true := by
  have hmem : [] ∈ text.tails := by simp
  exact List.any_eq_true.mpr ⟨[], hmem, rfl⟩

/-- An escaped term and a percent sign stand for the texts that begin with the term. -/
theorem isLike_beginning (term text : List Char) :
    isLike key (term.flatMap literal ++ ['%']) text =
      (term.map key).isPrefixOf (text.map key) := by
  induction term generalizing text with
  | nil => exact isLike_percent key text
  | cons c term ih =>
    rw [List.flatMap_cons, List.append_assoc, isLike_literal]
    cases text with
    | nil => rfl
    | cons d rest => simp [ih, List.isPrefixOf]

/-- The pattern of a term stands for the texts with the term somewhere in them. -/
theorem isLike_containing (term : String) (text : List Char) :
    isLike key (containing term).toList text =
      Text.occursIn (term.toList.map key) (text.map key) := by
  have hpattern : (containing term).toList = '%' :: (term.toList.flatMap literal ++ ['%']) := by
    rw [containing, String.toList_ofList]
    rfl
  rw [hpattern]
  change (text.tails.any fun rest => isLike key (term.toList.flatMap literal ++ ['%']) rest) = _
  simp only [isLike_beginning]
  induction text with
  | nil => cases term.toList <;> rfl
  | cons c rest ih => simp [Text.occursIn, ih]

end WaitingRoom.Postgres.Pattern
