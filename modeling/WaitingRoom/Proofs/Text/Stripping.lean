import Mathlib.Data.List.TakeWhile
import WaitingRoom.Proofs.Text.Digits

/-!
# Stripping blanks

What is left of a text when the blanks at either end are taken off is bare at both ends, and a
text that is bare already is left as it is. Blanks that are added around a text make no difference
to what is left of it.
-/

namespace WaitingRoom.Text

variable {cs before after : List Char}

/-- Whether a text neither begins nor ends with a blank. -/
structure IsBare (cs : List Char) : Prop where
  head : ∀ c, cs.head? = some c → isBlank c = false
  last : ∀ c, cs.getLast? = some c → isBlank c = false

/-- Whether a text has nothing but blanks. -/
def AllBlank (cs : List Char) : Prop := ∀ c ∈ cs, isBlank c = true

instance (cs : List Char) : Decidable (AllBlank cs) :=
  List.decidableBAll (fun c : Char => isBlank c = true) cs

/-- No blanks are dropped from a text that does not begin with one. -/
theorem dropBlanks_of_head (h : ∀ c, cs.head? = some c → isBlank c = false) :
    dropBlanks cs = cs := by
  cases cs with
  | nil => rfl
  | cons c rest => exact dropBlanks_cons (h c rfl)

/-- A text that is bare stays as it is. -/
theorem strip_of_isBare (h : IsBare cs) : strip cs = cs := by
  rw [strip, dropBlanks_of_head h.head, dropBlanks_of_head, List.reverse_reverse]
  intro c hc
  exact h.last c (by rwa [List.head?_reverse] at hc)

/-- What is left of a text is bare. -/
theorem isBare_strip (cs : List Char) : IsBare (strip cs) := by
  constructor
  · intro c hc
    -- what is left at the front is where the text without the blanks in front begins
    have hfront : strip cs <+: dropBlanks cs := by
      rw [← List.reverse_suffix, strip, List.reverse_reverse]
      exact List.dropWhile_suffix _
    obtain ⟨rest, hrest⟩ := hfront
    have hhead : (dropBlanks cs).head? = some c := by
      rw [← hrest, List.head?_append, hc]
      rfl
    exact head_dropBlanks hhead
  · intro c hc
    rw [strip, List.getLast?_reverse] at hc
    exact head_dropBlanks hc

/-- What is left of a text stays as it is. -/
@[simp] theorem strip_strip (cs : List Char) : strip (strip cs) = strip cs :=
  strip_of_isBare (isBare_strip cs)

/-- Nothing is left in the end where blanks alone are dropped from. -/
theorem dropBlanks_eq_nil_iff : dropBlanks cs = [] ↔ AllBlank cs := List.dropWhile_eq_nil_iff

/-- Blanks in front of a text are dropped. -/
theorem dropBlanks_append (h : AllBlank before) (cs : List Char) :
    dropBlanks (before ++ cs) = dropBlanks cs := List.dropWhile_append_of_pos h

/-- What stands behind a text that has more than blanks is not dropped. -/
theorem dropBlanks_append_of_ne_nil (h : dropBlanks cs ≠ []) (after : List Char) :
    dropBlanks (cs ++ after) = dropBlanks cs ++ after := by
  rw [dropBlanks, List.dropWhile_append]
  exact if_neg fun hempty => h (List.isEmpty_iff.mp hempty)

/-- Blanks in front of a text make no difference to what is left of it. -/
theorem strip_append_left (h : AllBlank before) (cs : List Char) :
    strip (before ++ cs) = strip cs := by
  rw [strip, dropBlanks_append h, strip]

/-- Nothing is left of a text just if it has nothing but blanks. -/
theorem strip_eq_nil_iff : strip cs = [] ↔ AllBlank cs := by
  constructor
  · intro h
    rw [strip, List.reverse_eq_nil_iff, dropBlanks_eq_nil_iff] at h
    rw [← dropBlanks_eq_nil_iff]
    by_contra hne
    obtain ⟨c, hc⟩ := Option.ne_none_iff_exists'.mp (mt List.head?_eq_none_iff.mp hne)
    have hblank := h c (List.mem_reverse.mpr (List.mem_of_head? hc))
    rw [head_dropBlanks hc] at hblank
    cases hblank
  · intro h
    have hnone := strip_append_left h []
    rwa [List.append_nil] at hnone

/-- Blanks behind a text make no difference to what is left of it. -/
theorem strip_append_right (h : AllBlank after) (cs : List Char) :
    strip (cs ++ after) = strip cs := by
  have hreverse : AllBlank after.reverse := fun c hc => h c (List.mem_reverse.mp hc)
  by_cases hblank : AllBlank cs
  · rw [strip_append_left hblank, strip_eq_nil_iff.mpr h, strip_eq_nil_iff.mpr hblank]
  · have hne : dropBlanks cs ≠ [] := mt dropBlanks_eq_nil_iff.mp hblank
    rw [strip, dropBlanks_append_of_ne_nil hne, List.reverse_append, dropBlanks_append hreverse,
      strip]

/-- Blanks around a bare text are all that is taken off. -/
theorem strip_surrounded (hbefore : AllBlank before) (hafter : AllBlank after) (h : IsBare cs) :
    strip (before ++ cs ++ after) = cs := by
  rw [strip_append_right hafter, strip_append_left hbefore, strip_of_isBare h]

/-- A text is what is left of it with the blanks that were taken off. -/
theorem exists_eq_strip (cs : List Char) :
    ∃ before after, AllBlank before ∧ AllBlank after ∧ cs = before ++ strip cs ++ after := by
  have hfront := cs.takeWhile_append_dropWhile (p := isBlank)
  have hbehind := (dropBlanks cs).reverse.takeWhile_append_dropWhile (p := isBlank)
  refine ⟨cs.takeWhile isBlank, ((dropBlanks cs).reverse.takeWhile isBlank).reverse,
    fun c hc => List.mem_takeWhile_imp hc,
    fun c hc => List.mem_takeWhile_imp (List.mem_reverse.mp hc), ?_⟩
  have hdrop : dropBlanks cs =
      strip cs ++ ((dropBlanks cs).reverse.takeWhile isBlank).reverse := by
    rw [strip, ← List.reverse_append]
    exact List.reverse_eq_iff.mp hbehind.symm
  rw [List.append_assoc, ← hdrop]
  exact hfront.symm

theorem toList_trim (s : String) : (trim s).toList = strip s.toList := String.toList_ofList

/-- The characters of a text that are no blanks. -/
def unblanked (cs : List Char) : List Char := cs.filter fun c => !isBlank c

/-- Nothing is left of blanks. -/
theorem unblanked_of_allBlank (h : AllBlank cs) : unblanked cs = [] :=
  List.filter_eq_nil_iff.mpr fun c hc => by simp [h c hc]

/-- Taking off the blanks at either end makes no difference to the characters that are none. -/
theorem unblanked_strip (cs : List Char) : unblanked (strip cs) = unblanked cs := by
  obtain ⟨before, after, hbefore, hafter, hcs⟩ := exists_eq_strip cs
  have hfront : unblanked before = [] := unblanked_of_allBlank hbefore
  have hbehind : unblanked after = [] := unblanked_of_allBlank hafter
  have hsplit : unblanked cs = unblanked before ++ unblanked (strip cs) ++ unblanked after := by
    rw [unblanked, unblanked, unblanked, unblanked, ← List.filter_append, ← List.filter_append,
      ← hcs]
  rw [hsplit, hfront, hbehind, List.nil_append, List.append_nil]

end WaitingRoom.Text
