import WaitingRoom.Text.Blank
import WaitingRoom.Text.Lowercase

/-!
# Texts in ASCII

In a text in ASCII, lower case is the lower case of each letter on its own.
-/

namespace WaitingRoom.Text

/-- All characters of the text are in ASCII. -/
def IsAscii (s : String) : Prop := ∀ c ∈ s.toList, c.toNat < 128

instance (s : String) : Decidable (IsAscii s) :=
  List.decidableBAll (fun c : Char => c.toNat < 128) s.toList

theorem lowerFrom_of_ascii {cs : List Char} (before : List Char) (h : ∀ c ∈ cs, c.toNat < 128) :
    lowerFrom before cs = cs.map Char.toLower := by
  induction cs generalizing before with
  | nil => rfl
  | cons c rest ih =>
    obtain ⟨hc, hrest⟩ := List.forall_mem_cons.mp h
    have hsigma : (c == capitalSigma) = false := by
      apply beq_false_of_ne
      rintro rfl
      exact absurd hc (by decide)
    rw [lowerFrom, hsigma, ih _ hrest]
    simp [lowerChar, hc]

/-- The lower case of a text in ASCII. -/
theorem lowerCase_of_isAscii {s : String} (h : IsAscii s) :
    lowerCase s = s.toList.map Char.toLower := lowerFrom_of_ascii [] h

theorem mem_of_mem_strip {cs : List Char} {c : Char} (h : c ∈ strip cs) : c ∈ cs := by
  have hdrop {ds : List Char} (hd : c ∈ dropBlanks ds) : c ∈ ds :=
    (List.dropWhile_sublist _).subset hd
  exact hdrop (List.mem_reverse.mp (hdrop (List.mem_reverse.mp h)))

/-- Blanks are taken off a text in ASCII. -/
theorem IsAscii.trim {s : String} (h : IsAscii s) : IsAscii (trim s) := by
  intro c hc
  rw [Text.trim, String.toList_ofList] at hc
  exact h c (mem_of_mem_strip hc)

end WaitingRoom.Text
