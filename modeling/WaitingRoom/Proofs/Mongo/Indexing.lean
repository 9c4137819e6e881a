import WaitingRoom.Mongo.Archive
import WaitingRoom.Proofs.Mongo.Holding
import WaitingRoom.Proofs.Text.Pieces

/-!
# The words of a record

Word search looks at one text of a document, in which the local id of the record, its name, and its
name with blanks for separators stand side by side. So the words of that text are the words of the
local id, the words of the name, and the pieces that separators and blanks leave of the name. A
record is found by each of them, and by nothing that is put together from two.
-/

namespace WaitingRoom

open Text (IsPiece isBlank pieces)

namespace Device

/-- Whether a name is cut at a character, which is a separator or a blank. -/
def cutsName (c : Char) : Bool := isSeparator c || isBlank c

/-- What separators and blanks leave of the name. -/
def namePieces (d : Device) : List String := (pieces cutsName d.name.toList).map String.ofList

/-- With blanks for separators the words of the name are its pieces. -/
theorem pieces_spacedName (d : Device) :
    pieces isBlank d.spacedName.toList = pieces cutsName d.name.toList := by
  have hblank : isBlank ' ' = true := by decide
  rw [spacedName, String.toList_ofList]
  refine Text.pieces_map (fun c => ?_) (fun c hc => ?_) d.name.toList
  · cases hc : isSeparator c with
    | true => simp [cutsName, hc, hblank]
    | false => simp [cutsName, hc]
  · have hno : isSeparator c = false := (Bool.or_eq_false_iff.mp hc).1
    simp [hno]

/-- What stands in the text that word search looks at. -/
theorem pieces_searchTokens (d : Device) : pieces isBlank d.searchTokens.toList =
    pieces isBlank d.localId.toList ++ pieces isBlank d.name.toList ++
      pieces cutsName d.name.toList := by
  have hsplit : d.searchTokens.toList =
      d.localId.toList ++ ' ' :: (d.name.toList ++ ' ' :: d.spacedName.toList) := by
    simp [searchTokens]
  have hblank : isBlank ' ' = true := by decide
  rw [hsplit, Text.pieces_append_cons hblank, Text.pieces_append_cons hblank, pieces_spacedName,
    List.append_assoc]

/-- **Word search sees every word.** The words of the text that it looks at are the words of the
local id, then those of the name, then the pieces that separators and blanks leave of the name.
What is a word of that text is a whole word of one of them, or a piece of the name, however many
separators and blanks stand before, between and behind the pieces; none goes from one into the next,
and there are no others. That text stands in the document of the record, at the only place where
words are indexed. -/
theorem searchTokens_hold_words (d : Device) :
    Text.words d.searchTokens = Text.words d.localId ++ Text.words d.name ++ d.namePieces ∧
    (∀ word : List Char, IsPiece isBlank d.searchTokens.toList word ↔
      IsPiece isBlank d.localId.toList word ∨ IsPiece isBlank d.name.toList word ∨
        IsPiece cutsName d.name.toList word) ∧
    (∃ index, .words .searchTokens index ∈ Mongo.indexes) ∧
    ∀ path index, .words path index ∈ Mongo.indexes →
      (Mongo.Document.ofDevice d).valueAt path = .text d.searchTokens := by
  refine ⟨?_, fun word => ?_, ⟨"searchtokenindex", by simp [Mongo.indexes]⟩, ?_⟩
  · rw [Text.words_eq, Text.words_eq, Text.words_eq, namePieces, pieces_searchTokens,
      List.map_append, List.map_append]
  · rw [← Text.mem_pieces_iff, pieces_searchTokens, List.mem_append, List.mem_append,
      Text.mem_pieces_iff, Text.mem_pieces_iff, Text.mem_pieces_iff, or_assoc]
  · intro path index hindex
    obtain ⟨rfl, -⟩ : path = .searchTokens ∧ index = "searchtokenindex" := by
      simpa [Mongo.indexes] using hindex
    rfl

/-- Separators in a row leave no empty pieces, and neither do those at the ends. -/
example : Text.words (Device.named "8a3f" "__HEAT_-COST v2:/").searchTokens =
    ["8a3f", "__HEAT_-COST", "v2:/", "HEAT", "COST", "v2"] := by decide

end Device

end WaitingRoom
