import Mathlib.Data.List.Basic
import WaitingRoom.Crypto.Pem
import WaitingRoom.Proofs.Text.Ascii
import WaitingRoom.Proofs.Text.Decoding
import WaitingRoom.Proofs.Text.Stripping

/-!
# Keys in lines

A key without a frame is put in one: its characters that are no blanks stand between the two lines
of the frame in lines of a fixed width. The width is counted in bytes, so it is of keys in ASCII
that none of them is lost, added or moved. A key that has a frame stays as it is, so putting a key
in a frame twice is the same as once, and the blanks within a key make no difference to its frame.
-/

namespace WaitingRoom

namespace Text

/-- A text in ASCII is encoded in one byte for each of its characters. -/
theorem utf8Bytes_of_ascii {cs : List Char} (h : ∀ c ∈ cs, c.toNat < 128) :
    utf8Bytes (String.ofList cs) = cs.map fun c => UInt8.ofNat c.toNat := by
  rw [utf8Bytes, String.toList_ofList]
  induction cs with
  | nil => rfl
  | cons c rest ih =>
    obtain ⟨hc, hrest⟩ := List.forall_mem_cons.mp h
    have hbyte : String.utf8EncodeChar c = [UInt8.ofNat c.toNat] :=
      if_pos (Nat.le_of_lt_succ hc)
    rw [List.flatMap_cons, hbyte, ih hrest, List.map_cons, List.singleton_append]

end Text

namespace Crypto

open Text (strip unblanked IsBare)

/-- Whether some lines are a text in lines of a width: put together they are the text, none of them
is empty or longer than the width, and only the last may be shorter. -/
structure IsWrapped {α : Type} (width : Nat) (body : List α) (lines : List (List α)) : Prop where
  flatten : lines.flatten = body
  ne_nil : ∀ line ∈ lines, line ≠ []
  length_le : ∀ line ∈ lines, line.length ≤ width
  full : ∀ line ∈ lines.dropLast, line.length = width

/-- Some lines, each with its line feed. -/
def withLineFeeds (lines : List (List Char)) : List Char := lines.flatMap (· ++ ['\n'])

section Wrapping

variable {α : Type} {width : Nat}

/-- What stands in a line is part of the text. -/
theorem IsWrapped.mem {body line : List α} {lines : List (List α)} {a : α}
    (h : IsWrapped width body lines) (hline : line ∈ lines) (ha : a ∈ line) : a ∈ body := by
  rw [← h.flatten]
  exact List.mem_flatten_of_mem hline ha

/-- A full line may stand in front. -/
theorem IsWrapped.cons {line body : List α} {lines : List (List α)} (hwidth : 0 < width)
    (hfull : line.length = width) (h : IsWrapped width body lines) :
    IsWrapped width (line ++ body) (line :: lines) := by
  refine ⟨?_, ?_, ?_, ?_⟩
  · rw [List.flatten_cons, h.flatten]
  · exact List.forall_mem_cons.mpr ⟨List.length_pos_iff.mp (hfull ▸ hwidth), h.ne_nil⟩
  · exact List.forall_mem_cons.mpr ⟨Nat.le_of_eq hfull, h.length_le⟩
  · cases lines with
    | nil => simp
    | cons next more => exact List.forall_mem_cons.mpr ⟨hfull, h.full⟩

/-- Wrapping fills the line that has been begun and goes on with the next. -/
theorem isWrapped_wrapFrom {line : List α} (hline : line.length < width) (rest : List α) :
    IsWrapped width (line.reverse ++ rest) (wrapFrom width line rest) := by
  induction rest generalizing line with
  | nil =>
    rw [wrapFrom, List.append_nil]
    split
    · rename_i hempty
      obtain rfl := List.isEmpty_iff.mp hempty
      exact ⟨rfl, by simp, by simp, by simp⟩
    · rename_i hsome
      refine ⟨by simp, ?_, ?_, by simp⟩
      · simpa using hsome
      · simpa using Nat.le_of_lt hline
  | cons a rest ih =>
    rw [wrapFrom]
    have hsplit : line.reverse ++ a :: rest = (a :: line).reverse ++ rest := by simp
    rw [hsplit]
    split
    · rename_i hroom
      exact ih hroom
    · rename_i hfull
      have hwidth : 0 < width := Nat.zero_lt_of_lt hline
      have hlength : (a :: line).reverse.length = width := by
        rw [List.length_reverse, List.length_cons]
        omega
      have hrest : IsWrapped width ([].reverse ++ rest) (wrapFrom width [] rest) := ih hwidth
      exact hrest.cons hwidth hlength

/-- What is wrapped is in lines. -/
theorem isWrapped_wrapFrom_nil (hwidth : 0 < width) (body : List α) :
    IsWrapped width body (wrapFrom width [] body) := by
  have hbegun : ([] : List α).length < width := hwidth
  exact isWrapped_wrapFrom hbegun body

/-- Each part may be replaced before wrapping or after it. -/
theorem wrapFrom_map {β : Type} (width : Nat) (f : α → β) (line rest : List α) :
    wrapFrom width (line.map f) (rest.map f) = (wrapFrom width line rest).map (List.map f) := by
  induction rest generalizing line with
  | nil =>
    rw [List.map_nil, wrapFrom, wrapFrom, List.isEmpty_map]
    split
    · rfl
    · rw [List.map_singleton, List.map_reverse]
  | cons a rest ih =>
    rw [List.map_cons, wrapFrom, wrapFrom, List.length_map]
    split
    · exact ih (a :: line)
    · rw [List.map_cons, ← ih [], List.map_reverse]
      rfl

/-- The lines of a text in ASCII have as many bytes as characters, and none of them is replaced. -/
theorem wrapLines_of_ascii {cs : List Char} (hwidth : 0 < width) (h : ∀ c ∈ cs, c.toNat < 128) :
    wrapLines width cs = withLineFeeds (wrapFrom width [] cs) := by
  have hlines := wrapFrom_map width (fun c : Char => UInt8.ofNat c.toNat) [] cs
  rw [List.map_nil, ← Text.utf8Bytes_of_ascii h] at hlines
  rw [wrapLines, hlines, withLineFeeds, List.flatMap_map]
  refine List.flatMap_congr fun line hline => ?_
  have hwrapped := isWrapped_wrapFrom_nil hwidth cs
  have hascii : ∀ c ∈ line, c.toNat < 128 := fun c hc => h c (hwrapped.mem hline hc)
  rw [← Text.utf8Bytes_of_ascii hascii, Text.lenientText_utf8Bytes, String.toList_ofList]

end Wrapping

/-- Whether a key has a frame already. -/
def IsFramed (key : String) : Prop := "-----BEGIN".toList <+: strip key.toList

/-- Some lines in the frame of a public key. -/
def framed (lines : List (List Char)) : List Char :=
  publicKeyHeader.toList ++ '\n' :: withLineFeeds lines ++ publicKeyFooter.toList

variable {key : String}

/-- A key that has a frame stays as it is, without the blanks around it. -/
theorem toPem_of_isFramed (h : IsFramed key) : toPem key = Text.trim key := by
  have hprefix : "-----BEGIN".toList.isPrefixOf (strip key.toList) = true :=
    List.isPrefixOf_iff_prefix.mpr h
  simp only [toPem, hprefix, if_true]
  rfl

/-- A key that has no frame is put in one, its characters that are no blanks in lines. -/
theorem toPem_of_not_isFramed (h : ¬ IsFramed key) :
    (toPem key).toList = publicKeyHeader.toList ++ '\n' ::
      wrapLines keyLineWidth (unblanked key.toList) ++ publicKeyFooter.toList := by
  have hprefix : "-----BEGIN".toList.isPrefixOf (strip key.toList) = false := by
    rw [← Bool.not_eq_true, List.isPrefixOf_iff_prefix]
    exact h
  have hbody : (strip key.toList).filter (fun c => !Text.isBlank c) = unblanked key.toList :=
    Text.unblanked_strip key.toList
  simp only [toPem, hprefix, Bool.false_eq_true, if_false, hbody, String.toList_append,
    String.toList_ofList]
  simp

/-- A key in a frame has a frame and no blanks around it. -/
theorem isFramed_of_toList {lines : List Char}
    (h : key.toList = publicKeyHeader.toList ++ '\n' :: lines ++ publicKeyFooter.toList) :
    IsFramed key ∧ Text.trim key = key := by
  have hbare : IsBare key.toList := by
    constructor
    · intro c hc
      rw [h] at hc
      obtain rfl : '-' = c := Option.some.inj hc
      decide
    · intro c hc
      rw [h, List.getLast?_append] at hc
      obtain rfl : '-' = c := Option.some.inj hc
      decide
  have hstrip : strip key.toList = key.toList := Text.strip_of_isBare hbare
  refine ⟨?_, ?_⟩
  · rw [IsFramed, hstrip, h, List.append_assoc]
    exact List.IsPrefix.trans (by decide) (List.prefix_append _ _)
  · rw [Text.trim, hstrip, String.ofList_toList]

/-- Putting a key in a frame twice is the same as once. -/
theorem toPem_toPem (key : String) : toPem (toPem key) = toPem key := by
  by_cases h : IsFramed key
  · have htrim : IsFramed (Text.trim key) := by
      rwa [IsFramed, Text.toList_trim, Text.strip_strip]
    rw [toPem_of_isFramed h, toPem_of_isFramed htrim, ← String.toList_inj, Text.toList_trim,
      Text.toList_trim, Text.strip_strip]
  · obtain ⟨hframed, htrim⟩ := isFramed_of_toList (toPem_of_not_isFramed h)
    rw [toPem_of_isFramed hframed, htrim]

/-- Keys without a frame that differ in their blanks alone are put in the same frame. -/
theorem toPem_congr {key' : String} (h : ¬ IsFramed key) (h' : ¬ IsFramed key')
    (hsame : unblanked key.toList = unblanked key'.toList) : toPem key = toPem key' := by
  rw [← String.toList_inj, toPem_of_not_isFramed h, toPem_of_not_isFramed h', hsame]

/-- A key without a dash has no frame. -/
theorem not_isFramed_of_not_mem (h : '-' ∉ unblanked key.toList) : ¬ IsFramed key := by
  intro hframed
  apply h
  rw [← Text.unblanked_strip]
  have hmem : '-' ∈ strip key.toList := hframed.subset (by decide)
  exact List.mem_filter.mpr ⟨hmem, by decide⟩

/-- **Framing preserves the key.** A key in ASCII without a frame is put in one: between its two
lines stand lines of at most 64 characters, each of one byte, and all but the last of exactly 64,
which put together are the characters of the key that are no blanks. A key with a frame stays as it
is, without the blanks around it. So putting a key in a frame twice is the same as once, and keys
that differ in their blanks alone are put in the same frame, in particular all texts with one body
that has no dash, in lines of any width. -/
theorem framing_preserves_key :
    (∀ key, Text.IsAscii key → ¬ IsFramed key →
      ∃ lines, (toPem key).toList = framed lines ∧ IsWrapped 64 (unblanked key.toList) lines ∧
        ∀ line ∈ lines, (Text.utf8Bytes (String.ofList line)).length = line.length) ∧
    (∀ key, IsFramed key → toPem key = Text.trim key) ∧
    (∀ key, toPem (toPem key) = toPem key) ∧
    (∀ key key', ¬ IsFramed key → ¬ IsFramed key' →
      unblanked key.toList = unblanked key'.toList → toPem key = toPem key') ∧
    ∀ body, '-' ∉ body → ∀ key key', unblanked key.toList = body → unblanked key'.toList = body →
      toPem key = toPem key' := by
  refine ⟨fun key hascii hframe => ?_, fun key => toPem_of_isFramed, toPem_toPem,
    fun key key' => toPem_congr, fun body hbody key key' hkey hkey' => ?_⟩
  · have hbody : ∀ c ∈ unblanked key.toList, c.toNat < 128 := fun c hc =>
      hascii c (List.mem_filter.mp hc).1
    have hlines := isWrapped_wrapFrom_nil (by decide : 0 < 64) (unblanked key.toList)
    refine ⟨_, ?_, hlines, fun line hline => ?_⟩
    · rw [toPem_of_not_isFramed hframe, keyLineWidth, wrapLines_of_ascii (by decide) hbody, framed]
    · rw [Text.utf8Bytes_of_ascii fun c hc => hbody c (hlines.mem hline hc), List.length_map]
  · apply toPem_congr
    · exact not_isFramed_of_not_mem (hkey ▸ hbody)
    · exact not_isFramed_of_not_mem (hkey' ▸ hbody)
    · rw [hkey, hkey']

/-- A key of 65 characters, broken after the first 40. -/
def brokenKey : String := String.ofList (List.replicate 40 'A' ++ '\n' :: List.replicate 25 'A')

/-- The broken key is wrapped anew as it would be in one line, with a tab in front or without one,
and stays so; a key that has a frame is only trimmed. -/
theorem broken_key_is_wrapped_anew :
    (∃ lines, (toPem brokenKey).toList = framed lines ∧
      IsWrapped 64 (List.replicate 65 'A') lines) ∧
    toPem brokenKey = toPem (String.ofList (List.replicate 65 'A')) ∧
    toPem brokenKey = toPem (String.ofList ('\t' :: List.replicate 65 'A')) ∧
    toPem (toPem brokenKey) = toPem brokenKey ∧
    toPem " -----BEGIN KEY " = "-----BEGIN KEY" := by
  obtain ⟨hwrapped, hframed, htwice, hsame, hbody⟩ := framing_preserves_key
  have hascii : Text.IsAscii brokenKey := by decide +kernel
  have hkey : unblanked brokenKey.toList = List.replicate 65 'A' := by decide +kernel
  have hline : unblanked (String.ofList (List.replicate 65 'A')).toList =
      List.replicate 65 'A' := by
    decide +kernel
  have htab : unblanked (String.ofList ('\t' :: List.replicate 65 'A')).toList =
      List.replicate 65 'A' := by
    decide +kernel
  have hdash : '-' ∉ List.replicate 65 'A' := by decide
  have hbare : ¬ IsFramed brokenKey := not_isFramed_of_not_mem (hkey ▸ hdash)
  have hframe : IsFramed " -----BEGIN KEY " := by
    rw [IsFramed]
    decide +kernel
  obtain ⟨lines, hlines, hwrap, -⟩ := hwrapped brokenKey hascii hbare
  refine ⟨⟨lines, hlines, hkey ▸ hwrap⟩, ?_, ?_, htwice brokenKey, ?_⟩
  · exact hsame _ _ hbare (not_isFramed_of_not_mem (hline ▸ hdash)) (hkey.trans hline.symm)
  · exact hbody _ hdash _ _ hkey htab
  · rw [hframed _ hframe]
    decide +kernel

end Crypto

end WaitingRoom
