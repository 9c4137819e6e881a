import Mathlib.Tactic.SplitIfs
import WaitingRoom.Text.Utf8

/-!
# Texts by their bytes

Texts compare as the bytes they are encoded in. Where two texts first differ, the
character with the smaller number has the smaller byte at the first place in which the two
are encoded differently.
-/

namespace WaitingRoom.Text

/-- What two lists have in front in common does not tell them apart. -/
theorem compare_append_left {α : Type} [Ord α] [Std.ReflOrd α] (same left right : List α) :
    compare (same ++ left) (same ++ right) = compare left right := by
  induction same with
  | nil => rfl
  | cons x same ih =>
    rw [List.cons_append, List.cons_append, List.compare_cons_cons, Std.compare_self,
      Ordering.eq_then, ih]

/-- Bytes compare as their numbers do. -/
theorem compare_ofNat {m n : Nat} (hm : m < 256) (hn : n < 256) :
    compare (UInt8.ofNat m) (UInt8.ofNat n) = compare m n := by
  have hlt {k l : Nat} (hkl : k < l) (hl : l < 256) : UInt8.ofNat k < UInt8.ofNat l := by
    have hk := Nat.lt_trans hkl hl
    rw [UInt8.lt_iff_toNat_lt, UInt8.toNat_ofNat_of_lt' hl, UInt8.toNat_ofNat_of_lt' hk]
    exact hkl
  rcases Nat.lt_trichotomy m n with h | rfl | h
  · rw [Nat.compare_eq_lt.mpr h]
    exact Std.compare_eq_lt.mpr (hlt h hn)
  · rw [Std.compare_self, Std.compare_self]
  · rw [Nat.compare_eq_gt.mpr h]
    exact Std.compare_eq_gt.mpr (hlt h hm)

/-- The bytes of a character with a smaller number come first, whatever follows. -/
theorem compare_utf8EncodeChar_of_lt {c d : Char} (h : c < d) (left right : List UInt8) :
    compare (String.utf8EncodeChar c ++ left) (String.utf8EncodeChar d ++ right) = .lt := by
  have hlt : c.val.toNat < d.val.toNat := h
  have hlast : d.val.toNat < 0x110000 := by
    rcases d.valid with hvalid | ⟨-, hvalid⟩ <;> omega
  unfold String.utf8EncodeChar
  generalize c.val.toNat = m at hlt ⊢
  generalize d.val.toNat = n at hlt hlast ⊢
  -- Six bits at a time: the quotients are told in terms of one another.
  have hdigits (k : Nat) (hk : k < 0x110000) :
      k / 4096 = k / 64 / 64 ∧ k / 262144 % 8 = k / 64 / 64 / 64 := by omega
  obtain ⟨hm, hm'⟩ := hdigits m (Nat.lt_trans hlt hlast)
  obtain ⟨hn, hn'⟩ := hdigits n hlast
  simp only [hm, hm', hn, hn']
  split_ifs <;>
    simp (disch := omega) only [List.cons_append, List.nil_append, List.compare_cons_cons,
      Ordering.then_eq_lt, compare_ofNat, Nat.compare_eq_lt, Nat.compare_eq_eq] <;>
    omega

/-- Two characters in UTF-8 compare as the characters do, and if they are the same, as what
follows them does. -/
theorem compare_utf8EncodeChar (c d : Char) (left right : List UInt8) :
    compare (String.utf8EncodeChar c ++ left) (String.utf8EncodeChar d ++ right) =
      (compare c d).then (compare left right) := by
  cases h : compare c d with
  | lt =>
    rw [compare_utf8EncodeChar_of_lt (compareOfLessAndEq_eq_lt.mp h), Ordering.lt_then]
  | eq =>
    obtain rfl := Std.LawfulEqCmp.eq_of_compare h
    rw [compare_append_left, Ordering.eq_then]
  | gt =>
    have hswap : compare d c = .lt := Std.OrientedCmp.gt_iff_lt.mp h
    have hlt : d < c := compareOfLessAndEq_eq_lt.mp hswap
    rw [Std.OrientedCmp.gt_iff_lt.mpr (compare_utf8EncodeChar_of_lt hlt ..), Ordering.gt_then]

theorem utf8EncodeChar_eq_cons (c : Char) : ∃ b rest, String.utf8EncodeChar c = b :: rest := by
  unfold String.utf8EncodeChar
  dsimp only
  split_ifs <;> exact ⟨_, _, rfl⟩

theorem compare_flatMap_utf8EncodeChar (cs ds : List Char) :
    compare (cs.flatMap String.utf8EncodeChar) (ds.flatMap String.utf8EncodeChar) =
      compare cs ds := by
  induction cs generalizing ds with
  | nil =>
    cases ds with
    | nil => rfl
    | cons d ds =>
      obtain ⟨b, rest, hd⟩ := utf8EncodeChar_eq_cons d
      rw [List.flatMap_cons, hd]
      rfl
  | cons c cs ih =>
    cases ds with
    | nil =>
      obtain ⟨b, rest, hc⟩ := utf8EncodeChar_eq_cons c
      rw [List.flatMap_cons, hc]
      rfl
    | cons d ds =>
      rw [List.flatMap_cons, List.flatMap_cons, compare_utf8EncodeChar, ih,
        List.compare_cons_cons]

/-- Lists of characters compare as their order has it. -/
theorem compare_chars (cs ds : List Char) : compare cs ds = compareOfLessAndEq cs ds := by
  induction cs generalizing ds with
  | nil => cases ds <;> rfl
  | cons c cs ih =>
    cases ds with
    | nil => rfl
    | cons d ds =>
      have hhead : compare c d = compareOfLessAndEq c d := rfl
      rw [List.compare_cons_cons, ih, hhead]
      simp only [compareOfLessAndEq, List.cons_lt_cons_iff, List.cons.injEq]
      by_cases hlt : c < d
      · simp [hlt]
      · by_cases hsame : c = d <;> simp [hlt, hsame]

/-- The characters of texts compare as the texts do. -/
theorem compare_toList (a b : String) : compare a.toList b.toList = compare a b := by
  have hstring : compare a b = compareOfLessAndEq a b := rfl
  rw [compare_chars, hstring]
  simp only [compareOfLessAndEq, String.toList_inj, String.lt_iff]

/-- The bytes of texts compare as the texts do. -/
theorem compare_utf8Bytes (a b : String) : compare (utf8Bytes a) (utf8Bytes b) = compare a b := by
  rw [utf8Bytes, utf8Bytes, compare_flatMap_utf8EncodeChar, compare_toList]

end WaitingRoom.Text
