import Mathlib.Tactic.SplitIfs
import WaitingRoom.Text.Utf8

/-!
# Bytes read back

The bytes of a text are decoded as its characters, without a gap. Each character's bytes are
told from one another by its number, six bits at a time, and none of its beginnings is taken
for a character of its own.
-/

namespace WaitingRoom.Text

/-! ## Bytes -/

/-- The byte that continues a character with six of its bits. -/
theorem isContinuation_ofNat (n : Nat) :
    isContinuation (UInt8.ofNat (n % 64 + 128)) = true := by
  have hbyte := UInt8.toNat_ofNat_of_lt' (by omega : n % 64 + 128 < 256)
  simp only [isContinuation, UInt8.le_iff_toNat_le, UInt8.lt_iff_toNat_lt, hbyte,
    UInt8.reduceToNat, Bool.and_eq_true, decide_eq_true_eq]
  omega

theorem sixBits_ofNat (n : Nat) : sixBits (UInt8.ofNat (n % 64 + 128)) = n % 64 := by
  rw [sixBits, UInt8.toNat_ofNat_of_lt' (by omega : n % 64 + 128 < 256)]
  omega

/-- A continuation byte may follow a lead byte unless together they are overlong, a surrogate
or beyond the last character. -/
theorem mayFollow_of_toNat {lead second : UInt8} (hsecond : isContinuation second = true)
    (hthree : lead.toNat = 224 → 160 ≤ second.toNat)
    (hsurrogate : lead.toNat = 237 → second.toNat < 160)
    (hfour : lead.toNat = 240 → 144 ≤ second.toNat)
    (hlast : lead.toNat = 244 → second.toNat < 144) : mayFollow lead second = true := by
  have hrange : 128 ≤ second.toNat ∧ second.toNat < 192 := by
    simpa [isContinuation, UInt8.le_iff_toNat_le, UInt8.lt_iff_toNat_lt] using hsecond
  simp only [mayFollow, beq_iff_eq, ← UInt8.toNat_inj, UInt8.reduceToNat, isContinuation,
    UInt8.le_iff_toNat_le, UInt8.lt_iff_toNat_lt]
  split_ifs with h1 h2 h3 h4 <;> simp only [Bool.and_eq_true, decide_eq_true_eq] <;> omega

/-! ## Characters of one to four bytes -/

variable {v : Nat} (rest : List UInt8)

theorem firstCharacter_one (hlast : v < 0x80) :
    firstCharacter (UInt8.ofNat v) rest = (some (Char.ofNat v), 1) := by
  have hlead := UInt8.toNat_ofNat_of_lt' (by omega : v < 256)
  unfold firstCharacter
  rw [if_pos (by rwa [UInt8.lt_iff_toNat_lt, hlead]), hlead]

theorem firstCharacter_two (hfirst : 0x80 ≤ v) (hlast : v < 0x800) :
    firstCharacter (UInt8.ofNat (v / 64 % 32 + 192)) (UInt8.ofNat (v % 64 + 128) :: rest) =
      (some (Char.ofNat v), 2) := by
  have hlead := UInt8.toNat_ofNat_of_lt' (by omega : v / 64 % 32 + 192 < 256)
  simp only [firstCharacter, UInt8.lt_iff_toNat_lt, UInt8.le_iff_toNat_le, hlead,
    UInt8.reduceToNat, isContinuation_ofNat, sixBits_ofNat, Bool.and_eq_true, decide_eq_true_eq]
  rw [if_neg (by omega), if_pos (by omega), if_pos trivial]
  congr 3
  omega

theorem firstCharacter_three (hfirst : 0x800 ≤ v) (hlast : v < 0x10000)
    (hsurrogate : v < 0xD800 ∨ 0xDFFF < v) :
    firstCharacter (UInt8.ofNat (v / 4096 % 16 + 224))
        (UInt8.ofNat (v / 64 % 64 + 128) :: UInt8.ofNat (v % 64 + 128) :: rest) =
      (some (Char.ofNat v), 3) := by
  have hlead := UInt8.toNat_ofNat_of_lt' (by omega : v / 4096 % 16 + 224 < 256)
  have hsecond := UInt8.toNat_ofNat_of_lt' (by omega : v / 64 % 64 + 128 < 256)
  have hmay : mayFollow (UInt8.ofNat (v / 4096 % 16 + 224))
      (UInt8.ofNat (v / 64 % 64 + 128)) = true := by
    apply mayFollow_of_toNat (isContinuation_ofNat _) <;> rw [hlead, hsecond] <;> omega
  simp only [firstCharacter, UInt8.lt_iff_toNat_lt, UInt8.le_iff_toNat_le, hlead,
    UInt8.reduceToNat, isContinuation_ofNat, sixBits_ofNat, hmay, Bool.and_eq_true,
    decide_eq_true_eq]
  rw [if_neg (by omega), if_neg (by omega), if_pos (by omega), if_neg (by decide),
    if_neg (by decide)]
  congr 3
  omega

theorem firstCharacter_four (hfirst : 0x10000 ≤ v) (hlast : v < 0x110000) :
    firstCharacter (UInt8.ofNat (v / 262144 % 8 + 240))
        (UInt8.ofNat (v / 4096 % 64 + 128) :: UInt8.ofNat (v / 64 % 64 + 128) ::
          UInt8.ofNat (v % 64 + 128) :: rest) =
      (some (Char.ofNat v), 4) := by
  have hlead := UInt8.toNat_ofNat_of_lt' (by omega : v / 262144 % 8 + 240 < 256)
  have hsecond := UInt8.toNat_ofNat_of_lt' (by omega : v / 4096 % 64 + 128 < 256)
  have hmay : mayFollow (UInt8.ofNat (v / 262144 % 8 + 240))
      (UInt8.ofNat (v / 4096 % 64 + 128)) = true := by
    apply mayFollow_of_toNat (isContinuation_ofNat _) <;> rw [hlead, hsecond] <;> omega
  simp only [firstCharacter, UInt8.lt_iff_toNat_lt, UInt8.le_iff_toNat_le, hlead,
    UInt8.reduceToNat, isContinuation_ofNat, sixBits_ofNat, hmay, Bool.and_eq_true,
    decide_eq_true_eq]
  rw [if_neg (by omega), if_neg (by omega), if_neg (by omega), if_pos (by omega),
    if_neg (by decide), if_neg (by decide), if_neg (by decide)]
  congr 3
  omega

/-- The first character of a text's bytes is the text's, and it takes as many bytes as it is
encoded in. -/
theorem firstCharacter_utf8EncodeChar (c : Char) :
    ∃ lead more, String.utf8EncodeChar c = lead :: more ∧
      firstCharacter lead (more ++ rest) = (some c, more.length + 1) := by
  have hvalid : c.val.toNat < 0xD800 ∨ 0xDFFF < c.val.toNat ∧ c.val.toNat < 0x110000 := c.valid
  have hback : Char.ofNat c.val.toNat = c := Char.ofNat_toNat c
  unfold String.utf8EncodeChar
  dsimp only
  generalize c.val.toNat = v at *
  subst hback
  split_ifs with hone htwo hthree
  · exact ⟨_, _, rfl, firstCharacter_one rest (by omega)⟩
  · exact ⟨_, _, rfl, firstCharacter_two rest (by omega) (by omega)⟩
  · exact ⟨_, _, rfl, firstCharacter_three rest (by omega) (by omega) (by omega)⟩
  · exact ⟨_, _, rfl, firstCharacter_four rest (by omega) (by omega)⟩

/-! ## Texts -/

/-- Decoding goes on after a character where its bytes end. -/
theorem decodeUtf8From_utf8EncodeChar (c : Char) (done : List (Option Char)) :
    decodeUtf8From 0 done (String.utf8EncodeChar c ++ rest) =
      decodeUtf8From 0 (some c :: done) rest := by
  obtain ⟨lead, more, hc, hfirst⟩ := firstCharacter_utf8EncodeChar rest c
  have hskip (skip : List UInt8) (done : List (Option Char)) :
      decodeUtf8From skip.length done (skip ++ rest) = decodeUtf8From 0 done rest := by
    induction skip with
    | nil => rfl
    | cons b skip ih => exact ih
  rw [hc, List.cons_append, decodeUtf8From, hfirst]
  exact hskip more _

/-- The bytes of a text are decoded as its characters. -/
theorem decodeUtf8_utf8Bytes (s : String) : decodeUtf8 (utf8Bytes s) = s.toList.map some := by
  have hall (cs : List Char) (done : List (Option Char)) :
      decodeUtf8From 0 done (cs.flatMap String.utf8EncodeChar) = done.reverse ++ cs.map some := by
    induction cs generalizing done with
    | nil => simp [decodeUtf8From]
    | cons c cs ih =>
      rw [List.flatMap_cons, decodeUtf8From_utf8EncodeChar, ih]
      simp
  exact hall s.toList []

/-- The text of a text's bytes is the text, with nothing replaced. -/
theorem lenientText_utf8Bytes (s : String) : lenientText (utf8Bytes s) = s := by
  have hkept : (fun c : Option Char => c.getD (Char.ofNat 0xFFFD)) ∘ some = id := rfl
  rw [lenientText, decodeUtf8_utf8Bytes, List.map_map, hkept, List.map_id, String.ofList_toList]

end WaitingRoom.Text
