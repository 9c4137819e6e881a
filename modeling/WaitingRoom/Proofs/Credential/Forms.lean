import WaitingRoom.Proofs.Credential.Tokens

/-!
# The forms of a credential

A token may be presented as it is or behind the word `Bearer`, in any case of letters and with
blanks around it, and it is the same credential every time. It is passed on in one form, in which
it is accepted again and means the same. The word is found in the bytes of a text, and no text is
ever cut within a character.
-/

namespace WaitingRoom

namespace Text

/-- A character is in lower case, or it is a letter from `A` to `Z`, which has one. -/
theorem toLower_cases (c : Char) :
    c.toLower = c ∨ (65 ≤ c.toNat ∧ c.toNat ≤ 90 ∧ c.toLower.toNat = c.toNat + 32) := by
  by_cases h : c.val ≥ 'A'.val ∧ c.val ≤ 'Z'.val
  · right
    have hlow : 65 ≤ c.toNat := by simpa [UInt32.le_iff_toNat_le] using h.1
    have hhigh : c.toNat ≤ 90 := by simpa [UInt32.le_iff_toNat_le] using h.2
    have hlower : c.toLower.val = c.val + 32 := congrArg Char.val (dif_pos h)
    refine ⟨hlow, hhigh, ?_⟩
    rw [Char.toNat, hlower, UInt32.toNat_add]
    exact Nat.mod_eq_of_lt (by change c.toNat + 32 < _; omega)
  · exact .inl (dif_neg h)

/-- The lower case of a character is in ASCII just if the character is. -/
theorem toLower_lt_iff (c : Char) : c.toLower.toNat < 128 ↔ c.toNat < 128 := by
  rcases toLower_cases c with hsame | ⟨hlow, hhigh, hlower⟩
  · rw [hsame]
  · omega

/-- Texts that differ at most in the case of letters have the same characters, so far. -/
theorem exists_of_sameIgnoringAsciiCase {cs word : List Char}
    (h : sameIgnoringAsciiCase cs word = true) {c : Char} (hc : c ∈ cs) :
    ∃ d ∈ word, d.toLower = c.toLower := by
  have hmap : cs.map Char.toLower = word.map Char.toLower := by
    simpa [sameIgnoringAsciiCase] using h
  exact List.mem_map.mp (hmap ▸ List.mem_map_of_mem hc)

/-- It does not matter which of two texts is said to differ from the other. -/
theorem sameIgnoringAsciiCase_symm {a b : List Char} (h : sameIgnoringAsciiCase a b = true) :
    sameIgnoringAsciiCase b a = true := by
  simp only [sameIgnoringAsciiCase, beq_iff_eq] at h ⊢
  exact h.symm

/-- Texts that differ at most in the case of letters are of the same length. -/
theorem length_of_sameIgnoringAsciiCase {cs word : List Char}
    (h : sameIgnoringAsciiCase cs word = true) : cs.length = word.length := by
  have hmap : cs.map Char.toLower = word.map Char.toLower := by
    simpa [sameIgnoringAsciiCase] using h
  simpa using congrArg List.length hmap

/-! ## Cutting by bytes -/

/-- Cuts a text behind a number of bytes, if it has as many and no character lies astride. -/
def cutAt? : Nat → List Char → Option (List Char × List Char)
  | 0, cs => some ([], cs)
  | _ + 1, [] => none
  | n + 1, c :: rest =>
    if c.utf8Size ≤ n + 1 then
      (cutAt? (n + 1 - c.utf8Size) rest).map fun (front, back) => (c :: front, back)
    else none

/-- The number of bytes of a text. -/
def byteCount : List Char → Nat
  | [] => 0
  | c :: rest => c.utf8Size + byteCount rest

/-- A text is cut behind the bytes of what it begins with. -/
theorem cutAt?_append (front back : List Char) :
    cutAt? (byteCount front) (front ++ back) = some (front, back) := by
  induction front with
  | nil => rw [List.nil_append, byteCount, cutAt?]
  | cons c rest ih =>
    obtain ⟨k, hk⟩ : ∃ k, byteCount (c :: rest) = k + 1 := by
      refine Nat.exists_eq_succ_of_ne_zero ?_
      have hpos := c.utf8Size_pos
      rw [byteCount]
      omega
    rw [List.cons_append, hk, cutAt?, ← hk, byteCount, if_pos (Nat.le_add_right ..),
      Nat.add_sub_cancel_left, ih]
    rfl

/-- A text that is cut is what stands before the cut and what stands behind it. -/
theorem append_of_cutAt? {n : Nat} {cs front back : List Char}
    (h : cutAt? n cs = some (front, back)) : front ++ back = cs ∧ byteCount front = n := by
  induction cs generalizing n front with
  | nil =>
    cases n with
    | zero =>
      cases h
      exact ⟨rfl, rfl⟩
    | succ n => cases h
  | cons c rest ih =>
    cases n with
    | zero =>
      rw [cutAt?] at h
      cases h
      exact ⟨rfl, rfl⟩
    | succ n =>
      rw [cutAt?] at h
      split at h
      · rename_i hle
        obtain ⟨⟨front', back'⟩, hcut, heq⟩ := Option.map_eq_some_iff.mp h
        cases heq
        obtain ⟨happend, hcount⟩ := ih hcut
        refine ⟨congrArg (c :: ·) happend, ?_⟩
        rw [byteCount, hcount]
        omega
      · cases h

/-- A text in ASCII has as many bytes as characters. -/
theorem byteCount_of_ascii {cs : List Char} (h : ∀ c ∈ cs, c.toNat < 128) :
    byteCount cs = cs.length := by
  induction cs with
  | nil => rfl
  | cons c rest ih =>
    obtain ⟨hc, hrest⟩ := List.forall_mem_cons.mp h
    have hsize : c.utf8Size = 1 :=
      Char.utf8Size_eq_one_iff.mpr (UInt32.le_iff_toNat_le.mpr (Nat.le_of_lt_succ hc))
    rw [byteCount, ih hrest, hsize, List.length_cons, Nat.add_comm]

end Text

namespace Credential

open Text (sameIgnoringAsciiCase AllBlank IsBare)

/-- Removes the word `Bearer` by cutting the text behind its seventh byte, where that is possible;
nothing would come of a text that is cut within a character after all. -/
def stripBearerBytes? (cs : List Char) : Option (List Char) :=
  if sameIgnoringAsciiCase cs bearerWord then some []
  else
    match (Text.cutAt? 7 cs).map Prod.fst with
    | some front =>
      if sameIgnoringAsciiCase front (bearerWord ++ [' ']) then
        (Text.cutAt? 7 cs).map fun (_, back) => Text.strip back
      else some cs
    | none => some cs

/-- The letters of the word are in ASCII, and so are they in another case. -/
theorem ascii_of_same {cs : List Char}
    (h : sameIgnoringAsciiCase cs (bearerWord ++ [' ']) = true) : ∀ c ∈ cs, c.toNat < 128 := by
  intro c hc
  obtain ⟨d, hd, hlower⟩ := Text.exists_of_sameIgnoringAsciiCase h hc
  have hword : ∀ d ∈ bearerWord ++ [' '], d.toNat < 128 := by simp [bearerWord]
  rw [← Text.toLower_lt_iff, ← hlower, Text.toLower_lt_iff]
  exact hword d hd

/-- The word is removed by bytes as it is by characters, and the text is never cut within one. -/
theorem stripBearerBytes?_eq (cs : List Char) : stripBearerBytes? cs = some (stripBearer cs) := by
  rw [stripBearerBytes?, stripBearer]
  split
  · rfl
  · by_cases hword : sameIgnoringAsciiCase (cs.take 7) (bearerWord ++ [' ']) = true
    · have hlength : (cs.take 7).length = 7 := Text.length_of_sameIgnoringAsciiCase hword
      have hcut := Text.cutAt?_append (cs.take 7) (cs.drop 7)
      rw [Text.byteCount_of_ascii (ascii_of_same hword), hlength, List.take_append_drop] at hcut
      simp only [hcut, hword, Option.map_some, if_true]
    · rw [if_neg hword]
      split
      · rename_i front hfront
        obtain ⟨⟨front', back⟩, hcut, heq⟩ := Option.map_eq_some_iff.mp hfront
        obtain rfl : front' = front := heq
        split
        · rename_i hsame
          -- what is cut off is seven characters long, so it would have been found to be the word
          have hlength : front'.length = 7 := Text.length_of_sameIgnoringAsciiCase hsame
          obtain ⟨rfl, -⟩ := Text.append_of_cutAt? hcut
          rw [← hlength, List.take_left] at hword
          exact absurd hsame hword
        · rfl
      · rfl

/-! ## The token in a credential -/

/-- Whether a credential presents a token: as it is, or behind the word in any case of letters
with one space or with more blanks after that, and with blanks around it all. -/
def Presents (credential : String) (token : List Char) : Prop :=
  ∃ before front after, AllBlank before ∧ AllBlank after ∧
    credential.toList = before ++ (front ++ token) ++ after ∧
    (front = [] ∨ ∃ word between, sameIgnoringAsciiCase word bearerWord = true ∧
      AllBlank between ∧ front = word ++ ' ' :: between)

/-- The token in a credential is bare. -/
theorem isBare_tokenPart (credential : String) : IsBare (tokenPart credential) := by
  rw [tokenPart, stripBearer]
  split
  · exact ⟨fun _ h => (nomatch h), fun _ h => (nomatch h)⟩
  · split
    · exact Text.isBare_strip _
    · exact Text.isBare_strip _

/-- No word is removed from a text in which a dot comes before the first blank. -/
theorem stripBearer_of_dot {front : List Char} (hfront : ∀ c ∈ front, Text.isBlank c = false)
    (back : List Char) : stripBearer (front ++ '.' :: back) = front ++ '.' :: back := by
  have hplain : ∀ d ∈ bearerWord ++ [' '], d.toLower ≠ ('.').toLower := by simp [bearerWord]
  have hdot : ∀ {cs}, sameIgnoringAsciiCase cs (bearerWord ++ [' ']) = true → '.' ∉ cs := by
    intro cs hsame hmem
    obtain ⟨d, hd, hlower⟩ := Text.exists_of_sameIgnoringAsciiCase hsame hmem
    exact hplain d hd hlower
  have hwhole : ¬ sameIgnoringAsciiCase (front ++ '.' :: back) bearerWord = true := by
    intro hsame
    have hmem : '.' ∈ front ++ '.' :: back := List.mem_append_right _ List.mem_cons_self
    obtain ⟨d, hd, hlower⟩ := Text.exists_of_sameIgnoringAsciiCase hsame hmem
    exact hplain d (List.mem_append_left _ hd) hlower
  have hbeginning : ¬ sameIgnoringAsciiCase ((front ++ '.' :: back).take 7)
      (bearerWord ++ [' ']) = true := by
    intro hsame
    by_cases hlength : front.length < 7
    · refine hdot hsame ?_
      obtain ⟨k, hk⟩ : ∃ k, 7 - front.length = k + 1 := ⟨6 - front.length, by omega⟩
      rw [List.take_append, hk, List.take_succ_cons]
      exact List.mem_append_right _ List.mem_cons_self
    · -- seven characters before the dot hold no blank, but the word is followed by one
      rw [List.take_append_of_le_length (Nat.le_of_not_lt hlength)] at hsame
      obtain ⟨c, hc, hlower⟩ := Text.exists_of_sameIgnoringAsciiCase
        (Text.sameIgnoringAsciiCase_symm hsame) (c := ' ') (by decide)
      have hblank := hfront c (List.mem_of_mem_take hc)
      rcases Text.toLower_cases c with hsame | ⟨hlow, -, hcode⟩
      · rw [← hsame, hlower] at hblank
        revert hblank
        decide
      · rw [hlower] at hcode
        have hspace : (' ').toLower.toNat = 32 := rfl
        omega
  rw [stripBearer, if_neg hwhole, if_neg hbeginning]

/-- A letter of the word is no blank, in whatever case. -/
theorem isBlank_of_same {word : List Char} (hword : sameIgnoringAsciiCase word bearerWord = true) :
    ∀ c ∈ word, Text.isBlank c = false := by
  intro c hc
  obtain ⟨d, hd, hlower⟩ := Text.exists_of_sameIgnoringAsciiCase hword hc
  have hletter : ∀ d ∈ bearerWord, Text.isBlank d.toLower = false := by
    simp [bearerWord, Text.isBlank]
  rcases Text.toLower_cases c with hsame | ⟨hlow, hhigh, -⟩
  · rw [← hsame, ← hlower]
    exact hletter d hd
  · simp [Text.isBlank]
    omega

/-- The word is removed with the blank behind it and all further blanks. -/
theorem stripBearer_append {word : List Char}
    (hword : sameIgnoringAsciiCase word bearerWord = true) (rest : List Char) :
    stripBearer (word ++ ' ' :: rest) = Text.strip rest := by
  have hlength : word.length = 6 := Text.length_of_sameIgnoringAsciiCase hword
  have hwhole : ¬ sameIgnoringAsciiCase (word ++ ' ' :: rest) bearerWord = true := by
    intro hsame
    have hshort := Text.length_of_sameIgnoringAsciiCase hsame
    rw [List.length_append, hlength, List.length_cons] at hshort
    change 6 + (rest.length + 1) = 6 at hshort
    omega
  have hcut : word ++ ' ' :: rest = (word ++ [' ']) ++ rest := by simp
  have hseven : (word ++ [' ']).length = 7 := by rw [List.length_append, hlength]; rfl
  have hbeginning : sameIgnoringAsciiCase (word ++ [' ']) (bearerWord ++ [' ']) = true := by
    simp only [sameIgnoringAsciiCase, beq_iff_eq, List.map_append] at hword ⊢
    rw [hword]
  rw [stripBearer, if_neg hwhole, hcut, ← hseven, List.take_left, if_pos hbeginning,
    List.drop_left]

/-- The token that a credential presents is found in it, if the token does not begin with the word
itself. -/
theorem tokenPart_of_presents {credential : String} {token : List Char} (hne : token ≠ [])
    (hbare : IsBare token) (hplain : stripBearer token = token)
    (h : Presents credential token) : tokenPart credential = token := by
  obtain ⟨before, front, after, hbefore, hafter, hcredential, hfront⟩ := h
  rw [tokenPart, hcredential]
  rcases hfront with rfl | ⟨word, between, hword, hbetween, rfl⟩
  · rw [List.nil_append, Text.strip_surrounded hbefore hafter hbare, hplain]
  · have hwhole : IsBare (word ++ ' ' :: between ++ token) := by
      constructor
      · intro c hc
        refine isBlank_of_same hword c ?_
        cases word with
        | nil => cases hword
        | cons d rest =>
          obtain rfl : d = c := Option.some.inj hc
          exact List.mem_cons_self
      · intro c hc
        obtain ⟨d, hd⟩ := Option.ne_none_iff_exists'.mp (mt List.getLast?_eq_none_iff.mp hne)
        rw [List.getLast?_append, hd, Option.some_or] at hc
        exact hbare.last c (hd.trans hc)
    rw [Text.strip_surrounded hbefore hafter hwhole, List.append_assoc, List.cons_append,
      stripBearer_append hword, Text.strip_append_left hbetween, Text.strip_of_isBare hbare]

end Credential

namespace Jwt

open Credential (tokenPart stripBearer Presents)

variable {c : Checker} {credential : String} {t : Token}

/-- A token that is decoded does not begin with the word `Bearer`. -/
theorem stripBearer_of_decode {token : List Char} {claims : Claims}
    (h : c.decode token = .ok claims) : stripBearer token = token := by
  obtain ⟨parts, header, hparts, hheader, -, -⟩ := exists_of_decode h
  obtain ⟨hsigned, rfl⟩ := eq_of_split? hparts
  rw [hsigned, List.append_assoc, List.cons_append]
  exact Credential.stripBearer_of_dot (fun c hc => (sign_of_decodeHeader hheader c hc).2) _

namespace Checker

/-- A credential is accepted for the token that is found in it. -/
theorem validate_congr {other : String} (h : tokenPart other = tokenPart credential) :
    c.validate other = c.validate credential := by
  simp only [validate, h]

/-- A credential in which there is no token is missing. -/
theorem validate_of_nil (h : tokenPart credential = []) :
    c.validate credential = .error .missing := by
  simp [validate, h]

/-- A credential in which there is a token is invalid, or it is accepted: the token is decoded,
and it runs out at an instant. -/
theorem validate_of_ne_nil (h : tokenPart credential ≠ []) :
    (∃ why, c.validate credential = .error (.invalid why)) ∨
      ∃ claims expiresAt, c.decode (tokenPart credential) = .ok claims ∧
        Time.Instant.of? claims.expiry 0 = some expiresAt ∧
        c.validate credential = .ok
          { credential := Credential.normalForm (tokenPart credential)
            userId := claims.subject, expiresAt } := by
  have hempty : (tokenPart credential).isEmpty = false := by simpa using h
  cases hdecode : c.decode (tokenPart credential) with
  | error why => exact .inl ⟨why, by simp [validate, hempty, hdecode]⟩
  | ok claims =>
    cases hexpiry : Time.Instant.of? claims.expiry 0 with
    | none => exact .inl ⟨.expiryOutOfRange, by simp [validate, hempty, hdecode, hexpiry]⟩
    | some expiresAt =>
      exact .inr ⟨claims, expiresAt, rfl, hexpiry, by simp [validate, hempty, hdecode, hexpiry]⟩

/-- What is accepted is the token that is found: it was decoded, it is the user's whom its claims
name, and it runs out when they say. -/
theorem exists_of_validate (h : c.validate credential = .ok t) :
    tokenPart credential ≠ [] ∧ ∃ claims, c.decode (tokenPart credential) = .ok claims ∧
      t.credential = Credential.normalForm (tokenPart credential) ∧
      t.userId = claims.subject ∧ Time.Instant.of? claims.expiry 0 = some t.expiresAt := by
  have hne : tokenPart credential ≠ [] := by
    intro hnil
    rw [validate_of_nil hnil] at h
    cases h
  refine ⟨hne, ?_⟩
  rcases validate_of_ne_nil (c := c) hne with ⟨_, hinvalid⟩ | ⟨claims, _, hdecode, hinstant, hok⟩
  · rw [hinvalid] at h
    cases h
  · rw [hok] at h
    cases h
    exact ⟨claims, hdecode, rfl, rfl, hinstant⟩

end Checker

/-- An instant that a second is read as is that second, and there is such a second. -/
theorem second_of_of? {second : Int} {instant : Time.Instant}
    (h : Time.Instant.of? second 0 = some instant) :
    instant.second = second ∧ instant.nano = 0 ∧
      Time.firstSecond ≤ second ∧ second ≤ Time.lastSecond := by
  unfold Time.Instant.of? at h
  split at h
  · rename_i hbounds
    cases h
    exact ⟨rfl, rfl, hbounds.1, hbounds.2.1⟩
  · cases h

/-- A token is presented by what is passed on for it. -/
theorem presents_normalForm (token : List Char) :
    Presents (Credential.normalForm token) token := by
  refine ⟨[], "Bearer ".toList, [], fun _ h => (nomatch h), fun _ h => (nomatch h), ?_, .inr ?_⟩
  · simp [Credential.normalForm]
  · exact ⟨"Bearer".toList, [], rfl, fun _ h => (nomatch h), rfl⟩

/-- A token is presented by itself. -/
theorem presents_self (token : List Char) : Presents (String.ofList token) token := by
  refine ⟨[], [], [], fun _ h => (nomatch h), fun _ h => (nomatch h), ?_, .inl rfl⟩
  simp

/-- **Credentials have one normal form.** No credential is cut within a character. It is missing
just if no token is left in it. If it is accepted a token is left that has no blanks at either end;
what is passed on is that token behind the word `Bearer`, and every credential that presents the
token is accepted as this one was, among them what is passed on and the token alone. It runs out at
the one time that its payload names as `exp` and is the user's that it names as `sub`. A token
whose payload does not name one whole second that there is as `exp` is invalid. -/
theorem credentials_have_one_normal_form (c : Checker) (credential : String) :
    Credential.stripBearerBytes? (Text.strip credential.toList) = some (tokenPart credential) ∧
    (c.validate credential = .error .missing ↔ tokenPart credential = []) ∧
    (∀ t, c.validate credential = .ok t → ∃ token members n,
      token ≠ [] ∧ Text.strip token = token ∧ t.credential = "Bearer " ++ String.ofList token ∧
      (∀ other, Presents other token → c.validate other = .ok t) ∧
      c.validate t.credential = .ok t ∧ c.validate (String.ofList token) = .ok t ∧
      payload? token = some members ∧
      Json.HasJust members "sub" (.text (some t.userId)) ∧
      Json.HasJust members "exp" (.number n) ∧ n.integer? = some t.expiresAt.second ∧
      t.expiresAt.nano = 0) ∧
    (∀ members, payload? (tokenPart credential) = some members →
      (∀ n second, Json.HasJust members "exp" (.number n) → n.integer? = some second →
        second < Time.firstSecond ∨ Time.lastSecond < second) →
      ∃ why, c.validate credential = .error (.invalid why)) := by
  refine ⟨Credential.stripBearerBytes?_eq _, ⟨fun hmissing => ?_, Checker.validate_of_nil⟩,
    fun t ht => ?_, fun members hmembers hexpiry => ?_⟩
  · by_contra hne
    rcases Checker.validate_of_ne_nil (c := c) hne with ⟨why, hinvalid⟩ | ⟨_, _, -, -, hok⟩
    · rw [hinvalid] at hmissing
      cases hmissing
    · rw [hok] at hmissing
      cases hmissing
  · obtain ⟨hne, claims, hdecode, hcredential, huser, hinstant⟩ := Checker.exists_of_validate ht
    obtain ⟨parts, -, hparts, -, -, hclaims⟩ := exists_of_decode hdecode
    obtain ⟨members, n, hpayload, hsub, hexp, hn⟩ := members_of_decodeClaims hparts hclaims
    obtain ⟨hsecond, hnano, -, -⟩ := second_of_of? hinstant
    have hpresents : ∀ other, Presents other (tokenPart credential) →
        c.validate other = .ok t := fun other h =>
      (Checker.validate_congr (Credential.tokenPart_of_presents hne
        (Credential.isBare_tokenPart credential) (stripBearer_of_decode hdecode) h)).trans ht
    refine ⟨tokenPart credential, members, n, hne,
      Text.strip_of_isBare (Credential.isBare_tokenPart credential), hcredential, hpresents, ?_,
      hpresents _ (presents_self _), hpayload, huser ▸ hsub, hexp, hsecond ▸ hn, hnano⟩
    rw [hcredential]
    exact hpresents _ (presents_normalForm _)
  · have hne : tokenPart credential ≠ [] := by
      have hbound := hmembers
      rw [payload?, Option.bind_eq_bind, Option.bind_eq_some_iff] at hbound
      obtain ⟨parts, hparts, -⟩ := hbound
      rw [(eq_of_split? hparts).2]
      simp
    rcases Checker.validate_of_ne_nil (c := c) hne with hinvalid | ⟨claims, _, hdecode, hinstant, -⟩
    · exact hinvalid
    · obtain ⟨parts, -, hparts, -, -, hclaims⟩ := exists_of_decode hdecode
      obtain ⟨members', n, hpayload, -, hexp, hn⟩ := members_of_decodeClaims hparts hclaims
      obtain rfl : members = members' := Option.some.inj (hmembers.symm.trans hpayload)
      obtain ⟨-, -, hfirst, hlast⟩ := second_of_of? hinstant
      rcases hexpiry n claims.expiry hexp hn with hbefore | hafter
      · omega
      · omega

/-- A token about Alice for the first hour of 1970, which nobody has signed. -/
def aliceToken : String := "eyJhbGciOiJSUzI1NiJ9.eyJzdWIiOiJhbGljZSIsImV4cCI6MzYwMH0."

/-- What a checker without a key learns from Alice's token. -/
def alicesHour : Token where
  credential := "Bearer " ++ aliceToken
  userId := "alice"
  expiresAt := ⟨3600, 0, by decide, by decide, by decide⟩

/-- Alice is known by her token behind an oddly written word and among blanks, by what is passed on
then, and wherever her token is presented. -/
theorem alice_is_known_in_every_form :
    Checker.decodeOnly.validate ("  bEARER \t" ++ aliceToken ++ " ") = .ok alicesHour ∧
    Checker.decodeOnly.validate alicesHour.credential = .ok alicesHour ∧
    ∃ token, token ≠ [] ∧ Text.strip token = token ∧
      alicesHour.credential = "Bearer " ++ String.ofList token ∧
      ∀ other, Presents other token → Checker.decodeOnly.validate other = .ok alicesHour := by
  have hok : Checker.decodeOnly.validate ("  bEARER \t" ++ aliceToken ++ " ") =
      .ok alicesHour := by decide +kernel
  obtain ⟨-, -, haccepted, -⟩ := credentials_have_one_normal_form .decodeOnly
    ("  bEARER \t" ++ aliceToken ++ " ")
  obtain ⟨token, -, -, hne, hbare, hform, hpresents, hagain, -⟩ := haccepted alicesHour hok
  exact ⟨hok, hagain, token, hne, hbare, hform, hpresents⟩

end Jwt

end WaitingRoom
