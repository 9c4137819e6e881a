import WaitingRoom.Credential.Jwt
import WaitingRoom.Proofs.Json.Members
import WaitingRoom.Proofs.Text.Stripping

/-!
# What a decoded token says

A token that is decoded has three parts with dots between them, of which the first two are in the
signs of Base64. Its claims are the members of one record that are named after them, and each of
them is there once. Whether a token is accepted besides makes no difference to what it says.
-/

namespace WaitingRoom

open Json (Value Decoded)

namespace Text.Base64Alphabet

/-- The signs that tokens are spelled with are neither dots nor blanks. -/
theorem sign_of_value? {c : Char} (h : urlBase64.value? c ≠ none) :
    c ≠ '.' ∧ isBlank c = false := by
  have hcode : (65 ≤ c.toNat ∧ c.toNat ≤ 90) ∨ (97 ≤ c.toNat ∧ c.toNat ≤ 122) ∨
      (48 ≤ c.toNat ∧ c.toNat ≤ 57) ∨ c = '-' ∨ c = '_' := by
    by_contra hnone
    apply h
    simp only [not_or, not_and, Nat.not_le] at hnone
    obtain ⟨hupper, hlower, hdigit, hminus, hline⟩ := hnone
    have hnoUpper : ('A' ≤ c && c ≤ 'Z') = false := by
      simpa [Char.le_def, UInt32.le_iff_toNat_le] using hupper
    have hnoLower : ('a' ≤ c && c ≤ 'z') = false := by
      simpa [Char.le_def, UInt32.le_iff_toNat_le] using hlower
    have hnoDigit : isDigit c = false := by
      simpa [isDigit, Char.le_def, UInt32.le_iff_toNat_le] using hdigit
    simp [value?, urlBase64, hnoUpper, hnoLower, hnoDigit, hminus, hline]
  constructor
  · rintro rfl
    revert hcode
    decide
  · rcases hcode with hcode | hcode | hcode | rfl | rfl
    · simp [isBlank]; omega
    · simp [isBlank]; omega
    · simp [isBlank]; omega
    · decide
    · decide

/-- A text that spells bytes is made of signs that have a value. -/
theorem value?_of_decode? {cs : List Char} {bytes : List UInt8}
    (h : urlBase64.decode? cs = some bytes) : ∀ c ∈ cs, urlBase64.value? c ≠ none := by
  have hmapM : ∀ {cs : List Char} {values : List Nat}, cs.mapM urlBase64.value? = some values →
      ∀ c ∈ cs, urlBase64.value? c ≠ none := by
    intro cs
    induction cs with
    | nil => exact fun _ c hc => nomatch hc
    | cons d rest ih =>
      intro values hvalues
      rw [List.mapM_cons, Option.bind_eq_bind, Option.bind_eq_some_iff] at hvalues
      obtain ⟨value, hd, hrest⟩ := hvalues
      obtain ⟨others, hothers, -⟩ := Option.bind_eq_some_iff.mp hrest
      refine List.forall_mem_cons.mpr ⟨?_, ih hothers⟩
      rw [hd]
      exact Option.some_ne_none value
  change ((cs.mapM urlBase64.value?).bind (gather [])) = some bytes at h
  obtain ⟨values, hvalues, -⟩ := Option.bind_eq_some_iff.mp h
  exact hmapM hvalues

end Text.Base64Alphabet

/-! ## The parts of a token -/

namespace Jwt

/-- A text that is cut at a dot is what stands before the dot and what stands behind it, where
there is no other. -/
theorem eq_of_cutAtLastDot {cs front behind : List Char}
    (h : cutAtLastDot cs = some (front, behind)) : cs = front ++ '.' :: behind ∧ '.' ∉ behind := by
  have hsplit := cs.reverse.takeWhile_append_dropWhile (p := (· != '.'))
  have hstop := cs.reverse.head?_dropWhile_not (· != '.')
  have hbehind : '.' ∉ (cs.reverse.takeWhile (· != '.')).reverse := by
    intro hdot
    have hno := List.mem_takeWhile_imp (List.mem_reverse.mp hdot)
    simp at hno
  unfold cutAtLastDot at h
  cases hdrop : cs.reverse.dropWhile (· != '.') with
  | nil =>
    rw [hdrop, List.append_nil] at hsplit
    simp [hsplit] at h
  | cons d rest =>
    rw [hdrop] at hsplit hstop
    obtain rfl : d = '.' := by simpa using hstop
    have hcs : cs = rest.reverse ++ '.' :: (cs.reverse.takeWhile (· != '.')).reverse := by
      simpa using (congrArg List.reverse hsplit).symm
    generalize (cs.reverse.takeWhile (· != '.')).reverse = last at h hcs hbehind
    subst hcs
    have hlength :
        (rest.reverse ++ '.' :: last).length - last.length - 1 = rest.reverse.length := by
      simp only [List.length_append, List.length_cons]
      omega
    simp only [hlength, List.take_left] at h
    split at h
    · cases h
    · cases h
      exact ⟨rfl, hbehind⟩

/-- A token that is cut into its parts is those parts with dots between them. -/
theorem eq_of_split? {token : List Char} {parts : Parts} (h : split? token = some parts) :
    parts.signed = parts.header ++ '.' :: parts.claims ∧
      token = parts.signed ++ '.' :: parts.signature := by
  obtain ⟨⟨signed, signature⟩, hsigned, hrest⟩ := Option.bind_eq_some_iff.mp h
  obtain ⟨⟨header, claims⟩, hheader, hparts⟩ := Option.bind_eq_some_iff.mp hrest
  cases hparts
  exact ⟨(eq_of_cutAtLastDot hheader).1, (eq_of_cutAtLastDot hsigned).1⟩

/-- What is read from a part of a token is read from the value that the part spells. -/
theorem exists_of_decodePart {α : Type} {read : Value → Decoded α} {cs : List Char} {a : α}
    (h : decodePart read cs = .ok a) : ∃ bytes, Text.urlBase64.decode? cs = some bytes ∧
      read (Json.readSource (Text.decodeUtf8 bytes)).value = .ok a := by
  unfold decodePart at h
  split at h
  · cases h
  · rename_i bytes hbytes
    refine ⟨bytes, hbytes, ?_⟩
    split at h
    · rename_i b hb
      cases h
      exact Json.read_of_decodeSource hb
    · cases h

/-- A value that is read as an integer is a number that is that integer. -/
theorem exists_of_asInt64 {v : Value} {i : Int} (h : v.asInt64 = .ok i) :
    ∃ n, v = .number n ∧ n.integer? = some i := by
  rcases v with _ | _ | n | (_ | _) | _ | _ | _
  case number =>
    refine ⟨n, rfl, ?_⟩
    simp only [Value.asInt64, Value.asInt] at h
    cases hn : n.integer? with
    | none => simp [hn] at h
    | some j =>
      simp only [hn] at h
      split at h
      · rw [Except.ok.inj h]
      · cases h
  all_goals cases h

/-- The members of the record that the claims of a token spell. -/
def payload? (token : List Char) : Option (List (Value × Value)) := do
  let parts ← split? token
  let bytes ← Text.urlBase64.decode? parts.claims
  match (Json.readSource (Text.decodeUtf8 bytes)).value with
  | .record members => some members
  | _ => none

/-- Each of the claims leaves the other as it is. -/
theorem keeps_of_mem_claimFields {field : Json.Member Claims} (h : field ∈ claimFields) :
    (field.name ≠ "sub" → field.Keeps Claims.subject) ∧
      (field.name ≠ "exp" → field.Keeps Claims.expiry) := by
  rcases List.mem_cons.mp h with rfl | h
  · exact ⟨fun hne => absurd rfl hne, fun _ => .of fun _ _ => rfl⟩
  · obtain rfl := List.mem_singleton.mp h
    exact ⟨fun _ => .of fun _ _ => rfl, fun hne => absurd rfl hne⟩

/-- Claims that are read are what the one member says that has the name of each. -/
theorem members_of_decodeClaims {token : List Char} {parts : Parts} {claims : Claims}
    (hparts : split? token = some parts) (h : decodeClaims parts.claims = .ok claims) :
    ∃ members n, payload? token = some members ∧
      Json.HasJust members "sub" (.text (some claims.subject)) ∧
      Json.HasJust members "exp" (.number n) ∧ n.integer? = some claims.expiry := by
  obtain ⟨claims', hclaims, hrest⟩ := exists_of_bind_eq_ok h
  obtain ⟨_, hregistered, hexpiry⟩ := exists_of_bind_eq_ok hrest
  obtain rfl : claims' = claims := by
    split at hexpiry
    · cases hexpiry
    · exact Except.ok.inj hexpiry
  obtain ⟨bytes, hbytes, hread⟩ := exists_of_decodePart hclaims
  obtain ⟨bytes', hbytes', hrecord⟩ := exists_of_decodePart hregistered
  obtain rfl : bytes = bytes' := Option.some.inj (hbytes.symm.trans hbytes')
  cases hvalue : (Json.readSource (Text.decodeUtf8 bytes)).value with
  | record members =>
    rw [hvalue] at hread
    have hpayload : payload? token = some members := by
      simp [payload?, hparts, hbytes, hvalue]
    have hsubject : Json.Settle members "sub" .refused Value.asText [] "" claims'.subject :=
      Json.settle_of_readMembers rfl (fun _ _ => rfl) (fun _ hf => (keeps_of_mem_claimFields hf).1)
        hread
    have hexpiry : Json.Settle members "exp" .refused Value.asInt64 [] 0 claims'.expiry :=
      Json.settle_of_readMembers rfl (fun _ _ => rfl) (fun _ hf => (keeps_of_mem_claimFields hf).2)
        hread
    obtain ⟨v, hsub, hv⟩ := hsubject.exists_of_refused rfl
    obtain ⟨v', hexp, hv'⟩ := hexpiry.exists_of_refused rfl
    obtain rfl := Json.eq_of_asText hv
    obtain ⟨n, rfl, hn⟩ := exists_of_asInt64 hv'
    exact ⟨members, n, hpayload, hsub, hexp, hn⟩
  | null | truth | number | text | list | broken =>
    -- the second look at the claims takes nothing but a record
    rw [hvalue] at hrecord
    cases hrecord

/-! ## Decoding -/

/-- A token that is decoded has a header and claims that are read, and is accepted for the
header. -/
theorem exists_of_decode {c : Checker} {token : List Char} {claims : Claims}
    (h : c.decode token = .ok claims) : ∃ parts header, split? token = some parts ∧
      decodeHeader parts.header = .ok header ∧ c.accept header parts = .ok () ∧
      decodeClaims parts.claims = .ok claims := by
  unfold Checker.decode at h
  split at h
  · cases h
  · rename_i parts hparts
    obtain ⟨header, hheader, hrest⟩ := exists_of_bind_eq_ok h
    obtain ⟨_, haccept, hclaims⟩ := exists_of_bind_eq_ok hrest
    exact ⟨parts, header, hparts, hheader, haccept, hclaims⟩

/-- A header that is read is in the signs that tokens are spelled with. -/
theorem sign_of_decodeHeader {cs : List Char} {header : Header}
    (h : decodeHeader cs = .ok header) : ∀ c ∈ cs, c ≠ '.' ∧ Text.isBlank c = false := by
  obtain ⟨bytes, hbytes, -⟩ := exists_of_decodePart h
  intro c hc
  exact Text.Base64Alphabet.sign_of_value? (Text.Base64Alphabet.value?_of_decode? hbytes c hc)

end Jwt

end WaitingRoom
