import WaitingRoom.Proofs.Credential.Forms
import WaitingRoom.Proofs.Crypto.KeyLines
import WaitingRoom.Program

/-!
# Keys that are configured

A checker with a key is at least as strict as one without: what it accepts both accept, as the
same, and the signature has been verified. A key that is configured makes such a checker or none,
whatever blanks stand around it.
-/

namespace WaitingRoom

open Credential (tokenPart)

/-- A text with a character that is no blank is not all blank. -/
theorem Text.isAllBlank_of_mem {s : String} {c : Char} (hmem : c ∈ s.toList)
    (hc : isBlank c = false) : isAllBlank s = false :=
  List.all_eq_false.mpr ⟨c, hmem, by simp [hc]⟩

namespace Crypto

/-- Blanks around a key make no difference to its frame. -/
theorem toPem_trim (key : String) : toPem (Text.trim key) = toPem key := by
  simp only [toPem, Text.trim, String.toList_ofList, Text.strip_strip]

end Crypto

namespace Jwt

/-- Whether a token is signed for a key: its header names RS256, and what stands behind its last
dot spells a signature that verifies with the key over header and payload. -/
def IsSigned (key : List UInt8) (token : List Char) : Prop :=
  ∃ header payload spelling, token = header ++ '.' :: payload ++ '.' :: spelling ∧
    (∀ c ∈ header ++ payload ++ spelling, c ≠ '.') ∧
    (∃ named, decodeHeader header = .ok named ∧ named.algorithm = "RS256") ∧
    ∃ signature, Text.urlBase64.decode? spelling = some signature ∧
      Crypto.verifies key (Text.utf8Bytes (String.ofList (header ++ '.' :: payload)))
        signature = true

namespace Checker

variable {c : Checker} {key : String} {credential : String} {t : Token}

/-- Whether what was found for a key honours it: there is a checker for the bytes that the key
holds, or it holds none and is refused. -/
def Honours (found : Except AuthFailure Checker) (key : String) : Prop :=
  (∃ bytes, Crypto.keyBytes? (Crypto.toPem key) = some bytes ∧ found = .ok (signature bytes)) ∨
    Crypto.keyBytes? (Crypto.toPem key) = none ∧ found = .error .invalidKey

/-- A token that is decoded with a key is decoded without one as the same. -/
theorem decodeOnly_decode {token : List Char} {claims : Claims}
    (h : c.decode token = .ok claims) : decodeOnly.decode token = .ok claims := by
  obtain ⟨parts, header, hparts, hheader, -, hclaims⟩ := exists_of_decode h
  simp only [decode, hparts, hheader]
  exact hclaims

/-- A credential that is accepted with a key is accepted without one as the same. -/
theorem decodeOnly_validate (h : c.validate credential = .ok t) :
    decodeOnly.validate credential = .ok t := by
  obtain ⟨hne, claims, hdecode, -, -, hinstant⟩ := exists_of_validate h
  rw [← h]
  simp only [validate, hdecode, decodeOnly_decode hdecode]

/-- A key is accepted with only if the header names RS256 and the signature verifies. -/
theorem exists_of_accept {bytes : List UInt8} {header : Header} {parts : Parts}
    (h : (signature bytes).accept header parts = .ok ()) :
    header.algorithm = "RS256" ∧ ∃ mark, Text.urlBase64.decode? parts.signature = some mark ∧
      Crypto.verifies bytes (Text.utf8Bytes (String.ofList parts.signed)) mark = true := by
  by_cases halgorithm : header.algorithm = "RS256"
  · refine ⟨halgorithm, ?_⟩
    simp only [accept, checkedAlgorithm, halgorithm, bne_self_eq_false, Bool.false_eq_true,
      if_false, checkSignature] at h
    split at h
    · cases h
    · rename_i mark hmark
      split at h
      · rename_i hverifies
        exact ⟨mark, hmark, hverifies⟩
      · cases h
  · simp [accept, checkedAlgorithm, halgorithm] at h

/-- A token that is decoded with a key is signed for it. -/
theorem isSigned_of_decode {bytes : List UInt8} {token : List Char} {claims : Claims}
    (h : (signature bytes).decode token = .ok claims) : IsSigned bytes token := by
  obtain ⟨parts, header, hparts, hheader, haccept, hclaims⟩ := exists_of_decode h
  obtain ⟨hsigned, htoken⟩ := eq_of_split? hparts
  obtain ⟨halgorithm, mark, hmark, hverifies⟩ := exists_of_accept haccept
  obtain ⟨_, hpayload, -⟩ := exists_of_bind_eq_ok hclaims
  obtain ⟨_, hspelled, -⟩ := exists_of_decodePart hpayload
  refine ⟨parts.header, parts.claims, parts.signature, hsigned ▸ htoken, fun c hc => ?_,
    ⟨header, hheader, halgorithm⟩, mark, hmark, hsigned ▸ hverifies⟩
  have hsign : ∀ {cs bytes}, Text.urlBase64.decode? cs = some bytes → c ∈ cs → c ≠ '.' :=
    fun hdecode hc => (Text.Base64Alphabet.sign_of_value?
      (Text.Base64Alphabet.value?_of_decode? hdecode c hc)).1
  rcases List.mem_append.mp hc with hc | hc
  · rcases List.mem_append.mp hc with hc | hc
    · exact (sign_of_decodeHeader hheader c hc).1
    · exact hsign hspelled hc
  · exact hsign hmark hc

/-- What is accepted with a key is accepted without one as the same, and its token is signed for
the key. -/
theorem strict_of_validate {bytes : List UInt8}
    (h : (signature bytes).validate credential = .ok t) :
    decodeOnly.validate credential = .ok t ∧ IsSigned bytes (tokenPart credential) := by
  obtain ⟨-, claims, hdecode, -⟩ := exists_of_validate h
  exact ⟨decodeOnly_validate h, isSigned_of_decode hdecode⟩

/-- A key is honoured wherever a checker is made from it. -/
theorem honours_withPublicKey (key : String) : Honours (withPublicKey key) key := by
  unfold withPublicKey
  split
  · rename_i bytes hbytes
    exact .inl ⟨bytes, hbytes, rfl⟩
  · rename_i hnone
    exact .inr ⟨hnone, rfl⟩

/-- A configured key that is not all blank is used, whatever blanks stand around it. -/
theorem ofSetting_some (hkey : Text.isAllBlank key = false) :
    ofSetting (some key) = withPublicKey key := by
  simp only [ofSetting, hkey, Bool.false_eq_true, if_false, withPublicKey, Crypto.toPem_trim]

/-- A configured key that is all blank counts as none, with and without a filter before. -/
theorem ofSetting_filter (key? : Option String) :
    ofSetting (key?.filter fun key => !Text.isAllBlank key) = ofSetting key? := by
  cases key? with
  | none => rfl
  | some key =>
    rw [Option.filter_some]
    cases hkey : Text.isAllBlank key with
    | true => simp [ofSetting, hkey]
    | false => simp

end Checker

end Jwt

/-- Settings keep the configured key, unless all of it is blank. -/
theorem Config.jwtPubRsaKey_of_settings {config : Config} {settings : Settings}
    (h : config.settings = .ok settings) :
    settings.jwtPubRsaKey = config.jwtPubRsaKey.filter fun key => !Text.isAllBlank key := by
  unfold Config.settings at h
  obtain ⟨_, -, h⟩ := exists_of_bind_eq_ok h
  obtain ⟨_, -, h⟩ := exists_of_bind_eq_ok h
  obtain ⟨_, -, h⟩ := exists_of_bind_eq_ok h
  obtain ⟨_, -, h⟩ := exists_of_bind_eq_ok h
  obtain ⟨_, -, h⟩ := exists_of_bind_eq_ok h
  obtain ⟨_, -, h⟩ := exists_of_bind_eq_ok h
  cases h
  rfl

namespace Jwt

open Checker

/-- **Configured keys are honoured.** What a checker made from a key accepts, a checker without one
accepts as the same, and its token is signed for the bytes that the key holds. For a configured key
with a character that is no blank there is a checker, unless it holds no bytes and is refused. It is
so, too, after settings were made from what is configured: they keep that key, and of any other
configured key they make no more than would have been made of it without them. -/
theorem configured_keys_are_honoured :
    (∀ key c credential t, withPublicKey key = .ok c → c.validate credential = .ok t →
      decodeOnly.validate credential = .ok t ∧
        ∃ bytes, Crypto.keyBytes? (Crypto.toPem key) = some bytes ∧
          IsSigned bytes (tokenPart credential)) ∧
    (∀ key, (∃ sign ∈ key.toList, Text.isBlank sign = false) →
      Honours (ofSetting (some key)) key) ∧
    (∀ (config : Config) settings, config.settings = .ok settings →
      ofSetting settings.jwtPubRsaKey = ofSetting config.jwtPubRsaKey ∧
      ∀ key, config.jwtPubRsaKey = some key → (∃ sign ∈ key.toList, Text.isBlank sign = false) →
        settings.jwtPubRsaKey = some key ∧ Honours (ofSetting settings.jwtPubRsaKey) key) := by
  have hhonours : ∀ key, (∃ sign ∈ key.toList, Text.isBlank sign = false) →
      Honours (ofSetting (some key)) key := by
    rintro key ⟨sign, hmem, hsign⟩
    rw [ofSetting_some (Text.isAllBlank_of_mem hmem hsign)]
    exact honours_withPublicKey key
  refine ⟨fun key c credential t hkey hvalid => ?_, hhonours, fun config settings hsettings => ?_⟩
  · rcases honours_withPublicKey key with ⟨bytes, hbytes, hfound⟩ | ⟨-, hrefused⟩
    · obtain rfl : signature bytes = c := Except.ok.inj (hfound.symm.trans hkey)
      obtain ⟨hsame, hsigned⟩ := strict_of_validate hvalid
      exact ⟨hsame, bytes, hbytes, hsigned⟩
    · rw [hrefused] at hkey
      cases hkey
  · rw [Config.jwtPubRsaKey_of_settings hsettings]
    refine ⟨ofSetting_filter _, fun key hkey hsign => ?_⟩
    rw [ofSetting_filter, hkey]
    obtain ⟨sign, hmem, hblank⟩ := hsign
    refine ⟨?_, hhonours key ⟨sign, hmem, hblank⟩⟩
    rw [Option.filter_some, Text.isAllBlank_of_mem hmem hblank]
    rfl

/-- A public key in short lines: the characters of one long text would take longer to find. -/
def keyLines : List String :=
  ["MIIBIjANBgkqhkiG9w0BAQEFAAOCAQ8A", "MIIBCgKCAQEAwvFiO0SHHEbaOb2NZss5",
   "rMj0sJWwlYBDd30+4QG4ncj3Ag3+8bE9", "LRIm4S0rLJQTdUAZ6trVLoCa9two+gu9",
   "1kagzQPXUqu2GR3uMdni0553CoaZLERW", "pHN97SrsISLvfz25ZhUQvF2uv+hQprgE",
   "YBOGUoDm1mn5EOFwc2PAKkSillQUovNQ", "HuNbXmrDkztTo2W0OxNi1cuNaRyfFdKZ",
   "kgFAPAj3Y2PQC9e1kfalcB4MQimfEcPX", "d2P7nOUFHON7YDB7baFqBO5E0YwgcnGp",
   "14wlNiKQSZxewakgzcF2sCcMSORmnHOo", "wYaA7gKZ4sDVXd/RUh8DvDNRklEouMqX",
   "8QIDAQAB"]

/-- The characters of the key. -/
def keySigns : List Char := keyLines.flatMap String.toList

/-- The key as it may be configured: all in one line, with a blank in front. -/
def publishedKey : String := String.ofList (' ' :: keySigns)

/-- The bytes of the key, which follow 24 bytes that name its algorithm. -/
def publishedBytes : List UInt8 := ((Text.standardBase64.decode? keySigns).getD []).drop 24

/-- The published key in its frame. -/
def publishedFrame : List Char :=
  Crypto.framed (Crypto.wrapFrom Crypto.keyLineWidth [] keySigns)

/-- The published key is put in its frame without the blank. -/
theorem toPem_publishedKey : (Crypto.toPem publishedKey).toList = publishedFrame := by
  have hsigns : Text.unblanked publishedKey.toList = keySigns := by
    rw [publishedKey, String.toList_ofList]
    decide +kernel
  have hdash : '-' ∉ keySigns := by decide +kernel
  have hbare : ¬ Crypto.IsFramed publishedKey := Crypto.not_isFramed_of_not_mem (hsigns ▸ hdash)
  have hall : keySigns.all (fun c => c.toNat < 128) = true := by decide +kernel
  have hascii : ∀ c ∈ keySigns, c.toNat < 128 := by simpa using hall
  rw [Crypto.toPem_of_not_isFramed hbare, hsigns, Crypto.wrapLines_of_ascii (by decide) hascii]
  rfl

/-- The published key holds its bytes. -/
theorem keyBytes?_publishedKey :
    Crypto.keyBytes? (Crypto.toPem publishedKey) = some publishedBytes := by
  rw [Crypto.keyBytes?, toPem_publishedKey]
  decide +kernel

/-- The lines of Alice's token as it is signed for the published key. -/
def signedLines : List String :=
  ["eyJhbGciOiJSUzI1NiJ9.", "eyJzdWIiOiJhbGljZSIsImV4cCI6MzYwMH0.",
   "D1Ip4pyOdmIVLEqsdQzFzm4laf6g5aYU", "FOlbZgCJG7TAJb8Yw601LeFRTmIHE3CQ",
   "3uOeWOMDWStZU11yCiXjf7Eo8gak2MzW", "k1DSX6g8lVoFFxu4h6quQSgDDvOBk4Uq",
   "SNC_LXb1YBtke-onD_jts602fcxvleaf", "_NDCmIwwwDmzRMKscyyC7MxGpn3vbweP",
   "3_he-aqiB0_yQPHFdeNB9FP3u6yDVBhf", "owfvvGm82-ba5ls2gm8O737du2r-wKAJ",
   "r7jsftzDEtnG4d-tdLnCG-T8LxIpq4HN", "MaXQuxoRrx0OZPFFSXBBAdLn2NuGrIfz",
   "w968PgQVbQN2cTerrk71dQ"]

/-- Alice's token as it is signed for the published key. -/
def signedToken : List Char := signedLines.flatMap String.toList

/-- The token in a credential that is Alice's signed token alone. -/
theorem tokenPart_signedToken : tokenPart (String.ofList signedToken) = signedToken := by
  rw [tokenPart, String.toList_ofList]
  decide +kernel

/-- The signature of Alice's token verifies. -/
theorem decode_signedToken :
    (signature publishedBytes).decode signedToken = .ok ⟨"alice", 3600⟩ := by
  decide +kernel

/-- What is known of Alice by her signed token. -/
def signedHour : Token := { alicesHour with credential := Credential.normalForm signedToken }

/-- The configuration that holds where nothing else is said, with the published key. -/
def keyedConfig : Config := { Config.defaults with jwtPubRsaKey := some publishedKey }

/-- Alice is known by her signed token with the published key, and without a key as the same; and
the key is honoured where it is configured. -/
theorem alice_is_known_by_her_signature :
    withPublicKey publishedKey = .ok (signature publishedBytes) ∧
    (signature publishedBytes).validate (String.ofList signedToken) = .ok signedHour ∧
    decodeOnly.validate (String.ofList signedToken) = .ok signedHour ∧
    IsSigned publishedBytes signedToken ∧
    Honours (ofSetting (some publishedKey)) publishedKey ∧
    ∃ settings, keyedConfig.settings = .ok settings ∧
      settings.jwtPubRsaKey = some publishedKey ∧
      Honours (ofSetting settings.jwtPubRsaKey) publishedKey := by
  obtain ⟨hstrict, hhonours, hsettled⟩ := configured_keys_are_honoured
  have hchecker : withPublicKey publishedKey = .ok (signature publishedBytes) := by
    rw [withPublicKey, keyBytes?_publishedKey]
  have hvalid : (signature publishedBytes).validate (String.ofList signedToken) =
      .ok signedHour := by
    have hsome : signedToken.isEmpty = false := by decide +kernel
    simp only [validate, tokenPart_signedToken, decode_signedToken, hsome]
    rfl
  have hsign : ∃ sign ∈ publishedKey.toList, Text.isBlank sign = false := by
    rw [publishedKey, String.toList_ofList]
    exact ⟨'M', by decide +kernel, by decide⟩
  obtain ⟨hsame, bytes, hbytes, hsigned⟩ := hstrict _ _ _ _ hchecker hvalid
  rw [keyBytes?_publishedKey, Option.some_inj] at hbytes
  subst hbytes
  rw [tokenPart_signedToken] at hsigned
  obtain ⟨settings, hsettings⟩ : ∃ settings, keyedConfig.settings = .ok settings := ⟨_, rfl⟩
  obtain ⟨-, hkept⟩ := hsettled keyedConfig settings hsettings
  obtain ⟨hkey, hhonoured⟩ := hkept publishedKey rfl hsign
  exact ⟨hchecker, hvalid, hsame, hsigned, hhonours _ hsign, settings, hsettings, hkey,
    hhonoured⟩

end Jwt

end WaitingRoom
