import WaitingRoom.Credential
import WaitingRoom.Crypto.Rsa
import WaitingRoom.Json.Decode

/-!
# Signed tokens

Tokens of three parts: a header that names the algorithm, the claims, and a signature
over both. With a key the signature is checked; without one the token is only decoded.
-/

namespace WaitingRoom.Jwt

open Json (Value Decoded Member)
open Time (Instant)

/-- The algorithms a header may name. -/
def algorithms : List String :=
  ["HS256", "HS384", "HS512", "ES256", "ES384", "RS256", "RS384", "RS512", "PS256", "PS384",
   "PS512", "EdDSA"]

/-- The algorithm that a key checks. -/
def checkedAlgorithm : String := "RS256"

/-- The header of a token, of which only the algorithm matters. -/
structure Header where
  algorithm : String := ""
  deriving DecidableEq, Repr

/-- Reads the name of an algorithm. -/
def readAlgorithm : Value → Decoded String :=
  Value.asChoice fun name => if algorithms.contains name then .ok name else .error .mismatched

/-- Reads a text or null and forgets it. -/
def skipText (v : Value) : Decoded Unit := (Value.asOption Value.asText v).map fun _ => ()

/-- A field whose value is checked by `read` and not kept. -/
def checkedField (name : String) (read : Value → Decoded Unit) : Member Header :=
  .of name read (fun h _ => h) .allowedByName

/-- The member of a record with the given key, the first if there are several. -/
def member? (members : List (Value × Value)) (name : String) : Option Value :=
  (members.find? fun (key, _) =>
    match key with
    | .text (some key) => key == name
    | _ => false).map Prod.snd

/-- Whether a member is there and is a text. -/
def hasText (members : List (Value × Value)) (name : String) : Bool :=
  match member? members name with
  | some (.text (some _)) => true
  | _ => false

/-- Whether a member is there and is one of the given texts. -/
def hasChoice (members : List (Value × Value)) (name : String) (choices : List String) : Bool :=
  match member? members name with
  | some (.text (some s)) => choices.contains s
  | _ => false

/-- Reads null or a key spelled as a record: its type, and the parts that type has. -/
def skipKey : Value → Decoded Unit
  | .null => .ok ()
  | .record members =>
    if !(Value.record members).isWhole then .error .malformed
    else if hasChoice members "kty" ["RSA"] && hasText members "n" && hasText members "e" then
      .ok ()
    else if hasChoice members "kty" ["EC"] && hasText members "x" && hasText members "y" &&
        hasChoice members "crv" ["P-256", "P-384", "P-521", "Ed25519"] then .ok ()
    else if hasChoice members "kty" ["OKP"] && hasText members "x" &&
        hasChoice members "crv" ["P-256", "P-384", "P-521", "Ed25519"] then .ok ()
    else if hasChoice members "kty" ["oct"] && hasText members "k" then .ok ()
    else .error .mismatched
  | v => .error v.fault

/-- The fields of a header in their order; only the algorithm must be there. -/
def headerFields : List (Member Header) :=
  [checkedField "typ" skipText,
   .of "alg" readAlgorithm (fun h algorithm => { h with algorithm }) .refused,
   checkedField "cty" skipText,
   checkedField "jku" skipText,
   checkedField "jwk" skipKey,
   checkedField "kid" skipText,
   checkedField "x5u" skipText,
   checkedField "x5c" (fun v => (Value.asOption (Value.asList Value.asText) v).map fun _ => ()),
   checkedField "x5t" skipText,
   checkedField "x5t#S256" skipText]

/-- Who a token is about and when it runs out, in seconds since 1970. -/
structure Claims where
  subject : String := ""
  expiry : Int := 0
  deriving DecidableEq, Repr

/-- The claims that must be there. -/
def claimFields : List (Member Claims) :=
  [.of "sub" Value.asText (fun c subject => { c with subject }) .refused,
   .of "exp" Value.asInt64 (fun c expiry => { c with expiry }) .refused]

mutual

/-- Whether every text within a value can be decoded and every number held. -/
def isHoldable : Value → Bool
  | .text none | .broken => false
  | .number n => n.isFinite
  | .list items => areHoldable items
  | .record members => membersHoldable members
  | _ => true

/-- Whether all the values can be held. -/
def areHoldable : List Value → Bool
  | [] => true
  | v :: rest => isHoldable v && areHoldable rest

/-- Whether all keys and values can be held. -/
def membersHoldable : List (Value × Value) → Bool
  | [] => true
  | (key, v) :: rest => isHoldable key && isHoldable v && membersHoldable rest

end

/-- Reads a time claim that nothing depends on: a list or record with content there is
no longer understood. -/
def skipTime : Value → Decoded Unit
  | .text none | .broken => .error .malformed
  | .list (_ :: _) | .record (_ :: _) => .error .malformed
  | _ => .ok ()

/-- Reads a claim of any form that nothing depends on, but which must be decodable. -/
def skipAny : Value → Decoded Unit
  | .number _ => .ok ()
  | v => if isHoldable v then .ok () else .error .malformed

/-- The registered claims, as far as they are looked at a second time. -/
def registeredFields : List (Member Unit) :=
  [.of "exp" (fun _ => .ok ()) fun _ _ => (),
   .of "nbf" skipTime fun _ _ => (),
   .of "sub" skipAny fun _ _ => (),
   .of "iss" skipAny fun _ _ => (),
   .of "aud" skipAny fun _ _ => ()]

/-- Reads a record from the Base64 spelling of its text. -/
def decodePart {α : Type} (read : Value → Decoded α) (cs : List Char) : Except TokenFault α :=
  match Text.urlBase64.decode? cs with
  | none => .error .base64
  | some bytes =>
    match Json.decodeSource read (Text.decodeUtf8 bytes) with
    | .ok a => .ok a
    | .error _ => .error .json

/-- Reads a header. -/
def decodeHeader : List Char → Except TokenFault Header :=
  decodePart (Value.asRecord {} headerFields)

/-- Reads the claims; a claim given twice is refused even where nothing depends on it.
A claim that cannot be a time of day counts as missing. -/
def decodeClaims (cs : List Char) : Except TokenFault Claims := do
  let claims ← decodePart (Value.asRecord {} claimFields) cs
  decodePart (fun v =>
    match v with
    | .record _ => Value.asRecord () registeredFields v
    | v => .error v.fault) cs
  if claims.expiry < 0 then .error .missingExpiry else .ok claims

/-- Cuts a text at its last dot. -/
def cutAtLastDot (cs : List Char) : Option (List Char × List Char) :=
  let behind := (cs.reverse.takeWhile (· != '.')).reverse
  if behind.length == cs.length then none
  else some (cs.take (cs.length - behind.length - 1), behind)

/-- The parts of a token: header, claims, signature, and the text the signature is over. -/
structure Parts where
  header : List Char
  claims : List Char
  signature : List Char
  signed : List Char

/-- Cuts a token at its last two dots. -/
def split? (token : List Char) : Option Parts := do
  let (signed, signature) ← cutAtLastDot token
  let (header, claims) ← cutAtLastDot signed
  return ⟨header, claims, signature, signed⟩

/-- Checks the signature of a token with the key some bytes hold. -/
def checkSignature (key : List UInt8) (parts : Parts) : Except TokenFault Unit :=
  match Text.urlBase64.decode? parts.signature with
  | none => .error .base64
  | some signature =>
    if Crypto.verifies key (Text.utf8Bytes (String.ofList parts.signed)) signature then .ok ()
    else .error .invalidSignature

/-- How tokens are checked: not at all, or with the bytes of a key. -/
inductive Checker
  | decodeOnly
  | signature (key : List UInt8)
  deriving DecidableEq, Repr

namespace Checker

/-- Checks the algorithm and the signature of a token, where there is a key. -/
def accept (c : Checker) (header : Header) (parts : Parts) : Except TokenFault Unit :=
  match c with
  | decodeOnly => .ok ()
  | signature key =>
    if header.algorithm != checkedAlgorithm then .error .invalidAlgorithm
    else checkSignature key parts

/-- Decodes a token: header, signature and claims, in this order. -/
def decode (c : Checker) (token : List Char) : Except TokenFault Claims :=
  match split? token with
  | none => .error .invalidToken
  | some parts => do
    let header ← decodeHeader parts.header
    c.accept header parts
    decodeClaims parts.claims

/-- Checks a credential: finds the token in it, decodes it, and reads when it runs out. -/
def validate (c : Checker) : Validator := fun credential =>
  let token := Credential.tokenPart credential
  if token.isEmpty then .error .missing
  else
    match c.decode token with
    | .error why => .error (.invalid why)
    | .ok claims =>
      match Instant.of? claims.expiry 0 with
      | none => .error (.invalid .expiryOutOfRange)
      | some expiresAt =>
        .ok { credential := Credential.normalForm token, userId := claims.subject, expiresAt }

/-- The checker for the key a text holds. -/
def withPublicKey (key : String) : Except AuthFailure Checker :=
  match Crypto.keyBytes? (Crypto.toPem key) with
  | some bytes => .ok (signature bytes)
  | none => .error .invalidKey

/-- The checker for a configured key; without one, tokens are only decoded. -/
def ofSetting : Option String → Except AuthFailure Checker
  | none => .ok decodeOnly
  | some key => if Text.isAllBlank key then .ok decodeOnly else withPublicKey (Text.trim key)

end Checker

end WaitingRoom.Jwt
