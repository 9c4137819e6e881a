import WaitingRoom.Text.Ascii
import WaitingRoom.Text.Blank
import WaitingRoom.Time.Instant

/-!
# Credentials

What a caller presents to be known: a token, with or without the word `Bearer` in
front. This file holds what is learned from an accepted credential, why one is
refused, and how the token is found in the text that was presented.
-/

namespace WaitingRoom

open Time (Instant)

/-- Why a token is refused. -/
inductive TokenFault
  | invalidToken
  | base64
  | json
  | invalidAlgorithm
  | invalidSignature
  | missingExpiry
  | expiryOutOfRange
  | nonAsciiHeader
  | other (what : String)
  deriving DecidableEq, Repr

/-- Why a credential, or a key to check credentials with, is refused. -/
inductive AuthFailure
  | missing
  | invalid (why : TokenFault)
  | expired
  | invalidKey
  deriving DecidableEq, Repr

/-- The words of a refused token; what a library would add is cut. -/
def TokenFault.message : TokenFault → String
  | invalidToken => "InvalidToken"
  | base64 => "Base64 error: *"
  | json => "JSON error: *"
  | invalidAlgorithm => "InvalidAlgorithm"
  | invalidSignature => "InvalidSignature"
  | missingExpiry => "Missing required claim: exp"
  | expiryOutOfRange => "exp claim out of range"
  | nonAsciiHeader => "non-ascii authorization header"
  | other what => what

/-- The words of a refusal. -/
def AuthFailure.message : AuthFailure → String
  | missing => "missing auth token"
  | invalid why => "invalid auth token: " ++ why.message
  | expired => "expired auth token"
  | invalidKey => "invalid public key: *"

/-- What is learned from an accepted credential: the form in which it is passed on, the
user it names, and when it runs out. -/
structure Token where
  credential : String
  userId : String
  expiresAt : Instant
  deriving DecidableEq

/-- Whether a token has run out; at its last instant it has. -/
def Token.isExpired (t : Token) (now : Instant) : Bool := t.expiresAt.atMost now

namespace Credential

/-- The word that may stand in front of a token. -/
def bearerWord : List Char := ['b', 'e', 'a', 'r', 'e', 'r']

/-- Removes the word `Bearer` in any case, with a blank and whatever blanks follow;
the word alone leaves nothing. -/
def stripBearer (cs : List Char) : List Char :=
  if Text.sameIgnoringAsciiCase cs bearerWord then []
  else if Text.sameIgnoringAsciiCase (cs.take 7) (bearerWord ++ [' ']) then
    Text.strip (cs.drop 7)
  else cs

/-- The token within a credential. -/
def tokenPart (credential : String) : List Char :=
  stripBearer (Text.strip credential.toList)

/-- The form in which a token is passed on. -/
def normalForm (token : List Char) : String := "Bearer " ++ String.ofList token

end Credential

/-- A way of checking credentials. -/
abbrev Validator := String → Except AuthFailure Token

end WaitingRoom
