import WaitingRoom.Text.Decimal

/-!
# Failures

Why an operation on the waiting room did not succeed, the words each failure is
reported in, and the status a web client sees.
-/

namespace WaitingRoom

/-- Why an operation failed: the record is missing or hidden from the caller, belongs
to somebody else, the request makes no sense, a part of the service broke down, or the
device manager refused. -/
inductive Failure
  | notFound (what : String)
  | forbidden (what : String)
  | invalidArgument (what : String)
  | internal (what : String)
  | refused (status : Nat) (message : String)
  deriving DecidableEq, Repr

namespace Failure

/-- No record has this id, as far as the caller may know. -/
def noDevice (id : String) : Failure := notFound ("device " ++ id)

/-- The record with this id belongs to another user. -/
def foreignDevice (id : String) : Failure :=
  forbidden ("device " ++ id ++ " belongs to another user")

/-- A storage call took longer than it may. -/
def storageTimeout : Failure := internal "storage call timed out"

/-- The words of a failure. -/
def message : Failure → String
  | notFound what => "not found: " ++ what
  | forbidden what => "access denied: " ++ what
  | invalidArgument what => "invalid argument: " ++ what
  | internal what => "internal error: " ++ what
  | refused status message =>
    "device manager responded with status " ++ Text.ofNat status ++ ": " ++ message

/-- The status a failure stands for; the device manager's is passed on. -/
def status : Failure → Nat
  | notFound _ => 404
  | forbidden _ => 403
  | invalidArgument _ => 400
  | internal _ => 500
  | refused status _ => status

/-- The status a web client sees: a number that is no status of a response is reported
as an internal error. -/
def webStatus (f : Failure) : Nat :=
  if 100 ≤ f.status && f.status ≤ 999 then f.status else 500

/-- Whether the failure says that a record is missing. -/
def isNotFound : Failure → Bool
  | notFound _ => true
  | _ => false

end Failure

end WaitingRoom
