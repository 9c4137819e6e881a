import WaitingRoom.Desk.Procedure

/-!
# The desk

What a user can do with waiting devices. Records of other users are out of reach: they
are reported as belonging to somebody else, except where a device is written, since
there their existence is nobody's business. A batch does the same for one record after
the other and stops at the first failure.
-/

namespace WaitingRoom.Desk

open Time (Instant)
open Procedure (done)

/-- The record, if it belongs to the user. -/
def owned (user : String) (id : String) (found : Except Failure Device) : Except Failure Device :=
  match found with
  | .ok d => if d.isOwnedBy user then .ok d else .error (.foreignDevice id)
  | .error f => .error f

/-- Reads a record that must belong to the caller. -/
def readOwned (token : Token) (id : String) : Procedure (Except Failure Device) :=
  .read id fun found => done (owned token.userId id found)

/-- Lists the caller's records. -/
def list (token : Token) (o : ListOptions) : Procedure (Except Failure DeviceList) :=
  .list token.userId o fun found =>
    done (found.map fun (result, total) =>
      { total, limit := o.limit, offset := o.offset, sort := o.sort, search := o.search, result })

/-- Reads one of the caller's records. -/
def read (token : Token) (id : String) : Procedure (Except Failure Device) := readOwned token id

/-- The record to be written for a payload, given what is stored under its local id: a
new record is visible and begins now, an old one keeps its beginning. -/
def prepared (token : Token) (now : Instant) (payload : Device)
    (found : Except Failure Device) : Except Failure Device :=
  match found with
  | .ok old =>
    if old.isOwnedBy token.userId then
      .ok { payload with createdAt := old.createdAt, updatedAt := now, userId := token.userId }
    else .error (.noDevice payload.localId)
  | .error (.notFound _) =>
    .ok { payload with
      createdAt := now, hidden := false, updatedAt := now, userId := token.userId }
  | .error f => .error f

/-- Writes a record and gives notice of it. -/
def store (user : String) (d : Device) (id : String) : Procedure (Except Failure Unit) :=
  .write d fun
    | .ok () => .notify user ⟨.set, id⟩ (done (.ok ()))
    | .error f => done (.error f)

/-- Creates or replaces one of the caller's records; answers what was written. -/
def set (token : Token) (payload : Device) : Procedure (Except Failure Device) :=
  if payload.localId.isEmpty then done (.error (.invalidArgument "missing local_id"))
  else
    .now fun now => .read payload.localId fun found =>
      match prepared token now payload found with
      | .error f => done (.error f)
      | .ok d => (store token.userId d d.localId).andThen fun () => done (.ok d)

/-- Deletes a record and gives notice of what became of it. -/
def discard (user : String) (id : String) (change : Change) : Procedure (Except Failure Unit) :=
  .remove id fun
    | .ok () => .notify user ⟨change, id⟩ (done (.ok ()))
    | .error f => done (.error f)

/-- Hands a record to the device manager, has it removed once more later on, and deletes
it. -/
def use (token : Token) (id : String) : Procedure (Except Failure Unit) :=
  (readOwned token id).andThen fun d => .adopt token d fun
    | .error f => done (.error f)
    | .ok () => .removeLater id (discard token.userId id .use)

/-- Deletes one of the caller's records. -/
def delete (token : Token) (id : String) : Procedure (Except Failure Unit) :=
  (readOwned token id).andThen fun _ => discard token.userId id .delete

/-- Hides one of the caller's records from default listings, or shows it again. -/
def setHidden (token : Token) (hidden : Bool) (id : String) : Procedure (Except Failure Unit) :=
  (readOwned token id).andThen fun d => store token.userId { d with hidden } id

/-- Hides a record. -/
def hide (token : Token) (id : String) : Procedure (Except Failure Unit) := setHidden token true id

/-- Shows a record. -/
def «show» (token : Token) (id : String) : Procedure (Except Failure Unit) :=
  setHidden token false id

/-- Forgets the results of a batch. -/
def forget {α : Type} (p : Procedure (Except Failure (List α))) : Procedure (Except Failure Unit) :=
  p.andThen fun _ => done (.ok ())

/-- Writes records in order. -/
def setMany (token : Token) (payloads : List Device) : Procedure (Except Failure (List Device)) :=
  Procedure.each (set token) payloads

/-- Adopts records in order. -/
def useMany (token : Token) (ids : List String) : Procedure (Except Failure Unit) :=
  forget (Procedure.each (use token) ids)

/-- Deletes records in order. -/
def deleteMany (token : Token) (ids : List String) : Procedure (Except Failure Unit) :=
  forget (Procedure.each (delete token) ids)

/-- Hides records in order. -/
def hideMany (token : Token) (ids : List String) : Procedure (Except Failure Unit) :=
  forget (Procedure.each (hide token) ids)

/-- Shows records in order. -/
def showMany (token : Token) (ids : List String) : Procedure (Except Failure Unit) :=
  forget (Procedure.each («show» token) ids)

end WaitingRoom.Desk
