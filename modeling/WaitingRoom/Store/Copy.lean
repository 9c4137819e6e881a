import WaitingRoom.Store

/-!
# Copying a store

Copies all records of one store into another, page by page in ascending order of their
local ids. The first failure ends the copy; what was written before it stays, and since
writing replaces, a copy can be run again.
-/

namespace WaitingRoom

/-- What can be noticed while a copy runs. -/
inductive CopyNote
  | started (batch : Int)
  | page (offset fetched : Int)
  | aborted (localId : String) (copied : Nat) (failure : Failure)
  | finished (copied : Nat)
  deriving DecidableEq

/-- Two stores to copy between, within one state: how a page of the source is fetched,
how a record is written to the target, and what is made of notes. -/
structure CopyRoute (σ : Type) where
  fetch : (offset limit : Int) → σ → Except Failure (List Device) × σ
  write : Device → σ → Except Failure Unit × σ
  note : CopyNote → σ → σ := fun _ s => s

namespace CopyRoute

variable {σ : Type}

/-- How many records are fetched at a time unless something else is asked for. -/
def defaultBatch : Int := 10000

/-- Writes the records of a page in order, `copied` having been written before. -/
def writePage (r : CopyRoute σ) (copied : Nat) : List Device → σ → Except Failure Nat × σ
  | [], s => (.ok copied, s)
  | d :: rest, s =>
    match r.write d s with
    | (.ok (), s) => r.writePage (copied + 1) rest s
    | (.error f, s) => (.error f, r.note (.aborted d.localId copied f) s)

/-- The last offset that a page can be asked for at. -/
def lastOffset : Int := 9223372036854775807

/-- Copies from `offset` on, `batch` records at a time. A page that is not full is the last.
Nothing is answered if there is no offset left for the page after a full one. -/
def copyFrom (r : CopyRoute σ) (batch : Int) (hbatch : 0 < batch) (offset : Int) (copied : Nat)
    (s : σ) : Option (Except Failure Nat) × σ :=
  match r.fetch offset batch s with
  | (.error f, s) => (some (.error f), s)
  | (.ok page, s) =>
    match r.writePage copied page (r.note (.page offset page.length) s) with
    | (.error f, s) => (some (.error f), s)
    | (.ok copied, s) =>
      if (page.length : Int) < batch then (some (.ok copied), r.note (.finished copied) s)
      else if lastOffset < offset + batch then (none, s)
      else r.copyFrom batch hbatch (offset + batch) copied s
termination_by (lastOffset + 1 - offset).toNat
decreasing_by omega

/-- Copies the source; answers how many records were written. -/
def copy (r : CopyRoute σ) (batch : Int) (s : σ) : Option (Except Failure Nat) × σ :=
  if hbatch : 0 < batch then r.copyFrom batch hbatch 0 0 (r.note (.started batch) s)
  else (some (.error (.invalidArgument "migration batch size must be positive")), s)

end CopyRoute

end WaitingRoom
