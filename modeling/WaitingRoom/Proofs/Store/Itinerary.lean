import WaitingRoom.Store.Copy

/-!
# The calls of a copy

A copy that nothing goes wrong with fetches one page after another and writes the records
of each before it fetches the next; the first page that is not full is the last. Whatever
is called before a call is known from that call: the records that were written are those
before the one it writes, or before the page it fetches.
-/

namespace WaitingRoom

/-- A call that a copy makes. -/
inductive CopyCall
  | fetch (offset limit : Int)
  | write (d : Device)
  deriving DecidableEq

/-- Calls that were made, each with why it failed if it did. -/
abbrev CopyLog := List (CopyCall × Option Failure)

namespace CopyCall

/-- The record that a call writes. -/
def record? : CopyCall → Option Device
  | fetch .. => none
  | write d => some d

/-- The records that calls write. -/
def writes (calls : List CopyCall) : List Device := calls.filterMap record?

@[simp] theorem writes_append (first second : List CopyCall) :
    writes (first ++ second) = writes first ++ writes second := List.filterMap_append

@[simp] theorem writes_cons_fetch (offset limit : Int) (calls : List CopyCall) :
    writes (fetch offset limit :: calls) = writes calls := rfl

@[simp] theorem writes_cons_write (d : Device) (calls : List CopyCall) :
    writes (write d :: calls) = d :: writes calls := rfl

@[simp] theorem writes_map_write (records : List Device) :
    writes (records.map write) = records := by
  induction records with
  | nil => rfl
  | cons d rest ih => rw [List.map_cons, writes_cons_write, ih]

/-- The calls for a page. -/
def leg (batch : Nat) (records : List Device) (page : Nat) : List CopyCall :=
  fetch (page * batch : Nat) batch :: ((records.drop (page * batch)).take batch).map write

/-- The calls for a number of pages, from one of them on. -/
def legs (batch : Nat) (records : List Device) (first count : Nat) : List CopyCall :=
  (List.range' first count).flatMap (leg batch records)

/-- All calls of a copy: the pages that are full, and one that is not. -/
def itinerary (batch : Nat) (records : List Device) : List CopyCall :=
  legs batch records 0 (records.length / batch + 1)

variable {batch : Nat} {records : List Device}

theorem legs_succ (first count : Nat) : legs batch records first (count + 1) =
    leg batch records first ++ legs batch records (first + 1) count := rfl

theorem legs_concat (first count : Nat) : legs batch records first (count + 1) =
    legs batch records first count ++ leg batch records (first + count) := by
  unfold legs
  rw [← List.range'_append_1, List.flatMap_append]
  simp

@[simp] theorem writes_leg (page : Nat) :
    writes (leg batch records page) = (records.drop (page * batch)).take batch := by
  rw [leg, writes_cons_fetch, writes_map_write]

/-- The first pages hold the first records. -/
theorem writes_legs (count : Nat) :
    writes (legs batch records 0 count) = records.take (count * batch) := by
  induction count with
  | zero => simp [legs, writes]
  | succ count ih =>
    rw [legs_concat, writes_append, ih, writes_leg, Nat.zero_add, ← List.take_add,
      Nat.succ_mul]

/-- Every record is written once, in order. -/
theorem writes_itinerary (hbatch : 0 < batch) : writes (itinerary batch records) = records := by
  rw [itinerary, writes_legs]
  apply List.take_of_length_le
  rw [Nat.mul_comm]
  exact Nat.le_of_lt (Nat.lt_mul_div_succ _ hbatch)

/-- Before the page at an offset is fetched, the records before that offset are written. -/
theorem writes_before_fetch_of_legs {count : Nat} {before rest : List CopyCall}
    {offset limit : Int}
    (hplan : legs batch records 0 count = before ++ fetch offset limit :: rest) :
    ∃ page < count, offset = (page * batch : Nat) ∧ limit = batch ∧
      writes before = records.take (page * batch) := by
  induction count generalizing before rest with
  | zero => simp [legs] at hplan
  | succ count ih =>
    rw [legs_concat, Nat.zero_add] at hplan
    -- The call is the first one of the last page, or one of the pages before.
    rcases List.append_eq_append_iff.mp hplan with ⟨between, rfl, hleg⟩ | ⟨between, hlegs, hleg⟩
    · cases between with
      | nil =>
        obtain ⟨hcall, -⟩ := List.cons.inj hleg
        cases hcall
        exact ⟨count, Nat.lt_succ_self _, rfl, rfl, by rw [List.append_nil, writes_legs]⟩
      | cons call between =>
        have hmem : fetch offset limit ∈
            ((records.drop (count * batch)).take batch).map write := by
          rw [(List.cons.inj hleg).2]
          exact List.mem_append_right _ (List.mem_cons_self ..)
        obtain ⟨d, -, hd⟩ := List.mem_map.mp hmem
        cases hd
    · cases between with
      | nil =>
        obtain ⟨hcall, -⟩ := List.cons.inj hleg
        cases hcall
        rw [List.append_nil] at hlegs
        exact ⟨count, Nat.lt_succ_self _, rfl, rfl, by rw [← hlegs, writes_legs]⟩
      | cons call between =>
        obtain ⟨rfl, -⟩ := List.cons.inj hleg
        obtain ⟨page, hpage, hfound⟩ := ih hlegs
        exact ⟨page, Nat.lt_succ_of_lt hpage, hfound⟩

/-- A page is fetched at the number of records written before; it is full or the last. -/
theorem writes_before_fetch {before rest : List CopyCall} {offset limit : Int}
    (hplan : itinerary batch records = before ++ fetch offset limit :: rest) :
    ∃ page, offset = (page * batch : Nat) ∧ limit = batch ∧ page * batch ≤ records.length ∧
      writes before = records.take (page * batch) := by
  obtain ⟨page, hpage, hoffset, hlimit, hbefore⟩ := writes_before_fetch_of_legs hplan
  refine ⟨page, hoffset, hlimit, ?_, hbefore⟩
  exact Nat.le_trans (Nat.mul_le_mul_right _ (Nat.le_of_lt_succ hpage)) (Nat.div_mul_le_self _ _)

/-- The pages that are fetched start within the records, and are as large as asked for. -/
theorem bounds_of_fetch_mem {offset limit : Int}
    (hmem : fetch offset limit ∈ itinerary batch records) :
    0 ≤ offset ∧ offset ≤ records.length ∧ limit = batch := by
  obtain ⟨before, rest, hplan⟩ := List.append_of_mem hmem
  obtain ⟨page, rfl, rfl, hpage, -⟩ := writes_before_fetch hplan
  exact ⟨Int.natCast_nonneg _, Int.ofNat_le.mpr hpage, rfl⟩

/-- Before a record is written, those before it are. -/
theorem writes_before_write (hbatch : 0 < batch) {before rest : List CopyCall} {d : Device}
    (hplan : itinerary batch records = before ++ write d :: rest) :
    ∃ k, records[k]? = some d ∧ writes before = records.take k := by
  have hrecords : writes before ++ d :: writes rest = records := by
    rw [← writes_cons_write, ← writes_append, ← hplan, writes_itinerary hbatch]
  refine ⟨(writes before).length, ?_, ?_⟩
  · rw [← hrecords]
    simp
  · rw [← hrecords]
    simp

end CopyCall

namespace CopyLog

open CopyCall (writes)

/-- The log of calls that all were served. -/
def served (calls : List CopyCall) : CopyLog := calls.map (·, none)

@[simp] theorem served_append (first second : List CopyCall) :
    served (first ++ second) = served first ++ served second := List.map_append

/-- The records that were written. -/
def written (log : CopyLog) : List Device :=
  writes ((log.filter fun (_, failure) => failure.isNone).map Prod.fst)

@[simp] theorem written_append (first second : CopyLog) :
    written (first ++ second) = written first ++ written second := by
  simp [written]

@[simp] theorem written_served (calls : List CopyCall) : written (served calls) = writes calls := by
  have hall : (served calls).filter (fun (_, failure) => failure.isNone) = served calls := by
    simp [served, List.filter_eq_self]
  rw [written, hall, served, List.map_map]
  congr 1
  exact List.map_id calls

@[simp] theorem written_failed (call : CopyCall) (f : Failure) : written [(call, some f)] = [] :=
  rfl

/-- The calls follow a plan: all of it is served, or the calls before one that fails, and
nothing is called after that one. -/
def Follows (log : CopyLog) (plan : List CopyCall) : Option Failure → Prop
  | none => log = served plan
  | some f => ∃ before call rest,
      plan = before ++ call :: rest ∧ log = served before ++ [(call, some f)]

variable {log later : CopyLog} {plan next : List CopyCall} {failure : Option Failure}

theorem Follows.append (hlog : log.Follows plan none) (hlater : later.Follows next failure) :
    Follows (log ++ later) (plan ++ next) failure := by
  obtain rfl : log = served plan := hlog
  cases failure with
  | none =>
    obtain rfl : later = served next := hlater
    exact (served_append _ _).symm
  | some f =>
    obtain ⟨before, call, rest, rfl, rfl⟩ := hlater
    refine ⟨plan ++ before, call, rest, (List.append_assoc ..).symm, ?_⟩
    rw [served_append, List.append_assoc]

/-- What was planned for after a failure does not matter. -/
theorem Follows.stop {f : Failure} (hlog : log.Follows plan (some f)) :
    log.Follows (plan ++ next) (some f) := by
  obtain ⟨before, call, rest, rfl, rfl⟩ := hlog
  exact ⟨before, call, rest ++ next, by simp, rfl⟩

/-- A single call follows a plan that begins with it. -/
theorem follows_singleton (call : CopyCall) (failure : Option Failure) :
    Follows [(call, failure)] [call] failure := by
  cases failure with
  | none => rfl
  | some f => exact ⟨[], call, [], rfl, rfl⟩

/-- The call that failed is the last one. -/
theorem Follows.eq_of_mem {call : CopyCall} {f : Failure} (hlog : log.Follows plan failure)
    (hmem : (call, some f) ∈ log) : failure = some f ∧ ∃ before rest,
      plan = before ++ call :: rest ∧ log = served before ++ [(call, some f)] := by
  cases failure with
  | none =>
    obtain rfl : log = served plan := hlog
    simp [served] at hmem
  | some g =>
    obtain ⟨before, last, rest, hplan, rfl⟩ := hlog
    have hlast : call = last ∧ f = g := by simpa [served] using hmem
    obtain ⟨rfl, rfl⟩ := hlast
    exact ⟨rfl, before, rest, hplan, rfl⟩

/-- If no call failed, all that was planned was called. -/
theorem Follows.eq_served (hlog : log.Follows plan failure) (hnone : ∀ call ∈ log, call.2 = none) :
    failure = none ∧ log = served plan := by
  cases failure with
  | none => exact ⟨rfl, hlog⟩
  | some f =>
    obtain ⟨before, call, rest, -, rfl⟩ := hlog
    have hcall := hnone (call, some f) (by simp)
    cases hcall

end CopyLog

end WaitingRoom
