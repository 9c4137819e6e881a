import WaitingRoom.Proofs.Hall.Works
import WaitingRoom.Proofs.Json.Frames

/-!
# What a session hears

A session takes the payload of a frame for a credential just if the frame is of the type for that,
which is to say that its type has that name. Frames of all other types, whether listed or not, make
no difference to it.
-/

namespace WaitingRoom

namespace Session

/-- What a session does about a frame that it can read. -/
theorem respond_of_parse {text : String} {frame : Frame} (hparse : Frame.parse text = .ok frame) :
    respond (.text text) =
      if frame.kind = .auth then .presented frame.payload else .waiting := by
  rw [respond, respondTo, hparse]

end Session

namespace Hall

variable {h : Hall} {i : Nat} {s : Session} {signal : Signal}

theorem getElem?_put_self (hs : h.sessions[i]? = some s) (s' : Session) :
    (h.put i s').sessions[i]? = some s' := by
  obtain ⟨hi, -⟩ := List.getElem?_eq_some_iff.mp hs
  exact List.getElem?_set_self hi

theorem put_put (s' s'' : Session) : (h.put i s').put i s'' = h.put i s'' := by
  rw [put, put, put, List.set_set]

theorem step_proceed (hs : h.sessions[i]? = some s) : h.step (.proceed i) = h.proceed i s := by
  rw [step, atSession, hs]

/-- A session that waits hears what its connection sends. -/
theorem step_receive (hs : h.sessions[i]? = some s) (hreading : s.reading = .waiting) :
    h.step (.receive i signal) = h.put i { s with reading := Session.respond signal } := by
  rw [step, change_of_some hs, if_pos hreading]

/-- A session that hears nothing of interest is as it was, and goes on waiting. -/
theorem run_of_waiting (hs : h.sessions[i]? = some s) (hreading : s.reading = .waiting)
    (hrespond : Session.respond signal = .waiting) :
    h.run [.receive i signal, .proceed i, .proceed i] = h := by
  have hsame : ({ s with reading := Session.respond signal } : Session) = s := by
    rw [hrespond, ← hreading]
  have hidle : h.step (.proceed i) = h := by
    rw [step_proceed hs, proceed, hreading]
  simp only [run, List.foldl_cons, List.foldl_nil]
  rw [step_receive hs hreading, hsame, put_self hs, hidle, hidle]

/-- A session that looks at a credential drops the subscription of its connection first. -/
theorem step_presented {credential : String} (hs : h.sessions[i]? = some s) :
    (h.put i { s with reading := .presented credential }).step (.proceed i) =
      (h.withdraw s.connection).put i { s with reading := .checking credential } := by
  rw [step_proceed (getElem?_put_self hs _)]
  exact put_put (h := h.withdraw s.connection) _ _

/-- Then it judges the credential. -/
theorem step_checking {credential : String} (hs : h.sessions[i]? = some s) :
    (h.put i { s with reading := .checking credential }).step (.proceed i) =
      h.put i { s with reading := Session.judge h.check h.clock credential } := by
  rw [step_proceed (getElem?_put_self hs _)]
  exact put_put _ _

/-- A session that hears a credential drops the subscription of its connection and judges the
credential. -/
theorem run_of_presented {credential : String} (hs : h.sessions[i]? = some s)
    (hreading : s.reading = .waiting) (hrespond : Session.respond signal = .presented credential) :
    h.run [.receive i signal, .proceed i, .proceed i] =
      (h.withdraw s.connection).put i
        { s with reading := Session.judge h.check h.clock credential } := by
  simp only [run, List.foldl_cons, List.foldl_nil]
  rw [step_receive hs hreading, hrespond, step_presented hs]
  exact step_checking (h := h.withdraw s.connection) hs

end Hall

/-- What a text says that is read as a frame, and what sessions make of it. -/
structure Heard (text : String) (frame : Frame) (name : String) : Prop where
  told : Frame.Says name frame.payload (Json.readText text).value
  only : ∀ name' payload, Frame.Says name' payload (Json.readText text).value →
    name' = name ∧ payload = frame.payload
  listed : ∀ kind ∈ FrameKind.listed, frame.kind = kind ↔ name = kind.name
  unlisted : name ∉ FrameKind.listed.map FrameKind.name → frame.kind = .unknown
  presented : ∀ credential, Session.respond (.text text) = .presented credential ↔
    name = "auth" ∧ credential = frame.payload
  judged : ∀ (h : Hall) (i : Nat) (s : Session), h.sessions[i]? = some s →
    s.reading = .waiting → h.run [.receive i (.text text), .proceed i, .proceed i] =
      if name = "auth" then
        (h.withdraw s.connection).put i
          { s with reading := Session.judge h.check h.clock frame.payload }
      else h

/-- Every text that is read as a frame is heard as it is meant. -/
theorem exists_heard {text : String} {frame : Frame} (hparse : Frame.parse text = .ok frame) :
    ∃ name, Heard text frame name := by
  obtain ⟨name, hsays, hkind⟩ := Frame.exists_of_parse hparse
  have hauth : frame.kind = .auth ↔ name = "auth" := by
    rw [hkind]
    exact FrameKind.ofName_eq_iff (by decide) name
  have hrespond := Session.respond_of_parse hparse
  refine ⟨name, ?_⟩
  constructor
  case told => exact hsays
  case only => exact fun name' payload hsays' => hsays'.unique hsays
  case listed =>
    intro kind hlisted
    rw [hkind]
    exact FrameKind.ofName_eq_iff hlisted name
  case unlisted =>
    intro hunlisted
    rw [hkind]
    exact FrameKind.ofName_of_not_mem hunlisted
  case presented =>
    intro credential
    rw [hrespond, ← hauth]
    split
    · rename_i hfits
      rw [Reading.presented.injEq, eq_comm]
      exact (and_iff_right hfits).symm
    · rename_i hother
      simp [hother]
  case judged =>
    intro h i s hs hreading
    split
    · rename_i hname
      rw [if_pos (hauth.mpr hname)] at hrespond
      exact Hall.run_of_presented hs hreading hrespond
    · rename_i hname
      rw [if_neg (mt hauth.mp hname)] at hrespond
      exact Hall.run_of_waiting hs hreading hrespond

/-- Every frame is read as it was written, whatever its payload is, and so is the frame that tells
of an event. A type without a name of its own is of an unknown type. A session takes what it hears
for a credential just if the type is named so, and the credential is the payload. -/
theorem frames_are_heard_as_written :
    (∀ f : Frame, Frame.parse f.render = .ok f ∧
      Json.readText f.render = ⟨Frame.written f.kind.name f.payload, true⟩) ∧
    (∀ id, Frame.parse (Frame.ofEvent ⟨.set, id⟩).render = .ok ⟨.updateSet, id⟩ ∧
      Frame.parse (Frame.ofEvent ⟨.delete, id⟩).render = .ok ⟨.updateDelete, id⟩ ∧
      Frame.parse (Frame.ofEvent ⟨.use, id⟩).render = .ok ⟨.updateUse, id⟩) ∧
    (∀ name payload, name ∉ FrameKind.listed.map FrameKind.name →
      Frame.parse (Frame.written name payload).render = .ok ⟨.unknown, payload⟩) ∧
    ∀ text frame, Frame.parse text = .ok frame → ∃ name, Heard text frame name := by
  refine ⟨fun f => ⟨f.parse_render, Frame.readText_written _ _⟩, fun id => ?_, ?_,
    fun text frame => exists_heard⟩
  · exact ⟨Frame.parse_render _, Frame.parse_render _, Frame.parse_render _⟩
  · intro name payload hunlisted
    rw [Frame.parse_written, FrameKind.ofName_of_not_mem hunlisted]

/-- The text of a frame with a member besides, whose type is given as the only key of a record. -/
def keyedText : String :=
  "\x7b\"note\":[1],\"payload\":\"k\",\"type\":\x7b\"auth\":null\x7d\x7d"

/-- That text is heard as the one would be that gives the type as a text. -/
theorem keyedText_is_heard : Session.respond (.text keyedText) = .presented "k" := by
  have hread : (Frame.parse keyedText).toOption = some ⟨.auth, "k"⟩ := by decide +kernel
  cases hparse : Frame.parse keyedText with
  | error fault =>
    rw [hparse] at hread
    cases hread
  | ok frame =>
    rw [hparse] at hread
    obtain rfl : frame = ⟨.auth, "k"⟩ := Option.some.inj hread
    obtain ⟨name, hheard⟩ := frames_are_heard_as_written.2.2.2 keyedText _ hparse
    have hname : name = "auth" := (hheard.listed .auth (by decide)).mp rfl
    exact (hheard.presented "k").mpr ⟨hname, rfl⟩

end WaitingRoom
