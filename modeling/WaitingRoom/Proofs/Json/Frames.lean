import WaitingRoom.Event
import WaitingRoom.Proofs.Json.Members
import WaitingRoom.Proofs.Json.Rendering

/-!
# Frames as JSON

A frame that was written as JSON is read as it was, whatever its payload is, and a frame with a
type that has no name of its own is read as one of unknown type. Any other text that is read as a
frame names a type and holds a payload as well: the type may be a text or the only key of a record,
the payload may be missing, and the two may be given by position.
-/

namespace WaitingRoom

open Json (Value Decoded Absence HasJust Lacks Settle)

namespace FrameKind

/-- A type is the one of its name. -/
theorem ofName_name (kind : FrameKind) : ofName kind.name = kind := by
  cases kind <;> decide

/-- The type of a name is one of the listed ones just if it is its name. -/
theorem ofName_eq_iff {kind : FrameKind} (hkind : kind ∈ listed) (name : String) :
    ofName name = kind ↔ name = kind.name := by
  constructor
  · intro h
    rw [ofName] at h
    cases hfind : listed.find? (fun kind => kind.name == name) with
    | none =>
      rw [hfind] at h
      subst h
      exact absurd hkind (by decide)
    | some found =>
      rw [hfind] at h
      subst h
      have hname := List.find?_some hfind
      exact (eq_of_beq hname).symm
  · rintro rfl
    exact kind.ofName_name

/-- A name that none of the listed types has is of no known type. -/
theorem ofName_of_not_mem {name : String} (h : name ∉ listed.map FrameKind.name) :
    ofName name = unknown := by
  rw [ofName, List.find?_eq_none.mpr]
  · rfl
  · intro kind hkind hname
    exact h (List.mem_map.mpr ⟨kind, hkind, eq_of_beq hname⟩)

end FrameKind

namespace Frame

/-! ## Frames that are written -/

/-- A frame as a record, with a type of any name. An empty payload is left out. -/
def written (name payload : String) : Value :=
  .ofMembers (("type", .ofString name) ::
    if payload.isEmpty then [] else [("payload", .ofString payload)])

variable (name payload : String)

theorem isPlain_written : (written name payload).isPlain = true := by
  unfold written
  split <;> rfl

/-- A record of a type and a payload is read as the frame of the type with that name. -/
theorem ofJson_written : ofJson (written name payload) = .ok ⟨.ofName name, payload⟩ := by
  have htype : Value.asChoice (fun name => .ok (FrameKind.ofName name)) (.ofString name) =
      .ok (FrameKind.ofName name) := rfl
  unfold written
  split
  · rename_i hempty
    obtain rfl : payload = "" := String.isEmpty_iff.mp hempty
    change Json.Member.readMembers fields [] ⟨.unknown, ""⟩
      [(.ofString "type", .ofString name)] = _
    rw [Json.Member.readMembers_cons htype rfl rfl]
    rfl
  · change Json.Member.readMembers fields [] ⟨.unknown, ""⟩
      [(.ofString "type", .ofString name), (.ofString "payload", .ofString payload)] = _
    rw [Json.Member.readMembers_cons htype rfl rfl,
      Json.Member.readMembers_cons (Json.asText_ofString payload) rfl rfl]
    rfl

/-- The text of a record of a type and a payload is read as that record. -/
theorem readText_written : Json.readText (written name payload).render =
    ⟨written name payload, true⟩ :=
  Json.readText_render (isPlain_written name payload)

/-- The text of a record of a type and a payload is read as the frame of the type with that
name. -/
theorem parse_written : parse (written name payload).render = .ok ⟨.ofName name, payload⟩ := by
  rw [parse, Json.decodeText_render ofJson (isPlain_written name payload), ofJson_written]

/-- A frame is read as it was written. -/
theorem parse_render (f : Frame) : parse f.render = .ok f := by
  have hparse := parse_written f.kind.name f.payload
  rwa [FrameKind.ofName_name] at hparse

/-! ## Values that are read -/

/-- The ways to name a choice: with a text, and with a record whose only key is the name and has
no value. -/
inductive Names (name : String) : Value → Prop
  | text : Names name (.text (some name))
  | key : Names name (.record [(.text (some name), .null)])

/-- The ways to say which type and payload a frame has: in a record, where the payload may be
missing, and in a list, where it may be missing as well. -/
inductive Says (name payload : String) : Value → Prop
  | record {members : List (Value × Value)} {v : Value} (htype : HasJust members "type" v)
      (hname : Names name v) (hpayload : HasJust members "payload" (.text (some payload)) ∨
        payload = "" ∧ Lacks members "payload") : Says name payload (.record members)
  | type {v : Value} (hname : Names name v) (hpayload : payload = "") :
      Says name payload (.list [v])
  | both {v : Value} (hname : Names name v) :
      Says name payload (.list [v, .text (some payload)])

variable {name payload} {name' payload' : String} {v : Value}

theorem Names.unique (h : Names name v) (h' : Names name' v) : name = name' := by
  cases h <;> cases h' <;> rfl

/-- A value says but one thing. -/
theorem Says.unique (h : Says name payload v) (h' : Says name' payload' v) :
    name = name' ∧ payload = payload' := by
  cases h with
  | record htype hname hpayload =>
    cases h' with
    | record htype' hname' hpayload' =>
      obtain rfl := htype'.eq_of_mem htype.mem
      refine ⟨hname.unique hname', ?_⟩
      rcases hpayload with hjust | ⟨rfl, hlacks⟩ <;>
        rcases hpayload' with hjust' | ⟨rfl, hlacks'⟩
      · cases hjust'.eq_of_mem hjust.mem
        rfl
      · exact absurd rfl (hlacks' _ hjust.mem)
      · exact absurd rfl (hlacks _ hjust'.mem)
      · rfl
  | type hname hpayload =>
    cases h' with
    | type hname' hpayload' => exact ⟨hname.unique hname', hpayload.trans hpayload'.symm⟩
  | both hname =>
    cases h' with
    | both hname' => exact ⟨hname.unique hname', rfl⟩

/-- A choice that is read is the one of the name that the value names. -/
theorem exists_of_asChoice {α : Type} {choose : String → Decoded α} {a : α}
    (h : v.asChoice choose = .ok a) : ∃ name, Names name v ∧ choose name = .ok a := by
  rcases v with _ | _ | _ | (_ | name) | _ | (_ | ⟨⟨key, w⟩, more⟩) | _
  case text.some => exact ⟨name, .text, h⟩
  case record.cons =>
    obtain ⟨choice, hchoice, hrest⟩ := exists_of_bind_eq_ok h
    obtain ⟨name, hname, hchoose⟩ := exists_of_bind_eq_ok hchoice
    obtain rfl := Json.eq_of_asText hname
    cases w with
    | null =>
      cases more with
      | nil =>
        cases hrest
        exact ⟨name, .key, hchoose⟩
      | cons => cases hrest
    | truth | number | text | list | record | broken => cases hrest
  all_goals cases h

/-- Each of the two fields leaves the other as it is. -/
theorem keeps_of_mem_fields {field : Json.Member Frame} (h : field ∈ fields) :
    (field.name ≠ "type" → field.Keeps Frame.kind) ∧
      (field.name ≠ "payload" → field.Keeps Frame.payload) := by
  rcases List.mem_cons.mp h with rfl | h
  · exact ⟨fun hne => absurd rfl hne, fun _ => .of fun _ _ => rfl⟩
  · obtain rfl := List.mem_singleton.mp h
    exact ⟨fun _ => .of fun _ _ => rfl, fun hne => absurd rfl hne⟩

/-- Members that are read as a frame say which type and payload it has. -/
theorem exists_of_readMembers {members : List (Value × Value)} {f : Frame}
    (h : Json.Member.readMembers fields [] ⟨.unknown, ""⟩ members = .ok f) :
    ∃ name, Says name f.payload (.record members) ∧ f.kind = .ofName name := by
  have htype : Settle members "type" .refused
      (Value.asChoice fun name => .ok (FrameKind.ofName name)) [] .unknown f.kind :=
    Json.settle_of_readMembers rfl (fun _ _ => rfl) (fun _ hf => (keeps_of_mem_fields hf).1) h
  have hpayload : Settle members "payload" .allowed Value.asText [] "" f.payload :=
    Json.settle_of_readMembers rfl (fun _ _ => rfl) (fun _ hf => (keeps_of_mem_fields hf).2) h
  obtain ⟨w, hjust, hread⟩ := htype.exists_of_refused rfl
  obtain ⟨name, hname, hkind⟩ := exists_of_asChoice hread
  refine ⟨name, .record hjust hname ?_, (Except.ok.inj hkind).symm⟩
  rcases hpayload.read rfl with ⟨w', hjust', hread'⟩ | ⟨-, hempty, hlacks⟩
  · obtain rfl := Json.eq_of_asText hread'
    exact .inl hjust'
  · exact .inr ⟨hempty, hlacks⟩

/-- Items that are read as a frame say which type and payload it has. -/
theorem exists_of_readPositions {items : List Value} {f : Frame}
    (h : Json.Member.readPositions ⟨.unknown, ""⟩ fields items = .ok f) :
    ∃ name, Says name f.payload (.list items) ∧ f.kind = .ofName name := by
  rcases items with _ | ⟨w, items⟩
  · cases h
  · obtain ⟨f₁, hfirst, hrest⟩ := exists_of_bind_eq_ok h
    obtain ⟨kind, hread, rfl⟩ := Json.Member.exists_of_read hfirst
    obtain ⟨name, hname, hkind⟩ := exists_of_asChoice hread
    obtain rfl := Except.ok.inj hkind
    rcases items with _ | ⟨w', items⟩
    · cases hrest
      exact ⟨name, .type hname rfl, rfl⟩
    · obtain ⟨f₂, hsecond, hend⟩ := exists_of_bind_eq_ok hrest
      obtain ⟨payload, hread', rfl⟩ := Json.Member.exists_of_read hsecond
      obtain rfl := Json.eq_of_asText hread'
      cases items with
      | nil =>
        cases hend
        exact ⟨name, .both hname, rfl⟩
      | cons => cases hend

/-- A text that is read as a frame says which type and payload it has. -/
theorem exists_of_parse {text : String} {f : Frame} (h : parse text = .ok f) :
    ∃ name, Says name f.payload (Json.readText text).value ∧ f.kind = .ofName name := by
  have hread : ofJson (Json.readText text).value = .ok f := Json.read_of_decodeSource h
  cases hvalue : (Json.readText text).value with
  | record members =>
    rw [hvalue] at hread
    exact exists_of_readMembers hread
  | list items =>
    rw [hvalue] at hread
    exact exists_of_readPositions hread
  | null | truth | number | text | broken =>
    rw [hvalue] at hread
    cases hread

end Frame

end WaitingRoom
