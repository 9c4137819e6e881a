import WaitingRoom.Device
import WaitingRoom.Proofs.Json.Rendering

/-!
# Attributes as JSON

A list of attributes that was written as JSON is read as it was, as is every list of things
each of which is.
-/

namespace WaitingRoom

open Json (Value Decoded)

namespace Json

theorem itemsArePlain_iff {items : List Value} :
    itemsArePlain items = true ↔ ∀ v ∈ items, v.isPlain = true := by
  induction items with
  | nil => simp [itemsArePlain]
  | cons v rest ih => simp [itemsArePlain, ih]

variable {α : Type} {write : α → Value}

/-- A list is written as it is if each of its items is. -/
theorem isPlain_list (hwrite : ∀ a, (write a).isPlain = true) (items : List α) :
    (Value.list (items.map write)).isPlain = true := by
  rw [Value.isPlain, itemsArePlain_iff]
  intro v hv
  obtain ⟨a, -, rfl⟩ := List.mem_map.mp hv
  exact hwrite a

/-- A list is read as it was written if each of its items is. -/
theorem asList_map {read : Value → Decoded α} (hread : ∀ a, read (write a) = .ok a)
    (items : List α) : Value.asList read (.list (items.map write)) = .ok items := by
  change (items.map write).mapM read = _
  induction items with
  | nil => rfl
  | cons a rest ih =>
    rw [List.map_cons, List.mapM_cons, hread, ih]
    rfl

end Json

namespace Attribute

theorem isPlain_toJson (a : Attribute) : a.toJson.isPlain = true := by
  unfold toJson
  split <;> rfl

/-- An attribute is read as it was written; an origin that was left out is the empty one. -/
theorem ofJson_toJson (a : Attribute) : ofJson a.toJson = .ok a := by
  obtain ⟨key, value, origin⟩ := a
  unfold toJson
  split
  · rename_i horigin
    obtain rfl : origin = "" := by simpa using horigin
    rfl
  · rfl

theorem isPlain_list (attributes : List Attribute) :
    (Value.list (attributes.map toJson)).isPlain = true :=
  Json.isPlain_list isPlain_toJson attributes

/-- A list of attributes is read as it was written. -/
theorem asList_toJson (attributes : List Attribute) :
    Value.asList ofJson (.list (attributes.map toJson)) = .ok attributes :=
  Json.asList_map ofJson_toJson attributes

end Attribute

end WaitingRoom
