import WaitingRoom.Web.Api
import WaitingRoom.Proofs.Json.Attributes
import WaitingRoom.Proofs.Json.Members
import WaitingRoom.Proofs.Text.Decoding
import WaitingRoom.Proofs.Time.Stamping

/-!
# Devices as JSON

A device that was written as JSON is read as it was, with every text, every list of
attributes and every instant it can hold, and so is a list of devices.
-/

namespace WaitingRoom

open Json (Value Decoded)
open Text (decodeUtf8 utf8Bytes)

theorem readInstant_render (t : Time.Instant) :
    readInstant (.ofString (Time.Stamp.render t)) = .ok t := by
  simp only [readInstant, Value.ofString, Value.asText, bind, Except.bind, Time.Stamp.parse?_render]

namespace Device

theorem isPlain_attributesToJson (attributes : Option (List Attribute)) :
    (attributesToJson attributes).isPlain = true := by
  cases attributes with
  | none => rfl
  | some attributes => exact Attribute.isPlain_list attributes

/-- A list of attributes is read as it was written, and so is its absence. -/
theorem asOption_attributesToJson (attributes : Option (List Attribute)) :
    Value.asOption (Value.asList Attribute.ofJson) (attributesToJson attributes) =
      .ok attributes := by
  cases attributes with
  | none => rfl
  | some attributes => exact congrArg (Except.map some) (Attribute.asList_toJson attributes)

theorem isPlain_toJson (d : Device) : d.toJson.isPlain = true := by
  have hattributes := isPlain_attributesToJson d.attributes
  simp [toJson, Value.ofMembers, Value.ofString, Value.isPlain, Json.membersArePlain, hattributes]

/-- A device is read as it was written. -/
theorem ofJson_toJson (d : Device) : ofJson d.toJson = .ok d := by
  have hattributes := asOption_attributesToJson d.attributes
  have hcreated := readInstant_render d.createdAt
  have hupdated := readInstant_render d.updatedAt
  have hhidden : Value.asTruth (.truth d.hidden) = .ok d.hidden := rfl
  rw [ofJson, toJson, Value.ofMembers, Value.asRecord]
  simp only [List.map_cons, List.map_nil]
  rw [Json.Member.readMembers_cons (Json.asText_ofString d.id) rfl rfl,
    Json.Member.readMembers_cons (Json.asText_ofString d.localId) rfl rfl,
    Json.Member.readMembers_cons (Json.asText_ofString d.name) rfl rfl,
    Json.Member.readMembers_cons (Json.asText_ofString d.deviceTypeId) rfl rfl,
    Json.Member.readMembers_cons hattributes rfl rfl,
    Json.Member.readMembers_cons (Json.asText_ofString d.userId) rfl rfl,
    Json.Member.readMembers_cons hhidden rfl rfl, Json.Member.readMembers_cons hcreated rfl rfl,
    Json.Member.readMembers_cons hupdated rfl rfl]
  rfl

/-- The text of a device is read as the device. -/
theorem parse_render (d : Device) : parse d.render = .ok d := by
  rw [parse, render, Json.decodeText_render ofJson d.isPlain_toJson, ofJson_toJson]

/-- Devices with the same text are the same. -/
theorem render_injective {d e : Device} (h : d.render = e.render) : d = e := by
  have hparse := congrArg parse h
  rw [parse_render, parse_render] at hparse
  exact Except.ok.inj hparse

end Device

namespace Web

/-- The body in which devices are answered. -/
def devicesBody (ds : List Device) : String :=
  (Response.value (.list (ds.map Device.toJson))).body

/-- The body in which devices are answered is read as the devices. -/
theorem decodeText_devicesBody (ds : List Device) :
    Json.decodeText devices (devicesBody ds) = .ok ds := by
  change Json.decodeText devices (Value.list (ds.map Device.toJson)).render = .ok ds
  rw [Json.decodeText_render devices (Json.isPlain_list Device.isPlain_toJson ds)]
  exact Json.asList_map Device.ofJson_toJson ds

end Web

/-- Every device, and every list of devices, is read back from its text as it was, whether the
text is at hand or the bytes it is sent in, and is then written as the same text again. -/
theorem device_text_roundtrip (d : Device) (ds : List Device) :
    (Device.parse d.render = .ok d ∧
      Json.decodeSource Device.ofJson (decodeUtf8 (utf8Bytes d.render)) = .ok d ∧
      (Device.parse d.render).map Device.render = .ok d.render) ∧
    Json.decodeText Web.devices (Web.devicesBody ds) = .ok ds ∧
      Json.decodeSource Web.devices (decodeUtf8 (utf8Bytes (Web.devicesBody ds))) = .ok ds ∧
      (Json.decodeText Web.devices (Web.devicesBody ds)).map Web.devicesBody =
        .ok (Web.devicesBody ds) := by
  have hdevice := d.parse_render
  have hlist := Web.decodeText_devicesBody ds
  refine ⟨⟨hdevice, ?_, by rw [hdevice]; rfl⟩, hlist, ?_, by rw [hlist]; rfl⟩
  · rw [Text.decodeUtf8_utf8Bytes]
    exact hdevice
  · rw [Text.decodeUtf8_utf8Bytes]
    exact hlist

end WaitingRoom
