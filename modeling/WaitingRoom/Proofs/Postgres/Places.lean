import WaitingRoom.Postgres.Statement
import WaitingRoom.Proofs.Text.Digits

/-!
# The places a text names

A text of a statement names a place with a dollar sign and the digits behind it, wherever in the
text that is. Texts are put together from pieces, and where no piece begins with a digit, the
places that the whole names are those that its pieces name, one piece after another. So what the
text of a statement names can be told from the statement.
-/

namespace WaitingRoom.Postgres

/-- The places that characters name, in the order they are named in. -/
def placesOf : List Char → List Nat
  | [] => []
  | c :: rest =>
    if c = '$' then Text.valueOf (rest.takeWhile Text.isDigit) :: placesOf rest
    else placesOf rest

/-- The places that a text names. -/
def placesIn (text : String) : List Nat := placesOf text.toList

/-- Whether characters begin with a digit. -/
def beginsWithDigit (cs : List Char) : Bool := cs.head?.any Text.isDigit

theorem beginsWithDigit_append {cs rest : List Char} (hcs : beginsWithDigit cs = false)
    (hrest : beginsWithDigit rest = false) : beginsWithDigit (cs ++ rest) = false := by
  cases cs with
  | nil => exact hrest
  | cons c cs => exact hcs

/-- Characters without a dollar sign name nothing. -/
theorem placesOf_append_of_not_mem {cs : List Char} (h : '$' ∉ cs) (rest : List Char) :
    placesOf (cs ++ rest) = placesOf rest := by
  induction cs with
  | nil => rfl
  | cons c cs ih =>
    rw [List.mem_cons, not_or] at h
    rw [List.cons_append, placesOf, if_neg (Ne.symm h.1), ih h.2]

/-- The digits a number is written with end where no digit follows. -/
theorem takeWhile_digits (n : Nat) {rest : List Char} (h : beginsWithDigit rest = false) :
    (Text.digits n ++ rest).takeWhile Text.isDigit = Text.digits n := by
  rw [List.takeWhile_append_of_pos fun c hc => Text.isDigit_of_mem_digits hc]
  cases rest with
  | nil => rw [List.takeWhile_nil, List.append_nil]
  | cons c rest =>
    have hc : Text.isDigit c = false := h
    rw [List.takeWhile_cons_of_neg (by simp [hc]), List.append_nil]

theorem dollar_not_mem_digits (n : Nat) : '$' ∉ Text.digits n := by
  intro h
  exact absurd (Text.isDigit_of_mem_digits h) (by decide)

/-! ## Pieces of a text -/

/-- Whether a piece neither begins with a digit nor names a place. -/
def isPlain (piece : String) : Bool :=
  !beginsWithDigit piece.toList && !piece.toList.contains '$'

/-- A piece of a text names places, whatever stands around it: it does not begin with a digit,
which would belong to a place before it, and no digit behind it belongs to its last place. -/
structure Names (piece : String) (places : List Nat) : Prop where
  opening : beginsWithDigit piece.toList = false
  named : ∀ rest, beginsWithDigit rest = false →
    placesOf (piece.toList ++ rest) = places ++ placesOf rest

namespace Names

variable {a b piece : String} {ps qs : List Nat}

/-- What a piece names is what it names on its own. -/
theorem placesIn_eq (h : Names piece ps) : placesIn piece = ps := by
  have hnamed := h.named [] rfl
  rwa [List.append_nil, placesOf, List.append_nil] at hnamed

/-- A plain piece names nothing. -/
theorem of_isPlain (h : isPlain piece = true) : Names piece [] := by
  rw [isPlain, Bool.and_eq_true, Bool.not_eq_true', Bool.not_eq_true'] at h
  obtain ⟨hopening, hplain⟩ := h
  refine ⟨hopening, fun rest _ => placesOf_append_of_not_mem ?_ rest⟩
  intro hdollar
  rw [List.contains_iff_mem.mpr hdollar] at hplain
  cases hplain

/-- A place is named by its text. -/
theorem placeText (place : Nat) : Names (placeText place) [place] := by
  have htext : (Postgres.placeText place).toList = '$' :: Text.digits place := by
    simp [Postgres.placeText, Text.ofNat]
  refine ⟨by rw [htext]; rfl, fun rest hrest => ?_⟩
  rw [htext, List.cons_append, placesOf, if_pos rfl, takeWhile_digits place hrest,
    Text.valueOf_digits, placesOf_append_of_not_mem (dollar_not_mem_digits place),
    List.singleton_append]

/-- Two pieces name what the first one names and then what the second one names. -/
theorem append (ha : Names a ps) (hb : Names b qs) : Names (a ++ b) (ps ++ qs) where
  opening := by
    rw [String.toList_append]
    exact beginsWithDigit_append ha.opening hb.opening
  named rest hrest := by
    have hbehind := beginsWithDigit_append hb.opening hrest
    rw [String.toList_append, List.append_assoc, ha.named _ hbehind, hb.named rest hrest,
      List.append_assoc]

theorem append_plain (ha : Names a ps) (hb : isPlain b = true) : Names (a ++ b) ps := by
  simpa using ha.append (.of_isPlain hb)

theorem plain_append (ha : isPlain a = true) (hb : Names b ps) : Names (a ++ b) ps := by
  simpa using (Names.of_isPlain ha).append hb

/-- Between plain pieces a piece names what it names. -/
theorem between (ha : isPlain a = true) (h : Names piece ps) (hb : isPlain b = true) :
    Names (a ++ piece ++ b) ps :=
  (plain_append ha h).append_plain hb

/-- Pieces with a plain separator name what they name one after another. -/
theorem intercalate {α : Type} (separator : String) (hseparator : isPlain separator = true)
    {text : α → String} {places : α → List Nat} (parts : List α)
    (h : ∀ x, Names (text x) (places x)) :
    Names (separator.intercalate (parts.map text)) (parts.flatMap places) := by
  induction parts with
  | nil => exact .of_isPlain rfl
  | cons x parts ih =>
    cases parts with
    | nil => simpa using h x
    | cons y parts =>
      have hall := ((h x).append_plain hseparator).append ih
      simpa [String.intercalate_cons_cons] using hall

/-- Plain pieces with a plain separator name nothing. -/
theorem intercalate_plain {α : Type} (separator : String) (hseparator : isPlain separator = true)
    {text : α → String} (parts : List α) (h : ∀ x, Names (text x) []) :
    Names (separator.intercalate (parts.map text)) [] := by
  have hnone : parts.flatMap (fun _ => ([] : List Nat)) = [] := by simp
  rw [← hnone]
  exact intercalate separator hseparator parts h

end Names

/-! ## Conditions, orders and windows -/

/-- The name of a column names no place. -/
theorem Column.names_text (column : Column) : Names column.text [] := by
  cases column <;> exact .of_isPlain (by decide)

namespace Condition

/-- The places that the text of a condition names, as often as it names them. -/
def named : Condition → List Nat
  | equals _ place => [place]
  | isFalse _ => []
  | anyLike columns place => columns.map fun _ => place

theorem names_text (condition : Condition) : Names condition.text condition.named := by
  cases condition with
  | equals column place =>
    exact (column.names_text.append_plain (by decide)).append (.placeText place)
  | isFalse column => exact column.names_text.append_plain (by decide)
  | anyLike columns place =>
    have hlike (column : Column) : Names (column.text ++ " ILIKE " ++ placeText place) [place] :=
      (column.names_text.append_plain (by decide)).append (.placeText place)
    have hall := Names.intercalate " OR " (by decide) columns hlike
    rw [← List.map_eq_flatMap] at hall
    exact .between (by decide) hall (by decide)

/-- A restriction names what its conditions name. -/
theorem names_restriction (conditions : List Condition) :
    Names (restriction conditions) (conditions.flatMap named) := by
  rw [restriction]
  split
  · rename_i hempty
    rw [List.isEmpty_iff.mp hempty]
    exact .of_isPlain rfl
  · exact .plain_append (by decide) (.intercalate _ (by decide) conditions names_text)

end Condition

namespace Statement

/-- An order names no place. -/
theorem names_orderText (order : List Direction) : Names (orderText order) [] := by
  rw [orderText]
  split
  · exact .of_isPlain rfl
  · refine .plain_append (by decide) (.intercalate_plain _ (by decide) order fun d => ?_)
    refine d.column.names_text.append_plain ?_
    split <;> decide

/-- The places that a window names. -/
def windowNamed : Option Window → List Nat
  | some w => [w.limit, w.offset]
  | none => []

theorem names_windowText (window : Option Window) :
    Names (windowText window) (windowNamed window) := by
  cases window with
  | none => exact .of_isPlain rfl
  | some w =>
    exact (Names.between (by decide) (.placeText w.limit) (by decide)).append (.placeText w.offset)

theorem names_columnList : Names columnList [] :=
  .intercalate_plain _ (by decide) Column.all Column.names_text

/-- The places that the text of a statement names, in the order it names them in. -/
def named : Statement → List Nat
  | createTable => []
  | count conditions => conditions.flatMap Condition.named
  | select conditions _ window => conditions.flatMap Condition.named ++ windowNamed window
  | upsert => upsert.places
  | delete conditions => conditions.flatMap Condition.named

/-- The text of a statement names the places of its conditions, of its window and of what it
writes, and no others. -/
theorem names_text (statement : Statement) : Names statement.text statement.named := by
  cases statement with
  | createTable =>
    have hcolumn (c : Column) : Names ("    " ++ c.text ++ " " ++ c.declaration) [] :=
      (Names.between (by decide) c.names_text (by decide)).append_plain (by cases c <;> decide)
    exact .between (by decide) (.intercalate_plain _ (by decide) Column.all hcolumn) (by decide)
  | count conditions => exact .plain_append (by decide) (Condition.names_restriction conditions)
  | select conditions order window =>
    have hfront : Names ("SELECT " ++ columnList ++ " FROM devices") [] :=
      .between (by decide) names_columnList (by decide)
    have hall := ((hfront.append (Condition.names_restriction conditions)).append
      (names_orderText order)).append (names_windowText window)
    rw [List.nil_append, List.append_nil] at hall
    exact hall
  | upsert =>
    have hfront : Names ("INSERT INTO devices\n    (" ++ columnList ++ ")\n    VALUES (") [] :=
      .between (by decide) names_columnList (by decide)
    have hvalues := Names.intercalate ", " (by decide) upsert.places Names.placeText
    have hset (c : Column) : Names ("        " ++ c.text ++ " = EXCLUDED." ++ c.text) [] :=
      (Names.between (by decide) c.names_text (by decide)).append c.names_text
    have hsets := Names.intercalate_plain ",\n" (by decide)
      (Column.all.filter (· ≠ .localId)) hset
    have hbound := (hfront.append hvalues).append_plain
      (b := ")\n    ON CONFLICT (local_id) DO UPDATE SET\n") (by decide)
    have hall := hbound.append hsets
    rw [List.nil_append, List.append_nil, List.flatMap_singleton'] at hall
    exact hall
  | delete conditions => exact .plain_append (by decide) (Condition.names_restriction conditions)

/-- What the text of a statement names can be told from the statement. -/
theorem placesIn_text (statement : Statement) : placesIn statement.text = statement.named :=
  statement.names_text.placesIn_eq

end Statement

end WaitingRoom.Postgres
