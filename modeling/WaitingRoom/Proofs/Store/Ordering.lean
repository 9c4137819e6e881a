import WaitingRoom.Proofs.Text.Bytes

/-!
# Comparisons

Databases order contents by their kind, texts by their bytes and numbers by their value. What
has several contents compares by the first of them that tells two apart, each taken in its own
direction.
-/

namespace WaitingRoom

section Comparisons

variable {α β : Type} (cmp : β → β → Ordering) [Std.TransCmp cmp]

/-- Comparing by a key. -/
theorem transCmp_key (key : α → β) : Std.TransCmp fun a b => cmp (key a) (key b) where
  eq_swap := Std.OrientedCmp.eq_swap
  isLE_trans := Std.TransCmp.isLE_trans

/-- Comparing the other way round. -/
theorem transCmp_swap : Std.TransCmp fun a b => (cmp a b).swap where
  eq_swap {a b} := congrArg Ordering.swap Std.OrientedCmp.eq_swap
  isLE_trans {a b c} hab hbc := by
    rw [← Std.OrientedCmp.eq_swap] at hab hbc ⊢
    exact Std.TransCmp.isLE_trans hbc hab

theorem isLE_total (a b : β) : ((cmp a b).isLE || (cmp b a).isLE) = true := by
  have hswap : cmp b a = (cmp a b).swap := Std.OrientedCmp.eq_swap
  rw [hswap]
  cases cmp a b <;> rfl

/-- What a comparison says, turned round where the largest comes first. -/
def directed (descending : Bool) (o : Ordering) : Ordering := if descending then o.swap else o

theorem transCmp_directed (descending : Bool) :
    Std.TransCmp fun a b => directed descending (cmp a b) := by
  cases descending
  · exact inferInstanceAs (Std.TransCmp cmp)
  · exact transCmp_swap cmp

end Comparisons

/-- Compares by several comparisons: by the first that tells two apart. -/
def compareAll {α : Type} : List (α → α → Ordering) → α → α → Ordering
  | [], _, _ => .eq
  | cmp :: rest, a, b => (cmp a b).then (compareAll rest a b)

theorem transCmp_compareAll {α : Type} {cmps : List (α → α → Ordering)}
    (h : ∀ cmp ∈ cmps, Std.TransCmp cmp) : Std.TransCmp (compareAll cmps) := by
  induction cmps with
  | nil => exact { eq_swap := rfl, isLE_trans := fun _ _ => rfl }
  | cons cmp rest ih =>
    obtain ⟨hcmp, hrest⟩ := List.forall_mem_cons.mp h
    have hrest := ih hrest
    exact inferInstanceAs (Std.TransCmp (compareLex cmp (compareAll rest)))

/-- What a content is ordered by: its kind, the bytes of a text and the value of a number. -/
structure Weight where
  kind : Nat
  bytes : List UInt8 := []
  amount : Int := 0

namespace Weight

/-- The weight of a text. -/
def ofText (kind : Nat) (content : String) : Weight := { kind, bytes := Text.utf8Bytes content }

/-- The weight of a number. -/
def ofNumber (kind : Nat) (amount : Int) : Weight := { kind, amount }

/-- How two weights compare. -/
def compareTo : Weight → Weight → Ordering :=
  compareLex (compareOn kind) (compareLex (compareOn bytes) (compareOn amount))

instance : Std.TransCmp compareTo := inferInstanceAs (Std.TransCmp (compareLex _ _))

/-- Texts of a kind compare as texts do. -/
theorem compareTo_ofText (kind : Nat) (a b : String) :
    (ofText kind a).compareTo (ofText kind b) = compare a b := by
  change (compare kind kind).then ((compare (Text.utf8Bytes a) (Text.utf8Bytes b)).then
    (compare (0 : Int) 0)) = _
  rw [Text.compare_utf8Bytes, Std.compare_self, Std.compare_self, Ordering.eq_then,
    Ordering.then_eq]

/-- Numbers of a kind compare as numbers do. -/
theorem compareTo_ofNumber (kind : Nat) (m n : Int) :
    (ofNumber kind m).compareTo (ofNumber kind n) = compare m n := by
  change (compare kind kind).then ((compare ([] : List UInt8) []).then (compare m n)) = _
  rw [Std.compare_self, Std.compare_self, Ordering.eq_then, Ordering.eq_then]

end Weight

end WaitingRoom
