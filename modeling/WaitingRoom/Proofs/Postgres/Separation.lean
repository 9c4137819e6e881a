import WaitingRoom.Proofs.Postgres.Listing
import WaitingRoom.Proofs.Postgres.Places

/-!
# Statements apart from values

What a caller sends is bound to places and never becomes a part of a statement. The texts of the
statements of a listing are made from the order, from whether hidden records count and from
whether there is anything to search for, and from nothing else. Each of them names just the places
that values are bound to.
-/

namespace WaitingRoom

namespace Dialogue

variable {Q R α : Type}

/-- The questions a dialogue puts when it is replied to like this, one reply after another. -/
def asked : Dialogue Q R α → List R → List Q
  | done _, _ => []
  | ask question _, [] => [question]
  | ask question next, reply :: replies => question :: (next reply).asked replies

end Dialogue

namespace Postgres

/-! ## Texts -/

/-- The text that restricts a listing: to the owner, to what is not hidden unless that counts as
well, and to what is like a pattern if something is searched for. -/
def scopeText (showHidden searched : Bool) : String :=
  " WHERE user_id = $1" ++ (if showHidden then "" else " AND hidden = false") ++
    if searched then " AND (local_id ILIKE $2 OR name ILIKE $2)" else ""

/-- How many values a listing is restricted with. -/
def scopeSize (searched : Bool) : Nat := if searched then 2 else 1

theorem placeText_one : placeText 1 = "$1" := by decide +kernel

theorem placeText_two : placeText 2 = "$2" := by decide +kernel

theorem length_scopeValues (user : String) (o : ListOptions) :
    (scopeValues user o).length = scopeSize o.searchTerm.isSome := by
  unfold scopeValues scopeSize
  cases o.searchTerm <;> rfl

/-- The conditions of a listing are written in this way. -/
theorem restriction_scopeConditions (o : ListOptions) :
    Condition.restriction (scopeConditions o) = scopeText o.showHidden o.searchTerm.isSome := by
  unfold scopeConditions scopeText Condition.restriction
  cases o.showHidden <;> cases o.searchTerm.isSome <;>
    simp [Condition.text, Column.text, placeText_one, placeText_two]

/-- The text of the statement that counts a listing. -/
def countText (showHidden searched : Bool) : String :=
  "SELECT COUNT(local_id) FROM devices" ++ scopeText showHidden searched

/-- The text of the statement that selects the window of a listing. -/
def pageText (showHidden searched : Bool) (order : SortOrder) : String :=
  "SELECT " ++ Statement.columnList ++ " FROM devices" ++ scopeText showHidden searched ++
    Statement.orderText (directions order) ++
    (" LIMIT " ++ placeText (scopeSize searched + 1) ++
      " OFFSET " ++ placeText (scopeSize searched + 2))

theorem text_countQuery (user : String) (o : ListOptions) :
    (countQuery user o).statement.text = countText o.showHidden o.searchTerm.isSome :=
  congrArg ("SELECT COUNT(local_id) FROM devices" ++ ·) (restriction_scopeConditions o)

theorem text_pageQuery (user : String) (o : ListOptions) (order : SortOrder) :
    (pageQuery user o order).statement.text =
      pageText o.showHidden o.searchTerm.isSome order := by
  rw [pageText, ← restriction_scopeConditions, ← length_scopeValues user]
  rfl

/-! ## Places -/

/-- A query names just the places that its values are bound to. -/
def Query.NamesItsValues (q : Query) : Prop :=
  ∀ place, place ∈ placesIn q.statement.text ↔ 1 ≤ place ∧ place ≤ q.values.length

theorem named_scopeConditions (o : ListOptions) :
    (scopeConditions o).flatMap Condition.named =
      1 :: if o.searchTerm.isSome then [2, 2] else [] := by
  unfold scopeConditions
  cases o.showHidden <;> cases o.searchTerm.isSome <;> rfl

theorem countQuery_namesItsValues (user : String) (o : ListOptions) :
    (countQuery user o).NamesItsValues := by
  intro place
  have hlength : (countQuery user o).values.length = scopeSize o.searchTerm.isSome :=
    length_scopeValues user o
  rw [Statement.placesIn_text, hlength, countQuery, Statement.named, named_scopeConditions,
    scopeSize]
  cases o.searchTerm.isSome <;> simp <;> omega

theorem pageQuery_namesItsValues (user : String) (o : ListOptions) (order : SortOrder) :
    (pageQuery user o order).NamesItsValues := by
  intro place
  have hlength : (pageQuery user o order).values.length = scopeSize o.searchTerm.isSome + 2 := by
    rw [pageQuery, List.length_append, length_scopeValues]
    rfl
  rw [Statement.placesIn_text, hlength, pageQuery, Statement.named, named_scopeConditions,
    Statement.windowNamed, length_scopeValues, scopeSize]
  cases o.searchTerm.isSome <;> simp <;> omega

/-- The place of the limit and the place of the offset come behind those a listing is restricted
with. -/
theorem bound_pageQuery (user : String) (o : ListOptions) (order : SortOrder) :
    (pageQuery user o order).bound (scopeSize o.searchTerm.isSome + 1) = .integer o.limit ∧
      (pageQuery user o order).bound (scopeSize o.searchTerm.isSome + 2) = .integer o.offset := by
  unfold pageQuery Query.bound scopeValues scopeSize
  cases o.searchTerm <;> exact ⟨rfl, rfl⟩

/-- Where the values of a listing are. Its two statements have the same restriction, which names
the places of the owner and of the pattern, and the page goes on to name those of the limit and
of the offset. These are the places that values are bound to, and each has the value it is named
for. -/
structure Placed (user : String) (o : ListOptions) (order : SortOrder) (count page : Query) :
    Prop where
  count_text : count.statement.text = countText o.showHidden o.searchTerm.isSome
  page_text : page.statement.text = pageText o.showHidden o.searchTerm.isSome order
  count_names : count.NamesItsValues
  page_names : page.NamesItsValues
  count_values : count.values = page.values.take (page.values.length - 2)
  count_binds : Binds count.bound user o
  page_binds : Binds page.bound user o
  limit : page.bound (scopeSize o.searchTerm.isSome + 1) = .integer o.limit
  offset : page.bound (scopeSize o.searchTerm.isSome + 2) = .integer o.offset

theorem placed_list (user : String) (o : ListOptions) (order : SortOrder) :
    Placed user o order (countQuery user o) (pageQuery user o order) where
  count_text := text_countQuery user o
  page_text := text_pageQuery user o order
  count_names := countQuery_namesItsValues user o
  page_names := pageQuery_namesItsValues user o order
  count_values := by
    rw [pageQuery, List.length_append]
    exact List.take_left.symm
  count_binds := binds_count user o
  page_binds := binds_page user o order
  limit := (bound_pageQuery user o order).1
  offset := (bound_pageQuery user o order).2

/-! ## Listings -/

/-- Whether the first of some replies counts records. -/
def isCounted : List Reply → Bool
  | .counted (some _) :: _ => true
  | _ => false

/-- A listing asks for the count, and for the page once records have been counted. -/
theorem asked_list (user : String) {o : ListOptions} {order : SortOrder}
    (horder : o.order = .ok order) (replies : List Reply) :
    (list user o).asked replies =
      if isCounted replies then [countQuery user o, pageQuery user o order]
      else [countQuery user o] := by
  unfold list
  rw [horder]
  cases replies with
  | nil => rfl
  | cons reply replies =>
    cases reply with
    | counted n =>
      cases n with
      | none => rfl
      | some total =>
        cases replies with
        | nil => rfl
        | cons reply _ => cases reply <;> rfl
    | refused => rfl
    | rows _ => rfl
    | carriedOut => rfl

/-- No value reaches the text of a statement. Two listings that agree on the order, on whether
hidden records count and on whether there is something to search for ask for the same in the same
words, whoever asks, whatever is searched for and whatever the window is, however they are
replied to. All values are at their places. -/
theorem texts_are_free_of_values (user user' : String) {o o' : ListOptions} {order : SortOrder}
    (horder : o.order = .ok order) (horder' : o'.order = .ok order)
    (hhidden : o.showHidden = o'.showHidden)
    (hsearch : o.searchTerm.isSome = o'.searchTerm.isSome) :
    (∀ replies, ((list user o).asked replies).map (·.statement.text) =
      ((list user' o').asked replies).map (·.statement.text)) ∧
    ∃ count page,
      (∀ replies, (list user o).asked replies =
        if isCounted replies then [count, page] else [count]) ∧
      Placed user o order count page := by
  have hcount : (countQuery user o).statement.text = (countQuery user' o').statement.text := by
    rw [text_countQuery, text_countQuery, hhidden, hsearch]
  have hpage : (pageQuery user o order).statement.text =
      (pageQuery user' o' order).statement.text := by
    rw [text_pageQuery, text_pageQuery, hhidden, hsearch]
  refine ⟨fun replies => ?_, countQuery user o, pageQuery user o order, asked_list user horder,
    placed_list user o order⟩
  rw [asked_list user horder, asked_list user' horder']
  split
  · simp only [List.map_cons, List.map_nil, hcount, hpage]
  · simp only [List.map_cons, List.map_nil, hcount]

/-- A search that would be a statement of its own is asked for in the same words as any other. -/
theorem hostile_search_is_asked_for_in_the_same_words :
    ((list "alice" { search := "lamp" }).asked [.counted (some 1), .rows []]).map
        (·.statement.text) =
      ((list "' OR true; --" { search := "$9'; DROP TABLE devices; --", limit := 7 }).asked
        [.counted (some 1), .rows []]).map (·.statement.text) := by
  have hlamp : ({ search := "lamp" } : ListOptions).order = .ok ⟨.localId, false⟩ := rfl
  have hhostile : ({ search := "$9'; DROP TABLE devices; --", limit := 7 } : ListOptions).order =
      .ok ⟨.localId, false⟩ := rfl
  exact (texts_are_free_of_values _ _ hlamp hhostile rfl (by decide +kernel)).1 _

end Postgres

end WaitingRoom
