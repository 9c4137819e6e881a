import WaitingRoom.Proofs.Store.Windows
import WaitingRoom.Proofs.Text.Sigmas

/-!
# Searches

A search looks for its term in lower case in the local id and in the name in lower case. A record
in which the term stands as it is is found, unless a capital sigma of the term has another lower
case there than in the term by itself, as one has that ends the term and stands within a word.
-/

namespace WaitingRoom

/-- The words to search for are what is left of the text without the blanks around it. -/
theorem ListOptions.trim_of_searchTerm {o : ListOptions} {term : String}
    (hterm : o.searchTerm = some term) : Text.trim o.search = term := by
  simp only [searchTerm] at hterm
  split at hterm
  · cases hterm
  · exact Option.some.inj hterm

/-- A record counts in which the term stands that is searched for. -/
theorem Device.Counts.of_standsIn {d : Device} {o : ListOptions} {term : String}
    (hshown : d.hidden = true → o.showHidden = true) (hterm : o.searchTerm = some term)
    (hstands : Text.StandsIn term d.localId ∨ Text.StandsIn term d.name) :
    d.Counts d.userId o where
  owner := rfl
  shown := hshown
  found _ := by
    rw [o.trim_of_searchTerm hterm]
    exact hstands.imp Text.StandsIn.lowerCase_isInfix Text.StandsIn.lowerCase_isInfix

/-- **A search finds what stands there.** Where options make sense and ask for a term, a record
that is shown counts in every listing for its owner if the term stands in its local id or its
name with its capital sigmas in the form that they have in the term alone; so it does if the term
has no capital sigma and is a stretch of one of them. It is one of the records whose number a
listing says, whatever its window, and a listing without bounds shows it. -/
theorem literal_hits_are_listed (s : Store) {o : ListOptions} {order : SortOrder} {term : String}
    {d : Device} (horder : o.order = .ok order) (hterm : o.searchTerm = some term)
    (hstored : d ∈ s.records) (hshown : d.hidden = true → o.showHidden = true)
    (hhit : (Text.StandsIn term d.localId ∨ Text.StandsIn term d.name) ∨
      Text.capitalSigma ∉ term.toList ∧
        (term.toList <:+: d.localId.toList ∨ term.toList <:+: d.name.toList)) :
    ∃ found : List Device, d ∈ found ∧ found.Nodup ∧
      (∀ limit offset : Nat, s.list d.userId { o with limit := limit, offset := offset } =
        .ok ((found.drop offset).take limit, found.length)) ∧
      (∀ limit : Nat, found.length ≤ limit →
        s.list d.userId { o with limit := limit, offset := 0 } = .ok (found, found.length)) := by
  have hstands : Text.StandsIn term d.localId ∨ Text.StandsIn term d.name := by
    rcases hhit with hstands | ⟨hnone, hin⟩
    · exact hstands
    · exact hin.imp (.of_isInfix hnone) (.of_isInfix hnone)
  have hcounts : d.Counts d.userId o := .of_standsIn hshown hterm hstands
  have hlist := s.list_window d.userId horder
  refine ⟨s.matching d.userId o order, Store.mem_matching.mpr ⟨hstored, hcounts⟩,
    Store.pairwise_matching.nodup, hlist, fun limit hall => ?_⟩
  have hfirst := hlist limit 0
  rwa [List.drop_zero, List.take_of_length_le hall] at hfirst

/-! ## Light and the bearer of light -/

/-- A lamp of Alice's with a Greek name. -/
def greekLamp : Device := { localId := "d1", name := "ΦΩΣΦΟΡΟΣ", userId := "alice" }

/-- A search for the end of the name finds the lamp: the sigma ends the term and the name. -/
theorem greek_lamp_is_found_by_its_end :
    ({ search := " ΦΟΡΟΣ " } : ListOptions).searchTerm = some "ΦΟΡΟΣ" ∧
    ∃ found : List Device, greekLamp ∈ found ∧
      (Store.empty.insert greekLamp).list "alice"
        { search := " ΦΟΡΟΣ ", limit := found.length, offset := 0 } =
          .ok (found, found.length) := by
  have hterm : ({ search := " ΦΟΡΟΣ " } : ListOptions).searchTerm = some "ΦΟΡΟΣ" := by
    decide +kernel
  have horder : ({ search := " ΦΟΡΟΣ " } : ListOptions).order = .ok ⟨.localId, false⟩ := by decide
  have hkeep : Text.SigmasKeepForm "ΦΩΣ".toList.reverse "ΦΟΡΟΣ".toList [] :=
    Text.lowerWithin_eq_iff.mp (by decide +kernel)
  have hstands : Text.StandsIn "ΦΟΡΟΣ" greekLamp.name :=
    ⟨"ΦΩΣ".toList, [], by decide +kernel, hkeep⟩
  obtain ⟨found, hmem, -, -, hall⟩ := literal_hits_are_listed (Store.empty.insert greekLamp)
    horder hterm (List.mem_singleton_self greekLamp) nofun (.inl (.inr hstands))
  exact ⟨hterm, found, hmem, hall found.length (Nat.le_refl _)⟩

/-- A search for the beginning of the name does not, though the name begins with it: the sigma
ends the term, and in the name it stands within a word. -/
theorem literal_hits_are_not_always_listed :
    ¬ ∀ (s : Store) (o : ListOptions) (order : SortOrder) (term : String) (d : Device),
      o.order = .ok order → o.searchTerm = some term → d ∈ s.records →
      (d.hidden = true → o.showHidden = true) →
      (term.toList <:+: d.localId.toList ∨ term.toList <:+: d.name.toList) →
      ∃ found : List Device, d ∈ found ∧
        ∀ limit offset : Nat, s.list d.userId { o with limit := limit, offset := offset } =
          .ok ((found.drop offset).take limit, found.length) := by
  intro hclaim
  have hin : "ΦΩΣ".toList <:+: greekLamp.name.toList := by decide +kernel
  obtain ⟨found, hmem, hlist⟩ := hclaim (Store.empty.insert greekLamp) { search := "ΦΩΣ" }
    ⟨.localId, false⟩ "ΦΩΣ" greekLamp (by decide) (by decide +kernel)
    (List.mem_singleton_self greekLamp) nofun (.inr hin)
  have hnone : (Store.empty.insert greekLamp).list "alice"
      { search := "ΦΩΣ", limit := 0, offset := 0 } = .ok ([], 0) := by
    decide +kernel
  have htotal : found.length = 0 := by
    have hsame := (hlist 0 0).symm.trans hnone
    simpa using hsame
  have hpos := List.length_pos_of_mem hmem
  omega

end WaitingRoom
