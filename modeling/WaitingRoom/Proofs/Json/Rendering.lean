import WaitingRoom.Json.Decode
import WaitingRoom.Json.Render
import WaitingRoom.Proofs.Json.Numerals

/-!
# Reading back what was written

The text of a value of texts, integers, truth values, lists and records is read as the same value.
Its tokens come first: each of them is taken off the text where the value begins, whatever follows
that does not go on with a number. Then the tree is built from them, whatever is open around it.
-/

namespace WaitingRoom

namespace Text

theorem hexValue?_hexDigit {n : Nat} (hn : n < 16) : hexValue? (hexDigit n) = some n := by
  have hall : ∀ m < 16, hexValue? (hexDigit m) = some m := by decide
  exact hall n hn

end Text

namespace Json

mutual

/-- The value is written as it is: nothing in it is broken, no text is missing, the keys of
records are texts, and numbers are integers. -/
def Value.isPlain : Value → Bool
  | .null | .truth _ | .text (some _) => true
  | .number n => n.isPlain
  | .list items => itemsArePlain items
  | .record members => membersArePlain members
  | .text none | .broken => false

/-- Each item is written as it is. -/
def itemsArePlain : List Value → Bool
  | [] => true
  | v :: rest => v.isPlain && itemsArePlain rest

/-- Each member is written as it is. -/
def membersArePlain : List (Value × Value) → Bool
  | [] => true
  | (.text (some _), v) :: rest => v.isPlain && membersArePlain rest
  | _ => false

end

/-! ## Tokens -/

namespace Token

/-- A character of a text is taken back from the way it is written. -/
theorem takeText_escape (c : Char) (done : List Char) (rest : Source) :
    takeText done true none ((escape c).map some ++ rest) =
      takeText (c :: done) true none rest := by
  have hshort {e d : Char} (he : escaped? e = some d) (hu : e ≠ 'u') :
      takeText done true none (some '\\' :: some e :: rest) =
        takeText (d :: done) true none rest := by
    rw [takeText]
    · simp [he]
    · simp [hu]
  have hcontrol (hc : c < ' ') : takeText done true none
      (some '\\' :: some 'u' :: some '0' :: some '0' :: some (Text.hexDigit (c.toNat / 16)) ::
        some (Text.hexDigit (c.toNat % 16)) :: rest) = takeText (c :: done) true none rest := by
    have hlt : c.toNat < 32 := hc
    have hhex : hex4? (some '0') (some '0') (some (Text.hexDigit (c.toNat / 16)))
        (some (Text.hexDigit (c.toNat % 16))) = some c.toNat := by
      have hzero : Text.hexValue? '0' = some 0 := by decide
      simp only [hex4?, Option.bind_eq_bind, Option.bind_some, hzero,
        Text.hexValue?_hexDigit (by omega : c.toNat / 16 < 16),
        Text.hexValue?_hexDigit (by omega : c.toNat % 16 < 16)]
      simp only [pure, Option.some.injEq]
      omega
    rw [takeText, hhex]
    have hfirst : isFirstHalf c.toNat = false := by simp [isFirstHalf]; omega
    have hsecond : isSecondHalf c.toNat = false := by simp [isSecondHalf]; omega
    simp [hfirst, hsecond]
  have hplain (hquote : ¬ (c == '"') = true) (hslash : ¬ (c == '\\') = true) (hc : ¬ c < ' ') :
      takeText done true none (some c :: rest) = takeText (c :: done) true none rest := by
    have hne : c ≠ '\\' := by simpa using hslash
    rw [takeText]
    · simp [hquote, hslash, hc]
    · simp [hne]
    · simp [hne]
  unfold escape
  iterate 7
    split
    · rename_i h
      rw [eq_of_beq h]
      exact hshort rfl (by decide)
  split
  · exact hcontrol ‹_›
  · exact hplain ‹¬(c == '"') = true› ‹¬(c == '\\') = true› ‹_›

/-- The characters of a text are taken up to the closing quote. -/
theorem takeText_escaped (cs done : List Char) (rest : Source) :
    takeText done true none ((cs.flatMap escape).map some ++ some '"' :: rest) =
      some (some (String.ofList (done.reverse ++ cs)), rest) := by
  induction cs generalizing done with
  | nil => simp [takeText]
  | cons c cs ih =>
    rw [List.flatMap_cons, List.map_append, List.append_assoc, takeText_escape, ih]
    simp

/-- A token is taken off where it begins. -/
theorem scanFrom_of_takeToken {c : Char} {rest after : Source} {t : Token} (done : List Token)
    (hspace : isSpace c = false) (htoken : takeToken c rest = some (t, after)) :
    scanFrom done (some c :: rest) = scanFrom (t :: done) after := by
  rw [scanFrom, if_neg (by simp [hspace])]
  split
  · rename_i hnone
    cases hnone.symm.trans htoken
  · rename_i found hfound
    obtain ⟨rfl, rfl⟩ := Prod.mk.inj (Option.some.inj (hfound.symm.trans htoken))
    rfl

end Token

mutual

/-- The tokens of a value. -/
def Value.tokens : Value → List Token
  | .null => [.null]
  | .truth b => [.truth b]
  | .number n => [.number n]
  | .text content => [.text content]
  | .list items => .listOpen :: itemsTokens items
  | .record members => .recordOpen :: membersTokens members
  | .broken => [.broken]

/-- The tokens of the items of a list, up to its end. -/
def itemsTokens : List Value → List Token
  | [] => [.listClose]
  | [v] => v.tokens ++ [.listClose]
  | v :: w :: rest => v.tokens ++ .comma :: itemsTokens (w :: rest)

/-- The tokens of the members of a record, up to its end. -/
def membersTokens : List (Value × Value) → List Token
  | [] => [.recordClose]
  | [(key, v)] => key.tokens ++ .colon :: v.tokens ++ [.recordClose]
  | (key, v) :: next :: rest =>
    key.tokens ++ .colon :: v.tokens ++ .comma :: membersTokens (next :: rest)

end

theorem scanFrom_quote (s : String) (done : List Token) (rest : Source) :
    Token.scanFrom done ((quote s).map some ++ rest) =
      Token.scanFrom (.text (some s) :: done) rest := by
  rw [quote, List.cons_append, List.map_cons, List.cons_append]
  apply Token.scanFrom_of_takeToken _ (by decide)
  rw [List.map_append, List.append_assoc]
  change (Token.takeText [] true none _).map _ = _
  rw [show List.map some ['"'] ++ rest = some '"' :: rest from rfl, Token.takeText_escaped]
  simp

theorem scanFrom_ofInt (i : Int) (done : List Token) {rest : Source}
    (hends : Token.endsNumber rest = true) :
    Token.scanFrom done ((Numeral.ofInt i).toChars.map some ++ rest) =
      Token.scanFrom (.number (.ofInt i) :: done) rest := by
  obtain ⟨c, cs, hchars, hspace, htoken⟩ := Token.takeToken_ofInt i hends
  rw [hchars, List.map_cons, List.cons_append]
  exact Token.scanFrom_of_takeToken done hspace htoken

mutual

/-- The tokens of a value are taken off its text, whatever follows that does not go on with a
number. -/
theorem scanFrom_toChars (v : Value) (hplain : v.isPlain = true) (done : List Token)
    {rest : Source} (hends : Token.endsNumber rest = true) :
    Token.scanFrom done (v.toChars.map some ++ rest) =
      Token.scanFrom (v.tokens.reverse ++ done) rest := by
  match v with
  | .null => exact Token.scanFrom_of_takeToken done (by decide) rfl
  | .truth true => exact Token.scanFrom_of_takeToken done (by decide) rfl
  | .truth false => exact Token.scanFrom_of_takeToken done (by decide) rfl
  | .number n =>
    have hinteger := scanFrom_ofInt n.toInt done hends
    rwa [← Numeral.eq_ofInt_of_isPlain hplain] at hinteger
  | .text (some s) => exact scanFrom_quote s done rest
  | .list items =>
    rw [Value.toChars, List.map_cons, List.cons_append,
      Token.scanFrom_of_takeToken done (by decide) rfl, scanFrom_items items hplain]
    simp [Value.tokens]
  | .record members =>
    rw [Value.toChars, List.map_cons, List.cons_append,
      Token.scanFrom_of_takeToken done (by decide) rfl, scanFrom_members members hplain]
    simp [Value.tokens]

theorem scanFrom_items (items : List Value) (hplain : itemsArePlain items = true)
    (done : List Token) (rest : Source) :
    Token.scanFrom done ((itemsToChars items).map some ++ rest) =
      Token.scanFrom ((itemsTokens items).reverse ++ done) rest := by
  match items with
  | [] => exact Token.scanFrom_of_takeToken done (by decide) rfl
  | [v] =>
    have hv : v.isPlain = true := by simpa [itemsArePlain] using hplain
    rw [itemsToChars, List.map_append, List.append_assoc, scanFrom_toChars v hv _ rfl]
    rw [List.map_singleton, List.singleton_append,
      Token.scanFrom_of_takeToken _ (by decide) rfl]
    simp [itemsTokens]
  | v :: w :: more =>
    obtain ⟨hv, hmore⟩ := Bool.and_eq_true_iff.mp hplain
    rw [itemsToChars, List.map_append, List.append_assoc, scanFrom_toChars v hv _ rfl]
    rw [List.map_cons, List.cons_append, Token.scanFrom_of_takeToken _ (by decide) rfl,
      scanFrom_items (w :: more) hmore]
    simp [itemsTokens]

theorem scanFrom_members (members : List (Value × Value)) (hplain : membersArePlain members = true)
    (done : List Token) (rest : Source) :
    Token.scanFrom done ((membersToChars members).map some ++ rest) =
      Token.scanFrom ((membersTokens members).reverse ++ done) rest := by
  match members with
  | [] => exact Token.scanFrom_of_takeToken done (by decide) rfl
  | [(.text (some key), v)] =>
    have hv : v.isPlain = true := by simpa [membersArePlain] using hplain
    rw [membersToChars, Value.toChars, List.append_assoc, List.map_append, List.append_assoc,
      scanFrom_quote, List.map_append, List.map_cons, List.append_assoc, List.cons_append,
      Token.scanFrom_of_takeToken _ (by decide) rfl, scanFrom_toChars v hv _ rfl,
      List.map_singleton, List.singleton_append, Token.scanFrom_of_takeToken _ (by decide) rfl]
    simp [membersTokens, Value.tokens]
  | (.text (some key), v) :: next :: more =>
    obtain ⟨hv, hmore⟩ := Bool.and_eq_true_iff.mp hplain
    rw [membersToChars, Value.toChars]
    simp only [List.append_assoc, List.cons_append, List.map_append, List.map_cons]
    rw [scanFrom_quote, Token.scanFrom_of_takeToken _ (by decide) rfl, scanFrom_toChars v hv _ rfl,
      Token.scanFrom_of_takeToken _ (by decide) rfl, scanFrom_members (next :: more) hmore]
    simp [membersTokens, Value.tokens]

end

/-- The tokens of a written value. -/
theorem scan_toChars {v : Value} (hplain : v.isPlain = true) :
    Token.scan (v.toChars.map some) = v.tokens := by
  have hends : Token.endsNumber [] = true := rfl
  have hscan := scanFrom_toChars v hplain [] hends
  rw [List.append_nil] at hscan
  rw [Token.scan, hscan, Token.scanFrom]
  simp

/-! ## The tree -/

/-- What becomes of a value once it is read: it is put into what is open around it, or it is
all that was read. -/
def settle (stack : List Frame) (v : Value) (rest : List Token) : Reading :=
  match stack with
  | frame :: stack => build .separator (frame.add v :: stack) rest
  | [] => ⟨v, rest.isEmpty⟩

/-- A token that is a value on its own is that value. -/
theorem build_scalar {place : Place} (hplace : place = .value ∨ place = .firstItem)
    (stack : List Frame) {t : Token} {v : Value} (hscalar : t.scalar? = some v)
    (rest : List Token) : build place stack (t :: rest) = settle stack v rest := by
  cases t with
  | null | truth | number | text =>
    rcases hplace with rfl | rfl <;> cases stack <;> simp [build, settle, hscalar]
  | _ => cases hscalar

/-- A list that ends. -/
theorem build_listClose (done : List Value) (stack : List Frame) (rest : List Token) :
    build .separator (.list done :: stack) (.listClose :: rest) =
      settle stack (.list done.reverse) rest := by
  cases stack <;> rfl

/-- A record that ends. -/
theorem build_recordClose (done : List (Value × Value)) (stack : List Frame)
    (rest : List Token) :
    build .separator (.record done none :: stack) (.recordClose :: rest) =
      settle stack (.record done.reverse) rest := by
  cases stack <;> rfl

/-- A key, and the colon behind it. -/
theorem build_key {place : Place} (hplace : place = .key ∨ place = .firstKey) (key : String)
    (done : List (Value × Value)) (stack : List Frame) (rest : List Token) :
    build place (.record done none :: stack) (.text (some key) :: .colon :: rest) =
      build .value (.record done (some (.text (some key))) :: stack) rest := by
  rcases hplace with rfl | rfl <;> rfl

mutual

/-- A value is built from its tokens, whatever is open around it and whatever follows. -/
theorem build_tokens (v : Value) (hplain : v.isPlain = true) {place : Place}
    (hplace : place = .value ∨ place = .firstItem) (stack : List Frame) (rest : List Token) :
    build place stack (v.tokens ++ rest) = settle stack v rest := by
  match v with
  | .null => exact build_scalar hplace stack rfl rest
  | .truth b => exact build_scalar hplace stack rfl rest
  | .number n => exact build_scalar hplace stack rfl rest
  | .text (some s) => exact build_scalar hplace stack rfl rest
  | .list items =>
    have hopen : build place stack (.listOpen :: (itemsTokens items ++ rest)) =
        build .firstItem (.list [] :: stack) (itemsTokens items ++ rest) := by
      rcases hplace with rfl | rfl <;> rfl
    rw [Value.tokens, List.cons_append, hopen]
    exact build_items items hplain (.inr rfl) (fun _ => rfl) [] stack rest
  | .record members =>
    have hopen : build place stack (.recordOpen :: (membersTokens members ++ rest)) =
        build .firstKey (.record [] none :: stack) (membersTokens members ++ rest) := by
      rcases hplace with rfl | rfl <;> rfl
    rw [Value.tokens, List.cons_append, hopen]
    exact build_members members hplain (.inr rfl) (fun _ => rfl) [] stack rest

theorem build_items (items : List Value) (hplain : itemsArePlain items = true)
    {place : Place} (hplace : place = .value ∨ place = .firstItem)
    (hempty : items = [] → place = .firstItem) (done : List Value)
    (stack : List Frame) (rest : List Token) :
    build place (.list done :: stack) (itemsTokens items ++ rest) =
      settle stack (.list (done.reverse ++ items)) rest := by
  match items with
  | [] =>
    obtain rfl := hempty rfl
    rw [List.append_nil]
    cases stack <;> rfl
  | [v] =>
    have hv : v.isPlain = true := by simpa [itemsArePlain] using hplain
    rw [itemsTokens, List.append_assoc, build_tokens v hv hplace]
    change build .separator (.list (v :: done) :: stack) (.listClose :: rest) = _
    rw [build_listClose, List.reverse_cons]
  | v :: w :: more =>
    obtain ⟨hv, hmore⟩ := Bool.and_eq_true_iff.mp hplain
    rw [itemsTokens, List.append_assoc, build_tokens v hv hplace]
    change build .value (.list (v :: done) :: stack) (itemsTokens (w :: more) ++ rest) = _
    rw [build_items (w :: more) hmore (.inl rfl) nofun, List.reverse_cons, List.append_assoc,
      List.singleton_append]

theorem build_members (members : List (Value × Value)) (hplain : membersArePlain members = true)
    {place : Place} (hplace : place = .key ∨ place = .firstKey)
    (hempty : members = [] → place = .firstKey) (done : List (Value × Value)) (stack : List Frame)
    (rest : List Token) :
    build place (.record done none :: stack) (membersTokens members ++ rest) =
      settle stack (.record (done.reverse ++ members)) rest := by
  match members with
  | [] =>
    obtain rfl := hempty rfl
    rw [List.append_nil]
    cases stack <;> rfl
  | [(.text (some key), v)] =>
    have hv : v.isPlain = true := by simpa [membersArePlain] using hplain
    rw [membersTokens, Value.tokens, List.append_assoc, List.append_assoc, List.singleton_append,
      List.cons_append, build_key hplace, build_tokens v hv (.inl rfl)]
    change build .separator (.record ((.text (some key), v) :: done) none :: stack)
      (.recordClose :: rest) = _
    rw [build_recordClose, List.reverse_cons]
  | (.text (some key), v) :: next :: more =>
    obtain ⟨hv, hmore⟩ := Bool.and_eq_true_iff.mp hplain
    rw [membersTokens, Value.tokens]
    simp only [List.append_assoc, List.cons_append, List.nil_append]
    rw [build_key hplace, build_tokens v hv (.inl rfl)]
    change build .key (.record ((.text (some key), v) :: done) none :: stack)
      (membersTokens (next :: more) ++ rest) = _
    rw [build_members (next :: more) hmore (.inl rfl) nofun, List.reverse_cons, List.append_assoc,
      List.singleton_append]

end

/-- A written value is read as it was, to its end. -/
theorem readText_render {v : Value} (hplain : v.isPlain = true) :
    readText v.render = ⟨v, true⟩ := by
  have hbuild := build_tokens v hplain (.inl rfl) [] []
  rw [List.append_nil] at hbuild
  rw [readText, readSource, Source.ofString, Value.render, String.toList_ofList,
    scan_toChars hplain, hbuild]
  rfl

/-- What a reader makes of a written value is what it makes of the value. -/
theorem decodeText_render {α : Type} (read : Value → Decoded α) {v : Value}
    (hplain : v.isPlain = true) : decodeText read v.render = read v := by
  have hread : readSource (Source.ofString v.render) = ⟨v, true⟩ := readText_render hplain
  rw [decodeText, decodeSource, hread]
  cases read v <;> rfl

end Json

end WaitingRoom
