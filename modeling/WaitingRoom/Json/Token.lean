import WaitingRoom.Json.Numeral

/-!
# Tokens of a JSON text

A text is read as a row of tokens. Where no token can be read, the row ends in
`broken`, so that whoever works through it from the left meets the earliest trouble
first. The input is a row of characters in which a gap stands for bytes that encode
none; a gap is harmless inside a text that nobody looks at.
-/

namespace WaitingRoom.Json

/-- Characters to read; `none` stands for bytes that encode no character. -/
abbrev Source := List (Option Char)

/-- The source a text is. -/
def Source.ofString (s : String) : Source := s.toList.map some

/-- The smallest parts of a JSON text. The content of a text is absent when escapes
name half a character or bytes encode none. -/
inductive Token
  | listOpen
  | listClose
  | recordOpen
  | recordClose
  | comma
  | colon
  | null
  | truth (value : Bool)
  | number (value : Numeral)
  | text (content : Option String)
  | broken
  deriving DecidableEq, Repr

namespace Token

/-- The four blanks between tokens. -/
def isSpace (c : Char) : Bool := c == ' ' || c == '\n' || c == '\t' || c == '\r'

/-- The longest run of digits in front, put behind the digits `done` that are given
last digit first. -/
def takeDigits (done : List Char) : Source → List Char × Source
  | some c :: rest =>
    if Text.isDigit c then takeDigits (c :: done) rest else (done.reverse, some c :: rest)
  | rest => (done.reverse, rest)

/-- The fraction in front, if a point is; `none` if no digit follows the point. -/
def takeFraction : Source → Option (List Char × Source)
  | some '.' :: rest =>
    let (ds, rest) := takeDigits [] rest
    if ds.isEmpty then none else some (ds, rest)
  | rest => some ([], rest)

/-- The sign in front of an exponent's digits; true for minus. -/
def takeSign : Source → Bool × Source
  | some '-' :: rest => (true, rest)
  | some '+' :: rest => (false, rest)
  | rest => (false, rest)

/-- The exponent in front, if there is one; `none` if its digits are missing. -/
def takeExponent (s : Source) : Option (Option (Bool × List Char) × Source) :=
  match s with
  | some c :: rest =>
    if c == 'e' || c == 'E' then
      let (negative, rest) := takeSign rest
      let (ds, rest) := takeDigits [] rest
      if ds.isEmpty then none else some (some (negative, ds), rest)
    else some (none, s)
  | [] | none :: _ => some (none, s)

/-- The number that begins with the digit `first`: no digit may follow a leading zero. -/
def takeNumber (negative : Bool) (first : Char) (s : Source) : Option (Numeral × Source) :=
  let (whole, rest) := takeDigits [first] s
  if first == '0' && whole.length != 1 then none
  else
    match takeFraction rest with
    | none => none
    | some (fraction, rest) =>
      match takeExponent rest with
      | none => none
      | some (exponent, rest) => some (⟨negative, whole, fraction, exponent⟩, rest)

/-- The character a one-letter escape stands for. -/
def escaped? : Char → Option Char
  | '"' => some '"'
  | '\\' => some '\\'
  | '/' => some '/'
  | 'b' => some '\x08'
  | 'f' => some '\x0C'
  | 'n' => some '\n'
  | 'r' => some '\r'
  | 't' => some '\t'
  | _ => none

/-- The number four hexadecimal digits form. -/
def hex4? (a b c d : Option Char) : Option Nat := do
  let a ← a >>= Text.hexValue?
  let b ← b >>= Text.hexValue?
  let c ← c >>= Text.hexValue?
  let d ← d >>= Text.hexValue?
  return 4096 * a + 256 * b + 16 * c + d

/-- Whether a code unit is the first half of a character. -/
def isFirstHalf (n : Nat) : Bool := 0xD800 ≤ n && n < 0xDC00

/-- Whether a code unit is the second half of a character. -/
def isSecondHalf (n : Nat) : Bool := 0xDC00 ≤ n && n < 0xE000

/-- The character two halves form. -/
def joinHalves (first second : Nat) : Char :=
  Char.ofNat (0x10000 + (first - 0xD800) * 0x400 + (second - 0xDC00))

/-- Reads a text to its closing quote. `done` holds what is read, last character
first, `sound` says whether all of it could be decoded, and `half` is a first half
whose second half must come next. -/
def takeText (done : List Char) (sound : Bool) (half : Option Nat) :
    Source → Option (Option String × Source)
  | [] => none
  | some '\\' :: some 'u' :: a :: b :: c :: d :: rest =>
    match hex4? a b c d with
    | none => none
    | some n =>
      if isFirstHalf n then takeText done (sound && half.isNone) (some n) rest
      else if isSecondHalf n then
        match half with
        | some first => takeText (joinHalves first n :: done) sound none rest
        | none => takeText done false none rest
      else takeText (Char.ofNat n :: done) (sound && half.isNone) none rest
  | some '\\' :: some e :: rest =>
    match escaped? e with
    | none => none
    | some c => takeText (c :: done) (sound && half.isNone) none rest
  | some c :: rest =>
    if c == '"' then
      some (if sound && half.isNone then some (String.ofList done.reverse) else none, rest)
    else if c == '\\' || c < ' ' then none
    else takeText (c :: done) (sound && half.isNone) none rest
  | none :: rest => takeText done false none rest

/-- What is left of `s` when it begins with `word`. -/
def takeWord : (word : List Char) → (s : Source) → Option Source
  | [], s => some s
  | w :: word, some c :: rest => if c == w then takeWord word rest else none
  | _ :: _, _ => none

/-- The token that begins with the character `c`, and what follows it. -/
def takeToken (c : Char) (rest : Source) : Option (Token × Source) :=
  match c with
  | '[' => some (listOpen, rest)
  | ']' => some (listClose, rest)
  | '{' => some (recordOpen, rest)
  | '}' => some (recordClose, rest)
  | ',' => some (comma, rest)
  | ':' => some (colon, rest)
  | '"' => (takeText [] true none rest).map fun (content, rest) => (text content, rest)
  | 'n' => (takeWord ['u', 'l', 'l'] rest).map fun rest => (null, rest)
  | 't' => (takeWord ['r', 'u', 'e'] rest).map fun rest => (truth true, rest)
  | 'f' => (takeWord ['a', 'l', 's', 'e'] rest).map fun rest => (truth false, rest)
  | '-' =>
    match rest with
    | some d :: rest =>
      if Text.isDigit d then (takeNumber true d rest).map fun (n, rest) => (number n, rest)
      else none
    | _ => none
  | c =>
    if Text.isDigit c then (takeNumber false c rest).map fun (n, rest) => (number n, rest)
    else none

/-! Every token uses up part of the input. -/

theorem takeDigits_length (done : List Char) (s : Source) :
    (takeDigits done s).2.length ≤ s.length := by
  induction s generalizing done with
  | nil => simp [takeDigits]
  | cons c rest ih =>
    cases c with
    | none => simp [takeDigits]
    | some c =>
      rw [takeDigits]
      split
      · exact Nat.le_succ_of_le (ih _)
      · simp

theorem takeFraction_length {s rest : Source} {ds : List Char}
    (h : takeFraction s = some (ds, rest)) : rest.length ≤ s.length := by
  unfold takeFraction at h
  split at h
  · rename_i tail
    have key := takeDigits_length [] tail
    dsimp only at h
    split at h
    · simp at h
    · simp only [Option.some.injEq, Prod.mk.injEq] at h
      rw [← h.2, List.length_cons]
      omega
  · simp_all

theorem takeSign_length (s : Source) : (takeSign s).2.length ≤ s.length := by
  unfold takeSign
  split <;> simp

theorem takeExponent_length {s rest : Source} {e : Option (Bool × List Char)}
    (h : takeExponent s = some (e, rest)) : rest.length ≤ s.length := by
  unfold takeExponent at h
  split at h
  · rename_i c tail
    have sign := takeSign_length tail
    have key := takeDigits_length [] (takeSign tail).2
    split at h
    · dsimp only at h
      split at h
      · simp at h
      · simp only [Option.some.injEq, Prod.mk.injEq] at h
        rw [← h.2, List.length_cons]
        omega
    · simp_all
  · simp_all
  · simp_all

theorem takeNumber_length {negative : Bool} {first : Char} {s rest : Source} {n : Numeral}
    (h : takeNumber negative first s = some (n, rest)) : rest.length ≤ s.length := by
  unfold takeNumber at h
  have key := takeDigits_length [first] s
  dsimp only at h
  split at h
  · simp at h
  · split at h
    · simp at h
    · rename_i fraction
      split at h
      · simp at h
      · rename_i exponent
        have := takeFraction_length fraction
        have := takeExponent_length exponent
        simp only [Option.some.injEq, Prod.mk.injEq] at h
        rw [← h.2]
        omega

theorem takeText_length {done : List Char} {sound : Bool} {half : Option Nat} {s rest : Source}
    {content : Option String} (h : takeText done sound half s = some (content, rest)) :
    rest.length ≤ s.length := by
  fun_induction takeText done sound half s with
  | case1 | case2 | case7 | case10 =>
    -- there is no closing quote, or what is read before it makes no sense
    cases h
  | case3 | case4 | case5 | case6 =>
    -- an escape of four digits
    rename_i ih
    exact Nat.le_trans (ih h) (Nat.le_add_right _ 6)
  | case8 =>
    -- an escape of one letter
    rename_i ih
    exact Nat.le_trans (ih h) (Nat.le_add_right _ 2)
  | case9 =>
    -- the closing quote
    cases h
    exact Nat.le_add_right _ 1
  | case11 | case12 =>
    -- a character that stands for itself, or a gap
    rename_i ih
    exact Nat.le_trans (ih h) (Nat.le_add_right _ 1)

theorem takeWord_length {word : List Char} {s rest : Source} (h : takeWord word s = some rest) :
    rest.length ≤ s.length := by
  induction word generalizing s with
  | nil =>
    obtain rfl := Option.some.inj h
    exact Nat.le_refl _
  | cons w word ih =>
    match s with
    | [] | none :: _ => cases h
    | some c :: tail =>
      rw [takeWord] at h
      split at h
      · exact Nat.le_succ_of_le (ih h)
      · cases h

theorem takeToken_length {c : Char} {s rest : Source} {t : Token}
    (h : takeToken c s = some (t, rest)) : rest.length ≤ s.length := by
  unfold takeToken at h
  split at h <;> try (simp_all; done)
  · obtain ⟨⟨content, tail⟩, found, same⟩ := Option.map_eq_some_iff.1 h
    cases same
    exact takeText_length found
  iterate 3
    · obtain ⟨tail, found, same⟩ := Option.map_eq_some_iff.1 h
      cases same
      exact takeWord_length found
  · split at h
    · split at h
      · obtain ⟨⟨n, tail⟩, found, same⟩ := Option.map_eq_some_iff.1 h
        cases same
        exact Nat.le_succ_of_le (takeNumber_length found)
      · simp at h
    · simp at h
  · split at h
    · obtain ⟨⟨n, tail⟩, found, same⟩ := Option.map_eq_some_iff.1 h
      cases same
      exact takeNumber_length found
    · simp at h

/-- The tokens of a source, put behind the tokens `done` that are given last token
first. -/
def scanFrom (done : List Token) : Source → List Token
  | [] => done.reverse
  | none :: _ => (broken :: done).reverse
  | some c :: rest =>
    if isSpace c then scanFrom done rest
    else
      match _h : takeToken c rest with
      | none => (broken :: done).reverse
      | some (t, after) => scanFrom (t :: done) after
termination_by s => s.length
decreasing_by
  · simp
  · exact Nat.lt_succ_of_le (takeToken_length _h)

/-- The tokens of a source, left to right, as far as it can be read. -/
def scan (s : Source) : List Token := scanFrom [] s

end Token

end WaitingRoom.Json
