import WaitingRoom.Text.LetterCase

/-!
# Lower case

Lower-casing a text by Unicode's full mapping. All characters map on their own
except the capital sigma, which becomes the final form at the end of a word, and
the dotted capital i, which becomes two characters.
-/

namespace WaitingRoom.Text

/-- The run of the mapping table a code point lies in. -/
def lowerCaseRun? (n : Nat) : Option (Nat × Nat × Nat × Int) :=
  lowerCaseRuns.find? fun (first, last, step, _) =>
    first ≤ n && n ≤ last && (n - first) % step == 0

/-- The lower case of one character, the capital sigma in its inner form. -/
def lowerChar (c : Char) : List Char :=
  let n := c.toNat
  if n < 128 then [c.toLower]
  else if n == 0x130 then ['i', Char.ofNat 0x307]
  else match lowerCaseRun? n with
    | some (_, _, _, shift) => [Char.ofNat ((n : Int) + shift).toNat]
    | none => [c]

/-- Whether the first character that is not case-ignorable is a cased one. -/
def reachesCased (cs : List Char) : Bool :=
  match cs.dropWhile isCaseIgnorable with
  | c :: _ => isCased c
  | [] => false

/-- The capital letter sigma. -/
def capitalSigma : Char := Char.ofNat 0x3A3

/-- The small letter sigma as it is written within a word. -/
def innerSigma : Char := Char.ofNat 0x3C3

/-- The small letter sigma as it is written at the end of a word. -/
def finalSigma : Char := Char.ofNat 0x3C2

/-- The lower case of `rest`, where `before` holds the characters in front of it,
last character first. A capital sigma is final when a cased letter precedes it and
none follows, case-ignorable characters aside. -/
def lowerFrom (before : List Char) : List Char → List Char
  | [] => []
  | c :: rest =>
    let here :=
      if c == capitalSigma then
        if reachesCased before && !reachesCased rest then [finalSigma] else [innerSigma]
      else lowerChar c
    here ++ lowerFrom (c :: before) rest

/-- The lower case of a text. -/
def lowerCase (s : String) : List Char := lowerFrom [] s.toList

/-- Whether `needle` stands in `cs` as a contiguous run. -/
def occursIn (needle : List Char) : List Char → Bool
  | [] => needle.isEmpty
  | c :: rest => needle.isPrefixOf (c :: rest) || occursIn needle rest

/-- One text occurs in another if it is a stretch of it. -/
theorem occursIn_iff {needle cs : List Char} : occursIn needle cs = true ↔ needle <:+: cs := by
  induction cs with
  | nil => simp [occursIn]
  | cons c rest ih => simp [occursIn, ih, List.infix_cons_iff]

end WaitingRoom.Text
