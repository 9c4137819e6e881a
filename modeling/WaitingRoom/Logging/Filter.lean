import WaitingRoom.Logging.Entry
import WaitingRoom.Text.Ascii
import WaitingRoom.Text.Blank
import WaitingRoom.Text.Decimal
import WaitingRoom.Text.Percent

/-!
# Log filters

A filter is a row of directives, each of which says up to which level entries of a target
are let through. Targets match by their beginning, and the longest one decides; a
directive without a target is for all others. Directives may also name fields an entry
must have, and spans, which let nothing through on their own.
-/

namespace WaitingRoom.Logging

/-- Up to which level entries are let through. -/
inductive Threshold
  | off
  | upTo (level : Level)
  deriving DecidableEq, Repr

namespace Threshold

/-- All thresholds. -/
def all : List Threshold := off :: Level.all.map upTo

/-- The number of a threshold: that of the last level it lets through. -/
def rank : Threshold → Nat
  | off => 0
  | upTo level => level.rank

/-- The name of a threshold. -/
def name : Threshold → String
  | off => "off"
  | upTo level => level.name

/-- Whether an entry of a level is let through. -/
def admits (t : Threshold) (level : Level) : Bool := level.rank ≤ t.rank

/-- The more generous of two thresholds. -/
def max (a b : Threshold) : Threshold := if a.rank < b.rank then b else a

/-- Reads a threshold: its number, or its name in any case. -/
def parse? (s : String) : Option Threshold :=
  match Text.natural? 64 s >>= fun n => all.find? fun t => t.rank == n with
  | some t => some t
  | none =>
    if s.isEmpty then some (upTo .error)
    else all.find? fun t => Text.sameIgnoringAsciiCase t.name.toList s.toList

end Threshold

/-- A directive: the target it is for, if any, the span and the fields it names, and its
threshold. A field may be given with the value it must have. -/
structure Directive where
  target : Option String := none
  span : Option String := none
  fields : List String := []
  threshold : Threshold := .upTo .trace
  deriving DecidableEq, Repr

namespace Directive

/-- Where a directive's text has been read to, and at which character the part that is
being read began. -/
inductive Place
  | start
  | name (first : Nat)
  | span (first : Nat)
  | field (first : Nat)
  | fieldsEnd
  | spanEnd
  | threshold (first : Nat)
  deriving DecidableEq, Repr

/-- Whether a directive may begin with the character. Letters and digits beyond ASCII are
not told apart from other characters there. -/
def mayBegin (c : Char) : Bool :=
  Text.isLetter c || Text.isDigit c || c == '-' || c == ':' || c == '_' || 128 ≤ c.toNat

/-- The characters from one position up to another. -/
def cut (cs : List Char) (first last : Nat) : String :=
  String.ofList ((cs.drop first).take (last - first))

/-- Reads the character at a position. Parts are cut out of `cs`. -/
def step (cs : List Char) (d : Directive) (place : Place) (position : Nat) (c : Char) :
    Option (Directive × Place) :=
  match place with
  | .start =>
    if c == '[' then some (d, .span (position + 1))
    else if mayBegin c then some (d, .name position)
    else none
  | .name first =>
    if c == '=' then
      some ({ d with target := some (cut cs first position) }, .threshold (position + 1))
    else if c == '[' then
      some ({ d with target := some (cut cs first position) }, .span (position + 1))
    else some (d, place)
  | .span first =>
    if c == ']' then some ({ d with span := some (cut cs first position) }, .spanEnd)
    else if c == '{' then
      let name := cut cs first position
      some ({ d with span := if name.isEmpty then none else some name }, .field (position + 1))
    else some (d, place)
  | .field first =>
    if c == '}' then
      let name := cut cs first position
      if name.isEmpty then none
      else some ({ d with fields := d.fields ++ [name] }, .fieldsEnd)
    else some (d, place)
  | .fieldsEnd => if c == ']' then some (d, .spanEnd) else none
  | .spanEnd => if c == '=' then some (d, .threshold (position + 1)) else none
  | .threshold _ => some (d, place)

/-- Reads the characters from a position on. -/
def readFrom (cs : List Char) (d : Directive) (place : Place) (position : Nat) :
    List Char → Option (Directive × Place)
  | [] => some (d, place)
  | c :: rest => do
    let (d, place) ← step cs d place position c
    readFrom cs d place (position + 1) rest

/-- Reads a directive. Blanks at its ends are no characters of it, but its parts are cut
out of the text as it stands. A name that is that of a threshold is one. -/
def parse? (s : String) : Option Directive := do
  let cs := s.toList
  let (d, place) ← readFrom cs {} .start 0 (Text.strip cs)
  match place with
  | .name first =>
    let name := cut cs first cs.length
    match Threshold.parse? name with
    | some threshold => return { d with threshold }
    | none => return { d with target := some name }
  | .threshold first =>
    let name := cut cs first cs.length
    if name.isEmpty then return d
    else return { d with threshold := ← Threshold.parse? name }
  | .spanEnd => return d
  | _ => none

/-- The name of a field, without the value it must have. -/
def fieldName (field : String) : String := String.ofList (field.toList.takeWhile (· != '='))

/-- Whether a field is given with a value. -/
def hasValue (field : String) : Bool := field.toList.contains '='

/-- Whether a directive lets entries through by what they are. -/
def isStatic (d : Directive) : Bool := d.span.isNone && !d.fields.any hasValue

/-- Whether a directive lets entries through by the spans they are in. -/
def isDynamic (d : Directive) : Bool := d.span.isSome || !d.fields.isEmpty

/-- Whether a directive is for an entry. -/
def concerns (d : Directive) (e : Entry) : Bool :=
  (match d.target with
    | some target => target.toList.isPrefixOf e.target.toList
    | none => true) &&
  d.fields.all fun field => e.fieldNames.contains (fieldName field)

/-- How closely a directive says what it is for: by the length of its target, then by the
number of its fields. -/
def closeness (d : Directive) : Nat × Nat :=
  ((d.target.map fun t => t.utf8ByteSize + 1).getD 0, d.fields.length)

/-- Whether one directive says more closely than another what it is for. -/
def isCloser (a b : Directive) : Bool :=
  b.closeness.1 < a.closeness.1 ||
    (a.closeness.1 == b.closeness.1 && b.closeness.2 < a.closeness.2)

end Directive

/-- A filter: its directives in the order they were given. -/
structure Filter where
  directives : List Directive
  deriving DecidableEq, Repr

namespace Filter

/-- The directive that stands in where there is none. -/
def fallback : Directive := { threshold := .upTo .error }

/-- Reads a filter. Empty directives are passed over. -/
def parse? (s : String) : Option Filter := do
  let texts := ((Text.splitAt ',' s.toList).filter (!·.isEmpty)).map String.ofList
  let directives ← texts.mapM Directive.parse?
  return ⟨if directives.isEmpty then [fallback] else directives⟩

/-- The directive that decides on an entry: the one that says most closely what it is for,
and of equally close ones the last. -/
def deciding? (f : Filter) (e : Entry) : Option Directive :=
  (f.directives.filter fun d => d.isStatic && d.concerns e).foldl (fun best d =>
    match best with
    | some b => if b.isCloser d then best else some d
    | none => some d) none

/-- Whether an entry is let through. -/
def admits (f : Filter) (e : Entry) : Bool :=
  match f.deciding? e with
  | some d => d.threshold.admits e.level
  | none => false

/-- Up to which level anything is let through at all. What a span's fields will hold is not
known beforehand, so a directive that asks for a value admits all levels. -/
def mostVerbose (f : Filter) : Threshold :=
  if f.directives.any fun d => d.fields.any Directive.hasValue then .upTo .trace
  else f.directives.foldl (fun most d => most.max d.threshold) .off

/-- The filter of a service: that of the surroundings if it can be read, else that of the
configured level. -/
def choose? (surrounding : Option String) (level : String) : Option Filter :=
  match surrounding.bind parse? with
  | some f => some f
  | none => parse? level

end Filter

/-- A level is refused because no filter can be read from it. -/
def refusedLevel (level : String) : String := "Invalid log level '" ++ level ++ "': *"

end WaitingRoom.Logging
