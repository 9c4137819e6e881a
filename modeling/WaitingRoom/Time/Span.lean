import WaitingRoom.Text.Blank
import WaitingRoom.Text.Decimal

/-!
# Spans of time

Lengths of time as settings spell them: a row of numbers with units, such as
`1h 30m` or `1.5s`. A span is exact to the nanosecond; a text whose numbers do not fit
in 64 bits, or whose fractions come to no whole unit, is refused.
-/

namespace WaitingRoom.Time

/-- A length of time. -/
structure Span where
  nanos : Nat
  deriving DecidableEq, Repr, Inhabited

/-- A unit of time. -/
inductive TimeUnit
  | nanosecond
  | microsecond
  | millisecond
  | second
  | minute
  | hour
  | day
  | week
  | month
  | year
  deriving DecidableEq, Repr

namespace TimeUnit

/-- The names of a unit. -/
def names : TimeUnit → List String
  | nanosecond => ["nanos", "nsec", "ns"]
  | microsecond => ["usec", "us", "\u00b5s"]
  | millisecond => ["millis", "msec", "ms"]
  | second => ["seconds", "second", "secs", "sec", "s"]
  | minute => ["minutes", "minute", "min", "mins", "m"]
  | hour => ["hours", "hour", "hr", "hrs", "h"]
  | day => ["days", "day", "d"]
  | week => ["weeks", "week", "wk", "wks", "w"]
  | month => ["months", "month", "M"]
  | year => ["years", "year", "yr", "yrs", "y"]

/-- All units. -/
def all : List TimeUnit :=
  [nanosecond, microsecond, millisecond, second, minute, hour, day, week, month, year]

/-- The unit of a name. -/
def ofName? (name : String) : Option TimeUnit := all.find? fun u => u.names.contains name

/-- The nanoseconds of a unit shorter than a second; nothing for the others. -/
def subsecond : TimeUnit → Nat
  | nanosecond => 1
  | microsecond => 1000
  | millisecond => 1000000
  | _ => 0

/-- The seconds of a unit; nothing for those shorter than a second. A month is a
twelfth of a year, a year 365 and a quarter days. -/
def seconds : TimeUnit → Nat
  | nanosecond | microsecond | millisecond => 0
  | second => 1
  | minute => 60
  | hour => 3600
  | day => 86400
  | week => 604800
  | month => 2630016
  | year => 31557600

/-- The length of a unit in nanoseconds. -/
def nanos (u : TimeUnit) : Nat := u.seconds * 1000000000 + u.subsecond

/-- Whether fractions of the unit must come to whole seconds. -/
def isCoarse (u : TimeUnit) : Bool := 3600 ≤ u.seconds

end TimeUnit

/-- A number with a unit: the digits before the point, those after it if there is one,
and the unit's name. -/
structure SpanPart where
  whole : List Char
  fraction : Option (List Char)
  unitName : List Char
  deriving DecidableEq, Repr

/-- Why a text is no span. A carry beyond the last second is told apart, since it does
not merely refuse the text. -/
inductive SpanFault
  | unreadable
  | carryOverflow
  deriving DecidableEq, Repr

namespace Span

/-- Whether a character may stand in the name of a unit. -/
def isUnitLetter (c : Char) : Bool := Text.isLetter c || c == Char.ofNat 0xB5

/-- Whether a character may stand within a number; blanks are skipped there. -/
def isNumberChar (c : Char) : Bool := Text.isDigit c || Text.isBlank c

/-- The part in front, and what follows it; the text begins with a digit. A part ends
at a blank or where the next part begins. -/
def takePart (cs : List Char) : Option (SpanPart × List Char) :=
  let whole := (cs.takeWhile isNumberChar).filter Text.isDigit
  let (fraction, rest) : Option (List Char) × List Char :=
    match cs.dropWhile isNumberChar with
    | '.' :: rest =>
      (some ((rest.takeWhile isNumberChar).filter Text.isDigit), rest.dropWhile isNumberChar)
    | rest => (none, rest)
  let unitName := rest.takeWhile isUnitLetter
  let rest := rest.dropWhile isUnitLetter
  match rest with
  | c :: _ =>
    if fraction == some [] || !isNumberChar c then none
    else some (⟨whole, fraction, unitName⟩, rest)
  | [] => if fraction == some [] then none else some (⟨whole, fraction, unitName⟩, [])

/-- The parts of a text, from the left up to the first that cannot be read, and whether
that was all of the text. `budget` is at least the number of parts. -/
def partsWithin : (budget : List Char) → List Char → List SpanPart × Bool
  | budget, cs =>
    match Text.dropBlanks cs with
    | [] => ([], true)
    | c :: rest =>
      if !Text.isDigit c then ([], false)
      else
        match budget with
        | [] => ([], false)
        | _ :: budget =>
          match takePart (c :: rest) with
          | none => ([], false)
          | some (part, rest) =>
            let (parts, complete) := partsWithin budget rest
            (part :: parts, complete)

/-- The parts of a text. -/
def parts (cs : List Char) : List SpanPart × Bool := partsWithin cs cs

/-- Whether a number fits in 64 bits. -/
def fits (n : Nat) : Bool := n < Nat.pow 2 64

/-- Adds seconds and nanoseconds to a sum of nanoseconds. -/
def addTo (total seconds nanos : Nat) : Except SpanFault Nat :=
  let nano := total % 1000000000 + nanos
  let carry := if 1000000000 < nano then nano / 1000000000 else 0
  let sum := total + seconds * 1000000000 + nanos
  if !fits nano || !fits (total / 1000000000 + seconds + carry) then .error .unreadable
  else if !fits (sum / 1000000000) then .error .carryOverflow
  else .ok sum

/-- A product that fits in 64 bits, divided without a rest. -/
def exactShare (numerator factor denominator : Nat) : Except SpanFault Nat :=
  if fits (numerator * factor) && numerator * factor % denominator == 0 then
    .ok (numerator * factor / denominator)
  else .error .unreadable

/-- Adds a part to a sum of nanoseconds. -/
def addPart (total : Nat) (part : SpanPart) : Except SpanFault Nat :=
  let whole := Text.valueOf part.whole
  if !fits whole then .error .unreadable
  else if (part.fraction.getD []).length > 19 then .error .unreadable
  else
    match TimeUnit.ofName? (String.ofList part.unitName) with
    | none => .error .unreadable
    | some u =>
      if !fits (whole * u.seconds) || !fits (whole * u.subsecond) then .error .unreadable
      else do
        let total ← addTo total (whole * u.seconds) (whole * u.subsecond)
        match part.fraction with
        | none => .ok total
        | some ds =>
          let numerator := Text.valueOf ds
          let denominator := Nat.pow 10 ds.length
          if u == .nanosecond then .error .unreadable
          else if u.isCoarse then
            addTo total (← exactShare numerator u.seconds denominator) 0
          else
            addTo total 0 (← exactShare numerator u.nanos denominator)

/-- Reads a span: one or more parts. -/
def parse (s : String) : Except SpanFault Span := do
  let (parts, complete) := parts s.toList
  let total ← parts.foldlM addPart 0
  if complete && !parts.isEmpty then .ok ⟨total⟩ else .error .unreadable

/-- What a setting says about a wait. -/
inductive WaitSetting
  | off
  | after (wait : Span)
  | refused
  | carryOverflow
  deriving DecidableEq, Repr

/-- Reads a wait: a blank text, a lone dash and a span of no length turn it off. -/
def parseWait (s : String) : WaitSetting :=
  let s := Text.trim s
  if s.isEmpty || s == "-" then .off
  else
    match parse s with
    | .ok wait => if wait.nanos == 0 then .off else .after wait
    | .error .unreadable => .refused
    | .error .carryOverflow => .carryOverflow

/-- The whole seconds of a span. -/
def seconds (s : Span) : Nat := s.nanos / 1000000000

/-- The nanoseconds of a span beyond its whole seconds. -/
def subsecondNanos (s : Span) : Nat := s.nanos % 1000000000

end Span

end WaitingRoom.Time
