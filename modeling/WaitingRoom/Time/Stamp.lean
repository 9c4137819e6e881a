import WaitingRoom.Text.Blank
import WaitingRoom.Text.Decimal
import WaitingRoom.Time.Calendar
import WaitingRoom.Time.Instant

/-!
# Time stamps

Instants as texts. They are written in one form, in Coordinated Universal Time with
as many digits of a second as are needed, three at a time; reading is lenient about
blanks, leading zeros and the spelling of the offset.
-/

namespace WaitingRoom.Time

/-- Seconds of a day. -/
def secondsPerDay : Nat := 86400

namespace Stamp

/-- A year: four digits, or a sign and at least four digits outside 0 to 9999. -/
def yearChars (year : Int) : List Char :=
  let n := year.natAbs
  let ds := if n < 10000 then Text.paddedDigits 4 n else Text.digits n
  if 0 ≤ year && year < 10000 then ds else (if year < 0 then '-' else '+') :: ds

/-- The nanoseconds after the point, in the fewest groups of three digits. -/
def fractionChars (nano : Nat) : List Char :=
  if nano == 0 then []
  else if nano % 1000000 == 0 then '.' :: Text.paddedDigits 3 (nano / 1000000)
  else if nano % 1000 == 0 then '.' :: Text.paddedDigits 6 (nano / 1000)
  else '.' :: Text.paddedDigits 9 nano

/-- The characters of a time stamp up to its whole seconds; a leap second is written as
the sixtieth. -/
def wholeChars (t : Instant) : List Char :=
  let date := Date.ofDays (t.second / secondsPerDay)
  let time := (t.second % secondsPerDay).toNat
  let second := time % 60 + t.nano / nanosPerSecond
  yearChars date.year ++ '-' :: Text.paddedDigits 2 date.month ++
    '-' :: Text.paddedDigits 2 date.day ++ 'T' :: Text.paddedDigits 2 (time / 3600) ++
    ':' :: Text.paddedDigits 2 (time / 60 % 60) ++ ':' :: Text.paddedDigits 2 second

/-- The characters of a time stamp. -/
def toChars (t : Instant) : List Char :=
  wholeChars t ++ fractionChars (t.nano % nanosPerSecond) ++ ['Z']

/-- The text of an instant. -/
def render (t : Instant) : String := String.ofList (toChars t)

/-- At most `most` digits in front, at least one, and what follows them. -/
def number? (most : Nat) (cs : List Char) : Option (Nat × List Char) :=
  let ds := (cs.take most).takeWhile Text.isDigit
  if ds.isEmpty then none else some (Text.valueOf ds, cs.drop ds.length)

/-- A field of at most two digits, blanks in front allowed. -/
def field? (cs : List Char) : Option (Nat × List Char) := number? 2 (Text.dropBlanks cs)

/-- A year, blanks in front allowed: at most four digits, or a sign and any number. -/
def year? (cs : List Char) : Option (Int × List Char) :=
  match Text.dropBlanks cs with
  | '-' :: rest => (number? rest.length rest).map fun (n, rest) => (-(n : Int), rest)
  | '+' :: rest => (number? rest.length rest).map fun (n, rest) => ((n : Int), rest)
  | rest => (number? 4 rest).map fun (n, rest) => ((n : Int), rest)

/-- What follows the character `mark`, blanks in front of it allowed. -/
def mark? (mark : Char) (cs : List Char) : Option (List Char) :=
  match Text.dropBlanks cs with
  | c :: rest => if c == mark then some rest else none
  | [] => none

/-- What follows the letter T, in either case, or at least one blank. -/
def timeMark? (cs : List Char) : Option (List Char) :=
  match cs with
  | c :: rest =>
    if c == 'T' || c == 't' then some rest
    else if Text.isBlank c then some (Text.dropBlanks rest)
    else none
  | [] => none

/-- The nanoseconds a fraction stands for, if there is one: the digits after the ninth
are dropped. -/
def fraction? (cs : List Char) : Option (Nat × List Char) :=
  match cs with
  | '.' :: rest =>
    let ds := rest.takeWhile Text.isDigit
    let kept := ds.take 9
    if ds.isEmpty then none
    else some (Text.valueOf kept * Nat.pow 10 (9 - kept.length), rest.drop ds.length)
  | rest => some (0, rest)

/-- Two digits, and what follows them. -/
def twoDigits? (cs : List Char) : Option (Nat × List Char) :=
  match cs with
  | a :: b :: rest =>
    if Text.isDigit a && Text.isDigit b then some (Text.valueOf [a, b], rest) else none
  | _ => none

/-- The seconds by which local time is ahead: `Z`, `UTC`, or a sign, hours and minutes,
with any colons and blanks between them. -/
def offset? (cs : List Char) : Option (Int × List Char) :=
  match cs with
  | 'Z' :: rest | 'z' :: rest => some (0, rest)
  | sign :: rest =>
    if Text.sameIgnoringAsciiCase (cs.take 3) ['U', 'T', 'C'] then some (0, cs.drop 3)
    else if sign == '+' || sign == '-' || sign == Char.ofNat 0x2212 then do
      let (hours, rest) ← twoDigits? rest
      let (minutes, rest) ← twoDigits? (rest.dropWhile fun c => c == ':' || Text.isBlank c)
      if 60 ≤ minutes || 24 ≤ hours then none
      else
        let seconds : Int := hours * 3600 + minutes * 60
        some (if sign == '+' then seconds else -seconds, rest)
    else none
  | [] => none

/-- Reads a time stamp, blanks at either end allowed. -/
def parse? (s : String) : Option Instant := do
  let (year, cs) ← year? s.toList
  let cs ← mark? '-' cs
  let (month, cs) ← field? cs
  let cs ← mark? '-' cs
  let (day, cs) ← field? cs
  let cs ← timeMark? cs
  let (hour, cs) ← field? cs
  let cs ← mark? ':' cs
  let (minute, cs) ← field? cs
  let cs ← mark? ':' cs
  let (second, cs) ← field? cs
  let (nano, cs) ← fraction? cs
  let (offset, cs) ← offset? (Text.dropBlanks cs)
  let date : Date := ⟨year, month, day⟩
  if !(Text.dropBlanks cs).isEmpty || !date.isValid || 24 ≤ hour || 60 ≤ minute || 60 < second then
    none
  else if year < -262143 || 262142 < year then none
  else
    let leap := second == 60
    let civil : Int := date.toDays * secondsPerDay + hour * 3600 + minute * 60 +
      (if leap then 59 else second)
    Instant.of? (civil - offset) (if leap then nanosPerSecond + nano else nano)

end Stamp

end WaitingRoom.Time
