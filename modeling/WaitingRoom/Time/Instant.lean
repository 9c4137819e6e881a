/-!
# Instants

Points in time with a resolution of nanoseconds, as far as the calendar's years reach.
A leap second belongs to the last second of a minute: its nanoseconds go on counting
past a full second.
-/

namespace WaitingRoom.Time

/-- Nanoseconds of a second. -/
def nanosPerSecond : Nat := 1000000000

/-- The first second of the year -262143, counted from the beginning of 1970. -/
def firstSecond : Int := -8334601228800

/-- The last second of the year 262142, counted from the beginning of 1970. -/
def lastSecond : Int := 8210266876799

/-- A point in time: the second, counted from the beginning of 1970, and the
nanoseconds since that second began. -/
@[ext] structure Instant where
  second : Int
  nano : Nat
  first_le : firstSecond ≤ second
  le_last : second ≤ lastSecond
  nano_lt : nano < nanosPerSecond ∨ nano < 2 * nanosPerSecond ∧ second % 60 = 59
  deriving DecidableEq

namespace Instant

/-- The instant with the given second and nanoseconds, if there is one. -/
def of? (second : Int) (nano : Nat) : Option Instant :=
  if h : firstSecond ≤ second ∧ second ≤ lastSecond ∧
      (nano < nanosPerSecond ∨ nano < 2 * nanosPerSecond ∧ second % 60 = 59) then
    some ⟨second, nano, h.1, h.2.1, h.2.2⟩
  else none

/-- The beginning of 1970. -/
def epoch : Instant := ⟨0, 0, by decide, by decide, by decide⟩

instance : Inhabited Instant := ⟨epoch⟩

/-- Whether the instant lies within a leap second. -/
def isLeap (t : Instant) : Bool := nanosPerSecond ≤ t.nano

/-- Whether `a` comes before `b`. -/
def isBefore (a b : Instant) : Bool :=
  a.second < b.second || (a.second == b.second && a.nano < b.nano)

/-- How two instants compare. -/
def compareTo (a b : Instant) : Ordering :=
  (compare a.second b.second).then (compare a.nano b.nano)

/-- Whether `a` is `b` or comes before it. -/
def atMost (a b : Instant) : Bool := !isBefore b a

/-- The instant `nanos` nanoseconds later, or earlier if negative, where there is one.
Leaving a leap second forwards costs no second; leaving it backwards does. -/
def shift? (t : Instant) (nanos : Int) : Option Instant :=
  let seconds := nanos.tdiv nanosPerSecond
  let part := nanos.tmod nanosPerSecond
  if t.isLeap && seconds == 0 && (t.nano : Int) + part < 2 * nanosPerSecond then
    of? t.second ((t.nano : Int) + part).toNat
  else
    let (second, nano) : Int × Int :=
      if !t.isLeap then (t.second, t.nano)
      else if 0 < nanos then (t.second, (t.nano : Int) - nanosPerSecond)
      else (t.second + 1, (t.nano : Int) - nanosPerSecond)
    let total := nano + part
    of? (second + seconds + total / nanosPerSecond) (total % nanosPerSecond).toNat

/-- The instant `millis` milliseconds later, or earlier if negative, where there is one. -/
def shiftMillis? (t : Instant) (millis : Int) : Option Instant := t.shift? (millis * 1000000)

/-- The whole milliseconds since 1970, rounded down; a leap second counts on. -/
def toMillis (t : Instant) : Int := t.second * 1000 + (t.nano / 1000000 : Nat)

/-- The instant of a number of milliseconds since 1970, if there is one. -/
def ofMillis? (millis : Int) : Option Instant :=
  of? (millis / 1000) ((millis % 1000).toNat * 1000000)

/-- The second with which the year 2000 began. -/
def millennium : Int := 946684800

/-- The whole microseconds since 2000, rounded toward that time; a leap second counts on. -/
def toMicros (t : Instant) : Int :=
  ((t.second - millennium) * nanosPerSecond + t.nano).tdiv 1000

/-- The instant of a number of microseconds since 2000, if there is one. -/
def ofMicros? (micros : Int) : Option Instant :=
  of? (millennium + micros / 1000000) ((micros % 1000000).toNat * 1000)

/-- The first instant there is. -/
def first : Instant := ⟨firstSecond, 0, by decide, by decide, by decide⟩

/-- The last instant there is. -/
def last : Instant := ⟨lastSecond, 999999999, by decide, by decide, by decide⟩

/-- The instant of a number of milliseconds since 1970; beyond either end of time it is
that end. -/
def ofMillis (millis : Int) : Instant :=
  (ofMillis? millis).getD (if millis < 0 then first else last)

end Instant

end WaitingRoom.Time
