import EntityRest.Calendar.TimeOfDay

/-!
# Timestamps

An instant as a date and a time of day in UTC.
-/

namespace EntityRest

/-- An instant, by its date and time in UTC. -/
structure Timestamp where
  date : Date
  time : TimeOfDay
deriving DecidableEq

namespace Timestamp

def epoch : Timestamp := ⟨.epoch, .midnight⟩

instance : Inhabited Timestamp := ⟨epoch⟩

/-- Midnight of a date. -/
def ofDate (d : Date) : Timestamp := ⟨d, .midnight⟩

/-- Whole seconds since the epoch; a leap second counts as the second before it. -/
def toUnix (t : Timestamp) : Int := t.date.toDays * 86400 + t.time.seconds

/-- The instant so many seconds and nanoseconds after the epoch, if it is within range. -/
def ofUnix? (seconds : Int) (nanos : Nat) : Option Timestamp := do
  let date ← Date.ofDays? (seconds.fdiv 86400)
  let time ← TimeOfDay.ofSeconds? (seconds.fmod 86400).toNat nanos
  return ⟨date, time⟩

/-- The instant a number of minutes earlier; a leap second stays one. -/
def minusMinutes? (t : Timestamp) (minutes : Int) : Option Timestamp :=
  if minutes = 0 then some t else ofUnix? (t.toUnix - minutes * 60) t.time.nanos

/-- Nanoseconds from one instant to another, a leap second counted in full. -/
def nanosSince (origin t : Timestamp) : Int :=
  (t.toUnix - origin.toUnix) * TimeOfDay.second + t.time.nanos - origin.time.nanos

/-- Date and time joined by `T`, and `Z` for UTC. -/
def render (t : Timestamp) : List Char := t.date.render ++ 'T' :: t.time.render ++ ['Z']

end Timestamp

end EntityRest
