import EntityRest.Calendar.Date

/-!
# Times of day

A second of the day and its nanoseconds. A leap second is kept as the second before it with a
billion nanoseconds more.
-/

namespace EntityRest

namespace TimeOfDay

/-- Nanoseconds in a second. -/
def second : Nat := 1000000000

/-- Is this a second of a day, with a second's worth of nanoseconds, or two seconds' worth at the
end of a minute? -/
def IsValid (seconds nanos : Nat) : Prop :=
  seconds < 86400 ∧ nanos < 2 * second ∧ (second ≤ nanos → seconds % 60 = 59)

instance (seconds nanos : Nat) : Decidable (IsValid seconds nanos) := by
  unfold IsValid; infer_instance

end TimeOfDay

structure TimeOfDay where
  seconds : Nat
  nanos : Nat
  valid : TimeOfDay.IsValid seconds nanos
deriving DecidableEq

namespace TimeOfDay

/-- The time of a second of the day and its nanoseconds, if there is one. -/
def ofSeconds? (seconds nanos : Nat) : Option TimeOfDay :=
  if h : IsValid seconds nanos then some ⟨seconds, nanos, h⟩ else none

/-- The time that a clock shows, if it can; it shows a leap second as second 60. -/
def ofClock? (hour minute sec nanos : Nat) : Option TimeOfDay :=
  if hour < 24 ∧ minute < 60 ∧ sec ≤ 60 ∧ nanos < second then
    if sec = 60 then ofSeconds? (hour * 3600 + minute * 60 + 59) (second + nanos)
    else ofSeconds? (hour * 3600 + minute * 60 + sec) nanos
  else none

def midnight : TimeOfDay := ⟨0, 0, by decide⟩

instance : Inhabited TimeOfDay := ⟨midnight⟩

/-- A fraction of a second: the fewest of 0, 3, 6 and 9 digits that are exact. -/
def renderFraction (nanos : Nat) : List Char :=
  if nanos = 0 then []
  else if nanos % 1000000 = 0 then '.' :: padded 3 (nanos / 1000000)
  else if nanos % 1000 = 0 then '.' :: padded 6 (nanos / 1000)
  else '.' :: padded 9 nanos

def render (t : TimeOfDay) : List Char :=
  padded 2 (t.seconds / 3600) ++ ':' :: padded 2 (t.seconds / 60 % 60) ++ ':' ::
    padded 2 (t.seconds % 60 + t.nanos / second) ++ renderFraction (t.nanos % second)

end TimeOfDay

end EntityRest
