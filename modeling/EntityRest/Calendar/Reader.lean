import EntityRest.Calendar.Timestamp
import EntityRest.Number.Decimal
import EntityRest.Text.Blank

/-!
# Reading dates and times

A lenient reader that follows a pattern of items, a strict reader for the internet form of
timestamps, and the order in which the known patterns are tried.
-/

namespace EntityRest.Calendar

open Decimal (isDigit ofDigits)

/-- One item of a pattern. -/
inductive Item where
  | year
  | month
  | day
  | hour
  | minute
  | second
  /-- An optional point with at least one digit; digits after the ninth are dropped. -/
  | fraction
  /-- Any run of blanks, also none. -/
  | space
  | literal (c : Char)
deriving DecidableEq

/-- What has been read so far. -/
structure Fields where
  year : Int := 0
  month : Nat := 0
  day : Nat := 0
  hour : Nat := 0
  minute : Nat := 0
  second : Nat := 0
  nanos : Nat := 0

/-- Reads between one and `width` digits. -/
def readNat? (width : Nat) (s : List Char) : Option (Nat × List Char) :=
  let ds := (s.takeWhile isDigit).take width
  if ds.isEmpty then none else some (ofDigits ds, s.drop ds.length)

/-- Reads a year: up to four digits, or a sign and any number of them. -/
def readYear? : List Char → Option (Int × List Char)
  | '-' :: s => (readNat? s.length s).map fun (n, r) => (-n, r)
  | '+' :: s => (readNat? s.length s).map fun (n, r) => (n, r)
  | s => (readNat? 4 s).map fun (n, r) => (n, r)

/-- Reads the digits of a fraction of a second, as nanoseconds. -/
def readNanos? (s : List Char) : Option (Nat × List Char) :=
  let ds := s.takeWhile isDigit
  if ds.isEmpty then none
  else
    let kept := ds.take 9
    some (ofDigits kept * Nat.pow 10 (9 - kept.length), s.dropWhile isDigit)

/-- Reads one item. Blanks before a number are skipped. -/
def Item.read? (item : Item) (f : Fields) (s : List Char) : Option (Fields × List Char) :=
  let two := readNat? 2 (Chars.trimLeft s)
  match item with
  | .year => (readYear? (Chars.trimLeft s)).map fun (n, r) => ({ f with year := n }, r)
  | .month => two.map fun (n, r) => ({ f with month := n }, r)
  | .day => two.map fun (n, r) => ({ f with day := n }, r)
  | .hour => two.map fun (n, r) => ({ f with hour := n }, r)
  | .minute => two.map fun (n, r) => ({ f with minute := n }, r)
  | .second => two.map fun (n, r) => ({ f with second := n }, r)
  | .fraction =>
    match s with
    | '.' :: t => (readNanos? t).map fun (n, r) => ({ f with nanos := n }, r)
    | _ => some (f, s)
  | .space => some (f, Chars.trimLeft s)
  | .literal c =>
    match s with
    | d :: t => if c = d then some (f, t) else none
    | [] => none

def readPattern? : List Item → Fields → List Char → Option Fields
  | [], f, s => if s.isEmpty then some f else none
  | item :: items, f, s =>
    match item.read? f s with
    | some (f, r) => readPattern? items f r
    | none => none

def Fields.date? (f : Fields) : Option Date := Date.ofYmd? f.year f.month f.day

def Fields.time? (f : Fields) : Option TimeOfDay :=
  TimeOfDay.ofClock? f.hour f.minute f.second f.nanos

/-- The instant of the fields, taken to be in UTC, if there is one. -/
def Fields.timestamp? (f : Fields) : Option Timestamp := do
  let date ← f.date?
  let time ← f.time?
  return ⟨date, time⟩

def datePattern : List Item := [.year, .literal '-', .month, .literal '-', .day]

def timePattern : List Item :=
  [.hour, .literal ':', .minute, .literal ':', .second, .fraction]

def shortTimePattern : List Item := [.hour, .literal ':', .minute]

/-- The patterns of a date with a time, in the order in which they are tried. -/
def timestampPatterns : List (List Item) :=
  [datePattern ++ .space :: timePattern, datePattern ++ .literal 'T' :: timePattern,
    datePattern ++ .space :: shortTimePattern]

def readDate? (s : List Char) : Option Date := (readPattern? datePattern {} s).bind Fields.date?

/-- The time that a whole text writes by a pattern. -/
def readTime? (pattern : List Item) (s : List Char) : Option TimeOfDay :=
  (readPattern? pattern {} s).bind Fields.time?

/-- Reads exactly `n` digits. -/
def exactly? (n : Nat) (s : List Char) : Option (Nat × List Char) :=
  let ds := s.take n
  if ds.length = n ∧ ds.all isDigit then some (ofDigits ds, s.drop n) else none

def char? (c : Char) : List Char → Option (List Char)
  | d :: s => if c = d then some s else none
  | [] => none

/-- Reads a whole offset from UTC, in minutes: `Z`, or a sign with hours and minutes. -/
def offset? : List Char → Option Int
  | ['Z'] | ['z'] => some 0
  | sign :: s => do
    let negative ←
      if sign = '+' then some false
      else if sign = '-' ∨ sign = '−' then some true else none
    let (hours, s) ← exactly? 2 s
    let s ← char? ':' s
    let (minutes, s) ← exactly? 2 s
    if !s.isEmpty || 23 < hours || 59 < minutes then none
    else
      let n : Int := hours * 60 + minutes
      some (if negative then -n else n)
  | [] => none

/-- The instant that a whole text writes in the strict internet form, with its offset. -/
def readInternet? (s : List Char) : Option Timestamp := do
  let (year, s) ← exactly? 4 s
  let s ← char? '-' s
  let (month, s) ← exactly? 2 s
  let s ← char? '-' s
  let (day, s) ← exactly? 2 s
  let s ← match s with
    | c :: t => if c = 'T' ∨ c = 't' ∨ c = ' ' then some t else none
    | [] => none
  let (hour, s) ← exactly? 2 s
  let s ← char? ':' s
  let (minute, s) ← exactly? 2 s
  let s ← char? ':' s
  let (second, s) ← exactly? 2 s
  let (nanos, s) ← match s with
    | '.' :: t => readNanos? t
    | t => some (0, t)
  let offset ← offset? s
  let t ← Fields.timestamp? ⟨year, month, day, hour, minute, second, nanos⟩
  t.minusMinutes? offset

end EntityRest.Calendar

namespace EntityRest

/-- Reads an instant: the internet form first, then a date with a time in UTC, then a date alone,
which stands for its midnight. -/
def Timestamp.ofText? (s : List Char) : Option Timestamp :=
  let s := Chars.trim s
  match Calendar.readInternet? s with
  | some t => some t
  | none =>
    match Calendar.timestampPatterns.findSome? fun pattern =>
        (Calendar.readPattern? pattern {} s).bind Calendar.Fields.timestamp? with
    | some t => some t
    | none => (Calendar.readDate? s).map Timestamp.ofDate

/-- Reads a date: alone, or as the UTC date of an instant. -/
def Date.ofText? (s : List Char) : Option Date :=
  let s := Chars.trim s
  match Calendar.readDate? s with
  | some d => some d
  | none => (Timestamp.ofText? s).map Timestamp.date

/-- Reads a time of day, with or without seconds. -/
def TimeOfDay.ofText? (s : List Char) : Option TimeOfDay :=
  let s := Chars.trim s
  match Calendar.readTime? Calendar.timePattern s with
  | some t => some t
  | none => Calendar.readTime? Calendar.shortTimePattern s

end EntityRest
