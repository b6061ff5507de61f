import EntityRest.Proofs.Calendar.Digits

/-! # Dates and times are read back

The lenient patterns read every date and every time of day back from its text, with any year and
with leap seconds. The strict form of an instant has room for four digits of the year and no sign,
and no other reader takes the letter that stands for UTC: an instant is read back exactly if its
year is one of these. -/

namespace EntityRest

open Decimal (isDigit)

namespace Calendar

variable {rest : List Char}

/-! ## Parts of dates and times -/

def Fields.withDate (f : Fields) (d : Date) : Fields :=
  { f with year := d.year, month := d.month, day := d.day }

def Fields.withTime (f : Fields) (t : TimeOfDay) : Fields :=
  { f with
    hour := t.seconds / 3600
    minute := t.seconds / 60 % 60
    second := t.seconds % 60 + t.nanos / TimeOfDay.second
    nanos := t.nanos % TimeOfDay.second }

@[simp]
theorem Fields.date?_withDate (f : Fields) (d : Date) : (f.withDate d).date? = some d :=
  dif_pos d.valid

@[simp]
theorem Fields.date?_withTime (f : Fields) (t : TimeOfDay) : (f.withTime t).date? = f.date? :=
  rfl

theorem ofSeconds?_self (t : TimeOfDay) : TimeOfDay.ofSeconds? t.seconds t.nanos = some t :=
  dif_pos t.valid

theorem ofClock?_parts (t : TimeOfDay) :
    TimeOfDay.ofClock? (t.seconds / 3600) (t.seconds / 60 % 60)
      (t.seconds % 60 + t.nanos / TimeOfDay.second) (t.nanos % TimeOfDay.second) = some t := by
  obtain ⟨hseconds, hnanos, hleap⟩ := t.valid
  have hsecond : TimeOfDay.second = 1000000000 := rfl
  rw [hsecond] at hnanos hleap
  have hclock : t.seconds / 3600 * 3600 + t.seconds / 60 % 60 * 60 + t.seconds % 60 =
      t.seconds := by omega
  rw [TimeOfDay.ofClock?, hsecond, if_pos (by omega)]
  by_cases hshown : t.seconds % 60 + t.nanos / 1000000000 = 60
  · have hleapSecond : t.seconds / 3600 * 3600 + t.seconds / 60 % 60 * 60 + 59 = t.seconds := by
      omega
    have hfraction : 1000000000 + t.nanos % 1000000000 = t.nanos := by omega
    rw [if_pos hshown, hleapSecond, hfraction, ofSeconds?_self]
  · have hwhole : t.nanos / 1000000000 = 0 := by omega
    have hfraction : t.nanos % 1000000000 = t.nanos := by omega
    rw [if_neg hshown, hwhole, Nat.add_zero, hclock, hfraction, ofSeconds?_self]

@[simp]
theorem Fields.time?_withTime (f : Fields) (t : TimeOfDay) : (f.withTime t).time? = some t :=
  ofClock?_parts t

@[simp]
theorem Fields.timestamp?_withTime_withDate (f : Fields) (d : Date) (t : TimeOfDay) :
    ((f.withDate d).withTime t).timestamp? = some ⟨d, t⟩ := by
  simp [Fields.timestamp?]

/-! ## Patterns -/

theorem readPattern?_cons {item : Item} {items : List Item} {f f' : Fields} {s : List Char}
    (h : item.read? f s = some (f', rest)) :
    readPattern? (item :: items) f s = readPattern? items f' rest := by
  rw [readPattern?, h]

theorem readPattern?_eq_none {item : Item} {items : List Item} {f : Fields} {s : List Char}
    (h : item.read? f s = none) : readPattern? (item :: items) f s = none := by
  rw [readPattern?, h]

theorem readPattern?_literal (c : Char) (items : List Item) (f : Fields) :
    readPattern? (.literal c :: items) f (c :: rest) = readPattern? items f rest :=
  readPattern?_cons (if_pos rfl)

/-- An item of two digits takes a number below a hundred, whatever follows. -/
theorem readPattern?_two {item : Item} {items : List Item} {f f' : Fields} {n : Nat} (hn : n < 100)
    (hitem : ∀ s r, readNat? 2 (Chars.trimLeft s) = some (n, r) →
      item.read? f s = some (f', r)) :
    readPattern? (item :: items) f (padded 2 n ++ rest) = readPattern? items f' rest := by
  apply readPattern?_cons
  apply hitem
  rw [trimLeft_padded_append]
  exact readNat?_padded (by decide) hn

theorem readYear?_padded {width n : Nat} :
    readYear? (padded width n ++ rest) =
      (readNat? 4 (padded width n ++ rest)).map fun (n, r) => ((n : Int), r) := by
  obtain ⟨c, cs, hcons, hc⟩ := exists_padded_eq_cons width n
  rw [hcons, List.cons_append, readYear?]
  · rintro s ⟨⟩
    cases hc
  · rintro s ⟨⟩
    cases hc

/-- Behind a sign the digits of a year end where no digit follows. -/
theorem readNat?_length_padded (width n : Nat) (hrest : Stops rest) :
    readNat? (padded width n ++ rest).length (padded width n ++ rest) = some (n, rest) :=
  readNat?_padded_of_stops (by simp) hrest

theorem readYear?_renderYear (year : Int) (hrest : Stops rest) :
    readYear? (Chars.trimLeft (Date.renderYear year ++ rest)) = some (year, rest) := by
  rw [Date.renderYear]
  split
  case isTrue hplain =>
    have habs : (year.natAbs : Int) = year := by omega
    rw [trimLeft_padded_append, readYear?_padded,
      readNat?_padded (by decide) (show year.natAbs < 10 ^ 4 by omega)]
    exact congrArg (fun y => some (y, rest)) habs
  case isFalse hplain =>
    split
    case isTrue hneg =>
      have habs : -(year.natAbs : Int) = year := by omega
      have htrim : Chars.trimLeft ('-' :: padded 4 year.natAbs ++ rest) =
          '-' :: (padded 4 year.natAbs ++ rest) := rfl
      rw [htrim, readYear?, readNat?_length_padded _ _ hrest]
      exact congrArg (fun y => some (y, rest)) habs
    case isFalse hneg =>
      have habs : (year.natAbs : Int) = year := by omega
      have htrim : Chars.trimLeft ('+' :: padded 4 year.natAbs ++ rest) =
          '+' :: (padded 4 year.natAbs ++ rest) := rfl
      rw [htrim, readYear?, readNat?_length_padded _ _ hrest]
      exact congrArg (fun y => some (y, rest)) habs

theorem day_lt (d : Date) : d.day < 100 := by
  obtain ⟨-, -, -, -, -, hday⟩ := d.valid
  have hmonth : Date.daysInMonth d.year d.month ≤ 31 := by
    unfold Date.daysInMonth
    repeat' split
    all_goals decide
  omega

theorem readPattern?_date (d : Date) (items : List Item) (f : Fields) (rest : List Char) :
    readPattern? (datePattern ++ items) f (d.render ++ rest) =
      readPattern? items (f.withDate d) rest := by
  obtain ⟨-, -, -, hmonth, -, -⟩ := d.valid
  have hyear : Item.year.read? f (d.render ++ rest) = some ({ f with year := d.year },
      '-' :: padded 2 d.month ++ '-' :: padded 2 d.day ++ rest) := by
    simp only [Item.read?, Date.render, List.append_assoc, List.cons_append]
    rw [readYear?_renderYear d.year (stops_cons.mpr (by decide))]
    rfl
  simp only [datePattern, List.cons_append, List.nil_append]
  rw [readPattern?_cons hyear]
  simp only [List.cons_append, List.append_assoc]
  rw [readPattern?_literal]
  refine Eq.trans (readPattern?_two (by omega) fun _ _ h => congrArg (Option.map _) h) ?_
  rw [readPattern?_literal]
  exact readPattern?_two (day_lt d) fun _ _ h => congrArg (Option.map _) h

/-- A fraction is left out or is a point and at most nine digits. -/
theorem renderFraction_cases {nanos : Nat} (h : nanos < TimeOfDay.second) :
    (nanos = 0 ∧ TimeOfDay.renderFraction nanos = []) ∨
      ∃ width n, 0 < width ∧ width ≤ 9 ∧ n < 10 ^ width ∧ n * 10 ^ (9 - width) = nanos ∧
        TimeOfDay.renderFraction nanos = '.' :: padded width n := by
  rw [TimeOfDay.second] at h
  unfold TimeOfDay.renderFraction
  split
  · exact .inl ⟨‹_›, rfl⟩
  split
  · exact .inr ⟨3, nanos / 1000000, by decide, by decide, by omega, by omega, rfl⟩
  split
  · exact .inr ⟨6, nanos / 1000, by decide, by decide, by omega, by omega, rfl⟩
  · exact .inr ⟨9, nanos, by decide, by decide, by omega, by omega, rfl⟩

/-- What follows a time does not go on with a fraction. -/
def Ends (rest : List Char) : Prop := Stops rest ∧ rest.head? ≠ some '.'

theorem ends_nil : Ends [] := ⟨stops_nil, by simp⟩

theorem ends_zulu : Ends ['Z'] := ⟨stops_cons.mpr (by decide), by simp⟩

theorem read?_fraction {f : Fields} (hf : f.nanos = 0) {nanos : Nat} (h : nanos < TimeOfDay.second)
    (hrest : Ends rest) :
    Item.fraction.read? f (TimeOfDay.renderFraction nanos ++ rest) =
      some ({ f with nanos := nanos }, rest) := by
  rcases renderFraction_cases h with ⟨rfl, hrender⟩ | ⟨width, n, hwidth, hnine, hn, rfl, hrender⟩
  · rw [hrender, List.nil_append, ← hf, Item.read?]
    rintro t rfl
    exact hrest.2 rfl
  · rw [hrender, List.cons_append, Item.read?, readNanos?_padded hwidth hnine hn hrest.1]
    rfl

theorem shown_lt (t : TimeOfDay) : t.seconds % 60 + t.nanos / TimeOfDay.second < 100 := by
  obtain ⟨-, hnanos, -⟩ := t.valid
  rw [TimeOfDay.second] at hnanos ⊢
  omega

theorem readPattern?_time (t : TimeOfDay) (items : List Item) {f : Fields} (hf : f.nanos = 0)
    (hrest : Ends rest) :
    readPattern? (timePattern ++ items) f (t.render ++ rest) =
      readPattern? items (f.withTime t) rest := by
  obtain ⟨hseconds, -, -⟩ := t.valid
  simp only [timePattern, TimeOfDay.render, List.cons_append, List.nil_append, List.append_assoc]
  refine Eq.trans (readPattern?_two (by omega) fun _ _ h => congrArg (Option.map _) h) ?_
  rw [readPattern?_literal]
  refine Eq.trans (readPattern?_two (by omega) fun _ _ h => congrArg (Option.map _) h) ?_
  rw [readPattern?_literal]
  refine Eq.trans (readPattern?_two (shown_lt t) fun _ _ h => congrArg (Option.map _) h) ?_
  rw [readPattern?_cons (read?_fraction (by exact hf) (Nat.mod_lt _ (by decide)) hrest)]
  rfl

/-! ## The strict form -/

/-- A year of four digits and no sign. -/
def IsPlainYear (year : Int) : Prop := 0 ≤ year ∧ year ≤ 9999

instance (year : Int) : Decidable (IsPlainYear year) := inferInstanceAs (Decidable (_ ∧ _))

theorem renderYear_of_plain {year : Int} (h : IsPlainYear year) :
    Date.renderYear year = padded 4 year.natAbs :=
  if_pos h

/-- Any other year starts with its sign. -/
theorem stops_renderYear {year : Int} (h : ¬ IsPlainYear year) :
    Stops (Date.renderYear year ++ rest) := by
  have hsigned : Date.renderYear year =
      (if year < 0 then '-' else '+') :: padded 4 year.natAbs := if_neg h
  rw [hsigned]
  split <;> exact stops_cons.mpr (by decide)

theorem exactly?_two {n : Nat} (hn : n < 100) : exactly? 2 (padded 2 n ++ rest) = some (n, rest) :=
  exactly?_padded (by decide) hn

theorem char?_self (c : Char) (s : List Char) : char? c (c :: s) = some s := if_pos rfl

theorem bind_of_eq_some {α β : Type} {x : Option α} {a : α} {f : α → Option β} {y : Option β}
    (hx : x = some a) (hf : f a = y) : x >>= f = y := by
  rw [hx]
  exact hf

theorem readInternet?_render {t : Timestamp} (h : IsPlainYear t.date.year) :
    readInternet? t.render = some t := by
  obtain ⟨hseconds, -, -⟩ := t.time.valid
  obtain ⟨-, -, -, hmonth, -, -⟩ := t.date.valid
  have hyear : t.date.year.natAbs < 10 ^ 4 := by
    obtain ⟨hlow, hhigh⟩ := h
    omega
  have habs : (t.date.year.natAbs : Int) = t.date.year := Int.natAbs_of_nonneg h.1
  have hinstant : Fields.timestamp? ⟨t.date.year.natAbs, t.date.month, t.date.day,
      t.time.seconds / 3600, t.time.seconds / 60 % 60,
      t.time.seconds % 60 + t.time.nanos / TimeOfDay.second, t.time.nanos % TimeOfDay.second⟩ =
        some t := by
    rw [habs]
    exact Fields.timestamp?_withTime_withDate {} t.date t.time
  rw [Timestamp.render, Date.render, renderYear_of_plain h, TimeOfDay.render]
  simp only [List.append_assoc, List.cons_append]
  rw [readInternet?]
  -- one step for each part of the text, from the year to the seconds
  refine bind_of_eq_some (exactly?_padded (by decide) hyear) ?_
  refine bind_of_eq_some (char?_self _ _) ?_
  refine bind_of_eq_some (exactly?_two (by omega)) ?_
  refine bind_of_eq_some (char?_self _ _) ?_
  refine bind_of_eq_some (exactly?_two (day_lt t.date)) ?_
  refine (if_pos (.inl rfl)).trans (bind_of_eq_some rfl ?_)
  refine bind_of_eq_some (exactly?_two (by omega)) ?_
  refine bind_of_eq_some (char?_self _ _) ?_
  refine bind_of_eq_some (exactly?_two (by omega)) ?_
  refine bind_of_eq_some (char?_self _ _) ?_
  refine bind_of_eq_some (exactly?_two (shown_lt t.time)) ?_
  rcases renderFraction_cases (Nat.mod_lt t.time.nanos (by decide)) with
    ⟨hzero, hrender⟩ | ⟨width, n, hwidth, hnine, hn, hnanos, hrender⟩
  · rw [hrender]
    rw [hzero] at hinstant
    refine bind_of_eq_some rfl (bind_of_eq_some rfl ?_)
    exact bind_of_eq_some hinstant (if_pos rfl)
  · rw [hrender]
    rw [← hnanos] at hinstant
    refine bind_of_eq_some (readNanos?_padded hwidth hnine hn ends_zulu.1)
      (bind_of_eq_some rfl ?_)
    exact bind_of_eq_some hinstant (if_pos rfl)

theorem readInternet?_eq_none {t : Timestamp} (h : ¬ IsPlainYear t.date.year) :
    readInternet? t.render = none := by
  have hyear : exactly? 4 t.render = none := by
    rw [Timestamp.render, Date.render, List.append_assoc, List.append_assoc, List.append_assoc]
    exact exactly?_of_stops (by decide) (stops_renderYear h)
  rw [readInternet?, hyear]
  rfl

/-- No lenient pattern takes the text of an instant: those with a blank stop at the letter before
the time, and the one with that letter stops at the letter behind it. -/
theorem readPattern?_timestamp (t : Timestamp) {pattern : List Item}
    (hpattern : pattern ∈ timestampPatterns) : readPattern? pattern {} t.render = none := by
  have hhour (items : List Item) (f : Fields) (s : List Char) :
      readPattern? (.space :: .hour :: items) f ('T' :: s) = none := by
    rw [readPattern?_cons (show Item.space.read? f ('T' :: s) = some (f, 'T' :: s) from rfl)]
    apply readPattern?_eq_none
    rw [Item.read?, show Chars.trimLeft ('T' :: s) = 'T' :: s from rfl,
      readNat?_of_stops (stops_cons.mpr (by decide))]
    rfl
  rw [Timestamp.render, List.append_assoc]
  simp only [timestampPatterns, List.mem_cons, List.not_mem_nil, or_false] at hpattern
  rcases hpattern with rfl | rfl | rfl
  · rw [readPattern?_date]
    exact hhour _ _ _
  · rw [readPattern?_date, List.cons_append, readPattern?_literal]
    have htime := readPattern?_time t.time [] (f := ({} : Fields).withDate t.date) rfl ends_zulu
    rw [List.append_nil] at htime
    rw [htime]
    rfl
  · rw [readPattern?_date]
    exact hhour _ _ _

theorem readDate?_timestamp (t : Timestamp) : readDate? t.render = none := by
  have hdate := readPattern?_date t.date [] {} ('T' :: t.time.render ++ ['Z'])
  rw [List.append_nil] at hdate
  rw [readDate?, Timestamp.render, List.append_assoc, hdate]
  rfl

end Calendar

/-! ## Round trips -/

open Calendar (IsPlainYear)

@[simp]
theorem Date.solid_render (d : Date) : Chars.Solid d.render := by
  have hyear : Chars.Solid (renderYear d.year) := by
    rw [renderYear]
    split
    · exact solid_padded
    · rw [Chars.solid_cons]
      refine ⟨?_, solid_padded⟩
      split <;> decide
  have hhyphen : Chars.IsSolid '-' := by decide
  simp [render, hyear, hhyphen]

@[simp]
theorem TimeOfDay.solid_render (t : TimeOfDay) : Chars.Solid t.render := by
  have hcolon : Chars.IsSolid ':' := by decide
  have hpoint : Chars.IsSolid '.' := by decide
  have hfraction (nanos : Nat) : Chars.Solid (renderFraction nanos) := by
    unfold renderFraction
    repeat' split
    all_goals simp [hpoint]
  simp [render, hcolon, hfraction]

@[simp]
theorem Timestamp.solid_render (t : Timestamp) : Chars.Solid t.render := by
  have hletters : Chars.IsSolid 'T' ∧ Chars.IsSolid 'Z' := by decide
  simp [render, hletters]

/-- Every date is read back. -/
theorem Date.ofText?_render (d : Date) : Date.ofText? d.render = some d := by
  have hread := Calendar.readPattern?_date d [] {} []
  rw [List.append_nil, List.append_nil] at hread
  have hdate : Calendar.readDate? d.render = some d := by
    rw [Calendar.readDate?, hread]
    exact Calendar.Fields.date?_withDate {} d
  rw [Date.ofText?, d.solid_render.trim, hdate]

/-- Every time of day is read back, a leap second as one. -/
theorem TimeOfDay.ofText?_render (t : TimeOfDay) : TimeOfDay.ofText? t.render = some t := by
  have hread := Calendar.readPattern?_time t [] (f := {}) rfl Calendar.ends_nil
  rw [List.append_nil, List.append_nil] at hread
  have htime : Calendar.readTime? Calendar.timePattern t.render = some t := by
    rw [Calendar.readTime?, hread]
    exact Calendar.Fields.time?_withTime {} t
  rw [TimeOfDay.ofText?, t.solid_render.trim, htime]

/-- An instant is read back if its year has four digits and no sign; otherwise nothing is read. -/
theorem Timestamp.ofText?_render (t : Timestamp) :
    Timestamp.ofText? t.render = if IsPlainYear t.date.year then some t else none := by
  rw [Timestamp.ofText?, t.solid_render.trim]
  by_cases h : IsPlainYear t.date.year
  · rw [if_pos h, Calendar.readInternet?_render h]
  · have hpatterns : (Calendar.timestampPatterns.findSome? fun pattern =>
        (Calendar.readPattern? pattern {} t.render).bind Calendar.Fields.timestamp?) = none := by
      rw [List.findSome?_eq_none_iff]
      intro pattern hpattern
      rw [Calendar.readPattern?_timestamp t hpattern]
      rfl
    rw [if_neg h, Calendar.readInternet?_eq_none h]
    simp only
    rw [hpatterns, Calendar.readDate?_timestamp]
    rfl

end EntityRest
