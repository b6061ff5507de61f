import EntityRest.Proofs.Calendar.RoundTrip
import EntityRest.Proofs.Uuid
import EntityRest.Scalar.Nullable

/-! # Scalars survive their forms

A payload comes back from its driver value. It comes back from its document and from its plain text
unless that form has no room for it, and then nothing is read: never another payload. -/

namespace EntityRest

open Calendar (IsPlainYear)

namespace Payload

/-- Is there a document that stands for the payload? There is none for a float that is not finite,
an instant needs a year of four digits, and the document `null` stands for nothing at all. -/
def hasJson : (k : ScalarKind) → Payload k → Bool
  | .float, x => Binary.isFinite x
  | .timestamp, t => decide (IsPlainYear t.date.year)
  | .json, v => !Json.isNull v
  | _, _ => true

/-- Is there a text that stands for the payload? The empty text and the word `null` stand for
nothing, and an instant needs a year of four digits. -/
def hasText : (k : ScalarKind) → Payload k → Bool
  | .string, s => !(s = "" || Text.lowerAscii s = "null")
  | .text, s => !(s = "" || Text.lowerAscii s = "null")
  | .timestamp, t => decide (IsPlainYear t.date.year)
  | _, _ => true

/-! ## Readers of text -/

theorem solid_toString (n : Int) : Chars.Solid (toString n).toList := by
  have hdigits : Chars.Solid (Nat.toDigits 10 n.natAbs) :=
    Chars.solid_of_isDigit fun _ => Decimal.isDigit_of_mem_toDigits
  have hminus : Chars.IsSolid '-' := by decide
  rw [toList_toString_int]
  split
  · exact Chars.solid_cons.mpr ⟨hminus, hdigits⟩
  · exact hdigits

theorem toString_ne_nil (n : Int) : (toString n).toList ≠ [] := by
  rw [toList_toString_int]
  split
  · exact List.cons_ne_nil _ _
  · exact Nat.toDigits_ne_nil

theorem ofText?_int (n : Int64) : ofText? .int (toText .int n) = some n := by
  rw [ofText?, toText, (solid_toString n.toInt).trim]
  exact readInt64?_toString n

theorem ofText?_unixtime (n : Int64) : ofText? .unixtime (toText .unixtime n) = some n := by
  rw [ofText?, toText, readUnix?, (solid_toString n.toInt).trim, readInt64?_toString n]

theorem ofText?_timestamp (t : Timestamp) :
    ofText? .timestamp (toText .timestamp t) =
      if IsPlainYear t.date.year then some t else none := by
  rw [ofText?, toText, String.toList_ofList]
  exact Timestamp.ofText?_render t

theorem ofText?_date (d : Date) : ofText? .date (toText .date d) = some d := by
  rw [ofText?, toText, String.toList_ofList]
  exact Date.ofText?_render d

theorem ofText?_time (t : TimeOfDay) : ofText? .time (toText .time t) = some t := by
  rw [ofText?, toText, String.toList_ofList]
  exact TimeOfDay.ofText?_render t

theorem ofText?_uuid (u : Uuid) : ofText? .uuid (toText .uuid u) = some u := by
  rw [ofText?, toText, String.toList_ofList, (Uuid.solid_render u).trim]
  exact Uuid.ofText?_render u

end Payload

namespace Nullable

variable {k : ScalarKind}

/-! ## Driver values and documents -/

theorem scan_toSql (x : Payload k) :
    (scan (toSql (some x : Nullable k)) : Except ScanError (Nullable k)) = .ok (some x) := by
  cases k <;> rfl

theorem toInt64?_ofInt64 (n : Int64) : (JsonNumber.ofInt64 n).toInt64? = some n := by
  have hbound : n.toInt < 0x8000000000000000 := n.toInt_lt
  rw [JsonNumber.ofInt64, JsonNumber.toInt64?, if_pos hbound, Int64.ofInt_toInt]

theorem ofJson_ofBinary (x : Binary64) :
    (ofJson (Json.ofBinary x) : Nullable .float) = if x.isFinite then some x else none := by
  rw [Json.ofBinary, JsonNumber.ofBinary?]
  by_cases h : x.isFinite = true
  · rw [dif_pos h, if_pos h]
    rfl
  · rw [dif_neg h, if_neg h]
    rfl

theorem ofJson_toJson (x : Payload k) :
    (ofJson (toJson (some x : Nullable k)) : Nullable k) =
      if Payload.hasJson k x then some x else none := by
  cases k with
  | bool | string | text => rfl
  | int =>
      change Payload.ofJson? .int (.number (JsonNumber.ofInt64 x)) = some x
      rw [Payload.ofJson?, toInt64?_ofInt64]
  | unixtime =>
      change Payload.ofJson? .unixtime (.number (JsonNumber.ofInt64 x)) = some x
      rw [Payload.ofJson?, toInt64?_ofInt64]
  | float => exact ofJson_ofBinary x
  | timestamp =>
      refine (Payload.ofText?_timestamp x).trans ?_
      simp [Payload.hasJson]
  | date => exact Payload.ofText?_date x
  | time => exact Payload.ofText?_time x
  | uuid => exact Payload.ofText?_uuid x
  | json => cases x <;> rfl

/-- A payload of any kind comes back from its driver value. It comes back from its document if it
has one, and otherwise the document reads as nothing. -/
theorem scan_toSql_and_ofJson_toJson (k : ScalarKind) (x : Payload k) :
    (scan (toSql (some x : Nullable k)) : Except ScanError (Nullable k)) = .ok (some x) ∧
      (ofJson (toJson (some x : Nullable k)) : Nullable k) =
        if Payload.hasJson k x then some x else none :=
  ⟨scan_toSql x, ofJson_toJson x⟩

/-! ## Plain text -/

/-- Texts without blanks and without the letter of the word `null` are left to the reader of the
kind. -/
theorem ofText_of_solid {s : String} (hne : s.toList ≠ []) (h : Chars.Solid s.toList) :
    (ofText s : Nullable k) = Payload.ofText? k s := by
  obtain ⟨c, cs, hcs⟩ := List.exists_cons_of_ne_nil hne
  have hempty : s ≠ "" := by
    rintro rfl
    exact hne rfl
  have hword : Text.lowerAscii s ≠ "null" := by
    intro hnull
    have hlower := congrArg String.toList hnull
    rw [Text.lowerAscii, String.toList_ofList, hcs] at hlower
    exact (h c (hcs ▸ List.mem_cons_self)).2 (List.cons.inj hlower).1
  rw [ofText, if_neg (by simp [hempty, hword])]

theorem ofText_ofList {cs : List Char} (hne : cs ≠ []) (h : Chars.Solid cs) :
    (ofText (String.ofList cs) : Nullable k) = Payload.ofText? k (String.ofList cs) :=
  ofText_of_solid (by rwa [String.toList_ofList]) (by rwa [String.toList_ofList])

/-- A payload of any kind but floats and documents comes back from its plain text if it has one, and
otherwise the text reads as nothing. -/
theorem ofText_toText (hk : k ≠ .float ∧ k ≠ .json) (x : Payload k) :
    (ofText (toText (some x : Nullable k)) : Nullable k) =
      if Payload.hasText k x then some x else none := by
  cases k with
  | float => exact absurd rfl hk.1
  | json => exact absurd rfl hk.2
  | bool => cases x <;> decide
  | string | text =>
      change (if x = "" || Text.lowerAscii x = "null" then none else some x) =
        if !(x = "" || Text.lowerAscii x = "null") then some x else none
      cases decide (x = "") || decide (Text.lowerAscii x = "null") <;> rfl
  | int =>
      exact (ofText_of_solid (Payload.toString_ne_nil _) (Payload.solid_toString _)).trans
        (Payload.ofText?_int x)
  | unixtime =>
      exact (ofText_of_solid (Payload.toString_ne_nil _) (Payload.solid_toString _)).trans
        (Payload.ofText?_unixtime x)
  | timestamp =>
      refine (ofText_ofList (by simp [Timestamp.render]) x.solid_render).trans
        ((Payload.ofText?_timestamp x).trans ?_)
      simp [Payload.hasText]
  | date =>
      exact (ofText_ofList (by simp [Date.render]) x.solid_render).trans (Payload.ofText?_date x)
  | time =>
      exact (ofText_ofList (by simp [TimeOfDay.render]) x.solid_render).trans
        (Payload.ofText?_time x)
  | uuid =>
      have hne : Uuid.render x ≠ [] := List.ne_nil_of_length_pos (by rw [x.length_render]; decide)
      exact (ofText_ofList hne x.solid_render).trans (Payload.ofText?_uuid x)

/-- The last leap second that fits comes back; an instant a year later has no text, and neither has
the string `Null`. -/
theorem ofText_toText_bounds :
    (ofText (toText (some ⟨⟨9999, 12, 31, by decide⟩, ⟨86399, 1999999999, by decide⟩⟩ :
        Nullable .timestamp)) : Nullable .timestamp) =
      some ⟨⟨9999, 12, 31, by decide⟩, ⟨86399, 1999999999, by decide⟩⟩ ∧
    (ofText (toText (some ⟨⟨10000, 12, 31, by decide⟩, .midnight⟩ : Nullable .timestamp)) :
      Nullable .timestamp) = none ∧
    (ofText (toText (some "Null" : Nullable .string)) : Nullable .string) = none :=
  ⟨(ofText_toText (by decide) _).trans (if_pos (by decide)),
    (ofText_toText (by decide) _).trans (if_neg (by decide)),
    (ofText_toText (by decide) _).trans (if_neg (by decide))⟩

end Nullable

end EntityRest
