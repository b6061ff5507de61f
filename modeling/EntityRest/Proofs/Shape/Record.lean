import EntityRest.Proofs.Shape.Rows
import EntityRest.Shape.Record

/-! # Records survive being written

A record that is written and read again is the same, where its payloads survive in JSON and no
output key leads to another: each member finds its own document, and one that is left out finds
none. Only members that are left out at the epoch come back empty. -/

namespace EntityRest

/-! ## The epoch -/

namespace Date

theorem day_le {year : Int} {month day : Nat} (h : day ≤ daysInMonth year month) : day ≤ 31 := by
  refine h.trans ?_
  unfold daysInMonth
  split
  · split <;> decide
  all_goals decide

theorem parts_of_epoch {y doy : Int} (hlow : 0 ≤ doy) (hhigh : doy ≤ 367)
    (h : y / 400 * 146097 + ((y - y / 400 * 400) * 365 + (y - y / 400 * 400) / 4 -
      (y - y / 400 * 400) / 100 + doy) - 719468 = 0) : y = 1969 ∧ doy = 306 := by
  have hera : y / 400 = 4 := by omega
  rw [hera] at h
  have hyear : y = 1969 := by omega
  subst hyear
  exact ⟨rfl, by omega⟩

theorem eq_epoch_of_toDays {d : Date} (h : d.toDays = 0) : d = .epoch := by
  obtain ⟨year, month, day, hvalid⟩ := d
  have hmonth : 1 ≤ month ∧ month ≤ 12 := ⟨hvalid.2.2.1, hvalid.2.2.2.1⟩
  have hday : 1 ≤ day ∧ day ≤ 31 := ⟨hvalid.2.2.2.2.1, day_le hvalid.2.2.2.2.2⟩
  have hdate : year = 1970 ∧ month = 1 ∧ day = 1 := by
    simp only [toDays, Int.fdiv_eq_ediv_of_nonneg _ (show (0 : Int) ≤ 400 by decide)] at h
    obtain ⟨hyear, hdoy⟩ := parts_of_epoch (by split <;> omega) (by split <;> omega) h
    split at hyear <;> split at hdoy <;> omega
  obtain ⟨rfl, rfl, rfl⟩ := hdate
  rfl

end Date

/-- No other instant is as many seconds and nanoseconds from the epoch as the epoch is. -/
theorem Timestamp.eq_epoch_iff {t : Timestamp} :
    t = .epoch ↔ t.toUnix = 0 ∧ t.time.nanos = 0 := by
  constructor
  · rintro rfl
    decide
  · rintro ⟨hunix, hnanos⟩
    obtain ⟨date, seconds, nanos, hvalid⟩ := t
    have hseconds : seconds < 86400 := hvalid.1
    simp only [toUnix] at hunix hnanos
    obtain rfl : nanos = 0 := hnanos
    have hdate : date = .epoch := Date.eq_epoch_of_toDays (by omega)
    subst hdate
    obtain rfl : seconds = 0 := by
      have hzero : Date.epoch.toDays = 0 := by decide
      omega
    rfl

namespace Payload

/-- Is the payload the epoch, as an instant or as seconds since? -/
def isEpoch : (k : ScalarKind) → Payload k → Bool
  | .timestamp, t => decide (t = Timestamp.epoch)
  | .unixtime, n => decide (n = 0)
  | _, _ => false

theorem isZero_eq_isEpoch (k : ScalarKind) (p : Payload k) : isZero k p = isEpoch k p := by
  cases k with
  | timestamp =>
      change (decide (Timestamp.toUnix p = 0) && decide (p.time.nanos = 0)) =
        decide (p = Timestamp.epoch)
      rw [decide_eq_decide.mpr Timestamp.eq_epoch_iff, Bool.decide_and]
  | _ => rfl

end Payload

/-! ## Records of a type -/

theorem RecordType.read_eq (v : Json) (t : RecordType) :
    t.read v = Member.readAll v t.members := by
  cases t
  rfl

def Member.key : Member → String
  | .scalar tag _ => tag.key
  | .children tag _ => tag.key

/-- No output key of a record leads to another one of it, and so for its children. -/
inductive RecordType.Keyed : RecordType → Prop where
  | mk {entity members} (hkeys : Json.KeysApart (members.map Member.key))
      (hchildren : ∀ tag type, .children tag type ∈ members → Keyed type) :
      Keyed (.mk entity members)

namespace RecordType.Keyed

variable {t : RecordType} (h : t.Keyed)

include h

theorem keysApart : Json.KeysApart (t.members.map Member.key) := by
  cases h with
  | mk hkeys _ => exact hkeys

theorem of_mem_members {tag : Tag} {type : RecordType} (hm : .children tag type ∈ t.members) :
    type.Keyed := by
  cases h with
  | mk _ hchildren => exact hchildren tag type hm

end RecordType.Keyed

namespace Record

/-- The record has a content for each member. -/
inductive Fits : List Member → Record → Prop where
  | done : Fits [] .done
  | scalar {tag kind value ms rest} (h : Fits ms rest) :
      Fits (.scalar tag kind :: ms) (.scalar kind value rest)
  | children {tag type ms rows rest} (hrows : ∀ row ∈ rows, Fits type.members row)
      (h : Fits ms rest) : Fits (.children tag type :: ms) (.children rows rest)

/-- Every scalar is read back from its document. The keys of an object in that are different from
each other and have no points. -/
inductive Survives : Record → Prop where
  | done : Survives .done
  | scalar {kind rest} {value : Nullable kind}
      (hread : (Nullable.ofJson value.toJson : Nullable kind) = value)
      (hdots : value.toJson.KeysWithout '.') (hdistinct : value.toJson.DistinctKeys)
      (h : Survives rest) : Survives (.scalar kind value rest)
  | children {rows rest} (hrows : ∀ row ∈ rows, Survives row) (h : Survives rest) :
      Survives (.children rows rest)

mutual

/-- The record without the payloads at the epoch whose members are left out there. -/
def withoutEpochs : List Member → Record → Record
  | .scalar tag _ :: ms, .scalar kind value rest =>
    .scalar kind
      (value.filter fun p => !(FieldTag.omitsEmpty tag.output && Payload.isEpoch kind p))
      (withoutEpochs ms rest)
  | .children _ type :: ms, .children rows rest =>
    .children (withoutEpochsAll type.members rows) (withoutEpochs ms rest)
  | _, r => r

def withoutEpochsAll (members : List Member) : List Record → List Record
  | [] => []
  | r :: rs => withoutEpochs members r :: withoutEpochsAll members rs

end

theorem withoutEpochsAll_eq_map (members : List Member) (rows : List Record) :
    withoutEpochsAll members rows = rows.map (withoutEpochs members) := by
  induction rows with
  | nil => rfl
  | cons r rs ih => rw [withoutEpochsAll, ih, List.map_cons]

/-! ## What a record shows -/

/-- The document under the key of each member, or nothing where the member is left out. -/
def contents : List Member → Record → List (String × Option Json)
  | .scalar tag _ :: ms, .scalar _ value rest =>
    (tag.key, if FieldTag.omitsEmpty tag.output && value.isZero then none
      else some value.toJson) :: contents ms rest
  | .children tag type :: ms, .children rows rest =>
    (tag.key, some (.array (rows.map type.write))) :: contents ms rest
  | _, _ => []

/-- The entries of those that are not left out. -/
def shown (cs : List (String × Option Json)) : Entries Json :=
  cs.filterMap fun c => c.2.map fun v => (c.1, v)

theorem keys_contents {ms : List Member} {r : Record} (h : r.Fits ms) :
    (contents ms r).map Prod.fst = ms.map Member.key := by
  induction h with
  | done => rfl
  | scalar _ ih => rw [contents, List.map_cons, List.map_cons, ih]; rfl
  | children _ _ _ ih => rw [contents, List.map_cons, List.map_cons, ih]; rfl

theorem writeAll_eq_map (type : RecordType) (rows : List Record) :
    writeAll type.members rows = rows.map type.write := by
  induction rows with
  | nil => rfl
  | cons r rs ih => rw [writeAll, ih, List.map_cons, RecordType.write]

theorem entries_eq_putAll (ms : List Member) (r : Record) (out : Entries Json) :
    entries out ms r = out.putAll (shown (contents ms r)) := by
  induction ms generalizing r out with
  | nil => cases r <;> rfl
  | cons m ms ih =>
      cases m with
      | scalar tag kind =>
          cases r with
          | scalar kind' value rest =>
              rw [entries, contents]
              by_cases homit : (FieldTag.omitsEmpty tag.output && value.isZero) = true
              · rw [if_pos homit, if_pos homit, ih]
                rfl
              · rw [if_neg homit, if_neg homit, ih]
                rfl
          | children rows rest => rfl
          | done => rfl
      | children tag type =>
          cases r with
          | children rows rest =>
              rw [entries, contents, writeAll_eq_map, ih]
              rfl
          | scalar kind' value rest => rfl
          | done => rfl

theorem keys_shown_sublist (cs : List (String × Option Json)) :
    (shown cs).keys.Sublist (cs.map Prod.fst) := by
  induction cs with
  | nil => exact List.Sublist.slnil
  | cons c cs ih =>
      obtain ⟨k, v⟩ := c
      cases v with
      | none => exact ih.cons k
      | some v => exact ih.cons_cons k

/-! ## What is read back -/

section

open Json Separator

/-- Under each key stands the structured form of what the member shows there, and nothing where it
shows nothing: what another member shows is not below it. -/
theorem lookup?_shown {cs : List (String × Option Json)} (hkeys : KeysApart (cs.map Prod.fst))
    {c : String × Option Json} (hc : c ∈ cs) :
    ((Json.object (shown cs)).toStructured .dot).lookup? c.1 = c.2.map (toStructured .dot) := by
  obtain ⟨k, v⟩ := c
  cases v with
  | some v =>
      have hmem : (k, v) ∈ shown cs := List.mem_filterMap.mpr ⟨(k, some v), hc, rfl⟩
      exact lookup?_toStructured_of_keysApart (hkeys.sublist (keys_shown_sublist cs)) hmem
  | none =>
      refine lookup?_toStructured_eq_none fun j hj => ?_
      obtain ⟨⟨j, x⟩, he, rfl⟩ := List.mem_map.mp hj
      obtain ⟨d, hd, hshown⟩ := List.mem_filterMap.mp he
      obtain ⟨y, hy, heq⟩ := Option.map_eq_some_iff.mp hshown
      obtain ⟨rfl, rfl⟩ := Prod.mk.inj heq
      have hne : (k, none) ≠ d := by
        rintro rfl
        simp at hy
      have : Std.Symm fun c d : String × Option Json => Apart (dot.split c.1) (dot.split d.1) :=
        ⟨fun _ _ => Apart.symm⟩
      exact (List.pairwise_map.mp hkeys).forall hc hd hne

theorem toStructured_of_mem_contents {ms : List Member} {r : Record} (hf : r.Fits ms)
    (hs : r.Survives) : ∀ c ∈ contents ms r, c.2.map (toStructured .dot) = c.2 := by
  induction hf with
  | done => simp [contents]
  | scalar _ ih =>
      cases hs with
      | scalar _ hdots hdistinct hs =>
          refine List.forall_mem_cons.mpr ⟨?_, ih hs⟩
          dsimp only
          split
          · rfl
          · rw [Option.map_some, toStructured_eq_self hdistinct hdots]
  | @children tag type ms rows rest _ _ _ ih =>
      cases hs with
      | children _ hs =>
          have hrow (row : Record) : (type.write row).toStructured .dot = type.write row :=
            toStructured_eq_self (distinctKeys_toStructured _) (keysWithout_toStructured _)
          refine List.forall_mem_cons.mpr ⟨?_, ih hs⟩
          rw [Option.map_some, toStructured, toStructuredItems_eq_map, List.map_map]
          simp [Function.comp_def, hrow]

/-- A written record holds under each key what the member shows there. -/
theorem lookup?_write {t : RecordType} (ht : t.Keyed) {r : Record} (hf : r.Fits t.members)
    (hs : r.Survives) : ∀ c ∈ contents t.members r, (t.write r).lookup? c.1 = c.2 := by
  have hkeys : KeysApart ((contents t.members r).map Prod.fst) := keys_contents hf ▸ ht.keysApart
  have hnodup : (shown (contents t.members r)).keys.Nodup :=
    hkeys.nodup.sublist (keys_shown_sublist _)
  have hentries : entries [] t.members r = shown (contents t.members r) :=
    (entries_eq_putAll _ _ _).trans (Entries.ofPairs_eq_self hnodup)
  intro c hc
  rw [RecordType.write, hentries, lookup?_shown hkeys hc, toStructured_of_mem_contents hf hs c hc]

end

theorem filter_notEpoch (omits : Bool) {kind : ScalarKind} (value : Nullable kind) :
    value.filter (fun p => !(omits && Payload.isEpoch kind p)) =
      if omits && value.isZero then none else value := by
  cases value with
  | none => simp
  | some p =>
      rw [Nullable.isZero, Payload.isZero_eq_isEpoch, Option.filter_some]
      cases omits && Payload.isEpoch kind p <;> rfl

theorem readAll_of_contents {ms : List Member} {r : Record} (hf : r.Fits ms) {v : Json}
    (hkeyed : ∀ tag type, .children tag type ∈ ms → type.Keyed) (hs : r.Survives)
    (hv : ∀ c ∈ contents ms r, v.lookup? c.1 = c.2) :
    Member.readAll v ms = withoutEpochs ms r := by
  induction hf generalizing v with
  | done => rfl
  | @scalar tag kind value ms rest _ ih =>
      cases hs with
      | scalar hread _ _ hs =>
          obtain ⟨hfirst, hrest⟩ := List.forall_mem_cons.mp hv
          have hkeyed' : ∀ tag type, .children tag type ∈ ms → type.Keyed :=
            fun tag type hm => hkeyed tag type (List.mem_cons_of_mem _ hm)
          rw [Member.readAll, Member.read, withoutEpochs, ih hkeyed' hs hrest, hfirst,
            filter_notEpoch]
          by_cases homit : (FieldTag.omitsEmpty tag.output && value.isZero) = true
          · rw [if_pos homit, if_pos homit]
            rfl
          · rw [if_neg homit, if_neg homit, Option.map_some, Option.getD_some, hread]
  | @children tag type ms rows rest hrows _ ihrows ih =>
      cases hs with
      | children hsrows hs =>
          obtain ⟨hfirst, hrest⟩ := List.forall_mem_cons.mp hv
          have hkeyed' : ∀ tag type, .children tag type ∈ ms → type.Keyed :=
            fun tag type hm => hkeyed tag type (List.mem_cons_of_mem _ hm)
          have htype : type.Keyed := hkeyed tag type List.mem_cons_self
          have hrow : ∀ row ∈ rows, type.read (type.write row) = withoutEpochs type.members row :=
            fun row hrow => by
              rw [RecordType.read_eq]
              exact ihrows row hrow (fun _ _ => htype.of_mem_members) (hsrows row hrow)
                (lookup?_write htype (hrows row hrow) (hsrows row hrow))
          have hitems : (rows.map type.write).map (fun item => type.read item) =
              rows.map (withoutEpochs type.members) :=
            List.map_map.trans (List.map_congr_left hrow)
          rw [Member.readAll, Member.read, withoutEpochs, ih hkeyed' hs hrest, hfirst,
            withoutEpochsAll_eq_map, ← hitems]

end Record

/-- A record that is written and read again is the same, but for the payloads at the epoch that are
left out there. -/
theorem RecordType.read_write {t : RecordType} (ht : t.Keyed) {r : Record} (hf : r.Fits t.members)
    (hs : r.Survives) : t.read (t.write r) = Record.withoutEpochs t.members r := by
  rw [read_eq]
  exact Record.readAll_of_contents hf (fun _ _ => ht.of_mem_members) hs
    (Record.lookup?_write ht hf hs)

/-! ## An article and its comments -/

namespace Articles

def commentType : RecordType :=
  .mk { name := "comments", table := "comments", asName := "c", version := "1" }
    [.scalar ⟨"id", "c.id", ""⟩ .int, .scalar ⟨"seen.at,omitempty", "c.seen_at", ""⟩ .unixtime]

def articleType : RecordType :=
  .mk { name := "articles", table := "articles", asName := "a", version := "1" }
    [.scalar ⟨"id", "a.id", ""⟩ .int, .scalar ⟨"author.name,omitempty", "u.name", ""⟩ .string,
      .scalar ⟨"author.since,omitempty", "u.since", ""⟩ .timestamp,
      .scalar ⟨"meta.data", "a.data", ""⟩ .json,
      .children ⟨"meta.comments", "article_id={id}", ""⟩ commentType]

def data : Json := .object [("a", .null)]

def comment (seen : Nullable .unixtime) : Record :=
  .scalar .int (some 1) (.scalar .unixtime seen .done)

/-- An article with a comment, without the name of its author. -/
def article (since : Nullable .timestamp) (seen : Nullable .unixtime) : Record :=
  .scalar .int (some 7) (.scalar .string none (.scalar .timestamp since
    (.scalar .json (some data) (.children [comment seen] .done))))

theorem keyed : articleType.Keyed := by
  have hcomment : commentType.Keyed := .mk (by decide +kernel) (by simp)
  refine .mk (by decide +kernel) ?_
  simp [hcomment]

theorem fits (since : Nullable .timestamp) (seen : Nullable .unixtime) :
    (article since seen).Fits articleType.members := by
  have hcomment : (comment seen).Fits commentType.members := .scalar (.scalar .done)
  refine .scalar (.scalar (.scalar (.scalar (.children ?_ .done))))
  simp [hcomment]

theorem survives : (article (some Timestamp.epoch) (some 0)).Survives := by
  have hcomment : (comment (some 0)).Survives :=
    .scalar rfl trivial trivial (.scalar rfl trivial trivial .done)
  have hepoch : Payload.ofJson? .timestamp (Payload.toJson .timestamp Timestamp.epoch) =
      some Timestamp.epoch := by cbv
  have hdots : data.KeysWithout '.' := by
    simp [data, Json.KeysWithout, Json.EveryObject, Json.EveryObjectInEntries]
  have hdistinct : data.DistinctKeys := by
    simp [data, Json.DistinctKeys, Json.EveryObject, Json.EveryObjectInEntries]
  refine .scalar rfl trivial trivial (.scalar rfl trivial trivial
    (.scalar hepoch trivial trivial (.scalar rfl hdots hdistinct (.children ?_ .done))))
  simp [hcomment]

theorem article_read_write :
    articleType.read (articleType.write (article (some Timestamp.epoch) (some 0))) =
      article none none := by
  have hflag : FieldTag.omitsEmpty "seen.at,omitempty" = true ∧
      FieldTag.omitsEmpty "author.since,omitempty" = true := by decide +kernel
  rw [RecordType.read_write keyed (fits _ _) survives]
  simp [article, comment, articleType, commentType, RecordType.members, Record.withoutEpochs,
    Record.withoutEpochsAll, Payload.isEpoch, hflag]

end Articles

end EntityRest
