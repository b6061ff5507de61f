import EntityRest.Proofs.Number.Integer
import EntityRest.Proofs.Query.Items
import EntityRest.Proofs.Query.Params

/-! # Writing requests

A parsed request can be written as parameters again: lists as one parameter with their items joined,
every search and every filter as a parameter of its own. The same request is read from them,
whatever separators its keys and values hold. -/

namespace EntityRest

open Text (IsPiece)

/-! ## The texts -/

/-- An item of a selection; an aggregate has a dollar sign, and a colon before its key. -/
def SelectItem.text : SelectItem → String
  | .field key => key
  | .aggregate agg key => "$" ++ agg.name ++ ":" ++ key

/-- A sort: a minus sign for descending order, the key, and `:i` to ignore case. -/
def SortItem.text (item : SortItem) : String :=
  (if item.desc then "-" else "") ++ item.key ++ if item.ignoreCase then ":i" else ""

/-- A search: its fields, an equals sign and the term. -/
def Search.text (x : Search) : String := ",".intercalate x.fields ++ "=" ++ x.term

def Filter.text (f : Filter) : String := f.param ++ "=" ++ f.value

def Query.groupText (g : List Filter) : String := " || ".intercalate (g.map Filter.text)

/-- One parameter for all texts, or none if there are none. -/
def Pairs.joined (name sep : String) (texts : List String) : Pairs :=
  if texts.isEmpty then [] else [(name, sep.intercalate texts)]

/-- A parameter for a number, if there is one. -/
def Pairs.number (name : String) (n? : Option UInt64) : Pairs :=
  n?.toList.map fun n => (name, toString n.toNat)

/-- The parameters of a request. -/
def Query.print (q : Query) : Pairs :=
  Pairs.joined "$select" "," ((q.select.getD []).map SelectItem.text) ++
    Pairs.joined "$group" "," q.group ++
    Pairs.joined "$sort" "," ((q.sort.getD []).map SortItem.text) ++
    Pairs.number "$page" q.page ++ Pairs.number "$per_page" q.perPage ++
    Pairs.joined "$include" "," q.includes ++
    Pairs.joined "$or" " ;; " (q.orGroups.map Query.groupText) ++
    q.searches.map (fun x => ("$search", x.text)) ++ q.filters.map fun f => (f.param, f.value)

/-! ## Single items -/

namespace Aggregate

theorem ofParam?_name (agg : Aggregate) : ofParam? ("$" ++ agg.name) = some agg := by
  cases agg <;> decide +kernel

theorem not_mem_name {c : Char} (hc : c = ',' ∨ c = ':') (agg : Aggregate) :
    c ∉ ("$" ++ agg.name).toList := by
  rcases hc with rfl | rfl <;> cases agg <;> decide +kernel

end Aggregate

namespace SelectItem

theorem isPiece_aggregate (agg : Aggregate) {key : String} (hkey : IsPiece "," key) :
    IsPiece "," (aggregate agg key).text := by
  have hchars : (aggregate agg key).text.toList =
      ['$'] ++ (agg.name.toList ++ [':']) ++ key.toList := by
    simp [text]
  refine ⟨by simp [text], ?_, ?_⟩
  · rw [hchars]
    have hsign : Chars.Tight ['$'] := Chars.tight_of_forall (List.forall_mem_singleton.mpr rfl)
    exact hsign.append hkey.tight (List.cons_ne_nil _ _) (by simpa using hkey.ne) _
  · have hcomma : ",".toList = [','] := rfl
    have hname := agg.not_mem_name (.inl rfl)
    have hnot := hkey.not_mem hcomma
    rw [hcomma, List.singleton_infix_iff]
    simp_all [text]

theorem ofText_aggregate (agg : Aggregate) {key : String} (hne : key ≠ "")
    (hkey : Text.trim key = key) : ofText (aggregate agg key).text = .ok (.aggregate agg key) := by
  have hstart : Text.startsWith "$" (aggregate agg key).text = true := by
    simp [Text.startsWith, text]
  have hcut : Text.cutFirst? ":" (aggregate agg key).text = some ("$" ++ agg.name, key) :=
    (Text.cutFirst?_eq_some_iff (c := ':') rfl).mpr ⟨rfl, agg.not_mem_name (.inr rfl)⟩
  rw [ofText, if_pos hstart, hcut]
  simp [Aggregate.ofParam?_name, hkey, hne]

theorem ofText_text {item : String} (hpiece : IsPiece "," item) {i : SelectItem}
    (h : ofText item = .ok i) : IsPiece "," i.text ∧ ofText i.text = .ok i := by
  unfold ofText at h
  split at h
  case isFalse hplain =>
    obtain rfl := Except.ok.inj h
    exact ⟨hpiece, if_neg hplain⟩
  case isTrue =>
    split at h
    · cases h
    · rename_i name key hcut
      split at h
      · cases h
      · rename_i agg hagg
        dsimp only at h
        split at h
        · cases h
        · rename_i hkey
          obtain rfl := Except.ok.inj h
          obtain ⟨rfl, -⟩ := (Text.cutFirst?_eq_some_iff (c := ':') rfl).mp hcut
          have hpart : key.toList <:+: (name ++ ":" ++ key).toList := by
            rw [String.toList_append]
            exact (List.suffix_append _ _).isInfix
          exact ⟨isPiece_aggregate agg (hpiece.trim hpart hkey),
            ofText_aggregate agg hkey (Text.trim_trim key)⟩

end SelectItem

namespace SortItem

theorem text_ofText (item : String) : (ofText item).text = item := by
  unfold ofText
  split
  rename_i desc rest hrest
  have hsign : (if desc then "-" else "") ++ rest = item := by
    split at hrest
    · rename_i r hr
      obtain ⟨rfl, rfl⟩ := Prod.mk.inj hrest
      exact (Text.dropPrefix?_eq_some_iff.mp hr).symm
    · obtain ⟨rfl, rfl⟩ := Prod.mk.inj hrest
      exact String.empty_append
  split
  · rename_i key hkey
    rw [← hsign, Text.dropSuffix?_eq_some_iff.mp hkey]
    simp [text, String.append_assoc]
  · simpa [text] using hsign

end SortItem

namespace Search

theorem ofText_text {s : String} {x : Search} (h : ofText s = .ok x) : ofText x.text = .ok x := by
  unfold ofText at h
  split at h
  · cases h
  · rename_i fields term hcut
    dsimp only at h
    split at h
    · cases h
    · rename_i hne
      obtain rfl := Except.ok.inj h
      have hpieces : ∀ key ∈ Text.items fields, IsPiece "," key ∧ key.toList <:+: fields.toList :=
        fun key hkey => Query.isPiece_of_mem_items hkey
      have hnot : '=' ∉ (",".intercalate (Text.items fields)).toList := by
        have hcomma : ",".toList = [','] := rfl
        rw [String.toList_intercalate, hcomma, Chars.mem_intercalate_of_ne (by decide)]
        rintro ⟨_, hp, hmem⟩
        obtain ⟨key, hkey, rfl⟩ := List.mem_map.mp hp
        exact ((Text.cutFirst?_eq_some_iff (c := '=') rfl).mp hcut).2
          ((hpieces key hkey).2.subset hmem)
      have hcut' : Text.cutFirst? "=" (text ⟨Text.items fields, term⟩) =
          some (",".intercalate (Text.items fields), term) :=
        (Text.cutFirst?_eq_some_iff (c := '=') rfl).mpr ⟨rfl, hnot⟩
      rw [ofText, hcut']
      dsimp only
      rw [Query.items_intercalate fun key hkey => (hpieces key hkey).1, if_neg hne]

end Search

/-! ## Alternatives -/

/-- A filter keeps what it was read from. -/
theorem Filter.eq_of_ofPair {param value : String} {f : Filter} (h : ofPair param value = .ok f) :
    f.param = param ∧ f.value = value := by
  have hend (key : String) (op : Operator)
      (h : (if (decide (key = "") || Text.startsWith "$" key) = true
        then .error ⟨.unknownField, param⟩
        else .ok ⟨param, key, op, value⟩ : Except QueryError Filter) = .ok f) :
      f.param = param ∧ f.value = value := by
    split at h
    · cases h
    · obtain rfl := Except.ok.inj h
      exact ⟨rfl, rfl⟩
  unfold ofPair at h
  split at h
  · split at h
    · exact hend _ _ h
    · cases h
  · exact hend _ _ h

/-- The filter is read again where it stands as an alternative. -/
structure Filter.IsAlternative (f : Filter) : Prop where
  inGroup : IsPiece "||" f.text
  inGroups : IsPiece ";;" f.text
  read : Query.alternative f.text = .ok f

namespace Query

/-- The texts of alternatives differ from how they were asked for in blanks before the sign. -/
theorem alternative_eq_ok {clause : String} {f : Filter} (h : alternative clause = .ok f) :
    ∃ key, '=' ∉ key.toList ∧ clause = key ++ "=" ++ f.value ∧ f.param = Text.trim key ∧
      Filter.ofPair f.param f.value = .ok f := by
  unfold alternative at h
  split at h
  · cases h
  · rename_i key value hcut
    obtain ⟨rfl, hnot⟩ := (Text.cutFirst?_eq_some_iff (c := '=') rfl).mp hcut
    obtain ⟨hparam, hvalue⟩ := Filter.eq_of_ofPair h
    exact ⟨key, hnot, by rw [hvalue], hparam, by rw [hparam, hvalue, h]⟩

theorem alternative_text {clause : String} {f : Filter} (h : alternative clause = .ok f) :
    alternative f.text = .ok f := by
  obtain ⟨key, hnot, -, hparam, hread⟩ := alternative_eq_ok h
  have hnot' : '=' ∉ f.param.toList := by
    rw [hparam]
    exact fun hmem => hnot ((Text.trim_isInfix key).subset hmem)
  have hcut : Text.cutFirst? "=" f.text = some (f.param, f.value) :=
    (Text.cutFirst?_eq_some_iff (c := '=') rfl).mpr ⟨rfl, hnot'⟩
  have htrim : Text.trim f.param = f.param := by rw [hparam, Text.trim_trim]
  rw [alternative, hcut]
  dsimp only
  rw [htrim, hread]

theorem isPiece_text {sep clause : String} (hsep : '=' ∉ sep.toList) (hpiece : IsPiece sep clause)
    {f : Filter} (h : alternative clause = .ok f) : IsPiece sep f.text := by
  obtain ⟨key, -, rfl, hparam, -⟩ := alternative_eq_ok h
  have hclause : (key ++ "=" ++ f.value).toList = key.toList ++ '=' :: f.value.toList := by simp
  have htext : f.text.toList = Chars.trim key.toList ++ '=' :: f.value.toList := by
    simp [Filter.text, hparam, Text.toList_trim]
  refine ⟨by simp [Filter.text], ?_, fun hin => hpiece.free ?_⟩
  · have htight := hpiece.tight
    rw [hclause] at htight
    rw [htext]
    exact htight.trim_append_cons (by decide)
  · rw [htext] at hin
    rw [hclause]
    rcases Chars.infix_append_cons hsep hin with hin | hin
    · exact (hin.trans (Chars.trim_isInfix key.toList)).trans (List.prefix_append _ _).isInfix
    · exact hin.trans ((List.suffix_cons _ _).trans (List.suffix_append _ _)).isInfix

theorem isAlternative_of_groups {value : String} {gs : List (List Filter)}
    (h : groups value = .ok gs) : ∀ g ∈ gs, ∀ f ∈ g, f.IsAlternative := by
  obtain ⟨all, hall, h⟩ := bind_eq_ok.mp h
  obtain rfl := pure_eq_ok.mp h
  intro g hg f hf
  obtain ⟨family, hfamily, hg⟩ :=
    exists_of_mem_right (mapM_eq_ok.mp hall) (List.mem_of_mem_filter hg)
  obtain ⟨clause, hclause, hread⟩ := exists_of_mem_right (mapM_eq_ok.mp hg) hf
  obtain ⟨hfamily, -⟩ := isPiece_of_mem_parts (by decide) hfamily
  obtain ⟨hbar, hpart⟩ := isPiece_of_mem_parts (by decide) hclause
  have hsemicolon : IsPiece ";;" clause :=
    ⟨hbar.ne, hbar.tight, fun hin => hfamily.free (hin.trans hpart)⟩
  exact ⟨isPiece_text (by decide) hbar hread, isPiece_text (by decide) hsemicolon hread,
    alternative_text hread⟩

/-- A group is a piece between semicolons, and its alternatives are read again. -/
theorem isPiece_groupText {g : List Filter} (hne : g ≠ []) (hg : ∀ f ∈ g, f.IsAlternative) :
    IsPiece ";;" (groupText g) := by
  have hbar : " || ".toList = [' '] ++ "||".toList ++ [' '] := rfl
  have hpieces : ∀ p ∈ (g.map Filter.text).map String.toList,
      (Chars.Tight p ∧ p ≠ []) ∧ ¬ ";;".toList <:+: p := by
    simp only [List.forall_mem_map]
    intro f hf
    obtain ⟨hne, htight, hfree⟩ := (hg f hf).inGroups
    exact ⟨⟨htight, by simpa using hne⟩, hfree⟩
  have hchars : (groupText g).toList =
      " || ".toList.intercalate ((g.map Filter.text).map String.toList) := by
    rw [groupText, String.toList_intercalate]
  obtain ⟨htight, hfilled⟩ :=
    Chars.Tight.intercalate " || ".toList fun p hp => (hpieces p hp).1
  refine ⟨fun hempty => ?_, by rwa [hchars], ?_⟩
  · rw [hempty] at hchars
    exact hfilled (by simpa using hne) hchars.symm
  · rw [hchars, hbar]
    exact Chars.not_infix_intercalate (by decide) (by decide +kernel) fun p hp => (hpieces p hp).2

theorem groups_text {gs : List (List Filter)} (hne : ∀ g ∈ gs, g ≠ [])
    (hgs : ∀ g ∈ gs, ∀ f ∈ g, f.IsAlternative) :
    groups (" ;; ".intercalate (gs.map groupText)) = .ok gs := by
  have hfamilies : parts ";;" (" ;; ".intercalate (gs.map groupText)) = gs.map groupText := by
    refine parts_padded (by decide) (by decide) fun x hx => ?_
    obtain ⟨g, hg, rfl⟩ := List.mem_map.mp hx
    exact isPiece_groupText (hne g hg) (hgs g hg)
  have hgroup (g : List Filter) (hg : g ∈ gs) :
      (parts "||" (groupText g)).mapM alternative = .ok g := by
    have hclauses : parts "||" (groupText g) = g.map Filter.text := by
      refine parts_padded (by decide) (by decide) fun x hx => ?_
      obtain ⟨f, hf, rfl⟩ := List.mem_map.mp hx
      exact (hgs g hg f hf).inGroup
    rw [hclauses, mapM_map_eq_ok_self]
    exact fun f hf => (hgs g hg f hf).read
  have hall : (gs.map groupText).mapM (fun family => (parts "||" family).mapM alternative) =
      .ok gs := mapM_map_eq_ok_self.mpr hgroup
  rw [groups, hfamilies]
  refine bind_eq_ok.mpr ⟨gs, hall, ?_⟩
  rw [List.filter_eq_self.mpr fun g hg => by simpa using hne g hg]
  rfl

end Query

/-! ## Numbers of pages -/

theorem ne_zero_of_positive? {s : String} {n : UInt64} (h : positive? s = some n) : n ≠ 0 := by
  unfold positive? at h
  split at h
  · rename_i k hread
    obtain ⟨-, hhigh⟩ := IntRange.holds_of_read (by decide) hread
    split at h
    · rename_i hone
      obtain rfl := Option.some.inj h
      have hbound : k ≤ 18446744073709551615 := hhigh
      intro hzero
      have hmod := congrArg UInt64.toNat hzero
      rw [UInt64.toNat_ofNat'] at hmod
      simp at hmod
      omega
    · cases h
  · cases h

/-- A number that is not zero is read from its digits. -/
theorem positive?_toString {n : UInt64} (hn : n ≠ 0) : positive? (toString n.toNat) = some n := by
  have htight : Chars.Tight (Nat.toDigits 10 n.toNat) := by
    refine Chars.tight_of_forall fun c hc => ?_
    have hdigit := Decimal.isDigit_of_mem_toDigits hc
    rw [Decimal.isDigit, Bool.and_eq_true, decide_eq_true_iff, decide_eq_true_iff] at hdigit
    have hlow : 48 ≤ c.toNat := hdigit.1
    have hhigh : c.toNat ≤ 57 := hdigit.2
    simp only [Chars.isBlank, Bool.or_eq_false_iff, Bool.and_eq_false_iff, decide_eq_false_iff_not]
    omega
  have hhigh : (n.toNat : Int) ≤ (IntRange.unsigned 64).high := by
    have hlt := n.toNat_lt
    have : (IntRange.unsigned 64).high = 18446744073709551615 := rfl
    omega
  have hread : (IntRange.unsigned 64).read (Nat.toDigits 10 n.toNat) = .ok (n.toNat : Int) :=
    IntRange.read_toDigits (by decide) hhigh
  have hone : (1 : Int) ≤ n.toNat := by
    have hpos : n.toNat ≠ 0 := fun hzero => hn (UInt64.toNat_inj.mp hzero)
    omega
  simp [positive?, Chars.trim_of_tight htight, hread, hone]

/-! ## Requests that can be written -/

namespace Query

/-- Every list that is there has items, and every item is read again from its text. -/
structure Writable (q : Query) : Prop where
  select : ∀ items ∈ q.select, items ≠ [] ∧
    ∀ i ∈ items, IsPiece "," i.text ∧ SelectItem.ofText i.text = .ok i
  group : ∀ key ∈ q.group, IsPiece "," key
  filters : ∀ f ∈ q.filters, Text.startsWith "$" f.param = false ∧
    Filter.ofPair f.param f.value = .ok f
  orGroups : ∀ g ∈ q.orGroups, g ≠ [] ∧ ∀ f ∈ g, f.IsAlternative
  searches : ∀ x ∈ q.searches, Search.ofText x.text = .ok x
  sort : ∀ items ∈ q.sort, items ≠ [] ∧
    ∀ i ∈ items, IsPiece "," i.text ∧ SortItem.ofText i.text = i
  page : ∀ n ∈ q.page, n ≠ 0
  perPage : ∀ n ∈ q.perPage, n ≠ 0
  includes : ∀ key ∈ q.includes, IsPiece "," key

theorem writable_empty : ({} : Query).Writable := by
  constructor <;> simp

theorem forall_mem_extend {α : Type} {P : α → Prop} {old : Option (List α)} {more : List α}
    (hold : ∀ xs ∈ old, xs ≠ [] ∧ ∀ x ∈ xs, P x) (hmore : ∀ x ∈ more, P x) :
    ∀ xs ∈ extend old more, xs ≠ [] ∧ ∀ x ∈ xs, P x := by
  unfold extend
  split
  · exact hold
  · rename_i hne
    intro xs hxs
    obtain rfl := Option.some.inj hxs
    refine ⟨fun hnil => hne (by simp_all), fun x hx => ?_⟩
    rcases List.mem_append.mp hx with hx | hx
    · cases old with
      | none => cases hx
      | some xs => exact (hold xs rfl).2 x hx
    · exact hmore x hx

theorem writable_of_addPair {q q' : Query} {pair : String × String} (h : addPair q pair = .ok q')
    (hq : q.Writable) : q'.Writable := by
  obtain ⟨key, value⟩ := pair
  simp only [addPair] at h
  split at h
  case h_1 =>
    obtain ⟨items, hitems, h⟩ := bind_eq_ok.mp h
    obtain rfl := pure_eq_ok.mp h
    refine { hq with select := forall_mem_extend hq.select fun i hi => ?_ }
    obtain ⟨item, hitem, hread⟩ := exists_of_mem_right (mapM_eq_ok.mp hitems) hi
    exact SelectItem.ofText_text (isPiece_of_mem_items hitem).1 hread
  case h_2 =>
    obtain rfl := Except.ok.inj h
    refine { hq with group := List.forall_mem_append.mpr ⟨hq.group, fun key hkey => ?_⟩ }
    exact (isPiece_of_mem_items hkey).1
  case h_3 =>
    obtain rfl := Except.ok.inj h
    refine { hq with sort := forall_mem_extend hq.sort fun i hi => ?_ }
    obtain ⟨item, hitem, rfl⟩ := List.mem_map.mp hi
    rw [SortItem.text_ofText]
    exact ⟨(isPiece_of_mem_items hitem).1, rfl⟩
  case h_4 =>
    split at h
    · rename_i n hn
      obtain rfl := Except.ok.inj h
      exact { hq with page := fun m hm => Option.some.inj hm ▸ ne_zero_of_positive? hn }
    · cases h
  case h_5 =>
    split at h
    · rename_i n hn
      obtain rfl := Except.ok.inj h
      exact { hq with perPage := fun m hm => Option.some.inj hm ▸ ne_zero_of_positive? hn }
    · cases h
  case h_6 =>
    obtain rfl := Except.ok.inj h
    refine { hq with includes := List.forall_mem_append.mpr ⟨hq.includes, fun key hkey => ?_⟩ }
    exact (isPiece_of_mem_items hkey).1
  case h_7 =>
    obtain ⟨gs, hgs, h⟩ := bind_eq_ok.mp h
    obtain rfl := pure_eq_ok.mp h
    refine { hq with orGroups := List.forall_mem_append.mpr ⟨hq.orGroups, fun g hg => ?_⟩ }
    exact ⟨ne_nil_of_groups hgs g hg, isAlternative_of_groups hgs g hg⟩
  case h_8 =>
    obtain ⟨x, hx, h⟩ := bind_eq_ok.mp h
    obtain rfl := pure_eq_ok.mp h
    refine { hq with searches := List.forall_mem_append.mpr ⟨hq.searches, ?_⟩ }
    exact List.forall_mem_singleton.mpr (Search.ofText_text hx)
  case h_9 =>
    split at h
    · cases h
    · rename_i hplain
      obtain ⟨f, hf, h⟩ := bind_eq_ok.mp h
      obtain rfl := pure_eq_ok.mp h
      refine { hq with filters := List.forall_mem_append.mpr ⟨hq.filters, ?_⟩ }
      obtain ⟨hparam, hvalue⟩ := Filter.eq_of_ofPair hf
      rw [List.forall_mem_singleton, hparam, hvalue]
      exact ⟨Bool.eq_false_iff.mpr hplain, hf⟩

theorem writable_of_ofPairs {ps : Pairs} {q : Query} (h : ofPairs ps = .ok q) : q.Writable :=
  foldlM_induction (fun _ _ _ => writable_of_addPair) h writable_empty

/-! ## Reading what was written -/

theorem foldlM_joined {name sep : String} {texts : List String} {q q' : Query}
    (hempty : texts = [] → q' = q) (hread : addPair q (name, sep.intercalate texts) = .ok q') :
    (Pairs.joined name sep texts).foldlM addPair q = .ok q' := by
  unfold Pairs.joined
  split
  · rename_i hnil
    rw [hempty (List.isEmpty_iff.mp hnil)]
    rfl
  · rw [List.foldlM_cons, hread]
    rfl

variable (q₀ : Query)

theorem read_select {items : List SelectItem}
    (h : ∀ i ∈ items, IsPiece "," i.text ∧ SelectItem.ofText i.text = .ok i) :
    (Pairs.joined "$select" "," (items.map SelectItem.text)).foldlM addPair q₀ =
      .ok { q₀ with select := extend q₀.select items } := by
  refine foldlM_joined (fun hnil => ?_) (bind_eq_ok.mpr ⟨items, ?_, rfl⟩)
  · rw [List.map_eq_nil_iff.mp hnil]
    rfl
  · rw [items_intercalate (List.forall_mem_map.mpr fun i hi => (h i hi).1), mapM_map_eq_ok_self]
    exact fun i hi => (h i hi).2

theorem read_group {keys : List String} (h : ∀ key ∈ keys, IsPiece "," key) :
    (Pairs.joined "$group" "," keys).foldlM addPair q₀ =
      .ok { q₀ with group := q₀.group ++ keys } := by
  refine foldlM_joined (fun hnil => ?_) ?_
  · rw [hnil, List.append_nil]
  · rw [addPair, items_intercalate h]

theorem read_sort {items : List SortItem}
    (h : ∀ i ∈ items, IsPiece "," i.text ∧ SortItem.ofText i.text = i) :
    (Pairs.joined "$sort" "," (items.map SortItem.text)).foldlM addPair q₀ =
      .ok { q₀ with sort := extend q₀.sort items } := by
  refine foldlM_joined (fun hnil => ?_) ?_
  · rw [List.map_eq_nil_iff.mp hnil]
    rfl
  · have hitems : (items.map SortItem.text).map SortItem.ofText = items := by
      rw [List.map_map]
      conv_rhs => rw [← List.map_id items]
      refine List.map_congr_left fun i hi => ?_
      rw [Function.comp_apply, (h i hi).2, id_eq]
    rw [addPair, items_intercalate (List.forall_mem_map.mpr fun i hi => (h i hi).1), hitems]

theorem read_page {n? : Option UInt64} (h : ∀ n ∈ n?, n ≠ 0) :
    (Pairs.number "$page" n?).foldlM addPair q₀ = .ok { q₀ with page := n?.or q₀.page } := by
  cases n? with
  | none => rfl
  | some n =>
      refine List.foldlM_cons.trans ?_
      rw [addPair, positive?_toString (h n rfl)]
      rfl

theorem read_perPage {n? : Option UInt64} (h : ∀ n ∈ n?, n ≠ 0) :
    (Pairs.number "$per_page" n?).foldlM addPair q₀ =
      .ok { q₀ with perPage := n?.or q₀.perPage } := by
  cases n? with
  | none => rfl
  | some n =>
      refine List.foldlM_cons.trans ?_
      rw [addPair, positive?_toString (h n rfl)]
      rfl

theorem read_include {keys : List String} (h : ∀ key ∈ keys, IsPiece "," key) :
    (Pairs.joined "$include" "," keys).foldlM addPair q₀ =
      .ok { q₀ with includes := q₀.includes ++ keys } := by
  refine foldlM_joined (fun hnil => ?_) ?_
  · rw [hnil, List.append_nil]
  · rw [addPair, items_intercalate h]

theorem read_or {gs : List (List Filter)}
    (h : ∀ g ∈ gs, g ≠ [] ∧ ∀ f ∈ g, f.IsAlternative) :
    (Pairs.joined "$or" " ;; " (gs.map groupText)).foldlM addPair q₀ =
      .ok { q₀ with orGroups := q₀.orGroups ++ gs } := by
  refine foldlM_joined (fun hnil => ?_) (bind_eq_ok.mpr ⟨gs, ?_, rfl⟩)
  · rw [List.map_eq_nil_iff.mp hnil, List.append_nil]
  · exact groups_text (fun g hg => (h g hg).1) fun g hg => (h g hg).2

theorem read_search {xs : List Search} (h : ∀ x ∈ xs, Search.ofText x.text = .ok x) :
    (xs.map fun x => ("$search", x.text)).foldlM addPair q₀ =
      .ok { q₀ with searches := q₀.searches ++ xs } := by
  induction xs generalizing q₀ with
  | nil =>
      rw [List.append_nil]
      rfl
  | cons x xs ih =>
      obtain ⟨hx, hxs⟩ := List.forall_mem_cons.mp h
      rw [List.map_cons, List.foldlM_cons]
      refine bind_eq_ok.mpr ⟨_, bind_eq_ok.mpr ⟨x, hx, rfl⟩, ?_⟩
      rw [ih _ hxs, List.append_assoc, List.singleton_append]

theorem addPair_plain {param : String} (hplain : Text.startsWith "$" param = false)
    (value : String) : addPair q₀ (param, value) =
      do return { q₀ with filters := q₀.filters ++ [← Filter.ofPair param value] } := by
  simp only [addPair]
  split
  case h_9 => rw [if_neg (Bool.eq_false_iff.mp hplain)]
  all_goals exact absurd hplain (by decide)

theorem read_filters {fs : List Filter} (h : ∀ f ∈ fs, Text.startsWith "$" f.param = false ∧
    Filter.ofPair f.param f.value = .ok f) :
    (fs.map fun f => (f.param, f.value)).foldlM addPair q₀ =
      .ok { q₀ with filters := q₀.filters ++ fs } := by
  induction fs generalizing q₀ with
  | nil =>
      rw [List.append_nil]
      rfl
  | cons f fs ih =>
      obtain ⟨⟨hplain, hread⟩, hfs⟩ := List.forall_mem_cons.mp h
      rw [List.map_cons, List.foldlM_cons, addPair_plain q₀ hplain]
      refine bind_eq_ok.mpr ⟨_, bind_eq_ok.mpr ⟨f, hread, rfl⟩, ?_⟩
      rw [ih _ hfs, List.append_assoc, List.singleton_append]

theorem foldlM_append_eq_ok {ps qs : Pairs} {q q₁ q₂ : Query} (hps : ps.foldlM addPair q = .ok q₁)
    (hqs : qs.foldlM addPair q₁ = .ok q₂) : (ps ++ qs).foldlM addPair q = .ok q₂ :=
  List.foldlM_append.trans (bind_eq_ok.mpr ⟨q₁, hps, hqs⟩)

theorem extend_getD {α : Type} {xs? : Option (List α)} (h : ∀ xs ∈ xs?, xs ≠ []) :
    extend none (xs?.getD []) = xs? := by
  cases xs? with
  | none => rfl
  | some xs =>
      rw [Option.getD_some, extend, if_neg (by simpa using h xs rfl)]
      rfl

theorem forall_mem_getD {α : Type} {P : α → Prop} {xs? : Option (List α)}
    (h : ∀ xs ∈ xs?, ∀ x ∈ xs, P x) : ∀ x ∈ xs?.getD [], P x := by
  cases xs? with
  | none => simp
  | some xs => exact h xs rfl

/-- A request with items that can be written is read from its parameters. -/
theorem Writable.read_print {q : Query} (h : q.Writable) : ofPairs q.print = .ok q := by
  have hselect := forall_mem_getD fun items hitems => (h.select items hitems).2
  have hsort := forall_mem_getD fun items hitems => (h.sort items hitems).2
  have hread := read_select {} hselect
  have hread := foldlM_append_eq_ok hread (read_group _ h.group)
  have hread := foldlM_append_eq_ok hread (read_sort _ hsort)
  have hread := foldlM_append_eq_ok hread (read_page _ h.page)
  have hread := foldlM_append_eq_ok hread (read_perPage _ h.perPage)
  have hread := foldlM_append_eq_ok hread (read_include _ h.includes)
  have hread := foldlM_append_eq_ok hread (read_or _ h.orGroups)
  have hread := foldlM_append_eq_ok hread (read_search _ h.searches)
  have hread := foldlM_append_eq_ok hread (read_filters _ h.filters)
  refine hread.trans (congrArg Except.ok ?_)
  -- the request started empty, so what was added is all there is
  simp only [extend_getD fun items hitems => (h.select items hitems).1,
    extend_getD fun items hitems => (h.sort items hitems).1, List.nil_append, Option.or_none]

end Query

/-- The requests that are read from parameters are those that can be written. -/
theorem Query.exists_ofPairs_iff {q : Query} : (∃ ps, ofPairs ps = .ok q) ↔ q.Writable :=
  ⟨fun ⟨_, h⟩ => writable_of_ofPairs h, fun h => ⟨q.print, h.read_print⟩⟩

/-- Writing a parsed request and parsing it again gives it back. -/
theorem Query.ofPairs_print {ps : Pairs} {q : Query} (h : ofPairs ps = .ok q) :
    ofPairs q.print = .ok q :=
  (writable_of_ofPairs h).read_print

namespace Query

/-- Parameters whose keys and values hold separators of other levels. -/
def overlapping : Pairs :=
  [("$select", " a=b ,, $count: x:i ,f$y"), ("k=,;||.$ne", " v "), ("$sort", "--a:i:i,-,:i"),
    ("$or", " ;a.$gt = 1| ||b== ;c ;; ;;; d=|;|"), ("$search", "f|g ,h=,=;"), ("$page", " +007 ")]

/-- The same parameters as they are written. -/
def rewritten : Pairs :=
  [("$select", "a=b,$count:x:i,f$y"), ("$sort", "--a:i:i,-,:i"), ("$page", "7"),
    ("$or", ";a.$gt= 1| || b== ;c ;; ; d=|;|"), ("$search", "f|g,h=,=;"), ("k=,;||.$ne", " v ")]

theorem ofPairs_rewritten :
    ∃ q, ofPairs overlapping = .ok q ∧ q.print = rewritten ∧ ofPairs rewritten = .ok q := by
  obtain ⟨q, hq, hprint⟩ := exists_eq_ok (x := ofPairs overlapping)
    (p := fun q => decide (q.print = rewritten)) (by decide +kernel)
  have hprint : q.print = rewritten := of_decide_eq_true hprint
  have hread := ofPairs_print hq
  rw [hprint] at hread
  exact ⟨q, hq, hprint, hread⟩

end Query

end EntityRest
