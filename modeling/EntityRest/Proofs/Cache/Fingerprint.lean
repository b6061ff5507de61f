import EntityRest.Cache.Fingerprint
import EntityRest.Proofs.Json.Object
import EntityRest.Proofs.Query.FilterOrder
import EntityRest.Proofs.Text.Split
import EntityRest.Proofs.Text.Words

/-! # Equal cache keys

Reads of one key are reads of one entity, with the same parameters but for blanks and for the order
of parameters of different names. Conversely, such parameters have one key: escaping keeps different
names different, and there is one order by names that keeps the values of each. -/

namespace EntityRest

namespace Pairs

variable {f : String → String}

theorem valuesOf_mapBoth (hf : f.Injective) (name : String) (ps : Pairs) :
    valuesOf (f name) (mapBoth f ps) = (valuesOf name ps).map f := by
  induction ps with
  | nil => rfl
  | cons p ps ih =>
      rw [mapBoth, List.map_cons, ← mapBoth, valuesOf_cons, valuesOf_cons, ih]
      by_cases hp : p.1 = name
      · simp [hp]
      · simp [hp, hf.eq_iff]

theorem Same.of_mapBoth (hf : f.Injective) {ps qs : Pairs}
    (h : Same (mapBoth f ps) (mapBoth f qs)) : Same ps qs := by
  intro name
  have hvalues := h (f name)
  rw [valuesOf_mapBoth hf, valuesOf_mapBoth hf] at hvalues
  exact List.map_injective_iff.mpr hf hvalues

theorem valuesOf_mergeSort (name : String) (ps : Pairs) :
    valuesOf name (ps.mergeSort fun a b => decide (a.1 ≤ b.1)) = valuesOf name ps := by
  have hequal : (ps.filter fun p => p.1 = name).Pairwise fun a b => Entries.keyLe a b = true := by
    refine List.pairwise_of_forall_mem_list fun a ha b hb => ?_
    have ha : a.1 = name := of_decide_eq_true (List.mem_filter.mp ha).2
    have hb : b.1 = name := of_decide_eq_true (List.mem_filter.mp hb).2
    exact decide_eq_true (ha.trans hb.symm ▸ String.le_refl a.1)
  -- those of one name are a sorted sublist, so they stay a sublist, and there are no others
  have hsub := (List.sublist_mergeSort Entries.keyLe_trans Entries.keyLe_total hequal
    List.filter_sublist).filter fun p => p.1 = name
  rw [List.filter_filter] at hsub
  simp only [Bool.and_self] at hsub
  have hlength := ((List.mergeSort_perm ps Entries.keyLe).filter fun p => p.1 = name).length_eq
  exact congrArg (List.map Prod.snd) (hsub.eq_of_length hlength.symm).symm

theorem Same.mapBoth (hf : f.Injective) {ps qs : Pairs} (h : Same ps qs) :
    Same (mapBoth f ps) (mapBoth f qs) := by
  have hnone {name : String} (hname : ∀ n, f n ≠ name) (rs : Pairs) :
      valuesOf name (Pairs.mapBoth f rs) = [] := by
    refine valuesOf_eq_nil fun p hp => ?_
    obtain ⟨r, -, rfl⟩ := List.mem_map.mp hp
    exact hname r.1
  intro name
  by_cases hname : ∃ n, f n = name
  · obtain ⟨n, rfl⟩ := hname
    rw [valuesOf_mapBoth hf, valuesOf_mapBoth hf, h n]
  · rw [hnone (not_exists.mp hname), hnone (not_exists.mp hname)]

/-- In the order of names, parameters that are the same are equal. Each of the two lists starts with
the least name, and with the first value of that name. -/
theorem Same.eq_of_sorted {ps qs : Pairs} (h : Same ps qs)
    (hps : ps.Pairwise fun a b => Entries.keyLe a b = true)
    (hqs : qs.Pairwise fun a b => Entries.keyLe a b = true) : ps = qs := by
  induction ps generalizing qs with
  | nil => exact h.perm.nil_eq
  | cons p ps ih =>
      cases qs with
      | nil => exact h.perm.symm.nil_eq.symm
      | cons q qs =>
          have hle {a b : String × String} {rest : Pairs} (hb : b ∈ a :: rest)
              (hrest : (a :: rest).Pairwise fun a b => Entries.keyLe a b = true) : a.1 ≤ b.1 := by
            rcases List.mem_cons.mp hb with rfl | hb
            · exact String.le_refl _
            · exact of_decide_eq_true (List.rel_of_pairwise_cons hrest hb)
          have hname : p.1 = q.1 :=
            String.le_antisymm (hle (h.perm.mem_iff.mpr List.mem_cons_self) hps)
              (hle (h.perm.mem_iff.mp List.mem_cons_self) hqs)
          have hvalues := h p.1
          rw [valuesOf_cons, valuesOf_cons, if_pos rfl, if_pos hname.symm] at hvalues
          have hpq : p = q := Prod.ext hname (List.cons.inj hvalues).1
          have hrest : Same ps qs := by
            intro name
            have hboth := h name
            rw [valuesOf_cons, valuesOf_cons, hpq] at hboth
            split at hboth
            · exact (List.cons.inj hboth).2
            · exact hboth
          rw [hpq, ih hrest hps.tail hqs.tail]

end Pairs

namespace Fingerprint

open Pairs

/-! ## Escaped texts -/

theorem escapeChar_append_inj {c c' : Char} {s s' : List Char}
    (h : escapeChar c ++ s = escapeChar c' ++ s') : c = c' ∧ s = s' := by
  unfold escapeChar at h
  split_ifs at h <;> grind

theorem escapeChar_ne_nil (c : Char) : escapeChar c ≠ [] := by
  unfold escapeChar
  split_ifs <;> exact List.cons_ne_nil _ _

theorem escape_injective : (List.flatMap escapeChar).Injective := by
  intro s s' h
  induction s generalizing s' with
  | nil =>
      cases s' with
      | nil => rfl
      | cons c' s' =>
          have hnil := List.append_eq_nil_iff.mp (List.flatMap_cons ▸ h.symm)
          exact absurd hnil.1 (escapeChar_ne_nil c')
  | cons c s ih =>
      cases s' with
      | nil =>
          have hnil := List.append_eq_nil_iff.mp (List.flatMap_cons ▸ h)
          exact absurd hnil.1 (escapeChar_ne_nil c)
      | cons c' s' =>
          rw [List.flatMap_cons, List.flatMap_cons] at h
          obtain ⟨rfl, hs⟩ := escapeChar_append_inj h
          rw [ih hs]

/-- A text with its separators escaped. -/
def escape (s : String) : String := String.ofList (s.toList.flatMap escapeChar)

theorem escape_inj : escape.Injective := by
  intro s s' h
  exact String.toList_inj.mp (escape_injective (String.ofList_injective h))

/-- No separators are left in the text. -/
def Bare (s : String) : Prop := '&' ∉ s.toList ∧ '=' ∉ s.toList

theorem bare_escape (s : String) : Bare (escape s) := by
  have hnot {x c : Char} (hx : x = '&' ∨ x = '=') : x ∉ escapeChar c := by
    unfold escapeChar
    split_ifs <;> grind
  constructor
  · simp [escape, hnot]
  · simp [escape, hnot]

/-! ## Keys -/

/-- A parameter as it stands in a key. -/
def piece (p : String × String) : String := p.1 ++ "=" ++ p.2

theorem toList_piece (p : String × String) :
    (piece p).toList = p.1.toList ++ '=' :: p.2.toList := by
  simp [piece]

theorem piece_inj {p q : String × String} (hp : Bare p.1 ∧ Bare p.2)
    (h : (piece p).toList = (piece q).toList) : p = q := by
  rw [toList_piece, toList_piece] at h
  obtain ⟨hkey, -, hvalue⟩ := (List.append_cons_inj_of_notMem hp.1.2 hp.2.2).mp h
  exact Prod.ext (String.toList_inj.mp hkey) (String.toList_inj.mp hvalue)

theorem splitChar_join {ps : Pairs} (hne : ps ≠ []) (hps : ∀ p ∈ ps, Bare p.1 ∧ Bare p.2) :
    Chars.splitChar '&' ("&".intercalate (ps.map piece)).toList =
      ps.map fun p => (piece p).toList := by
  rw [String.toList_intercalate, List.map_map]
  refine Chars.splitChar_intercalate (by simpa using hne) fun x hx => ?_
  obtain ⟨p, hp, rfl⟩ := List.mem_map.mp hx
  obtain ⟨hkey, hvalue⟩ := hps p hp
  simp [toList_piece, hkey.1, hvalue.1]

theorem join_inj {ps qs : Pairs} (hps : ∀ p ∈ ps, Bare p.1 ∧ Bare p.2)
    (hqs : ∀ q ∈ qs, Bare q.1 ∧ Bare q.2)
    (h : "&".intercalate (ps.map piece) = "&".intercalate (qs.map piece)) : ps = qs := by
  -- no parameters are written as an empty text, but no parameter is
  have hnil {p : String × String} {rs : Pairs} (hrs : ∀ r ∈ p :: rs, Bare r.1 ∧ Bare r.2) :
      "&".intercalate ((p :: rs).map piece) ≠ "" := by
    intro hempty
    have hsplit := splitChar_join (List.cons_ne_nil p rs) hrs
    rw [hempty, List.map_cons, toList_piece] at hsplit
    simp [Chars.splitChar] at hsplit
  cases ps with
  | nil =>
      cases qs with
      | nil => rfl
      | cons q qs => exact absurd h.symm (hnil hqs)
  | cons p ps =>
      cases qs with
      | nil => exact absurd h (hnil hps)
      | cons q qs =>
          have hpieces := (splitChar_join (List.cons_ne_nil p ps) hps).symm.trans
            ((congrArg (fun s => Chars.splitChar '&' s.toList) h).trans
              (splitChar_join (List.cons_ne_nil q qs) hqs))
          rw [← List.forall₂_eq_eq_eq, List.forall₂_map_left_iff,
            List.forall₂_map_right_iff] at hpieces
          rw [← List.forall₂_eq_eq_eq]
          exact ((List.forall₂_and_left _ _).mpr ⟨hps, hpieces⟩).imp fun _ _ h => piece_inj h.1 h.2

theorem normalizePairs_eq (ps : Pairs) :
    normalizePairs ps =
      (mapBoth escape (mapBoth Text.collapse ps)).mergeSort fun a b => decide (a.1 ≤ b.1) := by
  rw [normalizePairs, mapBoth, mapBoth, List.map_map]
  rfl

theorem bare_of_mem_normalizePairs {ps : Pairs} {p : String × String}
    (h : p ∈ normalizePairs ps) : Bare p.1 ∧ Bare p.2 := by
  rw [normalizePairs_eq, List.mem_mergeSort] at h
  obtain ⟨⟨k, v⟩, -, rfl⟩ := List.mem_map.mp h
  exact ⟨bare_escape k, bare_escape v⟩

theorem same_of_normalizePairs_eq {ps qs : Pairs} (h : normalizePairs ps = normalizePairs qs) :
    Same (mapBoth Text.collapse ps) (mapBoth Text.collapse qs) := by
  refine Same.of_mapBoth escape_inj fun name => ?_
  have hvalues := congrArg (valuesOf name) h
  rwa [normalizePairs_eq, normalizePairs_eq, valuesOf_mergeSort, valuesOf_mergeSort] at hvalues

theorem same_of_suffix_eq {ps qs : Pairs}
    (h : ("&".intercalate ((normalizePairs ps).map piece)).toList =
      ("&".intercalate ((normalizePairs qs).map piece)).toList) :
    Same (mapBoth Text.collapse ps) (mapBoth Text.collapse qs) :=
  same_of_normalizePairs_eq (join_inj (fun _ => bare_of_mem_normalizePairs)
    (fun _ => bare_of_mem_normalizePairs) (String.toList_inj.mp h))

theorem normalizePairs_eq_of_same {ps qs : Pairs}
    (h : Same (mapBoth Text.collapse ps) (mapBoth Text.collapse qs)) :
    normalizePairs ps = normalizePairs qs := by
  rw [normalizePairs_eq, normalizePairs_eq]
  refine Same.eq_of_sorted (fun name => ?_)
    (List.pairwise_mergeSort Entries.keyLe_trans Entries.keyLe_total _)
    (List.pairwise_mergeSort Entries.keyLe_trans Entries.keyLe_total _)
  rw [valuesOf_mergeSort, valuesOf_mergeSort]
  exact h.mapBoth escape_inj name

/-- What keys start with tells the name, unless one name starts with another and a colon. -/
theorem name_eq_of_start {name name' : String}
    (h : (keyPrefix name).toList <+: (keyPrefix name').toList)
    (hname : Text.startsWith (keyPrefix name) name' = false) : name = name' := by
  have hcolon (s : String) : (keyPrefix s).toList = s.toList ++ [':'] := by
    simp [keyPrefix]
  rw [hcolon name', List.prefix_concat_iff] at h
  rcases h with heq | hlonger
  · rw [hcolon name] at heq
    exact String.toList_inj.mp (List.append_cancel_right heq)
  · rw [Text.startsWith, List.isPrefixOf_iff_prefix.mpr hlonger] at hname
    cases hname

/-- Where no name is another with a colon and more behind it, equal keys are of one entity, and of
parameters that differ only in blanks and in the order of different names. -/
theorem same_of_ofRead_eq {name name' : String} {ps qs : Pairs}
    (h : ofRead name ps = ofRead name' qs)
    (hname : Text.startsWith (keyPrefix name) name' = false)
    (hname' : Text.startsWith (keyPrefix name') name = false) :
    name = name' ∧ Same (mapBoth Text.collapse ps) (mapBoth Text.collapse qs) := by
  have hlist := congrArg String.toList h
  simp only [ofRead, String.toList_append] at hlist
  have hsame : name = name' := by
    rcases List.prefix_or_prefix_of_prefix (List.prefix_append _ _)
      (hlist ▸ List.prefix_append (keyPrefix name').toList _) with hstart | hstart
    · exact name_eq_of_start hstart hname
    · exact (name_eq_of_start hstart hname').symm
  subst hsame
  exact ⟨rfl, same_of_suffix_eq (List.append_cancel_left hlist)⟩

/-- Two reads of an entity have one key exactly if, but for blanks, every name has the same values
in the same order. Texts are the same but for blanks if they have the same words. -/
theorem ofRead_eq_iff (name : String) (ps qs : Pairs) :
    (ofRead name ps = ofRead name qs ↔
      ∀ key, valuesOf key (mapBoth Text.collapse ps) =
        valuesOf key (mapBoth Text.collapse qs)) ∧
    ∀ s t, Text.collapse s = Text.collapse t ↔ Chars.words s.toList = Chars.words t.toList := by
  refine ⟨⟨?_, ?_⟩, fun s t => Text.collapse_eq_iff⟩
  · intro h
    have hlist := congrArg String.toList h
    simp only [ofRead, String.toList_append] at hlist
    exact same_of_suffix_eq (List.append_cancel_left hlist)
  · intro h
    rw [ofRead, ofRead, normalizePairs_eq_of_same h]

end Fingerprint

end EntityRest
