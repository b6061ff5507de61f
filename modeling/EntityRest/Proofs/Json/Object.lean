import EntityRest.Json.Object
import Mathlib.Data.List.Induction
import Mathlib.Data.List.Nodup

/-! # Entries by key

What is found after a value was put, where it stands, and entries in the order of their keys. -/

namespace EntityRest.Entries

variable {α : Type} {es : Entries α} {k : String} {v : α}

@[simp] theorem keys_nil : keys ([] : Entries α) = [] := rfl

@[simp] theorem keys_cons (k : String) (v : α) (es : Entries α) :
    keys ((k, v) :: es) = k :: keys es := rfl

@[simp] theorem keys_append (es fs : Entries α) : keys (es ++ fs) = keys es ++ keys fs :=
  List.map_append

/-! ## Looking up -/

theorem get?_eq_none (h : k ∉ keys es) : get? k es = none := by
  induction es with
  | nil => rfl
  | cons e es ih =>
      have hne : k ≠ e.1 := List.ne_of_not_mem_cons h
      have htail : k ∉ keys es := List.not_mem_of_not_mem_cons h
      rw [get?, if_neg hne.symm, ih htail]

theorem get?_append (h : k ∉ keys es) (fs : Entries α) : get? k (es ++ fs) = get? k fs := by
  induction es with
  | nil => rfl
  | cons e es ih =>
      have hne : k ≠ e.1 := List.ne_of_not_mem_cons h
      have htail : k ∉ keys es := List.not_mem_of_not_mem_cons h
      rw [List.cons_append, get?, if_neg hne.symm, ih htail]

theorem get?_map {β : Type} (f : String → α → β) (k : String) (es : Entries α) :
    get? k (es.map fun e => (e.1, f e.1 e.2)) = (get? k es).map (f k) := by
  induction es with
  | nil => rfl
  | cons e es ih =>
      by_cases he : e.1 = k
      · simp [get?, he]
      · simpa [get?, he] using ih

@[simp] theorem get?_put_self (es : Entries α) (k : String) (v : α) :
    get? k (put k v es) = some v := by
  induction es with
  | nil => simp [put, get?]
  | cons e es ih =>
      by_cases he : e.1 = k
      · simp [put, get?, he]
      · simpa [put, get?, he] using ih

theorem get?_put_of_ne {j : String} (h : j ≠ k) (es : Entries α) (v : α) :
    get? j (put k v es) = get? j es := by
  induction es with
  | nil => simp [put, get?, Ne.symm h]
  | cons e es ih =>
      by_cases he : e.1 = k
      · simp [put, get?, he, Ne.symm h]
      · simp only [put, get?, he, if_false, ih]

theorem mem_of_get? (h : get? k es = some v) : (k, v) ∈ es := by
  induction es with
  | nil => cases h
  | cons e es ih =>
      obtain ⟨j, w⟩ := e
      by_cases hj : j = k
      · have hw : w = v := by simpa [get?, hj] using h
        exact hj ▸ hw ▸ List.mem_cons_self
      · exact List.mem_cons_of_mem _ (ih (by simpa [get?, hj] using h))

/-- Where keys are all different, what is found under a key are the entries of that key. -/
theorem get?_eq_some_iff (h : (keys es).Nodup) : get? k es = some v ↔ (k, v) ∈ es := by
  induction es with
  | nil => simp [get?]
  | cons e es ih =>
      obtain ⟨j, w⟩ := e
      obtain ⟨hj, hes⟩ := List.nodup_cons.mp h
      by_cases hk : j = k
      · have hnot : (k, v) ∉ es := fun hmem => hj (List.mem_map.mpr ⟨_, hmem, hk.symm⟩)
        simp [get?, hk, hnot, eq_comm]
      · simp [get?, hk, Ne.symm hk, ih hes]

/-! ## Putting -/

theorem put_eq_self (h : get? k es = some v) : put k v es = es := by
  induction es with
  | nil => cases h
  | cons e es ih =>
      obtain ⟨j, w⟩ := e
      by_cases hj : j = k
      · have hw : w = v := by simpa [get?, hj] using h
        rw [put, if_pos hj, hw]
      · have hrest : get? k es = some v := by simpa [get?, hj] using h
        rw [put, if_neg hj, ih hrest]

theorem mem_keys_put {j : String} : j ∈ keys (put k v es) ↔ j = k ∨ j ∈ keys es := by
  induction es with
  | nil => simp [put]
  | cons e es ih =>
      obtain ⟨i, w⟩ := e
      by_cases hi : i = k
      · simp [put, hi]
      · simp [put, hi, ih, or_left_comm]

theorem nodup_keys_put (h : (keys es).Nodup) (k : String) (v : α) : (keys (put k v es)).Nodup := by
  induction es with
  | nil => simp [put]
  | cons e es ih =>
      obtain ⟨i, w⟩ := e
      rw [keys_cons, List.nodup_cons] at h
      by_cases hi : i = k
      · simpa [put, hi] using hi ▸ h
      · simpa [put, hi, mem_keys_put, h.1] using ih h.2

theorem of_mem_put {e : String × α} (h : e ∈ put k v es) : e = (k, v) ∨ e ∈ es := by
  induction es with
  | nil => simpa [put] using h
  | cons x es ih =>
      by_cases hk : x.1 = k
      · rw [put, if_pos hk, List.mem_cons] at h
        rcases h with rfl | h
        · exact .inl (by rw [← hk])
        · exact .inr (List.mem_cons_of_mem x h)
      · rw [put, if_neg hk, List.mem_cons] at h
        rcases h with rfl | h
        · exact .inr List.mem_cons_self
        · exact (ih h).imp_right (List.mem_cons_of_mem x)

theorem put_eq_append (h : k ∉ keys es) (v : α) : put k v es = es ++ [(k, v)] := by
  induction es with
  | nil => rfl
  | cons e es ih =>
      have hne : k ≠ e.1 := List.ne_of_not_mem_cons h
      have htail : k ∉ keys es := List.not_mem_of_not_mem_cons h
      rw [put, if_neg hne.symm, ih htail]
      rfl

theorem put_append (h : k ∉ keys es) (v : α) (fs : Entries α) :
    put k v (es ++ fs) = es ++ put k v fs := by
  induction es with
  | nil => rfl
  | cons e es ih =>
      have hne : k ≠ e.1 := List.ne_of_not_mem_cons h
      have htail : k ∉ keys es := List.not_mem_of_not_mem_cons h
      rw [List.cons_append, put, if_neg hne.symm, ih htail]
      rfl

theorem foldl_eq_append {f : Entries α → String × α → Entries α} {es out : Entries α}
    (hkeys : es.keys.Nodup) (hstep : ∀ e ∈ es, ∀ out, e.1 ∉ keys out → f out e = out ++ [e])
    (hnew : ∀ k ∈ es.keys, k ∉ out.keys) : es.foldl f out = out ++ es := by
  induction es generalizing out with
  | nil => exact (List.append_nil out).symm
  | cons e es ih =>
      obtain ⟨he, hes⟩ := List.forall_mem_cons.mp hstep
      obtain ⟨hfirst, hlater⟩ := List.forall_mem_cons.mp hnew
      obtain ⟨hnotin, hnodup⟩ := List.nodup_cons.mp hkeys
      have hstill : ∀ k ∈ keys es, k ∉ keys (out ++ [e]) := by
        intro k hk hmem
        rw [keys_append, List.mem_append] at hmem
        rcases hmem with hold | hlast
        · exact hlater k hk hold
        · have hke : k = e.1 := List.mem_singleton.mp hlast
          exact hnotin (hke ▸ hk)
      calc (e :: es).foldl f out = es.foldl f (out ++ [e]) := by
            rw [List.foldl_cons, he out hfirst]
        _ = out ++ [e] ++ es := ih hnodup hes hstill
        _ = out ++ e :: es := by rw [List.append_assoc]; rfl

theorem putAll_eq_append {more : List (String × α)} (hnew : ∀ e ∈ more, e.1 ∉ keys es)
    (hnodup : (more.map Prod.fst).Nodup) : putAll es more = es ++ more :=
  foldl_eq_append hnodup (fun e _ _ he => put_eq_append he e.2) (List.forall_mem_map.mpr hnew)

theorem ofPairs_eq_self {pairs : List (String × α)} (h : (pairs.map Prod.fst).Nodup) :
    ofPairs pairs = pairs :=
  putAll_eq_append (by simp) h

theorem ofPairs_concat (pairs : List (String × α)) (e : String × α) :
    ofPairs (pairs ++ [e]) = (ofPairs pairs).put e.1 e.2 := by
  rw [ofPairs, putAll, List.foldl_append]
  rfl

theorem nodup_keys_ofPairs (pairs : List (String × α)) : (keys (ofPairs pairs)).Nodup := by
  induction pairs using List.reverseRecOn with
  | nil => exact List.nodup_nil
  | append_singleton pairs e ih =>
      rw [ofPairs_concat]
      exact nodup_keys_put ih e.1 e.2

theorem mem_of_mem_ofPairs {pairs : List (String × α)} {e : String × α} (h : e ∈ ofPairs pairs) :
    e ∈ pairs := by
  induction pairs using List.reverseRecOn with
  | nil => exact h
  | append_singleton pairs d ih =>
      rw [ofPairs_concat] at h
      rcases of_mem_put h with rfl | hold
      · simp
      · exact List.mem_append_left _ (ih hold)

/-! ## In the order of keys -/

/-- Does the key of one entry stand no later than that of another? -/
def keyLe (a b : String × α) : Bool := decide (a.1 ≤ b.1)

theorem keyLe_trans (a b c : String × α) (hab : keyLe a b = true) (hbc : keyLe b c = true) :
    keyLe a c = true :=
  decide_eq_true (String.le_trans (of_decide_eq_true hab) (of_decide_eq_true hbc))

theorem keyLe_total (a b : String × α) : (keyLe a b || keyLe b a) = true := by
  rw [Bool.or_eq_true]
  exact (String.le_total a.1 b.1).imp decide_eq_true decide_eq_true

/-- The entries in the order of their keys. -/
def sorted (es : Entries α) : Entries α := es.mergeSort keyLe

theorem sorted_perm (es : Entries α) : es.sorted.Perm es := List.mergeSort_perm es keyLe

/-- Entries under different keys have one sorted form in any order. -/
theorem sorted_eq_of_perm {es fs : Entries α} (h : es.Perm fs) (hkeys : es.keys.Nodup) :
    es.sorted = fs.sorted := by
  have hperm : es.sorted.Perm fs.sorted :=
    (sorted_perm es).trans (h.trans (sorted_perm fs).symm)
  have hsorted (es : Entries α) : es.sorted.Pairwise fun a b => keyLe a b = true :=
    List.pairwise_mergeSort keyLe_trans keyLe_total es
  refine hperm.eq_of_pairwise ?_ (hsorted es) (hsorted fs)
  intro a b ha hb hab hba
  have hae : a ∈ es := (sorted_perm es).mem_iff.mp ha
  have hbe : b ∈ es := h.mem_iff.mpr ((sorted_perm fs).mem_iff.mp hb)
  have hkey : a.1 = b.1 := String.le_antisymm (of_decide_eq_true hab) (of_decide_eq_true hba)
  exact List.inj_on_of_nodup_map hkeys hae hbe hkey

end EntityRest.Entries
