import EntityRest.Proofs.Except
import EntityRest.Query.Params

/-! # What parsed requests look like

No group of alternatives and no search of a parsed request is empty. -/

namespace EntityRest

namespace Query

/-- Every group has an alternative, and every search a field. -/
structure Filled (q : Query) : Prop where
  orGroups : ∀ g ∈ q.orGroups, g ≠ []
  searches : ∀ x ∈ q.searches, x.fields ≠ []

theorem filled_empty : ({} : Query).Filled where
  orGroups := by simp
  searches := by simp

theorem ne_nil_of_groups {s : String} {gs : List (List Filter)} (h : groups s = .ok gs) :
    ∀ g ∈ gs, g ≠ [] := by
  obtain ⟨all, -, h⟩ := bind_eq_ok.mp h
  obtain rfl := pure_eq_ok.mp h
  intro g hg
  simpa using (List.mem_filter.mp hg).2

theorem fields_ne_nil_of_ofText {s : String} {x : Search} (h : Search.ofText s = .ok x) :
    x.fields ≠ [] := by
  unfold Search.ofText at h
  split at h
  · cases h
  · dsimp only at h
    split at h
    · cases h
    · rename_i hfields
      obtain rfl := Except.ok.inj h
      simpa using hfields

/-- A parameter adds at most one search and filled groups. -/
theorem filled_of_addPair {q q' : Query} {pair : String × String} (h : addPair q pair = .ok q')
    (hq : q.Filled) : q'.Filled := by
  have same {q₁ : Query} (hgroups : q₁.orGroups = q.orGroups)
      (hsearches : q₁.searches = q.searches) : q₁.Filled :=
    ⟨hgroups ▸ hq.orGroups, hsearches ▸ hq.searches⟩
  obtain ⟨key, value⟩ := pair
  simp only [addPair] at h
  split at h
  case h_1 =>
    obtain ⟨items, -, h⟩ := bind_eq_ok.mp h
    obtain rfl := pure_eq_ok.mp h
    exact same rfl rfl
  case h_2 | h_3 | h_6 =>
    obtain rfl := Except.ok.inj h
    exact same rfl rfl
  case h_4 | h_5 =>
    split at h
    · obtain rfl := Except.ok.inj h
      exact same rfl rfl
    · cases h
  case h_7 =>
    obtain ⟨gs, hgs, h⟩ := bind_eq_ok.mp h
    obtain rfl := pure_eq_ok.mp h
    refine ⟨fun g hg => ?_, hq.searches⟩
    exact (List.mem_append.mp hg).elim (hq.orGroups g) (ne_nil_of_groups hgs g)
  case h_8 =>
    obtain ⟨x, hx, h⟩ := bind_eq_ok.mp h
    obtain rfl := pure_eq_ok.mp h
    refine ⟨hq.orGroups, fun y hy => ?_⟩
    rcases List.mem_append.mp hy with hold | hnew
    · exact hq.searches y hold
    · exact List.mem_singleton.mp hnew ▸ fields_ne_nil_of_ofText hx
  case h_9 =>
    split at h
    · cases h
    · obtain ⟨f, -, h⟩ := bind_eq_ok.mp h
      obtain rfl := pure_eq_ok.mp h
      exact same rfl rfl

theorem filled_of_ofPairs {pairs : Pairs} {q : Query} (h : ofPairs pairs = .ok q) : q.Filled :=
  foldlM_induction (fun _ _ _ => filled_of_addPair) h filled_empty

end Query

end EntityRest
