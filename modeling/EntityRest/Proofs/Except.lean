import Mathlib.Data.List.Forall2

/-! Computations that may fail: what their success or failure says about their steps, and relations
between the results of two of them. -/

namespace EntityRest

variable {ε α β γ δ : Type}

/-! ## Success -/

theorem bind_eq_ok {x : Except ε α} {f : α → Except ε β} {b : β} :
    (x >>= f) = .ok b ↔ ∃ a, x = .ok a ∧ f a = .ok b := by
  cases x with
  | error e => simp [bind, Except.bind]
  | ok a => simp [bind, Except.bind]

theorem then_eq_ok {x : Except ε Unit} {y : Except ε β} {b : β} :
    (x >>= fun _ => y) = .ok b ↔ x = .ok () ∧ y = .ok b := by
  cases x with
  | error e => simp [bind, Except.bind]
  | ok a => simp [bind, Except.bind]

theorem map_eq_ok {x : Except ε α} {f : α → β} {b : β} :
    x.map f = .ok b ↔ ∃ a, x = .ok a ∧ b = f a := by
  cases x with
  | error e => simp [Except.map]
  | ok a => simp [Except.map, eq_comm]

theorem mapError_eq_ok {x : Except ε α} {f : ε → δ} {a : α} : x.mapError f = .ok a ↔ x = .ok a := by
  cases x with
  | error e => simp [Except.mapError]
  | ok a => simp [Except.mapError]

theorem pure_eq_ok {a b : α} : (pure a : Except ε α) = .ok b ↔ b = a := by
  simp [pure, Except.pure, eq_comm]

theorem mapM_eq_ok {f : α → Except ε β} {xs : List α} {ys : List β} :
    xs.mapM f = .ok ys ↔ List.Forall₂ (fun x y => f x = .ok y) xs ys := by
  induction xs generalizing ys with
  | nil => rw [List.mapM_nil, pure_eq_ok, List.forall₂_nil_left_iff]
  | cons x xs ih =>
      simp only [List.mapM_cons, bind_eq_ok, pure_eq_ok, ih, List.forall₂_cons_left_iff]
      constructor
      · rintro ⟨y, hy, ys, hys, rfl⟩
        exact ⟨y, ys, hy, hys, rfl⟩
      · rintro ⟨y, ys, hy, hys, rfl⟩
        exact ⟨y, hy, ys, hys, rfl⟩

theorem exists_mapM_eq_ok {f : α → Except ε β} {xs : List α} :
    (∃ ys, xs.mapM f = .ok ys) ↔ ∀ x ∈ xs, ∃ y, f x = .ok y := by
  induction xs with
  | nil => simp [pure_eq_ok]
  | cons x xs ih =>
      rw [List.forall_mem_cons, ← ih]
      simp only [List.mapM_cons, bind_eq_ok, pure_eq_ok]
      constructor
      · rintro ⟨_, y, hy, ys, hys, rfl⟩
        exact ⟨⟨y, hy⟩, ys, hys⟩
      · rintro ⟨⟨y, hy⟩, ys, hys⟩
        exact ⟨y :: ys, y, hy, ys, hys, rfl⟩

theorem mapM_congr {f g : α → Except ε β} {xs : List α} (h : ∀ x ∈ xs, f x = g x) :
    xs.mapM f = xs.mapM g := by
  induction xs with
  | nil => rfl
  | cons x xs ih =>
      obtain ⟨hx, hxs⟩ := List.forall_mem_cons.mp h
      rw [List.mapM_cons, List.mapM_cons, hx, ih hxs]

theorem mapM_map_eq_ok_self {f : β → Except ε α} {g : α → β} {xs : List α} :
    (xs.map g).mapM f = .ok xs ↔ ∀ x ∈ xs, f (g x) = .ok x := by
  rw [mapM_eq_ok, List.forall₂_map_left_iff, List.forall₂_same]

theorem exists_eq_ok {x : Except ε α} {p : α → Bool} (h : x.toOption.any p = true) :
    ∃ a, x = .ok a ∧ p a = true := by
  cases x with
  | error e => cases h
  | ok a => exact ⟨a, rfl, h⟩

theorem forM_eq_ok {f : α → Except ε Unit} {xs : List α} :
    xs.forM f = .ok () ↔ ∀ x ∈ xs, f x = .ok () := by
  induction xs with
  | nil => simp [pure_eq_ok]
  | cons x xs ih => rw [List.forM, then_eq_ok, ih, List.forall_mem_cons]

theorem foldlM_induction {f : β → α → Except ε β} {P : β → Prop}
    (step : ∀ b a b', f b a = .ok b' → P b → P b') {xs : List α} {b b' : β}
    (h : xs.foldlM f b = .ok b') (hb : P b) : P b' := by
  induction xs generalizing b with
  | nil => exact Except.ok.inj h ▸ hb
  | cons x xs ih =>
      rw [List.foldlM_cons] at h
      obtain ⟨c, hc, hxs⟩ := bind_eq_ok.mp h
      exact ih hxs (step b x c hc hb)

/-! ## Failure -/

theorem bind_eq_error {x : Except ε α} {f : α → Except ε β} {e : ε} :
    (x >>= f) = .error e ↔ x = .error e ∨ ∃ a, x = .ok a ∧ f a = .error e := by
  cases x with
  | error e => simp [bind, Except.bind]
  | ok a => simp [bind, Except.bind]

theorem mapError_eq_error {x : Except ε α} {f : ε → δ} {e : δ} :
    x.mapError f = .error e ↔ ∃ e', x = .error e' ∧ e = f e' := by
  cases x with
  | error e => simp [Except.mapError, eq_comm]
  | ok a => simp [Except.mapError]

theorem map_eq_error {x : Except ε α} {f : α → β} {e : ε} :
    x.map f = .error e ↔ x = .error e := by
  cases x with
  | error e => simp [Except.map]
  | ok a => simp [Except.map]

theorem exists_eq_error {x : Except ε α} (h : x.toOption.isNone = true) : ∃ e, x = .error e := by
  cases x with
  | error e => exact ⟨e, rfl⟩
  | ok a => cases h

theorem exists_of_mapM_eq_error {f : α → Except ε β} {xs : List α} {e : ε}
    (h : xs.mapM f = .error e) : ∃ x ∈ xs, f x = .error e := by
  induction xs with
  | nil => cases h
  | cons x xs ih =>
      rw [List.mapM_cons] at h
      rcases bind_eq_error.mp h with hx | ⟨y, -, h⟩
      · exact ⟨x, List.mem_cons_self, hx⟩
      · rcases bind_eq_error.mp h with hxs | ⟨ys, -, h⟩
        · obtain ⟨x', hmem, hx'⟩ := ih hxs
          exact ⟨x', List.mem_cons_of_mem _ hmem, hx'⟩
        · cases h

theorem exists_of_foldlM_eq_error {f : β → α → Except ε β} {xs : List α} {b : β} {e : ε}
    (h : xs.foldlM f b = .error e) : ∃ b', ∃ x ∈ xs, f b' x = .error e := by
  induction xs generalizing b with
  | nil => cases h
  | cons x xs ih =>
      rw [List.foldlM_cons] at h
      rcases bind_eq_error.mp h with hx | ⟨b', -, hxs⟩
      · exact ⟨b, x, List.mem_cons_self, hx⟩
      · obtain ⟨b'', x', hmem, hx'⟩ := ih hxs
        exact ⟨b'', x', List.mem_cons_of_mem _ hmem, hx'⟩

theorem mapM_append_cons_eq_error {f : α → Except ε β} {xs : List α} {ys : List β} {x : α} {e : ε}
    (hxs : xs.mapM f = .ok ys) (hx : f x = .error e) (zs : List α) :
    (xs ++ x :: zs).mapM f = .error e := by
  rw [List.mapM_append, hxs, List.mapM_cons, hx]
  rfl

/-! ## Related lists -/

section Lists

variable {R : α → β → Prop} {S : β → γ → Prop} {T : α → γ → Prop}

theorem exists_of_mem_right {xs : List α} {ys : List β}
    (h : List.Forall₂ R xs ys) {y : β} (hy : y ∈ ys) : ∃ x ∈ xs, R x y := by
  induction h with
  | nil => cases hy
  | cons hxy _ ih =>
      rcases List.mem_cons.mp hy with rfl | hmem
      · exact ⟨_, List.mem_cons_self, hxy⟩
      · obtain ⟨x, hx, hR⟩ := ih hmem
        exact ⟨x, List.mem_cons_of_mem _ hx, hR⟩

theorem exists_append_of_forall₂ {xs ys : List α} {zs : List β}
    (h : List.Forall₂ R (xs ++ ys) zs) :
    ∃ us vs, zs = us ++ vs ∧ List.Forall₂ R xs us ∧ List.Forall₂ R ys vs := by
  induction xs generalizing zs with
  | nil => exact ⟨[], zs, rfl, .nil, h⟩
  | cons x xs ih =>
      obtain ⟨z, rest, hxz, hrest, rfl⟩ := List.forall₂_cons_left_iff.mp h
      obtain ⟨us, vs, rfl, hus, hvs⟩ := ih hrest
      exact ⟨z :: us, vs, rfl, .cons hxz hus, hvs⟩

theorem exists_of_mem_left {xs : List α} {ys : List β}
    (h : List.Forall₂ R xs ys) {x : α} (hx : x ∈ xs) : ∃ y ∈ ys, R x y := by
  obtain ⟨y, hy, hR⟩ := exists_of_mem_right h.flip hx
  exact ⟨y, hy, hR⟩

theorem sublist_of_forall₂ {xs xs' : List α} {ys ys' : List β} (hsub : xs'.Sublist xs)
    (h : List.Forall₂ R xs ys) (h' : List.Forall₂ R xs' ys')
    (hR : ∀ x y y', R x y → R x y' → y = y') : ys'.Sublist ys := by
  induction hsub generalizing ys ys' with
  | slnil =>
      cases h'
      exact List.nil_sublist ys
  | cons x _ ih =>
      obtain ⟨y, ys, -, hys, rfl⟩ := List.forall₂_cons_left_iff.mp h
      exact (ih hys h').cons y
  | cons_cons x _ ih =>
      obtain ⟨y, ys, hy, hys, rfl⟩ := List.forall₂_cons_left_iff.mp h
      obtain ⟨y', ys', hy', hys', rfl⟩ := List.forall₂_cons_left_iff.mp h'
      obtain rfl := hR x y y' hy hy'
      exact (ih hys hys').cons_cons y

theorem forall₂_comp {xs : List α} {ys : List β} {zs : List γ} (hxy : List.Forall₂ R xs ys)
    (hyz : List.Forall₂ S ys zs) (h : ∀ x y z, R x y → S y z → T x z) :
    List.Forall₂ T xs zs := by
  induction hxy generalizing zs with
  | nil =>
      cases hyz
      exact .nil
  | cons hx _ ih =>
      obtain ⟨z, rest, hz, hrest, rfl⟩ := List.forall₂_cons_left_iff.mp hyz
      exact .cons (h _ _ _ hx hz) (ih hrest)

theorem map_eq_of_forall₂ {f : α → γ} {g : β → γ} {xs : List α} {ys : List β}
    (h : List.Forall₂ R xs ys) (hfg : ∀ x y, R x y → f x = g y) : xs.map f = ys.map g := by
  rw [← List.forall₂_eq_eq_eq]
  exact List.rel_map (fun x y hxy => hfg x y hxy) h

end Lists

theorem mapM_bind {f : α → Except ε β} {g : β → Except ε γ} {xs : List α} {ys : List β}
    {zs : List γ} (hys : xs.mapM f = .ok ys) (hzs : ys.mapM g = .ok zs) :
    (xs.mapM fun x => f x >>= g) = .ok zs :=
  mapM_eq_ok.mpr (forall₂_comp (mapM_eq_ok.mp hys) (mapM_eq_ok.mp hzs) fun _ y _ hy hz =>
    bind_eq_ok.mpr ⟨y, hy, hz⟩)

/-! ## Two computations -/

/-- If both computations succeed, their results are related. -/
def Agree (R : α → β → Prop) (x : Except ε α) (y : Except ε β) : Prop :=
  ∀ a b, x = .ok a → y = .ok b → R a b

namespace Agree

variable {R : α → β → Prop} {S : γ → δ → Prop}

theorem ok {a : α} {b : β} (h : R a b) : Agree R (.ok a : Except ε α) (.ok b) := by
  rintro _ _ ⟨⟩ ⟨⟩
  exact h

theorem pure {a : α} {b : β} (h : R a b) : Agree R (pure a : Except ε α) (pure b) :=
  ok h

theorem error_left {e : ε} {y : Except ε β} : Agree R (.error e) y := by
  intro _ _ h
  cases h

theorem bind {x : Except ε α} {y : Except ε β} {f : α → Except ε γ} {g : β → Except ε δ}
    (h : Agree R x y) (hfg : ∀ a b, R a b → Agree S (f a) (g b)) :
    Agree S (x >>= f) (y >>= g) := by
  intro c d hc hd
  obtain ⟨a, ha, hc⟩ := bind_eq_ok.mp hc
  obtain ⟨b, hb, hd⟩ := bind_eq_ok.mp hd
  exact hfg a b (h a b ha hb) c d hc hd

theorem map {x : Except ε α} {y : Except ε β} {f : α → γ} {g : β → δ}
    (h : Agree R x y) (hfg : ∀ a b, R a b → S (f a) (g b)) :
    Agree S (x.map f) (y.map g) := by
  intro c d hc hd
  obtain ⟨a, ha, rfl⟩ := map_eq_ok.mp hc
  obtain ⟨b, hb, rfl⟩ := map_eq_ok.mp hd
  exact hfg a b (h a b ha hb)

theorem mapM {xs : List α} {ys : List β} {f : α → Except ε γ} {g : β → Except ε δ}
    (h : List.Forall₂ R xs ys) (hfg : ∀ a b, R a b → Agree S (f a) (g b)) :
    Agree (List.Forall₂ S) (xs.mapM f) (ys.mapM g) := by
  induction h with
  | nil => exact pure .nil
  | cons hxy _ ih =>
      simp only [List.mapM_cons]
      refine (hfg _ _ hxy).bind fun c d hcd => ih.bind fun cs ds hcds => ?_
      exact pure (.cons hcd hcds)

theorem bind_same {x : Except ε α} {f : α → Except ε γ} {g : α → Except ε δ}
    (h : ∀ a, Agree S (f a) (g a)) : Agree S (x >>= f) (x >>= g) := by
  cases x with
  | error e => exact error_left
  | ok a => exact h a

end Agree

/-- Two computations side by side: if both succeed, their results are related. If only one of them
does, the other fails in a way that is excused on its side, and if both fail, then in the same way
unless one of them is excused. -/
inductive Concur (E E' : ε → Prop) (R : α → β → Prop) : Except ε α → Except ε β → Prop
  | ok {a : α} {b : β} (h : R a b) : Concur E E' R (.ok a) (.ok b)
  | left {e : ε} {b : β} (h : E e) : Concur E E' R (.error e) (.ok b)
  | right {a : α} {e : ε} (h : E' e) : Concur E E' R (.ok a) (.error e)
  | error {e e' : ε} (h : e = e' ∨ E e ∨ E' e') : Concur E E' R (.error e) (.error e')

namespace Concur

variable {E E' : ε → Prop} {R : α → β → Prop} {S : γ → δ → Prop}

theorem pure {a : α} {b : β} (h : R a b) :
    Concur E E' R (pure a : Except ε α) (pure b) :=
  ok h

theorem same_error (e : ε) : Concur E E' R (.error e : Except ε α) (.error e) :=
  error (.inl rfl)

theorem refl {R : α → α → Prop} (hR : ∀ a, R a a) (x : Except ε α) : Concur E E' R x x := by
  cases x with
  | error e => exact same_error e
  | ok a => exact ok (hR a)

theorem bind {x : Except ε α} {y : Except ε β} {f : α → Except ε γ} {g : β → Except ε δ}
    (h : Concur E E' R x y) (hfg : ∀ a b, R a b → Concur E E' S (f a) (g b)) :
    Concur E E' S (x >>= f) (y >>= g) := by
  cases h with
  | ok hab => exact hfg _ _ hab
  | @left e b he =>
      change Concur E E' S (.error e) (g b)
      cases g b with
      | error e' => exact error (.inr (.inl he))
      | ok d => exact left he
  | @right a e he =>
      change Concur E E' S (f a) (.error e)
      cases f a with
      | error e' => exact error (.inr (.inr he))
      | ok c => exact right he
  | error he => exact error he

theorem map {x : Except ε α} {y : Except ε β} {f : α → γ} {g : β → δ}
    (h : Concur E E' R x y) (hfg : ∀ a b, R a b → S (f a) (g b)) :
    Concur E E' S (x.map f) (y.map g) := by
  cases h with
  | ok hab => exact ok (hfg _ _ hab)
  | left he => exact left he
  | right he => exact right he
  | error he => exact error he

theorem mapM {xs : List α} {f : α → Except ε γ} {g : α → Except ε δ}
    (h : ∀ x ∈ xs, Concur E E' S (f x) (g x)) :
    Concur E E' (List.Forall₂ S) (xs.mapM f) (xs.mapM g) := by
  induction xs with
  | nil => exact pure .nil
  | cons x xs ih =>
      obtain ⟨hx, hxs⟩ := List.forall_mem_cons.mp h
      simp only [List.mapM_cons]
      exact hx.bind fun c d hcd => (ih hxs).bind fun cs ds hcds => pure (.cons hcd hcds)

end Concur

end EntityRest
