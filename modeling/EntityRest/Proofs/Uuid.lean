import EntityRest.Proofs.Calendar.Digits
import EntityRest.Uuid

/-! # Identifiers are read back

Hyphens are taken out where they were put in, group by group, and each digit is read back from its
lower-case letter. -/

namespace EntityRest.Uuid

theorem digit?_digitChar (d : Fin 16) : digit? (digitChar d) = some d := by
  revert d
  decide

theorem solid_digitChar (d : Fin 16) : Chars.IsSolid (digitChar d) := by
  revert d
  decide

theorem mapM_digit?_map (ds : List (Fin 16)) : (ds.map digitChar).mapM digit? = some ds := by
  induction ds with
  | nil => rfl
  | cons d ds ih =>
      rw [List.map_cons, List.mapM_cons, digit?_digitChar, Option.bind_eq_bind, Option.bind_some,
        ih]
      rfl

theorem ofDigits?_map (u : Uuid) : ofDigits? (u.digits.map digitChar) = some u := by
  rw [ofDigits?, mapM_digit?_map]
  exact dif_pos u.length_eq

theorem ungroup?_group {ns : List Nat} (hne : ns ≠ []) {s : List Char} (hs : s.length = ns.sum) :
    ungroup? ns (group ns s) = some s := by
  induction ns generalizing s with
  | nil => exact absurd rfl hne
  | cons n ns ih =>
      cases ns with
      | nil =>
          rw [group, ungroup?, if_pos (by simpa using hs)]
      | cons m ns =>
          have htake : (s.take n).length = n := by
            rw [List.length_take, hs, List.sum_cons]
            omega
          have hdrop : (s.drop n).length = (m :: ns).sum := by
            rw [List.length_drop, hs, List.sum_cons]
            omega
          have hrest : (s.take n ++ '-' :: group (m :: ns) (s.drop n)).drop n =
              '-' :: group (m :: ns) (s.drop n) := List.drop_left' htake
          have hfirst : (s.take n ++ '-' :: group (m :: ns) (s.drop n)).take n = s.take n :=
            List.take_left' htake
          rw [group, ungroup?, hrest]
          · simp only [hfirst, ih (List.cons_ne_nil m ns) hdrop, Option.map_some,
              List.take_append_drop]
          · exact List.cons_ne_nil m ns
          · exact List.cons_ne_nil m ns

theorem length_group {ns : List Nat} {s : List Char} (hs : s.length = ns.sum) :
    (group ns s).length = s.length + (ns.length - 1) := by
  induction ns generalizing s with
  | nil => rfl
  | cons n ns ih =>
      cases ns with
      | nil => rfl
      | cons m ns =>
          have hdrop : (s.drop n).length = (m :: ns).sum := by
            rw [List.length_drop, hs, List.sum_cons]
            omega
          rw [group, List.length_append, List.length_cons, ih hdrop, hdrop, List.length_take, hs]
          · simp only [List.sum_cons, List.length_cons]
            omega
          · exact List.cons_ne_nil m ns

theorem solid_group (ns : List Nat) {s : List Char} (hs : Chars.Solid s) :
    Chars.Solid (group ns s) := by
  have hhyphen : Chars.IsSolid '-' := by decide
  induction ns generalizing s with
  | nil => exact hs
  | cons n ns ih =>
      cases ns with
      | nil => exact hs
      | cons m ns =>
          rw [group, Chars.solid_append, Chars.solid_cons]
          · exact ⟨fun c hc => hs c (List.mem_of_mem_take hc), hhyphen,
              ih fun c hc => hs c (List.mem_of_mem_drop hc)⟩
          · exact List.cons_ne_nil m ns

theorem solid_render (u : Uuid) : Chars.Solid u.render := by
  apply solid_group
  intro c hc
  obtain ⟨d, -, rfl⟩ := List.mem_map.mp hc
  exact solid_digitChar d

theorem length_map_digits (u : Uuid) : (u.digits.map digitChar).length = groups.sum := by
  rw [List.length_map, u.length_eq]
  rfl

theorem length_render (u : Uuid) : u.render.length = 36 := by
  rw [render, length_group u.length_map_digits, u.length_map_digits]
  rfl

theorem ofText?_render (u : Uuid) : ofText? u.render = some u := by
  have hlength := u.length_render
  have hgroups : ofGroups? u.render = some u := by
    rw [ofGroups?, render, ungroup?_group (by decide) u.length_map_digits]
    exact ofDigits?_map u
  unfold ofText?
  rw [if_neg (by omega), if_pos hlength, hgroups]

end EntityRest.Uuid
