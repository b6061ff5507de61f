import EntityRest.Proofs.Text.Pieces
import EntityRest.Query.Params

/-! # Lists in parameters

The items of a list in a parameter are pieces of its text, and pieces that were joined are read
again. -/

namespace EntityRest

open Text (IsPiece)

namespace Query

variable {sep : String}

theorem isPiece_of_mem_parts (hsep : sep ≠ "") {s x : String} (hx : x ∈ parts sep s) :
    IsPiece sep x ∧ x.toList <:+: s.toList := by
  obtain ⟨hx, hne⟩ := List.mem_filter.mp hx
  obtain ⟨piece, hpiece, rfl⟩ := List.mem_map.mp hx
  obtain ⟨cs, hcs, rfl⟩ := List.mem_map.mp hpiece
  obtain ⟨hfree, hpart⟩ := Chars.not_infix_of_mem_splitText (by simpa using hsep) hcs
  have htrim : (Text.trim (String.ofList cs)).toList <:+: cs := by
    simpa using Text.trim_isInfix (String.ofList cs)
  exact ⟨⟨of_decide_eq_true hne, Text.tight_trim _, fun hin => hfree (hin.trans htrim)⟩,
    htrim.trans hpart⟩

theorem parts_intercalate (pad : String) (hpad : ∀ c ∈ pad.toList, Chars.isBlank c = true)
    {xs : List String} (h : ∀ x ∈ xs, IsPiece sep x ∧
      ¬ sep.toList <:+: pad.toList ++ x.toList ++ pad.toList ++ sep.toList.dropLast) :
    parts sep ((pad ++ sep ++ pad).intercalate xs) = xs := by
  have hsplit (hne : xs ≠ []) :
      (Text.splitText sep ((pad ++ sep ++ pad).intercalate xs)).map Text.trim = xs := by
    have hchars : (Chars.splitText sep.toList ((pad.toList ++ sep.toList ++ pad.toList).intercalate
        (xs.map String.toList))).map Chars.trim = xs.map String.toList := by
      refine Chars.map_trim_splitText hpad (by simpa using hne) fun p hp => ?_
      obtain ⟨x, hx, rfl⟩ := List.mem_map.mp hp
      exact ⟨(h x hx).1.tight, (h x hx).2⟩
    have hinjective : String.toList.Injective := fun _ _ => String.toList_injective
    apply List.map_injective_iff.mpr hinjective
    simpa [Text.splitText, Text.toList_trim, Function.comp_def] using hchars
  by_cases hne : xs = []
  · subst hne
    have hempty : Text.splitText sep ((pad ++ sep ++ pad).intercalate []) = [""] := by
      simp [Text.splitText, Chars.splitText, Chars.splitTextFrom]
    rw [parts, hempty]
    rfl
  · rw [parts, hsplit hne, List.filter_eq_self]
    exact fun x hx => decide_eq_true (h x hx).1.ne

theorem parts_padded (hsep : sep ≠ "") (hblank : ' ' ∉ sep.toList) {xs : List String}
    (h : ∀ x ∈ xs, IsPiece sep x) : parts sep ((" " ++ sep ++ " ").intercalate xs) = xs := by
  refine parts_intercalate " " (List.forall_mem_singleton.mpr rfl)
    fun x hx => ⟨h x hx, fun hin => ?_⟩
  have hnil : ¬ sep.toList <:+: [] := by simpa using hsep
  have hshort : ¬ sep.toList <:+: sep.toList.dropLast := by
    intro hin
    have hlength := hin.length_le
    rw [List.length_dropLast] at hlength
    have hpos : 0 < sep.toList.length := List.length_pos_iff.mpr (by simpa using hsep)
    omega
  have hspace : " ".toList = [' '] := rfl
  rw [hspace, List.append_assoc, List.append_assoc, List.singleton_append,
    ← List.nil_append (' ' :: _), List.singleton_append] at hin
  rcases Chars.infix_append_cons hblank hin with hin | hin
  · exact hnil hin
  · rcases Chars.infix_append_cons hblank hin with hin | hin
    · exact (h x hx).free hin
    · exact hshort hin

theorem items_eq_parts (s : String) : Text.items s = parts "," s := by
  have hcomma : ",".toList = [','] := rfl
  rw [Text.items, parts, Text.splitChar, Text.splitText, hcomma, Chars.splitText_singleton]

theorem items_intercalate {xs : List String} (h : ∀ x ∈ xs, IsPiece "," x) :
    Text.items (",".intercalate xs) = xs := by
  rw [items_eq_parts]
  exact parts_intercalate "" (by simp) fun x hx => ⟨h x hx, by simpa using (h x hx).free⟩

theorem isPiece_of_mem_items {s x : String} (hx : x ∈ Text.items s) :
    IsPiece "," x ∧ x.toList <:+: s.toList :=
  isPiece_of_mem_parts (by decide) (items_eq_parts s ▸ hx)

end Query

end EntityRest
