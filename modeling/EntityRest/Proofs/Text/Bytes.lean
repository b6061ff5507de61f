import Mathlib.Data.List.Infix
import Mathlib.Data.String.Basic

/-! # Texts as bytes

The places of a text are counted in bytes. Reading a byte, or cutting a text at a byte, gives no
answer where there is no such byte or where a character would be cut in two. -/

namespace EntityRest.Text

variable {p q r s : String}

def bytes (s : String) : List UInt8 := s.toByteArray.data.toList

/-- The text from a place on, if a character starts or the text ends there. -/
def from? (s : String) (place : Nat) : Option String :=
  if h : (String.Pos.Raw.mk place).IsValid s then some (s.sliceFrom ⟨⟨place⟩, h⟩).copy else none

theorem bytes_append (p r : String) : bytes (p ++ r) = bytes p ++ bytes r := by
  simp [bytes, String.toByteArray_append, ByteArray.data_append]

theorem length_bytes (s : String) : (bytes s).length = s.utf8ByteSize := by
  rw [← String.size_toByteArray]
  rfl

theorem bytes_inj : bytes p = bytes q ↔ p = q := by
  rw [bytes, bytes, Array.toList_inj, ← ByteArray.ext_iff, String.toByteArray_inj]

theorem bytes_dot : bytes "." = [46] := by decide

theorem bytes_prefix_iff : bytes p <+: bytes s ↔ ∃ r, s = p ++ r := by
  constructor
  · intro h
    have hle : p.utf8ByteSize ≤ s.utf8ByteSize := by
      rw [← length_bytes, ← length_bytes]
      exact h.length_le
    have hextract : s.toByteArray.extract 0 p.utf8ByteSize = p.toByteArray := by
      apply ByteArray.ext
      rw [ByteArray.data_extract, ← Array.toList_inj, Array.toList_extract,
        List.extract_eq_take_drop, ← length_bytes]
      exact (List.prefix_iff_eq_take.mp h).symm
    have hplace : (String.Pos.Raw.mk p.utf8ByteSize).IsValid s :=
      String.Pos.Raw.isValid_iff_isValidUTF8_extract_zero.mpr ⟨hle, hextract ▸ p.isValidUTF8⟩
    obtain ⟨l, r, rfl, hl⟩ := String.Pos.Raw.isValid_iff_exists_append.mp hplace
    -- both beginnings have the same bytes
    have hlength : (bytes p).length = (bytes l).length := by
      rw [length_bytes, length_bytes]
      exact congrArg String.Pos.Raw.byteIdx hl
    have hstarts := List.prefix_of_prefix_length_le (bytes_append l r ▸ h)
      (List.prefix_append (bytes l) (bytes r)) hlength.le
    obtain rfl := bytes_inj.mp (hstarts.eq_of_length hlength)
    exact ⟨r, rfl⟩
  · rintro ⟨r, rfl⟩
    exact bytes_append p r ▸ List.prefix_append _ _

theorem from?_append (p r : String) : from? (p ++ r) p.utf8ByteSize = some r := by
  have hvalid : (String.Pos.Raw.mk p.utf8ByteSize).IsValid (p ++ r) :=
    String.Pos.Raw.isValid_iff_exists_append.mpr ⟨p, r, rfl, rfl⟩
  have hsplits : (⟨_, hvalid⟩ : (p ++ r).Pos).Splits p r := ⟨rfl, rfl⟩
  rw [from?, dif_pos hvalid, hsplits.copy_sliceFrom_eq]

theorem eq_of_infix (h : q.toList <:+: p.toList) (hsize : p.utf8ByteSize ≤ q.utf8ByteSize) :
    q = p := by
  obtain ⟨l, r, hlr⟩ := h
  have hp : p = String.ofList l ++ q ++ String.ofList r := String.toList_injective (by simp [hlr])
  rw [hp, String.utf8ByteSize_append, String.utf8ByteSize_append] at hsize
  have hl : String.ofList l = "" := String.utf8ByteSize_eq_zero_iff.mp (by omega)
  have hr : String.ofList r = "" := String.utf8ByteSize_eq_zero_iff.mp (by omega)
  rw [hp, hl, hr, String.append_empty, String.empty_append]

end EntityRest.Text
