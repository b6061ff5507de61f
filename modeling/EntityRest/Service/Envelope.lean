import EntityRest.Json.Basic

/-!
# Response envelopes

One row, or many rows with their number and, where a page was asked for, its place.
-/

namespace EntityRest

/-- The place of a page among all rows. -/
structure PageMeta where
  page : UInt64
  perPage : UInt64
  totalData : UInt64
  totalPages : UInt64
deriving DecidableEq

/-- The place of a page of the given size among `total` rows. -/
def PageMeta.of (page perPage total : UInt64) : PageMeta :=
  ⟨page, perPage, total, UInt64.ofNat ((total.toNat + perPage.toNat - 1) / perPage.toNat)⟩

namespace Envelope

def one (row : Json) : Json := .object [("data", row)]

def many (rows : List Json) (page : Option PageMeta) : Json :=
  let count : UInt64 := UInt64.ofNat rows.length
  let place : List (String × Json) :=
    match page with
    | some p =>
      [("page", .ofUInt64 p.page), ("per_page", .ofUInt64 p.perPage),
        ("total_data", .ofUInt64 p.totalData), ("total_pages", .ofUInt64 p.totalPages)]
    | none => []
  .object [("data", .array rows), ("meta", .object (("count", .ofUInt64 count) :: place))]

end Envelope

end EntityRest
