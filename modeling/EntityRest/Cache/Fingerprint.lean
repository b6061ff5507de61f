import EntityRest.Query.Params

/-!
# Cache keys

The key under which a read is cached: the entity, and its parameters in an order and spelling that
equal requests share.
-/

namespace EntityRest.Fingerprint

/-- Escapes the characters that separate parameters. -/
def escapeChar (c : Char) : List Char :=
  if c = '%' then ['%', '2', '5']
  else if c = '&' then ['%', '2', '6']
  else if c = '=' then ['%', '3', 'D']
  else [c]

/-- Blanks collapsed and separators escaped. -/
def normalize (s : String) : String :=
  String.ofList ((Text.collapse s).toList.flatMap escapeChar)

/-- The parameters in the order of their keys; those of one key keep their order. -/
def normalizePairs (params : Pairs) : Pairs :=
  (params.map fun (k, v) => (normalize k, normalize v)).mergeSort fun a b => decide (a.1 ≤ b.1)

/-- What the keys of an entity start with. -/
def keyPrefix (name : String) : String := name ++ ":"

/-- The key of a read of the entity. -/
def ofRead (name : String) (params : Pairs) : String :=
  keyPrefix name ++ "&".intercalate ((normalizePairs params).map fun (k, v) => k ++ "=" ++ v)

end EntityRest.Fingerprint
