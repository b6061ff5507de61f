import EntityRest.Text.Split

/-!
# Media types

Telling from a media type whether a body is JSON: `application/json`, or a subtype of `application`
that is spelled in JSON.
-/

namespace EntityRest.MediaType

def isTokenChar (c : Char) : Bool := c.isAlphanum || "!#$%&'*+-.^_`|~".toList.contains c

/-- Where a reader of parameters stands. The flags tell whether a character of the name or value has
been read. -/
inductive State where
  | name (begun : Bool)
  | value (begun : Bool)
  | quoted (begun : Bool)
  | closed
deriving DecidableEq

def State.next : State → Char → Option State
  | .name false, ' ' => some (.name false)
  | .name true, '=' => some (.value false)
  | .name _, c => if isTokenChar c then some (.name true) else none
  | .value false, '"' => some (.quoted false)
  | .value true, ';' => some (.name false)
  | .value _, c => if isTokenChar c then some (.value true) else none
  | .quoted true, '"' => some .closed
  | .quoted _, c => if c.toNat < 0x20 || c.toNat = 0x7F then none else some (.quoted true)
  | .closed, ';' => some (.name false)
  | .closed, ' ' => some .closed
  | .closed, _ => none

def State.isFinal : State → Bool
  | .name begun => !begun
  | .value _ | .closed => true
  | .quoted _ => false

def areParams (s : List Char) : Bool :=
  match s.foldlM State.next (.name false) with
  | some state => state.isFinal
  | none => false

/-- The names that a subtype has: itself, or what stands before and after its last plus sign. -/
def subtypeNames (s : List Char) : List (List Char) :=
  match Chars.cutLast? ['+'] s with
  | some (c :: stem, suffix) => [c :: stem, suffix]
  | _ => [s]

def isJson (s : String) : Bool :=
  let s := s.toList.map Char.toLower
  let (types, params) :=
    match Chars.cutFirst? [';'] s with
    | some (types, params) => (types, params)
    | none => (s, [])
  match Chars.cutFirst? ['/'] types with
  | some (type, subtype) =>
    String.ofList type = "application" && subtype.all isTokenChar &&
      (subtypeNames subtype).any (fun name => String.ofList name = "json") && areParams params
  | none => false

end EntityRest.MediaType
