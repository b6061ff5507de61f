import EntityRest.Scalar.Nullable
import EntityRest.Schema.Config
import EntityRest.Schema.FieldTag
import EntityRest.Shape.Flat

/-!
# Records

Typed records whose members carry annotations. One list of members describes the entity, reads a
record from a document and writes it back.
-/

namespace EntityRest

/-- The annotations of a member: its output name, its source, and its constraints. For a list of
child records the source is the template that selects them. -/
structure Tag where
  output : String
  source : String
  rules : String := ""
deriving DecidableEq

def Tag.key (t : Tag) : String := FieldTag.outputKey t.output

mutual

/-- A type of records: what is said of its entity, and its members in order. -/
inductive RecordType where
  | mk (entity : EntityConfig) (members : List Member)

/-- A member of a record: a scalar or a list of child records. -/
inductive Member where
  | scalar (tag : Tag) (kind : ScalarKind)
  | children (tag : Tag) (type : RecordType)

end

/-- A record, as the contents of its members. -/
inductive Record where
  | scalar (kind : ScalarKind) (value : Nullable kind) (rest : Record)
  | children (rows : List Record) (rest : Record)
  | done

namespace RecordType

def entity : RecordType → EntityConfig
  | mk e _ => e

def members : RecordType → List Member
  | mk _ ms => ms

/-- The description of the entity with the members as its fields and child lists. -/
def describe (t : RecordType) : EntityConfig :=
  let fields := t.members.filterMap fun m =>
    match m with
    | .scalar tag kind =>
      some ⟨tag.output, tag.source, kind, if tag.rules = "" then none else some tag.rules⟩
    | .children .. => none
  let children := t.members.filterMap fun m =>
    match m with
    | .children tag type => some ⟨tag.key, type.entity.name, tag.source⟩
    | .scalar .. => none
  { t.entity with
    fields := t.entity.fields ++ fields
    children := t.entity.children ++ children }

end RecordType

mutual

/-- Reads a record from a flat or structured document. Members that are missing stay empty. -/
def RecordType.read (v : Json) : RecordType → Record
  | .mk _ members => Member.readAll v members

def Member.readAll (v : Json) : List Member → Record
  | [] => .done
  | m :: ms => Member.read v m (Member.readAll v ms)

def Member.read (v : Json) : Member → Record → Record
  | .scalar tag kind, rest =>
    .scalar kind (((v.lookup? tag.key).map Nullable.ofJson).getD none) rest
  | .children tag type, rest =>
    match v.lookup? tag.key with
    | some (.array items) => .children (items.map fun item => type.read item) rest
    | _ => .children [] rest

end

mutual

/-- The entries of a record, before they are structured. -/
def Record.entries (out : Entries Json) : List Member → Record → Entries Json
  | .scalar tag _ :: ms, .scalar _ value rest =>
    if FieldTag.omitsEmpty tag.output && value.isZero then Record.entries out ms rest
    else Record.entries (out.put tag.key value.toJson) ms rest
  | .children tag type :: ms, .children rows rest =>
    Record.entries (out.put tag.key (.array (Record.writeAll type.members rows))) ms rest
  | _, _ => out

def Record.writeAll (members : List Member) : List Record → List Json
  | [] => []
  | r :: rs =>
    (Json.object (Record.entries [] members r)).toStructured .dot :: Record.writeAll members rs

end

def RecordType.write (t : RecordType) (r : Record) : Json :=
  (Json.object (r.entries [] t.members)).toStructured .dot

/-- Equality of payloads, where floats are compared as numbers. -/
def Payload.eqv : (k : ScalarKind) → Payload k → Payload k → Bool
  | .bool, a, b => a = b
  | .int, a, b => a = b
  | .float, a, b => Binary.eqv a b
  | .string, a, b => a = b
  | .text, a, b => a = b
  | .timestamp, a, b => a = b
  | .date, a, b => a = b
  | .time, a, b => a = b
  | .json, a, b => a = b
  | .uuid, a, b => a = b
  | .unixtime, a, b => a = b

mutual

/-- Equality of records, where floats are compared as numbers. -/
def Record.eqv : Record → Record → Bool
  | .scalar k a r, .scalar j b s =>
    (if h : j = k then
      match a, h ▸ b with
      | some x, some y => Payload.eqv k x y
      | none, none => true
      | _, _ => false
    else false) && Record.eqv r s
  | .children a r, .children b s => Record.eqvAll a b && Record.eqv r s
  | .done, .done => true
  | _, _ => false

def Record.eqvAll : List Record → List Record → Bool
  | [], [] => true
  | a :: as, b :: bs => Record.eqv a b && Record.eqvAll as bs
  | _, _ => false

end

end EntityRest
