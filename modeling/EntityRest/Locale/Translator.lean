import EntityRest.Json.Object
import EntityRest.Service.Error
import EntityRest.Text.Split

/-!
# Messages in other languages

Templates by language and key, with placeholders that start with a colon.
-/

namespace EntityRest.Locale

abbrev Templates := Entries String

abbrev Args := List (String × String)

/-- Replaces the placeholders of a template, those of longer names first. -/
def interpolate (template : String) (args : Args) : String :=
  let sorted := args.mergeSort fun a b => decide (b.1.utf8ByteSize ≤ a.1.utf8ByteSize)
  sorted.foldl
    (fun out (name, value) =>
      String.ofList (Chars.replace (':' :: name.toList) value.toList out.toList))
    template

/-- A language tag in the spelling in which tags are compared. -/
def normalizeTag (tag : String) : String :=
  Text.lowerAscii (String.ofList ((Chars.trim tag.toList).map fun c => if c = '_' then '-' else c))

/-- The first part of a language tag. -/
def primary (tag : String) : String := (Text.splitChar '-' tag).headD tag

end EntityRest.Locale

namespace EntityRest

/-- Templates by language, and the language that is used when no other fits. -/
structure Translator where
  defaultTag : String
  catalog : Entries Locale.Templates := []

namespace Translator

open EntityRest.Locale (normalizeTag primary interpolate Args)

def empty (defaultTag : String) : Translator := ⟨normalizeTag defaultTag, []⟩

def add (t : Translator) (tag key template : String) : Translator :=
  let tag := normalizeTag tag
  { t with catalog := t.catalog.put tag (((t.catalog.get? tag).getD []).put key template) }

def builtinTemplates : List (String × String × String) :=
  [("en", "query.unknown_field", "unknown field in ':param'"),
    ("en", "query.unknown_operator", "unknown operator in ':param'"),
    ("en", "query.invalid_number", "':param' must be a positive integer"),
    ("en", "query.invalid_value", "invalid value for ':param'"),
    ("en", "query.unknown_include", "unknown array field in ':param'"),
    ("en", "query.unknown_param", "unknown query parameter ':param'"),
    ("en", "query.malformed", "malformed expression in ':param'"),
    ("en", "query.unsupported_operator",
      "operator in ':param' is not supported by this database"),
    ("en", "not_found", ":resource not found"),
    ("en-US", "not_found", ":resource was not found"),
    ("id", "query.unknown_field", "kolom tidak dikenal pada ':param'"),
    ("id", "query.unknown_operator", "operator tidak dikenal pada ':param'"),
    ("id", "query.invalid_number", "':param' harus berupa bilangan bulat positif"),
    ("id", "query.invalid_value", "nilai tidak valid untuk ':param'"),
    ("id", "query.unknown_include", "kolom array tidak dikenal pada ':param'"),
    ("id", "query.unknown_param", "parameter kueri tidak dikenal ':param'"),
    ("id", "query.malformed", "ekspresi tidak valid pada ':param'"),
    ("id", "query.unsupported_operator",
      "operator pada ':param' tidak didukung oleh basis data ini"),
    ("id", "not_found", ":resource tidak ditemukan")]

def builtin (defaultTag : String) : Translator :=
  builtinTemplates.foldl (fun t (tag, key, template) => t.add tag key template) (empty defaultTag)

def lookup? (t : Translator) (tag key : String) : Option String :=
  (t.catalog.get? tag).bind fun templates => templates.get? key

/-- The languages in which a template is looked for, in order: the tag itself, its first part, the
tags that share it, the default tag and its first part. -/
def candidates (t : Translator) (tag : String) : List String :=
  let tag := normalizeTag tag
  let sharing := (t.catalog.keys.filter fun k => primary k = primary tag).mergeSort
    fun a b => decide (a ≤ b)
  [tag, primary tag] ++ sharing ++ [t.defaultTag, primary t.defaultTag]

/-- The message of a key; without a template it is the key. -/
def translate (t : Translator) (tag key : String) (args : Args) : String :=
  match (t.candidates tag).findSome? fun c => t.lookup? c key with
  | some template => interpolate template args
  | none => key

/-- The error in words of the language. Only errors about the request are put into words. -/
def localize (t : Translator) (tag : String) (e : ServiceError) : ServiceError :=
  match e with
  | .query q =>
    .badRequest (t.translate tag q.fault.catalogKey [("param", q.key)])
      (ServiceError.query q).detail?
  | .notFound resource => .status 404 (t.translate tag "not_found" [("resource", resource)]) none
  | e => e

end Translator

end EntityRest
