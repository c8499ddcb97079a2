import Flowgraph.Schema.Check

/-!
# Schemas of schemas

What a schema must look like is itself told by a schema, one for each draft. A schema is
well formed when nothing is wrong with it as a value of the schema of its draft. The two
newest drafts group their keywords, and every group is checked by itself.
-/
namespace Flowgraph.Metaschema

def ref (path : String) : Json := .obj [("$ref", .str ("#" ++ path))]

def typed (name : String) : Json := .obj [("type", .str name)]

def pairOfTypes : Json := .texts ["object", "boolean"]

/-- An object whose fields are all of one form. -/
def mapOf (form : Json) : Json := .obj [("type", .str "object"), ("additionalProperties", form)]

def patternMapOf (form : Json) : Json :=
  .obj [("type", .str "object"), ("additionalProperties", form),
    ("propertyNames", .obj [("format", .str "regex")])]

def anyOf (forms : List Json) : Json := .obj [("anyOf", .arr forms)]

/-- The place where the forms that are used again stand. -/
structure Shelf where
  key : String

namespace Shelf

def form (shelf : Shelf) (name : String) : Json :=
  ref ("/" ++ shelf.key ++ "/" ++ name)

def size (shelf : Shelf) : Json := shelf.form "size"

def schemaList (shelf : Shelf) : Json := shelf.form "schemaList"

def names (shelf : Shelf) : Json := shelf.form "names"

def typeName (shelf : Shelf) : Json := shelf.form "typeName"

/-- The name of a type or a list of them. -/
def typeNames (shelf : Shelf) : Json :=
  anyOf [shelf.typeName,
    .obj [("type", .str "array"), ("items", shelf.typeName), ("minItems", .int 1),
      ("uniqueItems", .bool true)]]

end Shelf

def self : Json := ref ""

def listed (keys : List String) (form : Json) : Fields :=
  keys.map fun key => (key, form)

def typeNameForm : Json :=
  .obj [("enum", .texts ["array", "boolean", "integer", "null", "number", "object", "string"])]

def sizeForm : Json := .obj [("type", .str "integer"), ("minimum", .int 0)]

def schemaListForm : Json :=
  .obj [("type", .str "array"), ("minItems", .int 1), ("items", self)]

def namesForm : Json :=
  .obj [("type", .str "array"), ("items", typed "string"), ("uniqueItems", .bool true)]

def nonEmptyNamesForm : Json :=
  .obj [("type", .str "array"), ("items", typed "string"), ("minItems", .int 1),
    ("uniqueItems", .bool true)]

/-- The forms that every draft uses again. -/
def shared (namesForm : Json) : Fields :=
  [("schemaList", schemaListForm), ("size", sizeForm), ("typeName", typeNameForm),
   ("names", namesForm)]

def patternForm : Json := .obj [("type", .str "string"), ("format", .str "regex")]

def positiveForm : Json := .obj [("type", .str "number"), ("exclusiveMinimum", .int 0)]

def shelf : Shelf := ⟨"definitions"⟩

def dependenciesForm (shelf : Shelf) : Json :=
  mapOf (anyOf [self, shelf.names])

/-! The three older drafts -/

def boolOrSchema : Json := anyOf [typed "boolean", self]

def schemaOrList (shelf : Shelf) : Json := anyOf [self, shelf.schemaList]

def draft4 : Json :=
  .obj [
    ("definitions", .obj (shared nonEmptyNamesForm)),
    ("type", .str "object"),
    ("properties", .obj (
      listed ["id", "$schema", "title", "description"] (typed "string") ++
      [("multipleOf", .obj [("type", .str "number"), ("minimum", .int 0),
         ("exclusiveMinimum", .bool true)]),
       ("maximum", typed "number"), ("exclusiveMaximum", typed "boolean"),
       ("minimum", typed "number"), ("exclusiveMinimum", typed "boolean")] ++
      listed ["maxLength", "minLength"] shelf.size ++
      [("pattern", patternForm), ("additionalItems", boolOrSchema),
       ("items", schemaOrList shelf)] ++
      listed ["maxItems", "minItems"] shelf.size ++
      [("uniqueItems", typed "boolean")] ++
      listed ["maxProperties", "minProperties"] shelf.size ++
      [("required", shelf.names), ("additionalProperties", boolOrSchema)] ++
      listed ["definitions", "properties", "patternProperties"] (mapOf self) ++
      [("dependencies", dependenciesForm shelf),
       ("enum", .obj [("type", .str "array"), ("minItems", .int 1),
         ("uniqueItems", .bool true)]),
       ("type", shelf.typeNames), ("format", typed "string")] ++
      listed ["allOf", "anyOf", "oneOf"] shelf.schemaList ++
      [("not", self)])),
    ("dependencies", .obj [("exclusiveMaximum", .texts ["maximum"]),
      ("exclusiveMinimum", .texts ["minimum"])])]

/-- The keywords of a draft between the oldest and the grouped ones; some come later. -/
def middle (comments flags contents conds : List String) : Json :=
  .obj [
    ("definitions", .obj (shared namesForm)),
    ("type", pairOfTypes),
    ("properties", .obj (
      listed (["$id", "$schema", "$ref"] ++ comments) (typed "string") ++
      listed ["title", "description"] (typed "string") ++ listed flags (typed "boolean") ++
      [("examples", typed "array"), ("multipleOf", positiveForm)] ++
      listed ["maximum", "exclusiveMaximum", "minimum", "exclusiveMinimum"] (typed "number") ++
      listed ["maxLength", "minLength"] shelf.size ++
      [("pattern", patternForm), ("additionalItems", self), ("items", schemaOrList shelf)] ++
      listed ["maxItems", "minItems"] shelf.size ++
      [("uniqueItems", typed "boolean"), ("contains", self)] ++
      listed ["maxProperties", "minProperties"] shelf.size ++
      [("required", shelf.names), ("additionalProperties", self)] ++
      listed ["definitions", "properties"] (mapOf self) ++
      [("patternProperties", patternMapOf self), ("dependencies", dependenciesForm shelf),
       ("propertyNames", self), ("enum", typed "array"), ("type", shelf.typeNames)] ++
      listed ("format" :: contents) (typed "string") ++ listed conds self ++
      listed ["allOf", "anyOf", "oneOf"] shelf.schemaList ++
      [("not", self)]))]

def draft6 : Json :=
  middle [] [] [] []

def draft7 : Json :=
  middle ["$comment"] ["readOnly", "writeOnly"] ["contentMediaType", "contentEncoding"]
    ["if", "then", "else"]

/-! The two newest drafts -/

def group (fields : Fields) : Json :=
  .obj [("type", pairOfTypes), ("properties", .obj fields)]

def grouped : Shelf := ⟨"$defs"⟩

def textLike (pattern : String) : Json :=
  .obj [("type", .str "string"), ("pattern", .str pattern)]

def identifierForm : Json := textLike "^[^#]*#?$"

/-- The keywords that name schemas and lead from one to another. -/
def naming (references anchors : List String) (anchor : String) (flags : List String) : Json :=
  group ([("$id", identifierForm)] ++ listed ("$schema" :: "$ref" :: references) (typed "string") ++
    listed anchors (textLike anchor) ++ listed flags (typed "boolean") ++
    [("$vocabulary", .obj [("type", .str "object"), ("propertyNames", typed "string"),
       ("additionalProperties", typed "boolean")]),
     ("$comment", typed "string"), ("$defs", mapOf self)])

/-- The keywords that apply schemas to a value or to its parts. -/
def applying (first : Fields) : Json :=
  group (first ++
    [("contains", self), ("additionalProperties", self), ("properties", mapOf self),
     ("patternProperties", patternMapOf self), ("dependentSchemas", mapOf self)] ++
    listed ["propertyNames", "if", "then", "else"] self ++
    listed ["allOf", "anyOf", "oneOf"] grouped.schemaList ++ [("not", self)])

/-- The keywords that bound a value. -/
def bounding : Json :=
  group ([("type", grouped.typeNames), ("enum", typed "array"), ("multipleOf", positiveForm)] ++
    listed ["maximum", "exclusiveMaximum", "minimum", "exclusiveMinimum"] (typed "number") ++
    listed ["maxLength", "minLength"] grouped.size ++ [("pattern", patternForm)] ++
    listed ["maxItems", "minItems"] grouped.size ++ [("uniqueItems", typed "boolean")] ++
    listed ["maxContains", "minContains", "maxProperties", "minProperties"] grouped.size ++
    [("required", grouped.names), ("dependentRequired", mapOf grouped.names)])

/-- The keywords that describe a value. -/
def describing : Json :=
  group (listed ["title", "description"] (typed "string") ++
    listed ["deprecated", "readOnly", "writeOnly"] (typed "boolean") ++
    [("examples", typed "array")])

def formatting : Json :=
  group [("format", typed "string")]

/-- The keywords about the content of texts. -/
def encoding : Json :=
  group (listed ["contentEncoding", "contentMediaType"] (typed "string") ++
    [("contentSchema", self)])

def unevaluated : Fields :=
  listed ["unevaluatedItems", "unevaluatedProperties"] self

def withGroups (groups : List Json) (more : Fields) : Json :=
  .obj [
    ("$defs", .obj (shared namesForm)),
    ("allOf", .arr groups),
    ("type", pairOfTypes),
    ("properties", .obj ([("definitions", mapOf self),
      ("dependencies", dependenciesForm grouped)] ++ more))]

def draft2019 : Json :=
  withGroups
    [naming ["$recursiveRef"] ["$anchor"] "^[A-Za-z][-A-Za-z0-9.:_]*$" ["$recursiveAnchor"],
     applying ([("additionalItems", self), ("items", schemaOrList grouped)] ++ unevaluated),
     bounding, describing, formatting, encoding] []

def anchorPattern : String := "^[A-Za-z_][-A-Za-z0-9._]*$"

def draft2020 : Json :=
  withGroups
    [naming ["$dynamicRef"] ["$anchor", "$dynamicAnchor"] anchorPattern [],
     applying [("prefixItems", grouped.schemaList), ("items", self)],
     group unevaluated, bounding, describing, formatting, encoding]
    [("$recursiveAnchor", textLike anchorPattern), ("$recursiveRef", typed "string")]

def ofDraft : Draft → Json
  | .draft4 => draft4
  | .draft6 => draft6
  | .draft7 => draft7
  | .draft2019 => draft2019
  | .draft2020 => draft2020

end Flowgraph.Metaschema

namespace Flowgraph.Schema

/-- The first thing that is wrong with a schema. -/
def firstError (draft : Draft) (schema : Json) : Except Fault (Option String) :=
  let root := Metaschema.ofDraft draft
  let found := check depthLimit { draft, root, formats := true } root schema
  match found.violations, found.fault with
  | v :: _, _ => .ok (some v.message)
  | [], some e => .error e
  | [], none => .ok none

end Flowgraph.Schema
