import Flowgraph.Schema.Draft

/-!
# Schema keywords

The keywords that a schema is checked for, with the drafts that have them. Any other
key of a schema says nothing about values.
-/
namespace Flowgraph

inductive Keyword where
  | ref | type | enum | const
  | minimum | maximum | exclusiveMinimum | exclusiveMaximum | multipleOf
  | minLength | maxLength | pattern | format
  | minItems | maxItems | uniqueItems | items | prefixItems | additionalItems | contains
  | minProperties | maxProperties | required | properties | patternProperties
  | additionalProperties | propertyNames | dependencies | dependentRequired | dependentSchemas
  | allOf | anyOf | oneOf | not | cond
deriving DecidableEq, Repr

namespace Keyword

def all : List Keyword :=
  [ref, type, enum, const, minimum, maximum, exclusiveMinimum, exclusiveMaximum, multipleOf,
   minLength, maxLength, pattern, format, minItems, maxItems, uniqueItems, items, prefixItems,
   additionalItems, contains, minProperties, maxProperties, required, properties,
   patternProperties, additionalProperties, propertyNames, dependencies, dependentRequired,
   dependentSchemas, allOf, anyOf, oneOf, not, cond]

def name : Keyword → String
  | ref => "$ref"
  | type => "type"
  | enum => "enum"
  | const => "const"
  | minimum => "minimum"
  | maximum => "maximum"
  | exclusiveMinimum => "exclusiveMinimum"
  | exclusiveMaximum => "exclusiveMaximum"
  | multipleOf => "multipleOf"
  | minLength => "minLength"
  | maxLength => "maxLength"
  | pattern => "pattern"
  | format => "format"
  | minItems => "minItems"
  | maxItems => "maxItems"
  | uniqueItems => "uniqueItems"
  | items => "items"
  | prefixItems => "prefixItems"
  | additionalItems => "additionalItems"
  | contains => "contains"
  | minProperties => "minProperties"
  | maxProperties => "maxProperties"
  | required => "required"
  | properties => "properties"
  | patternProperties => "patternProperties"
  | additionalProperties => "additionalProperties"
  | propertyNames => "propertyNames"
  | dependencies => "dependencies"
  | dependentRequired => "dependentRequired"
  | dependentSchemas => "dependentSchemas"
  | allOf => "allOf"
  | anyOf => "anyOf"
  | oneOf => "oneOf"
  | not => "not"
  | cond => "if"

/-- The first and the last draft that has a keyword. -/
def lifetime : Keyword → Draft × Draft
  | const | contains | propertyNames | exclusiveMinimum | exclusiveMaximum =>
    (.draft6, .draft2020)
  | cond => (.draft7, .draft2020)
  | dependencies => (.draft4, .draft7)
  | dependentRequired | dependentSchemas => (.draft2019, .draft2020)
  | additionalItems => (.draft4, .draft2019)
  | prefixItems => (.draft2020, .draft2020)
  | _ => (.draft4, .draft2020)

def isIn (k : Keyword) (d : Draft) : Bool :=
  k.lifetime.1.age ≤ d.age && d.age ≤ k.lifetime.2.age

/-- The keyword of a draft that a key is. -/
def ofName? (d : Draft) (s : String) : Option Keyword :=
  all.find? fun k => k.name == s && k.isIn d

end Keyword
end Flowgraph
