import Flowgraph.Json.Compare
import Flowgraph.Pattern.Reader
import Flowgraph.Schema.Finding
import Flowgraph.Schema.Keyword
import Flowgraph.Schema.Reference

/-!
# Checking values against schemas

The keywords of a schema are checked in the order of its keys, and everything that is
wrong is found. A keyword that is about values of another type finds nothing. Schemas
are taken to be well formed; the depth to which they are entered is limited, so that a
schema that leads to itself for the same value ends in a fault.
-/
namespace Flowgraph.Schema

/-- Checks a value against a part of a schema. -/
abbrev Checker := Json → Json → Findings

structure Scope where
  draft : Draft
  /-- The schema that references start from. -/
  root : Json
  /-- Whether texts are checked to be patterns where their format says so. -/
  formats : Bool := false

def itemsOf : Json → List Json
  | .arr items => items
  | _ => []

def fieldsOf : Json → Fields
  | .obj fields => fields
  | _ => []

/-- A value, or the only member of a list. -/
def listOf : Json → List Json
  | .arr items => items
  | v => [v]

def textOf : Json → String
  | .str s => s
  | _ => ""

def isObject : Json → Bool
  | .obj _ => true
  | _ => false

def literals (l : List Json) : String :=
  ", ".intercalate (l.map Json.literal)

def quotes (l : List String) : String :=
  ", ".intercalate (l.map Text.quote)

def sorted (l : List String) : List String :=
  l.mergeSort (· ≤ ·)

/-- Checks the part of a value under a key or an index. That a schema allows nothing is told of the
value without the way to the part. -/
def descend (sub : Checker) (segment : String) : Checker
  | .bool b, x => sub (.bool b) x
  | schema, x => (sub schema x).under segment

/-- Whether a pattern matches in a text; what is no pattern is a fault. -/
def matchesPattern (pattern text : String) : Except Fault Bool :=
  (Pattern.search pattern text).mapError fun e =>
    .invalidPattern (Text.quote pattern) (PatternError.message pattern e)

/-! Plain values -/

def checkType (sc : Scope) (v x : Json) : Findings :=
  let types := listOf v
  .ifNot (types.any fun t => sc.draft.hasType x (textOf t))
    (x.literal ++ " is not of type " ++ literals types)

def checkFormat (sc : Scope) (v x : Json) : Findings :=
  match v, x with
  | .str "regex", .str s =>
    .ifNot (!sc.formats || (Pattern.read s).toBool) (x.literal ++ " is not a 'regex'")
  | _, _ => .empty

/-! Numbers -/

/-- A lower bound; a strict one is not reached. -/
def checkMinimum (strict : Bool) (v x : Json) : Findings :=
  let fails := if strict then x.isLessOrEqual v else x.isLess v
  .ifNot (!fails) (x.literal ++ " is less than " ++ (if strict then "or equal to " else "") ++
    "the minimum of " ++ v.literal)

/-- An upper bound; a strict one is not reached. -/
def checkMaximum (strict : Bool) (v x : Json) : Findings :=
  let fails := if strict then v.isLessOrEqual x else v.isLess x
  .ifNot (!fails) (x.literal ++ " is greater than " ++ (if strict then "or equal to " else "") ++
    "the maximum of " ++ v.literal)

/-- Whether a bound is strict by a field beside it, as in the oldest draft. -/
def strictBy (sc : Scope) (fields : Fields) (key : String) : Bool :=
  sc.draft == .draft4 && (fields.getD key).truthy

/-! Sizes -/

/-- The number of characters, members or fields of a value. -/
def sizeOf? : Json → Option Nat
  | .str s => some s.length
  | .arr items => some items.length
  | .obj fields => some fields.length
  | _ => none

def checkLeast (lack : String) (v x : Json) : Findings :=
  let fails := (sizeOf? x).any fun n => (Json.nat n).isLess v
  .ifNot (!fails) (x.literal ++ if v.identical (.int 1) then " should be non-empty" else lack)

def checkMost (excess : String) (v x : Json) : Findings :=
  let fails := (sizeOf? x).any fun n => v.isLess (.nat n)
  .ifNot (!fails) (x.literal ++ if v.identical (.int 0) then " is expected to be empty" else excess)

/-! Arrays -/

def distinct : List Json → Bool
  | [] => true
  | v :: rest => !rest.any v.identical && distinct rest

/-- Checks the members of an array from an index on, all against one schema. -/
def checkMembers (sub : Checker) (schema : Json) (start : Nat) (items : List Json) : Findings :=
  .each (fun (v, i) => descend sub (toString i) schema v) ((items.drop start).zipIdx start)

/-- Checks each member of an array against the schema at its place. -/
def checkPlaces (sub : Checker) (schemas items : List Json) : Findings :=
  .each (fun ((v, schema), i) => descend sub (toString i) schema v) (items.zip schemas).zipIdx

/-- The rest of an array behind the members that have schemas of their own. -/
def checkRest (sub : Checker) (fields : Fields) (v : Json) (items : List Json) : Findings :=
  let before := (itemsOf (fields.getD "prefixItems")).length
  match v with
  | .bool false =>
    match items.drop before with
    | [] => .empty
    | extra =>
      let shown := match extra with
        | [w] => w.literal
        | extra => (Json.arr extra).literal
      .one ("Expected at most " ++ toString before ++ (if before = 1 then " item" else " items") ++
        " but found " ++ toString extra.length ++ " extra: " ++ shown)
  | v => checkMembers sub v before items

def checkItems (sc : Scope) (sub : Checker) (fields : Fields) (v : Json) (items : List Json) :
    Findings :=
  if sc.draft = .draft2020 then checkRest sub fields v items
  else
    match v with
    | .arr schemas => checkPlaces sub schemas items
    | v => checkMembers sub v 0 items

/-- Shown values with the verb that fits their number. -/
def wereUnexpected (shown : List String) : String :=
  ", ".intercalate shown ++ if shown.length = 1 then " was unexpected" else " were unexpected"

def checkAdditionalItems (sub : Checker) (fields : Fields) (v : Json) (items : List Json) :
    Findings :=
  match fields.lookup "items" with
  | some (.arr schemas) =>
    let count := schemas.length
    if isObject v then checkMembers sub v count items
    else .ifNot (v.truthy || items.length ≤ count)
      ("Additional items are not allowed (" ++
        wereUnexpected ((items.drop count).map Json.literal) ++ ")")
  | some (.bool _) => .failed (.noLength "bool")
  | _ => .empty

/-- How many members match a schema. -/
def countMatching (sub : Checker) (schema : Json) : List Json → Except Fault Nat
  | [] => .ok 0
  | v :: rest => do
    let one := if ← (sub schema v).clean then 1 else 0
    return one + (← countMatching sub schema rest)

/-- Whether more members match a schema than a bound allows; those after the first one too many
are not looked at. -/
def tooMany (sub : Checker) (schema bound : Json) (count : Nat) : List Json → Except Fault Bool
  | [] => .ok false
  | v :: rest => do
    let count := if ← (sub schema v).clean then count + 1 else count
    if bound.isLess (.nat count) then return true else tooMany sub schema bound count rest

def checkContains (sc : Scope) (sub : Checker) (fields : Fields) (v x : Json)
    (items : List Json) : Findings :=
  if sc.draft.age < Draft.draft2019.age then
    .ofResult (countMatching sub v items) fun count =>
      .ifNot (count != 0) ("None of " ++ x.literal ++ " are valid under the given schema")
  else
    let least := (fields.get? "minContains").getD (.int 1)
    let most := (fields.get? "maxContains").getD (.nat items.length)
    .ofResult (tooMany sub v most 0 items) fun excess =>
      if excess then
        .one ("Too many items match the given schema (expected at most " ++ most.literal ++ ")")
      else
        .ofResult (countMatching sub v items) fun count =>
          if !(Json.nat count).isLess least then .empty
          else if count = 0 then
            .one (x.literal ++ " does not contain items matching the given schema")
          else
            .one ("Too few items match the given schema (expected at least " ++ least.literal ++
              " but only " ++ toString count ++ " matched)")

/-! Objects -/

def checkProperties (sub : Checker) (v : Json) (given : Fields) : Findings :=
  .each (fun (key, schema) =>
    match given.lookup key with
    | some w => descend sub key schema w
    | none => .empty) (fieldsOf v)

def checkPatternProperties (sub : Checker) (v : Json) (given : Fields) : Findings :=
  .each (fun (pattern, schema) =>
    .each (fun (key, w) =>
      .ofResult (matchesPattern pattern key) fun found =>
        if found then descend sub key schema w else .empty) given) (fieldsOf v)

/-- The keys that no property and no pattern of a schema is for. -/
def additionalKeys (fields given : Fields) : Except Fault (List String) :=
  let properties := fieldsOf (fields.getD "properties")
  let pattern := "|".intercalate (fieldsOf (fields.getD "patternProperties")).keys
  given.keys.filterM fun key =>
    if properties.has key then .ok false
    else if pattern.isEmpty then .ok true
    else (matchesPattern pattern key).map (!·)

def checkAdditionalProperties (sub : Checker) (fields : Fields) (v : Json) (given : Fields) :
    Findings :=
  .ofResult (additionalKeys fields given) fun extra =>
    if isObject v then .each (fun key => descend sub key v (given.getD key)) extra
    else if v.truthy || extra.isEmpty then .empty
    else
      match fields.lookup "patternProperties" with
      | some patterns =>
        .one (quotes (sorted extra) ++ (if extra.length = 1 then " does" else " do") ++
          " not match any of the regexes: " ++ quotes (sorted (fieldsOf patterns).keys))
      | none =>
        .one ("Additional properties are not allowed (" ++
          wereUnexpected ((sorted extra).map Text.quote) ++ ")")

def checkRequired (v : Json) (given : Fields) : Findings :=
  .each (fun key => .ifNot (given.has (textOf key)) (key.literal ++ " is a required property"))
    (itemsOf v)

/-- The keys that an object must have since it has another one. -/
def checkNeeds (key : String) (needs : List Json) (given : Fields) : Findings :=
  .each (fun need => .ifNot (given.has (textOf need))
    (need.literal ++ " is a dependency of " ++ Text.quote key)) needs

/-- What an object must satisfy for each of its keys: have other keys, or match a schema. -/
def checkDependencies (sub : Checker) (v x : Json) (given : Fields) : Findings :=
  .each (fun (key, need) =>
    if !given.has key then .empty
    else
      match need with
      | .arr needs => checkNeeds key needs given
      | schema => sub schema x) (fieldsOf v)

/-! Combinations -/

/-- The schemas that a value matches. -/
def matching (sub : Checker) (x : Json) (schemas : List Json) : Except Fault (List Json) :=
  schemas.filterM fun schema => (sub schema x).clean

/-- Whether nothing is wrong, where a fault counts also after a violation. -/
def passes (x : Findings) : Except Fault Bool :=
  x.toList.map (·.isEmpty)

/-- The schemas from the first one on that a value matches. -/
def fromFirstMatch (sub : Checker) (x : Json) : List Json → Except Fault (List Json)
  | [] => .ok []
  | schema :: rest => do
    if ← passes (sub schema x) then return schema :: rest else fromFirstMatch sub x rest

def noneMatches (x : Json) : Findings :=
  .one (x.literal ++ " is not valid under any of the given schemas")

def checkAnyOf (sub : Checker) (v x : Json) : Findings :=
  .ofResult (fromFirstMatch sub x (itemsOf v)) fun found =>
    if found.isEmpty then noneMatches x else .empty

def checkOneOf (sub : Checker) (v x : Json) : Findings :=
  .ofResult (fromFirstMatch sub x (itemsOf v)) fun found =>
    match found with
    | [] => noneMatches x
    | first :: rest =>
      .ofResult (matching sub x rest) fun more =>
        .ifNot more.isEmpty (x.literal ++ " is valid under each of " ++ literals (more ++ [first]))

def checkNot (sub : Checker) (v x : Json) : Findings :=
  .ofResult (sub v x).clean fun holds =>
    .ifNot (!holds) (x.literal ++ " should not be valid under " ++ v.literal)

def checkCond (sub : Checker) (fields : Fields) (v x : Json) : Findings :=
  .ofResult (sub v x).clean fun holds =>
    match fields.lookup (if holds then "then" else "else") with
    | some schema => sub schema x
    | none => .empty

/-! Schemas -/

def onNumber (x : Json) (check : Findings) : Findings :=
  if Draft.isNumber x then check else .empty

def onText (x : Json) (check : String → Findings) : Findings :=
  match x with
  | .str s => check s
  | _ => .empty

def onArray (x : Json) (check : List Json → Findings) : Findings :=
  match x with
  | .arr items => check items
  | _ => .empty

def onObject (x : Json) (check : Fields → Findings) : Findings :=
  match x with
  | .obj given => check given
  | _ => .empty

/-- Checks a value for one keyword of a schema with the given fields. -/
def checkKeyword (sc : Scope) (sub : Checker) (fields : Fields) (k : Keyword) (v x : Json) :
    Findings :=
  match k with
  | .ref => .ofResult (Reference.resolve sc.root (textOf v)) fun schema => sub schema x
  | .type => checkType sc v x
  | .enum => .ifNot ((itemsOf v).any x.identical) (x.literal ++ " is not one of " ++ v.literal)
  | .const => .ifNot (x.identical v) (v.literal ++ " was expected")
  | .minimum => onNumber x (checkMinimum (strictBy sc fields "exclusiveMinimum") v x)
  | .maximum => onNumber x (checkMaximum (strictBy sc fields "exclusiveMaximum") v x)
  | .exclusiveMinimum => onNumber x (checkMinimum true v x)
  | .exclusiveMaximum => onNumber x (checkMaximum true v x)
  | .multipleOf =>
    onNumber x (.ifNot (x.isMultipleOf v) (x.literal ++ " is not a multiple of " ++ v.literal))
  | .minLength => onText x fun _ => checkLeast " is too short" v x
  | .maxLength => onText x fun _ => checkMost " is too long" v x
  | .pattern => onText x fun s =>
    .ofResult (matchesPattern (textOf v) s) fun found =>
      .ifNot found (x.literal ++ " does not match " ++ v.literal)
  | .format => checkFormat sc v x
  | .minItems => onArray x fun _ => checkLeast " is too short" v x
  | .maxItems => onArray x fun _ => checkMost " is too long" v x
  | .uniqueItems => onArray x fun items =>
    .ifNot (!v.truthy || distinct items) (x.literal ++ " has non-unique elements")
  | .items => onArray x (checkItems sc sub fields v)
  | .prefixItems => onArray x (checkPlaces sub (itemsOf v))
  | .additionalItems => onArray x (checkAdditionalItems sub fields v)
  | .contains => onArray x (checkContains sc sub fields v x)
  | .minProperties => onObject x fun _ => checkLeast " does not have enough properties" v x
  | .maxProperties => onObject x fun _ => checkMost " has too many properties" v x
  | .required => onObject x (checkRequired v)
  | .properties => onObject x (checkProperties sub v)
  | .patternProperties => onObject x (checkPatternProperties sub v)
  | .additionalProperties => onObject x (checkAdditionalProperties sub fields v)
  | .propertyNames => onObject x fun given => .each (fun key => sub v (.str key)) given.keys
  | .dependencies | .dependentRequired | .dependentSchemas => onObject x (checkDependencies sub v x)
  | .allOf => .each (fun schema => sub schema x) (itemsOf v)
  | .anyOf => checkAnyOf sub v x
  | .oneOf => checkOneOf sub v x
  | .not => checkNot sub v x
  | .cond => checkCond sub fields v x

/-- The fields of a schema that count; a reference hides all others in the older drafts. -/
def effectiveFields (d : Draft) (fields : Fields) : Fields :=
  if Draft.draft2019.age ≤ d.age then fields
  else
    match fields.lookup "$ref" with
    | some ref => [("$ref", ref)]
    | none => fields

def check : Nat → Scope → Checker
  | 0, _, _, _ => .failed .tooDeep
  | depth + 1, sc, schema, x =>
    .ofResult (Draft.ofSchema sc.draft schema) fun draft =>
      let sc := { sc with draft }
      match schema with
      | .bool holds => .ifNot holds ("False schema does not allow " ++ x.literal)
      | .obj fields =>
        .each (fun (key, v) =>
          match Keyword.ofName? draft key with
          | some k => checkKeyword sc (check depth sc) fields k v x
          | none => .empty) (effectiveFields draft fields)
      | schema => .failed (.noAttribute schema.kind "items")

/-- How deep the parts of a schema may lead into each other; observed, not told by the source. -/
def depthLimit : Nat := 490

/-- What is wrong with a value under a schema of a draft. -/
def violations (draft : Draft) (schema x : Json) : Except Fault (List Violation) :=
  (check depthLimit { draft, root := schema } schema x).toList

end Flowgraph.Schema
