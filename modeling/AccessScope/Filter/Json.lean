import AccessScope.Filter.Basic
import AccessScope.Json.Read

/-!
# Filters in JSON

A chain is written as an object with its category, its ids and, unless it ends there, the chain
below. A category is its written name; where an object is allowed it may also be that name as the
only key, with the value `null`.

* `Draft.read`, `Draft.ofJson?`  read a draft
* `Filter.ofJson?`  reads a draft and makes a filter of it
* `Draft.toJson`, `Filter.toJson`  write a draft and a filter
-/

namespace AccessScope

/-- A category as it is written. -/
def Category.toJson (c : Category) : Json := .str c.tag

/-- Reads a category. -/
def Category.read : Nat → Json → Option Category
  | _, .str text => ofTag? text
  | _ + 1, .obj [(text, .null)] => ofTag? text
  | _, _ => none

/-- A chain as it is written; `list` gives the ids of a level in the order to write them in. -/
def Chain.toJson {ρ : Type} (list : ρ → List Id) : Chain ρ → Json
  | leaf c r => .obj [("type", c.toJson), ("resources", .ids (list r))]
  | narrowed c r child =>
    .obj [("type", c.toJson), ("resources", .ids (list r)), ("dataset_filter", child.toJson list)]

/-- A draft as it is written, with its ids in the order and as often as they were given. -/
def Draft.toJson (draft : Draft) : Json := Chain.toJson (fun ids => ids) draft

/-- A filter as it is written, with the ids of each level in ascending order. -/
def Filter.toJson (f : Filter) : Json := f.chain.toJson IdSet.toList

/-- The fields of a level, in their order. -/
def Draft.fieldNames : List String := ["type", "resources", "dataset_filter"]

/-- Reads a draft. Each level is one list or object inside the one above. -/
def Draft.read : Nat → Json → Option Draft
  | 0, _ => none
  | room + 1, j => do
    let field ← j.record Draft.fieldNames
    let category ← Json.required (Category.read room) (field "type")
    let ids ← Json.defaulted [] (Json.readIds room) (field "resources")
    let child ← Json.defaulted none (Json.nullable (Draft.read room)) (field "dataset_filter")
    return .ofRoot category ids child

/-- Reads a draft however deep it is. -/
def Draft.ofJson? (j : Json) : Option Draft := Draft.read j.depth j

/-- Reads a draft and makes a filter of it: there may be no draft, or a draft with a fault. -/
def Filter.ofJson? (j : Json) : Option (Except FilterFault Filter) :=
  (Draft.ofJson? j).map Filter.ofDraft

end AccessScope
