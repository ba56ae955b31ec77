/-!
# Resource categories

The categories of monitored resources that a filter can name, and which category may narrow which.
`Category.narrowings` is the whole grammar of filters: a level of one category may only be narrowed
by a level of a category listed there.

* `Category.ofTag?_tag`  a category is found under its tag
* `Category.eq_of_ofTag?`  and nothing else is found there
-/

namespace AccessScope

/-- A category of monitored resources. -/
inductive Category where
  | all
  | host
  | hostGroup
  | hostCategory
  | service
  | serviceGroup
  | serviceCategory
  | metaService
  /-- The place of a category that has not been chosen yet. -/
  | unchosen
deriving DecidableEq, Repr

namespace Category

/-- Every category, in the order in which they are listed and sorted. -/
def values : List Category :=
  [all, host, hostGroup, hostCategory, service, serviceGroup, serviceCategory, metaService,
    unchosen]

/-- The written name of a category. -/
def tag : Category → String
  | all => "all"
  | host => "host"
  | hostGroup => "hostgroup"
  | hostCategory => "host_category"
  | service => "service"
  | serviceGroup => "servicegroup"
  | serviceCategory => "service_category"
  | metaService => "meta_service"
  | unchosen => "empty"

/-- The category with this written name. -/
def ofTag? (text : String) : Option Category :=
  values.find? (·.tag == text)

/-- The message for a text that is no category's name. -/
def unknownMessage (text : String) : String :=
  "Unknown dataset filter type '" ++ text ++ "'"

/-- The categories that may narrow a level of this one. -/
def narrowings : Category → List Category
  | hostGroup => [host, hostCategory, serviceGroup, serviceCategory, service]
  | hostCategory => [host, serviceGroup, serviceCategory, service]
  | host => [serviceGroup, serviceCategory, service]
  | serviceGroup => [serviceCategory, service]
  | serviceCategory => [service]
  | all | service | metaService | unchosen => []

/-- May a level of category `child` narrow a level of category `parent`? -/
def admits (parent child : Category) : Bool :=
  parent.narrowings.contains child

/-- Can nothing narrow a level of this category? -/
def isLeaf (c : Category) : Bool :=
  c.narrowings.isEmpty

/-- The place of the category in `values`. -/
def rank (c : Category) : Nat :=
  values.idxOf c

/-- The categories sorted into the order of `values`. -/
def sorted (cs : List Category) : List Category :=
  cs.mergeSort fun a b => a.rank ≤ b.rank

theorem mem_values (c : Category) : c ∈ values := by
  cases c <;> decide

/-- A category is found under its written name. -/
@[simp] theorem ofTag?_tag (c : Category) : ofTag? c.tag = some c := by
  cases c <;> rfl

/-- What is found under a written name has that name. -/
theorem eq_of_ofTag? {text : String} {c : Category} (h : ofTag? text = some c) : c.tag = text := by
  simpa using List.find?_some h

/-- Nothing narrows the place of an unchosen category, and it narrows nothing. -/
theorem not_admits_unchosen (c : Category) : c.admits unchosen = false := by
  cases c <;> rfl

end Category

end AccessScope
