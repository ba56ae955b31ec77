import AccessScope.Category

/-!
# Chains of levels

A filter is a chain of levels, from the root to the leaf: each level names a category and some
resources of it, and each level but the last is narrowed by the next. The type of the resources is
left open, since a client lists ids as it likes while a checked filter holds a set of them.

* `Chain.levels_map`  changing the resources level by level keeps the shape
-/

namespace AccessScope

/-- A chain of levels that each name a category and resources of type `ρ`. -/
inductive Chain (ρ : Type) where
  /-- The last level. -/
  | leaf (category : Category) (resources : ρ)
  /-- A level that is narrowed by the rest of the chain. -/
  | narrowed (category : Category) (resources : ρ) (child : Chain ρ)
deriving DecidableEq

namespace Chain

variable {ρ σ : Type}

/-- The category of the root level. -/
def category : Chain ρ → Category
  | leaf c _ => c
  | narrowed c _ _ => c

/-- The resources of the root level. -/
def resources : Chain ρ → ρ
  | leaf _ r => r
  | narrowed _ r _ => r

/-- The chain below the root level. -/
def child? : Chain ρ → Option (Chain ρ)
  | leaf _ _ => none
  | narrowed _ _ child => some child

/-- A chain from its root level and what is below it. -/
def ofRoot (category : Category) (resources : ρ) : Option (Chain ρ) → Chain ρ
  | none => leaf category resources
  | some child => narrowed category resources child

/-- The levels from the root to the leaf. -/
def levels : Chain ρ → List (Category × ρ)
  | leaf c r => [(c, r)]
  | narrowed c r child => (c, r) :: child.levels

/-- The number of levels. -/
def depth (chain : Chain ρ) : Nat :=
  chain.levels.length

/-- The chain with the resources of every level changed by `f`. -/
def map (f : ρ → σ) : Chain ρ → Chain σ
  | leaf c r => leaf c (f r)
  | narrowed c r child => narrowed c (f r) (child.map f)

@[simp] theorem category_map (f : ρ → σ) (chain : Chain ρ) :
    (chain.map f).category = chain.category := by
  cases chain <;> rfl

theorem levels_map (f : ρ → σ) (chain : Chain ρ) :
    (chain.map f).levels = chain.levels.map fun level => (level.1, f level.2) := by
  induction chain with
  | leaf c r => rfl
  | narrowed c r child ih => simp [map, levels, ih]

@[simp] theorem map_map {τ : Type} (f : ρ → σ) (g : σ → τ) (chain : Chain ρ) :
    (chain.map f).map g = chain.map (g ∘ f) := by
  induction chain with
  | leaf c r => rfl
  | narrowed c r child ih => simp [map, ih]

@[simp] theorem map_id (chain : Chain ρ) : chain.map id = chain := by
  induction chain with
  | leaf c r => rfl
  | narrowed c r child ih => simp [map, ih]

@[simp] theorem category_ofRoot (c : Category) (r : ρ) (child : Option (Chain ρ)) :
    (ofRoot c r child).category = c := by
  cases child <;> rfl

@[simp] theorem resources_ofRoot (c : Category) (r : ρ) (child : Option (Chain ρ)) :
    (ofRoot c r child).resources = r := by
  cases child <;> rfl

@[simp] theorem ofRoot_child? (chain : Chain ρ) :
    ofRoot chain.category chain.resources chain.child? = chain := by
  cases chain <;> rfl

end Chain

end AccessScope
