import AccessScope.Memory.Directory
import AccessScope.Memory.RuleStore
import AccessScope.UseCase.Management

/-!
# Everything in memory

A world holds the rule store, the directory and the counters, and offers them as the collaborators
of the operations. Here a collaborator fails only when the store refuses a write, and a write that
is refused changes nothing.

* `World.run_look`, `World.run_write`  what looking up and writing do to a world
* `World.collaborators`  the store and the directory as collaborators
* `World.manager`  the operations over a world
-/

namespace AccessScope

/-- The rule store, the directory and the counters. -/
structure World where
  store : RuleStore
  directory : Directory
  counters : Counters
deriving DecidableEq

namespace World

/-- The world without rules, contacts and counts. -/
def empty : World := ⟨.empty, .empty, .empty⟩

/-- Looks something up. -/
def look {α : Type} (f : World → α) : Action World α := do
  return f (← get)

/-- Writes to the store, unless it refuses. -/
def write {α : Type} (f : RuleStore → Except Failure (RuleStore × α)) : Action World α :=
  ExceptT.mk fun w =>
    match f w.store with
    | .ok (store, a) => (.ok a, { w with store })
    | .error failure => (.error failure, w)

/-- Looking something up leaves the world alone. -/
@[simp] theorem run_look {α : Type} (f : World → α) (w : World) :
    (look f).run.run w = (.ok (f w), w) := rfl

/-- A write changes the store and nothing else, and only if the store accepts it. -/
theorem run_write {α : Type} (f : RuleStore → Except Failure (RuleStore × α)) (w : World) :
    (write f).run.run w =
      match f w.store with
      | .ok (store, a) => (.ok a, { w with store })
      | .error failure => (.error failure, w) := rfl

/-- The store and the directory of a world as collaborators. -/
def collaborators : Collaborators World where
  findRule id := look (·.store.find? id)
  allRules := look (·.store.rules)
  rulesOfContact contact := look (·.store.rulesOfContact contact)
  rulesOfGroups groups := look (·.store.rulesOfGroups groups)
  isNameTaken formatted := look fun w => (w.store.nameOwner? formatted).isSome
  knownResources category ids := look (·.store.knownResources category ids)
  addRule content := write (·.add content)
  updateRule rule := write fun s => (s.update rule).map (·, ())
  deleteRule id := write fun s => (s.delete id).map (·, ())
  accessGroupsOf contact := look (·.directory.accessGroupsOf contact)
  knownContacts ids := look (·.directory.knownContacts ids)
  contactGroupsOf contact := look (·.directory.contactGroupsOf contact)
  knownContactGroups ids := look (·.directory.knownContactGroups ids)
  count series := modify fun w => { w with counters := w.counters.increment series }

/-- The operations over a world, for the members of an access group if one is required. -/
def manager (accessGroup : Option String) : Manager World := ⟨collaborators, accessGroup⟩

end World

end AccessScope
