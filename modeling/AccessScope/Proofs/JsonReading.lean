import AccessScope.Rule.Json

/-!
# Reading with enough room

The readers of nested values are told how much room there is, so that a file cannot be nested too
deep. Where a value is read by itself, there is as much room as the value is deep. This file shows
that more room would make no difference, and gives for the three records that clients send what is
read from their fields, without any room: a field that is missing is read like its default, and
every field is read for itself.

## Key results

- `Json.Steady.draft`: a draft is read alike with all the room that is enough for it
- `Record.fieldsOf`: the fields that a value gives a record, the defaults filled in
- `Draft.ofJson?_eq`, `RuleRequest.ofJson?_eq`, `ChangeRequest.ofJson?_eq`: what is read depends on
  these fields only
-/

namespace AccessScope

namespace Json

variable {α β : Type}

/-! ## Depth -/

/-- An item of a list is less deep than the list. -/
theorem depth_lt_of_mem_items {item : Json} {items : List Json} (h : item ∈ items) :
    item.depth < (arr items).depth := by
  have hle : item.depth ≤ depth.depthOfItems items := by
    induction items with
    | nil => cases h
    | cons j rest ih =>
      rw [depth.depthOfItems]
      obtain rfl | hrest := List.mem_cons.1 h
      · exact Nat.le_max_left ..
      · exact Nat.le_trans (ih hrest) (Nat.le_max_right ..)
  rw [depth]
  omega

/-- So is a member of an object. -/
theorem depth_lt_of_mem_members {name : String} {value : Json} {members : List (String × Json)}
    (h : (name, value) ∈ members) : value.depth < (obj members).depth := by
  have hle : value.depth ≤ depth.depthOfMembers members := by
    induction members with
    | nil => cases h
    | cons m rest ih =>
      obtain ⟨key, j⟩ := m
      rw [depth.depthOfMembers]
      obtain heq | hrest := List.mem_cons.1 h
      · cases heq
        exact Nat.le_max_left ..
      · exact Nat.le_trans (ih hrest) (Nat.le_max_right ..)
  rw [depth]
  omega

theorem mem_of_lookup {name : String} {value : Json} {members : List (String × Json)}
    (h : members.lookup name = some value) : (name, value) ∈ members := by
  obtain ⟨before, after, rfl, _⟩ := List.lookup_eq_some_iff.1 h
  simp

/-- The fields of a record are less deep than the record. -/
theorem depth_lt_of_record {names : List String} {j value : Json} {field : String → Option Json}
    {name : String} (hrecord : j.record names = some field) (h : field name = some value) :
    value.depth < j.depth := by
  cases j with
  | arr items =>
    simp only [record, Option.ite_none_right_eq_some, Option.some.injEq] at hrecord
    obtain ⟨_, rfl⟩ := hrecord
    exact depth_lt_of_mem_items (List.mem_of_getElem? h)
  | obj members =>
    simp only [record, Option.ite_none_right_eq_some, Option.some.injEq] at hrecord
    obtain ⟨_, rfl⟩ := hrecord
    exact depth_lt_of_mem_members (mem_of_lookup h)
  | _ => cases hrecord

/-- Where there is room for a record, there is one level less for its fields. -/
theorem depth_le_of_record {names : List String} {room : Nat} {j value : Json}
    {field : String → Option Json} {name : String} (hj : j.depth ≤ room + 1)
    (hrecord : j.record names = some field) (h : value ∈ field name) : value.depth ≤ room := by
  have := depth_lt_of_record hrecord h
  omega

/-- A value that holds no others is no record. -/
theorem record_eq_none_of_depth {names : List String} {j : Json} (h : j.depth = 0) :
    j.record names = none := by
  cases j with
  | arr => simp [depth] at h
  | obj => simp [depth] at h
  | _ => rfl

/-! ## Enough room -/

/-- Reads a value with as much room as it needs. -/
def full (read : Nat → Json → Option α) (j : Json) : Option α := read j.depth j

/-- More room than a value needs makes no difference to what is read. -/
def Steady (read : Nat → Json → Option α) : Prop :=
  ∀ (room : Nat) (j : Json), j.depth ≤ room → read room j = full read j

/-- A reader that takes no room. -/
theorem Steady.const (read : Json → Option α) : Steady fun _ => read :=
  fun _ _ _ => rfl

/-- Items are read alike by readers that agree on each of them. -/
theorem mapM_congr_mem {read read' : Json → Option α} {items : List Json}
    (h : ∀ item ∈ items, read item = read' item) : items.mapM read = items.mapM read' := by
  induction items with
  | nil => rfl
  | cons item rest ih =>
    obtain ⟨hitem, hrest⟩ := List.forall_mem_cons.1 h
    rw [List.mapM_cons, List.mapM_cons, hitem, ih hrest]

/-- The items of a list are read with as much room as each of them needs. -/
theorem full_readList {read : Nat → Json → Option α} (h : Steady read) (items : List Json) :
    full (readList read) (arr items) = items.mapM (full read) := by
  have hroom : (arr items).depth = depth.depthOfItems items + 1 := by
    rw [depth, Nat.add_comm]
  rw [full, hroom, readList]
  refine mapM_congr_mem fun item hitem => h _ item ?_
  have := depth_lt_of_mem_items hitem
  omega

theorem Steady.readList {read : Nat → Json → Option α} (h : Steady read) :
    Steady (Json.readList read) := by
  intro room j hj
  cases j with
  | arr items =>
    rw [full_readList h]
    cases room with
    | zero =>
      rw [depth] at hj
      omega
    | succ room =>
      refine mapM_congr_mem fun item hitem => h room item ?_
      have := depth_lt_of_mem_items hitem
      omega
  -- nothing else is a list, with whatever room
  | _ => simp [Json.readList, full]

/-- A list of ids is read alike with all the room that is enough for it. -/
theorem Steady.ids : Steady readIds := (Steady.const readId).readList

/-! ## Fields -/

/-- A value that may be `null` is read alike by readers that agree on it. -/
theorem nullable_congr {read read' : Json → Option α} {j : Json} (h : read j = read' j) :
    nullable read j = nullable read' j := by
  cases j with
  | null => rfl
  | _ => exact congrArg (Option.map some) h

/-- A field that must be there is read alike by readers that agree on it. -/
theorem required_congr {read read' : Json → Option α} {field : Option Json}
    (h : ∀ j ∈ field, read j = read' j) : required read field = required read' field := by
  cases field with
  | none => rfl
  | some j => exact h j rfl

/-- A field that has a default is read like one that must be there, if the default is put in its
    place when it is missing. -/
theorem defaulted_eq_required {read read' : Json → Option α} {default : α} {written : Json}
    {field : Option Json} (hwritten : read' written = some default)
    (h : ∀ j ∈ field, read j = read' j) :
    defaulted default read field = required read' (field.or (some written)) := by
  cases field with
  | none => exact hwritten.symm
  | some j => exact h j rfl

end Json

/-! ## Records -/

/-- The records that clients send. -/
inductive Record where
  | draft
  | request
  | change

namespace Record

/-- The fields of a record, in their order. -/
def names : Record → List String
  | draft => Draft.fieldNames
  | request | change => RuleRequest.fieldNames

/-- What a field is taken for when it is missing, if it may be. -/
def default? : Record → String → Option Json
  | draft, "resources" | request, "contacts" | request, "contact_groups" => some (.arr [])
  | request, "description" => some (.str "")
  | request, "is_enabled" => some (.bool true)
  | draft, "dataset_filter" | change, _ => some .null
  | _, _ => none

/-- The fields that a value gives a record, with the defaults in the place of missing ones. -/
def fieldsOf (r : Record) (j : Json) : Option (String → Option Json) :=
  (j.record r.names).map fun field name => (field name).or (r.default? name)

theorem fieldsOf_eq_none_of_depth {r : Record} {j : Json} (h : j.depth = 0) :
    r.fieldsOf j = none := by
  rw [fieldsOf, Json.record_eq_none_of_depth h, Option.map_none]

end Record

/-! ## Drafts -/

/-- A category is read alike with all the room that is enough for it. -/
theorem Json.Steady.category : Json.Steady Category.read := by
  -- an object is looked into only to see whether it is a name with the value `null`
  have hobj (room : Nat) (members : List (String × Json)) :
      Category.read (room + 1) (.obj members) = Category.read 1 (.obj members) := by
    match members with
    | [] => rfl
    | [(_, value)] => cases value <;> rfl
    | (_, value) :: _ :: _ => cases value <;> rfl
  intro room j hj
  cases j with
  | obj members =>
    have hdepth : (obj members).depth = depth.depthOfMembers members + 1 := by
      rw [depth, Nat.add_comm]
    rw [full, hdepth]
    cases room with
    | zero => omega
    | succ room => rw [hobj room, hobj (depth.depthOfMembers members)]
  | _ => cases room <;> rfl

/-- A draft from its fields; `child` reads what is below. -/
def Draft.ofFields (child : Json → Option Draft) (field : String → Option Json) : Option Draft := do
  let category ← Json.required (Json.full Category.read) (field "type")
  let ids ← Json.required (Json.full Json.readIds) (field "resources")
  let below ← Json.required (Json.nullable child) (field "dataset_filter")
  return .ofRoot category ids below

theorem Draft.read_succ {room : Nat} {j : Json} (hj : j.depth ≤ room + 1) :
    Draft.read (room + 1) j = (Record.draft.fieldsOf j).bind (ofFields (Draft.read room)) := by
  unfold Draft.read Record.fieldsOf
  cases hrecord : j.record Draft.fieldNames with
  | none => simp [Record.names, hrecord]
  | some field =>
    have hless {name : String} {value : Json} (h : value ∈ field name) : value.depth ≤ room :=
      Json.depth_le_of_record hj hrecord h
    have htype : Json.required (Category.read room) (field "type") =
        Json.required (Json.full Category.read) (field "type") :=
      Json.required_congr fun value h => Json.Steady.category room value (hless h)
    have hids : Json.defaulted [] (Json.readIds room) (field "resources") =
        Json.required (Json.full Json.readIds) ((field "resources").or (some (.arr []))) :=
      Json.defaulted_eq_required rfl fun value h => Json.Steady.ids room value (hless h)
    -- how much room the child needs is left open here, since that is what is to be shown of drafts
    have hchild : Json.defaulted none (Json.nullable (Draft.read room)) (field "dataset_filter") =
        Json.required (Json.nullable (Draft.read room))
          ((field "dataset_filter").or (some .null)) :=
      Json.defaulted_eq_required rfl fun _ _ => rfl
    simp [Record.names, hrecord, ofFields, htype, hids, hchild, Record.default?]

/-- What is below a draft has one level less of room, also if it is missing. -/
theorem Draft.depth_le_of_fieldsOf {room : Nat} {j value : Json} {field : String → Option Json}
    (hj : j.depth ≤ room + 1) (hfields : Record.draft.fieldsOf j = some field)
    (h : value ∈ field "dataset_filter") : value.depth ≤ room := by
  obtain ⟨found, hrecord, rfl⟩ := Option.map_eq_some_iff.1 hfields
  cases hfound : found "dataset_filter" with
  | none =>
    obtain rfl : Json.null = value := by simpa [hfound, Record.default?] using h
    exact Nat.zero_le _
  | some given =>
    obtain rfl : given = value := by simpa [hfound] using h
    exact Json.depth_le_of_record hj hrecord hfound

/-- Only what is below is read by `child`. -/
theorem Draft.ofFields_congr_child {child child' : Json → Option Draft}
    {field : String → Option Json}
    (h : ∀ value ∈ field "dataset_filter", child value = child' value) :
    ofFields child field = ofFields child' field := by
  have hchild : Json.required (Json.nullable child) (field "dataset_filter") =
      Json.required (Json.nullable child') (field "dataset_filter") :=
    Json.required_congr fun value hvalue => Json.nullable_congr (h value hvalue)
  rw [ofFields, ofFields, hchild]

/-- A draft is read alike with all the room that is enough for it. -/
theorem Json.Steady.draft : Json.Steady Draft.read := by
  intro room
  -- what is below has less room, by any number of levels
  induction room using Nat.strongRecOn with
  | ind room ih =>
    intro j hj
    rw [full]
    cases hdepth : j.depth with
    | zero =>
      cases room with
      | zero => rfl
      | succ room =>
        rw [Draft.read_succ hj, Record.fieldsOf_eq_none_of_depth hdepth]
        rfl
    | succ depth =>
      cases room with
      | zero => omega
      | succ room =>
        -- the same fields are read both times, and what is below with two amounts of room
        rw [Draft.read_succ hj, Draft.read_succ (Nat.le_of_eq hdepth)]
        cases hfields : Record.draft.fieldsOf j with
        | none => rfl
        | some field =>
          refine Draft.ofFields_congr_child fun value hvalue => ?_
          have hle : value.depth ≤ depth :=
            Draft.depth_le_of_fieldsOf (Nat.le_of_eq hdepth) hfields hvalue
          rw [ih room (by omega) value (by omega), ih depth (by omega) value hle]

/-- A draft is read from its fields, and what is below like any other draft. -/
theorem Draft.ofJson?_eq (j : Json) :
    Draft.ofJson? j = (Record.draft.fieldsOf j).bind (ofFields Draft.ofJson?) := by
  unfold Draft.ofJson?
  cases hdepth : j.depth with
  | zero =>
    rw [Record.fieldsOf_eq_none_of_depth hdepth]
    rfl
  | succ depth =>
    rw [read_succ (Nat.le_of_eq hdepth)]
    cases hfields : Record.draft.fieldsOf j with
    | none => rfl
    | some field =>
      refine ofFields_congr_child fun value hvalue => Json.Steady.draft depth value ?_
      exact depth_le_of_fieldsOf (Nat.le_of_eq hdepth) hfields hvalue

/-! ## Requests -/

/-- Reads a list of drafts however deep they are. -/
def Draft.listOfJson? : Json → Option (List Draft) := Json.full (Json.readList Draft.read)

/-- A request that sets every field, from its fields. -/
def RuleRequest.ofFields (field : String → Option Json) : Option RuleRequest := do
  return {
    name := ← Json.required Json.readText (field "name")
    description := ← Json.required Json.readText (field "description")
    isEnabled := ← Json.required Json.readBool (field "is_enabled")
    contacts := ← Json.required (Json.full Json.readIds) (field "contacts")
    contactGroups := ← Json.required (Json.full Json.readIds) (field "contact_groups")
    filters := ← Json.required Draft.listOfJson? (field "datasets") }

/-- A request that sets some fields, from its fields. -/
def ChangeRequest.ofFields (field : String → Option Json) : Option ChangeRequest := do
  return {
    name := ← Json.required (Json.nullable Json.readText) (field "name")
    description := ← Json.required (Json.nullable Json.readText) (field "description")
    isEnabled := ← Json.required (Json.nullable Json.readBool) (field "is_enabled")
    contacts := ← Json.required (Json.nullable (Json.full Json.readIds)) (field "contacts")
    contactGroups := ←
      Json.required (Json.nullable (Json.full Json.readIds)) (field "contact_groups")
    filters := ← Json.required (Json.nullable Draft.listOfJson?) (field "datasets") }

/-- A request that sets every field is read from its fields. -/
theorem RuleRequest.ofJson?_eq (j : Json) :
    RuleRequest.ofJson? j = (Record.request.fieldsOf j).bind ofFields := by
  unfold RuleRequest.ofJson?
  cases hdepth : j.depth with
  | zero =>
    rw [Record.fieldsOf_eq_none_of_depth hdepth]
    rfl
  | succ room =>
    unfold RuleRequest.read Record.fieldsOf
    cases hrecord : j.record RuleRequest.fieldNames with
    | none => simp [Record.names, hrecord]
    | some field =>
      have hless {name : String} {value : Json} (h : value ∈ field name) : value.depth ≤ room :=
        Json.depth_le_of_record (Nat.le_of_eq hdepth) hrecord h
      have hdescription : Json.defaulted "" Json.readText (field "description") =
          Json.required Json.readText ((field "description").or (some (.str ""))) :=
        Json.defaulted_eq_required rfl fun _ _ => rfl
      have henabled : Json.defaulted true Json.readBool (field "is_enabled") =
          Json.required Json.readBool ((field "is_enabled").or (some (.bool true))) :=
        Json.defaulted_eq_required rfl fun _ _ => rfl
      have hids (name : String) : Json.defaulted [] (Json.readIds room) (field name) =
          Json.required (Json.full Json.readIds) ((field name).or (some (.arr []))) :=
        Json.defaulted_eq_required rfl fun value h => Json.Steady.ids room value (hless h)
      have hdrafts : Json.required (Json.readList Draft.read room) (field "datasets") =
          Json.required Draft.listOfJson? (field "datasets") :=
        Json.required_congr fun value h => Json.Steady.draft.readList room value (hless h)
      simp [Record.names, hrecord, ofFields, hdescription, henabled, hids, hdrafts,
        Record.default?]

/-- A request that sets some fields is read from its fields. -/
theorem ChangeRequest.ofJson?_eq (j : Json) :
    ChangeRequest.ofJson? j = (Record.change.fieldsOf j).bind ofFields := by
  unfold ChangeRequest.ofJson?
  cases hdepth : j.depth with
  | zero =>
    rw [Record.fieldsOf_eq_none_of_depth hdepth]
    rfl
  | succ room =>
    unfold ChangeRequest.read Record.fieldsOf
    cases hrecord : j.record RuleRequest.fieldNames with
    | none => simp [Record.names, hrecord]
    | some field =>
      have hnullable {α : Type} {read : Nat → Json → Option α} (h : Json.Steady read)
          (name : String) : Json.defaulted none (Json.nullable (read room)) (field name) =
            Json.required (Json.nullable (Json.full read)) ((field name).or (some .null)) := by
        refine Json.defaulted_eq_required rfl fun value hvalue => ?_
        have hless := Json.depth_le_of_record (Nat.le_of_eq hdepth) hrecord hvalue
        exact Json.nullable_congr (h room value hless)
      have htext (name : String) : Json.defaulted none (Json.nullable Json.readText) (field name) =
          Json.required (Json.nullable Json.readText) ((field name).or (some .null)) :=
        hnullable (.const Json.readText) name
      have hbool (name : String) : Json.defaulted none (Json.nullable Json.readBool) (field name) =
          Json.required (Json.nullable Json.readBool) ((field name).or (some .null)) :=
        hnullable (.const Json.readBool) name
      have hdrafts := hnullable Json.Steady.draft.readList "datasets"
      simp [Record.names, hrecord, ofFields, htext, hbool, hnullable .ids, hdrafts,
        Record.default?, Draft.listOfJson?]

end AccessScope
