import AccessScope.Proofs.FilterConstruction
import AccessScope.Proofs.JsonReading
import Mathlib.Logic.Relation

/-!
# Forms of a record in JSON

What is written is read back as it was. But clients may write a record in other ways than it is
written here: with the members of an object in any order, with members that nobody asks for, without
the fields that hold their defaults, and as a list of the fields. `Rewrite` says what can differ in
one place, which may lie below a draft or within the drafts of a request. None of it changes how any
field is read, so none of it changes what is read, in however many places it is done.

## Key results

- `Draft.ofJson?_toJson`, `Filter.ofJson?_toJson`, `RuleRequest.ofJson?_toJson`,
  `ChangeRequest.ofJson?_toJson`: what is written is read back
- `Rewrite.fieldsAlike`: fields are read alike if a record is written differently in one place
- `Draft.ofJson?_eq_of_fieldsAlike`: records with fields that are read alike are read alike
- `read_back_in_every_form`: both of them, for every record in every form
-/

namespace AccessScope

/-! ## Look-ups -/

section

variable {α : Type} {name : String}

theorem lookup_cons_eq (m : String × α) (members : List (String × α)) :
    (m :: members).lookup name = if m.1 = name then some m.2 else members.lookup name := by
  obtain ⟨key, value⟩ := m
  rw [List.lookup_cons]
  by_cases h : key = name
  · simp [h]
  · have hne : (name == key) = false := beq_false_of_ne (Ne.symm h)
    rw [hne, if_neg h]

theorem countP_name_cons (m : String × α) (members : List (String × α)) :
    (m :: members).countP (·.1 == name) =
      members.countP (·.1 == name) + if m.1 = name then 1 else 0 := by
  simp only [List.countP_cons, beq_iff_eq]

/-- The order of the members makes no difference to a look-up of one that comes only once. -/
theorem lookup_eq_of_perm {members others : List (String × α)} (h : members.Perm others)
    (hone : members.countP (·.1 == name) ≤ 1) : members.lookup name = others.lookup name := by
  induction h with
  | nil => rfl
  | cons m _ ih =>
    rw [countP_name_cons] at hone
    -- leaving out the first member cannot make another one come twice
    rw [lookup_cons_eq, lookup_cons_eq, ih (by omega)]
  | swap m n rest =>
    -- only one of the two that change places can be the one that is looked up
    simp only [lookup_cons_eq, countP_name_cons] at hone ⊢
    by_cases hm : m.1 = name
    · by_cases hn : n.1 = name
      · simp only [hm, hn, if_true] at hone
        omega
      · simp [hn]
    · simp [hm]
  | trans hfirst _ ih ih' =>
    rw [ih hone, ih' (hfirst.countP_eq _ ▸ hone)]

/-- Names with values are looked up by their places. -/
theorem lookup_zip {names : List String} {values : List α} (h : values.length ≤ names.length) :
    (names.zip values).lookup name = values[names.idxOf name]? := by
  induction names generalizing values with
  | nil =>
    obtain rfl : values = [] := List.length_eq_zero_iff.1 (Nat.le_zero.1 h)
    rfl
  | cons first names ih =>
    cases values with
    | nil => simp
    | cons value values =>
      rw [List.zip_cons_cons, lookup_cons_eq, ih (Nat.le_of_succ_le_succ h), List.idxOf_cons]
      by_cases hfirst : first = name
      · simp [hfirst]
      · have hne : (first == name) = false := beq_false_of_ne hfirst
        rw [if_neg hfirst, hne, cond_false, List.getElem?_cons_succ]

/-- Names that differ have one value each. -/
theorem countP_zip_le {names : List String} (hnodup : names.Nodup) (values : List α) :
    (names.zip values).countP (·.1 == name) ≤ 1 := by
  -- a value stands under its name, and names without values only make this fewer
  have hle : (names.zip values).countP (·.1 == name) ≤ names.count name := by
    induction names generalizing values with
    | nil => simp
    | cons first names ih =>
      cases values with
      | nil => simp
      | cons value values =>
        have := ih (List.nodup_cons.1 hnodup).2 values
        rw [List.zip_cons_cons, countP_name_cons, List.count_cons]
        simp only [beq_iff_eq]
        omega
  exact Nat.le_trans hle (List.nodup_iff_count.1 hnodup name)

/-- A look-up among members that have a certain one in the middle. -/
theorem lookup_middle {key : String} {value : α} {before after : List (String × α)} :
    (before ++ (key, value) :: after).lookup name =
      (before.lookup name).or (if key = name then some value else after.lookup name) := by
  rw [List.lookup_append, lookup_cons_eq]

end

/-! ## Round trips -/

namespace Json

variable {α : Type} {write : α → Json} {read : Json → Option α}

/-- Items that are each read back are read back as a list. -/
theorem mapM_map_eq_some (h : ∀ a, read (write a) = some a) (as : List α) :
    (as.map write).mapM read = some as := by
  induction as with
  | nil => rfl
  | cons a as ih =>
    rw [List.map_cons, List.mapM_cons, h, ih]
    rfl

/-- A value that may be `null`, and is not, is read like any other. -/
theorem nullable_of_ne_null {j : Json} (h : j ≠ null) : nullable read j = (read j).map some := by
  cases j with
  | null => exact absurd rfl h
  | _ => rfl

/-- A value that may be missing is read back, unless it is written like a missing one. -/
theorem nullable_orNull (h : ∀ a, read (write a) = some a) (hnull : ∀ a, write a ≠ null)
    (x : Option α) : nullable read (orNull write x) = some x := by
  cases x with
  | none => rfl
  | some a => rw [orNull, nullable_of_ne_null (hnull a), h, Option.map_some]

theorem full_readIds_ids (as : List Id) : full readIds (ids as) = some as := by
  rw [readIds, ids, full_readList (.const readId)]
  exact mapM_map_eq_some (fun a => Id.ofInt?_toInt a) as

end Json

theorem Category.full_read_toJson (c : Category) : Json.full Category.read c.toJson = some c :=
  ofTag?_tag c

/-- An object gives a record its members with the names of the fields, unless it has one twice. -/
theorem Record.fieldsOf_obj {r : Record} {members : List (String × Json)}
    (h : r.names.all fun name => members.countP (·.1 == name) ≤ 1) :
    r.fieldsOf (.obj members) = some fun name => (members.lookup name).or (r.default? name) := by
  rw [fieldsOf, Json.record, if_pos h, Option.map_some]

/-- A draft is read back. -/
theorem Draft.ofJson?_toJson (draft : Draft) : ofJson? draft.toJson = some draft := by
  induction draft with
  | leaf c ids =>
    rw [ofJson?_eq, toJson, Chain.toJson, Record.fieldsOf_obj (by rfl), Option.bind_some, ofFields]
    simp [Record.default?, Json.required, lookup_cons_eq, Category.full_read_toJson,
      Json.full_readIds_ids, Json.nullable, Chain.ofRoot]
  | narrowed c ids child ih =>
    rw [ofJson?_eq, toJson, Chain.toJson, Record.fieldsOf_obj (by rfl), Option.bind_some, ofFields]
    have hchild : Json.nullable ofJson? (Chain.toJson (fun ids => ids) child) =
        some (some child) := by
      -- a level below that is written can be told from one that is not there
      have hne : toJson child ≠ .null := by
        intro hnull
        cases child <;> cases hnull
      exact (Json.nullable_of_ne_null hne).trans (congrArg (Option.map some) ih)
    simp [Record.default?, Json.required, lookup_cons_eq, Category.full_read_toJson,
      Json.full_readIds_ids, hchild, Chain.ofRoot]

theorem Draft.listOfJson?_listToJson (drafts : List Draft) :
    listOfJson? (listToJson drafts) = some drafts := by
  rw [listOfJson?, listToJson, Json.full_readList .draft]
  exact Json.mapM_map_eq_some ofJson?_toJson drafts

/-- A request that sets every field is read back. -/
theorem RuleRequest.ofJson?_toJson (r : RuleRequest) : ofJson? r.toJson = some r := by
  rw [ofJson?_eq, toJson, Record.fieldsOf_obj (by rfl)]
  simp [ofFields, Record.default?, Json.required, lookup_cons_eq, Json.full_readIds_ids,
    Draft.listOfJson?_listToJson, Json.readText, Json.readBool]

/-- A request that sets some fields is read back. -/
theorem ChangeRequest.ofJson?_toJson (r : ChangeRequest) : ofJson? r.toJson = some r := by
  have htext (x : Option String) : Json.nullable Json.readText (.orNull .str x) = some x :=
    @Json.nullable_orNull _ .str Json.readText (fun _ => rfl) nofun x
  have hbool (x : Option Bool) : Json.nullable Json.readBool (.orNull .bool x) = some x :=
    @Json.nullable_orNull _ .bool Json.readBool (fun _ => rfl) nofun x
  have hids := Json.nullable_orNull Json.full_readIds_ids nofun
  have hdrafts := Json.nullable_orNull Draft.listOfJson?_listToJson nofun
  rw [ofJson?_eq, toJson, Record.fieldsOf_obj (by rfl)]
  simp [ofFields, Record.default?, Json.required, lookup_cons_eq, htext, hbool, hids, hdrafts]

theorem Chain.toJson_map {ρ σ : Type} (list : σ → List Id) (f : ρ → σ) (chain : Chain ρ) :
    (chain.map f).toJson list = chain.toJson fun r => list (f r) := by
  induction chain with
  | leaf c r => rfl
  | narrowed c r child ih => rw [map, toJson, toJson, ih]

/-- A filter is read back, and the draft that is read of it passes its check. -/
theorem Filter.ofJson?_toJson (f : Filter) : ofJson? f.toJson = some (.ok f) := by
  -- a filter is written like its draft, so reading it is reading the draft and checking that
  have hdraft : f.toJson = f.toDraft.toJson :=
    (Chain.toJson_map (fun ids => ids) IdSet.toList f.chain).symm
  rw [ofJson?, hdraft, Draft.ofJson?_toJson, Option.map_some, ofDraft_toDraft]

/-! ## Other ways to write a record -/

/-- Another way to write a record, that differs in one place. -/
inductive Rewrite : Record → Json → Json → Prop where
  /-- The members of an object stand in another order. -/
  | permuted {r : Record} {members others : List (String × Json)} (h : members.Perm others) :
    Rewrite r (.obj members) (.obj others)
  /-- An object has one more member, which is no field. -/
  | unknown {r : Record} {key : String} {value : Json} {members : List (String × Json)}
    (h : key ∉ r.names) : Rewrite r (.obj members) (.obj ((key, value) :: members))
  /-- A field that holds its default is left out. -/
  | omitted {r : Record} {name : String} {value : Json} {members : List (String × Json)}
    (hname : name ∈ r.names) (hdefault : r.default? name = some value)
    (hother : ∀ m ∈ members, m.1 ≠ name) :
    Rewrite r (.obj ((name, value) :: members)) (.obj members)
  /-- All fields, or the first of them, are given as a list of their values. -/
  | listed {r : Record} (values : List Json) (h : values.length ≤ r.names.length) :
    Rewrite r (.obj (r.names.zip values)) (.arr values)
  /-- What is below a draft is written in another way. -/
  | inChild {before after : List (String × Json)} {a b : Json} (h : Rewrite .draft a b) :
    Rewrite .draft (.obj (before ++ ("dataset_filter", a) :: after))
      (.obj (before ++ ("dataset_filter", b) :: after))
  /-- One of the drafts of a request is written in another way. -/
  | inDatasets {r : Record} {before after : List (String × Json)} {items more : List Json}
    {a b : Json} (h : Rewrite .draft a b) :
    Rewrite r (.obj (before ++ ("datasets", .arr (items ++ a :: more)) :: after))
      (.obj (before ++ ("datasets", .arr (items ++ b :: more)) :: after))

/-- Two ways to write a record that differ in any number of places. -/
def Record.Alike (r : Record) : Json → Json → Prop := Relation.EqvGen (Rewrite r)

/-- What is written in another way is there, and not `null`. -/
theorem Rewrite.ne_null {r : Record} {a b : Json} (h : Rewrite r a b) : a ≠ .null ∧ b ≠ .null := by
  cases h <;> exact ⟨nofun, nofun⟩

/-! ## Fields that are read alike -/

/-- The two values are read alike in a field with this name. -/
inductive FieldAlike (name : String) : Option Json → Option Json → Prop where
  | same {x : Option Json} : FieldAlike name x x
  | child {a b : Json} (hname : name = "dataset_filter") (ha : a ≠ .null) (hb : b ≠ .null)
    (h : Draft.ofJson? a = Draft.ofJson? b) : FieldAlike name (some a) (some b)
  | drafts {items more : List Json} {a b : Json} (hname : name = "datasets")
    (h : Draft.ofJson? a = Draft.ofJson? b) :
    FieldAlike name (some (.arr (items ++ a :: more))) (some (.arr (items ++ b :: more)))

namespace FieldAlike

variable {name : String} {x y : Option Json}

theorem eq (h : FieldAlike name x y) (hchild : name ≠ "dataset_filter")
    (hdrafts : name ≠ "datasets") : x = y := by
  cases h with
  | same => rfl
  | child hname => exact absurd hname hchild
  | drafts hname => exact absurd hname hdrafts

theorem required_child (h : FieldAlike "dataset_filter" x y) :
    Json.required (Json.nullable Draft.ofJson?) x =
      Json.required (Json.nullable Draft.ofJson?) y := by
  cases h with
  | same => rfl
  | child _ ha hb h =>
    simp only [Json.required, Option.bind_some]
    rw [Json.nullable_of_ne_null ha, Json.nullable_of_ne_null hb, h]
  | drafts hname => exact absurd hname (by decide)

/-- The drafts of a request are read one by one. -/
theorem listOfJson?_eq {items more : List Json} {a b : Json}
    (h : Draft.ofJson? a = Draft.ofJson? b) :
    Draft.listOfJson? (.arr (items ++ a :: more)) =
      Draft.listOfJson? (.arr (items ++ b :: more)) := by
  have hread : Json.full Draft.read a = Json.full Draft.read b := h
  rw [Draft.listOfJson?, Json.full_readList .draft, Json.full_readList .draft]
  simp only [List.mapM_append, List.mapM_cons, hread]

theorem required_drafts (h : FieldAlike "datasets" x y) :
    Json.required Draft.listOfJson? x = Json.required Draft.listOfJson? y := by
  cases h with
  | same => rfl
  | child hname => exact absurd hname (by decide)
  | drafts _ h => exact listOfJson?_eq h

theorem required_nullable_drafts (h : FieldAlike "datasets" x y) :
    Json.required (Json.nullable Draft.listOfJson?) x =
      Json.required (Json.nullable Draft.listOfJson?) y := by
  cases h with
  | same => rfl
  | child hname => exact absurd hname (by decide)
  | drafts _ h => exact congrArg (Option.map some) (listOfJson?_eq h)

end FieldAlike

namespace Record

/-- Two values give a record fields that are read alike, or both give it none. -/
def FieldsAlike (r : Record) (a b : Json) : Prop :=
  Option.Rel (fun f g => ∀ name ∈ r.names, FieldAlike name (f name) (g name)) (r.fieldsOf a)
    (r.fieldsOf b)

variable {r : Record}

/-- Two objects give a record fields that are read alike, if both or neither of them has a field
    twice, and the members are read alike where no field comes twice. -/
theorem fieldsAlike_obj {members others : List (String × Json)}
    (hcount : ∀ name ∈ r.names, members.countP (·.1 == name) ≤ 1 ↔ others.countP (·.1 == name) ≤ 1)
    (h : ∀ name ∈ r.names, members.countP (·.1 == name) ≤ 1 →
      FieldAlike name ((members.lookup name).or (r.default? name))
        ((others.lookup name).or (r.default? name))) :
    r.FieldsAlike (.obj members) (.obj others) := by
  have hall {l : List (String × Json)} :
      (r.names.all fun name => l.countP (·.1 == name) ≤ 1) = true ↔
        ∀ name ∈ r.names, l.countP (·.1 == name) ≤ 1 := by
    simp
  unfold FieldsAlike
  by_cases hone : ∀ name ∈ r.names, members.countP (·.1 == name) ≤ 1
  · have hother : ∀ name ∈ r.names, others.countP (·.1 == name) ≤ 1 :=
      fun name hname => (hcount name hname).1 (hone name hname)
    rw [fieldsOf_obj (hall.2 hone), fieldsOf_obj (hall.2 hother)]
    exact .some fun name hname => h name hname (hone name hname)
  · have hother : ¬ ∀ name ∈ r.names, others.countP (·.1 == name) ≤ 1 :=
      fun hother => hone fun name hname => (hcount name hname).2 (hother name hname)
    have hnone {l : List (String × Json)}
        (hl : ¬ ∀ name ∈ r.names, l.countP (·.1 == name) ≤ 1) : r.fieldsOf (.obj l) = none := by
      rw [fieldsOf, Json.record, if_neg fun hl' => hl (hall.1 hl'), Option.map_none]
    rw [hnone hone, hnone hother]
    exact .none

/-- A member in the middle of an object may be replaced by one that is read alike. -/
theorem fieldsAlike_middle {key : String} {before after : List (String × Json)} {a b : Json}
    (h : FieldAlike key (some a) (some b)) :
    r.FieldsAlike (.obj (before ++ (key, a) :: after)) (.obj (before ++ (key, b) :: after)) := by
  refine fieldsAlike_obj (fun name _ => ?_) fun name _ _ => ?_
  · simp only [List.countP_append, countP_name_cons]
  · rw [lookup_middle, lookup_middle]
    cases before.lookup name with
    -- the member is not reached if one with its name stands before it
    | some value => exact .same
    | none =>
      by_cases hkey : key = name
      · subst hkey
        simpa using h
      · simpa [hkey] using .same

/-- A member that is no field makes no difference. -/
theorem fieldsAlike_unknown {key : String} {value : Json} {members : List (String × Json)}
    (h : key ∉ r.names) : r.FieldsAlike (.obj members) (.obj ((key, value) :: members)) := by
  have hne {name : String} (hname : name ∈ r.names) : key ≠ name := fun heq => h (heq ▸ hname)
  refine fieldsAlike_obj (fun name hname => ?_) fun name hname _ => ?_
  · rw [countP_name_cons, if_neg (hne hname), Nat.add_zero]
  · rw [lookup_cons_eq, if_neg (hne hname)]
    exact .same

/-- Nor does a field that holds its default. -/
theorem fieldsAlike_omitted {key : String} {value : Json} {members : List (String × Json)}
    (hdefault : r.default? key = some value) (hother : ∀ m ∈ members, m.1 ≠ key) :
    r.FieldsAlike (.obj ((key, value) :: members)) (.obj members) := by
  have hcount : members.countP (·.1 == key) = 0 :=
    List.countP_eq_zero.2 fun m hm => by simpa using hother m hm
  have hlookup : members.lookup key = none :=
    List.lookup_eq_none_iff.2 fun m hm => by simpa using Ne.symm (hother m hm)
  refine fieldsAlike_obj (fun name _ => ?_) fun name _ _ => ?_
  · rw [countP_name_cons]
    by_cases hname : key = name
    · -- the field comes once or not at all
      subst hname
      simp [hcount]
    · simp [hname]
  · rw [lookup_cons_eq]
    by_cases hname : key = name
    · -- what is missing is taken for the default, which is what was there
      subst hname
      simpa [hlookup, hdefault] using FieldAlike.same
    · simpa [hname] using FieldAlike.same

theorem nodup_names (r : Record) : r.names.Nodup := by
  cases r <;> decide

/-- The values of the fields, listed in the order of the fields, are looked up by their places. -/
theorem fieldsAlike_listed {values : List Json} (h : values.length ≤ r.names.length) :
    r.FieldsAlike (.obj (r.names.zip values)) (.arr values) := by
  have hone : r.names.all fun name => (r.names.zip values).countP (·.1 == name) ≤ 1 :=
    List.all_eq_true.2 fun name _ => decide_eq_true (countP_zip_le r.nodup_names values)
  unfold FieldsAlike
  rw [fieldsOf_obj hone, fieldsOf, Json.record, if_pos h, Option.map_some]
  refine .some fun name _ => ?_
  rw [lookup_zip h]
  exact .same

/-- What is read of the fields that a value gives a record is read of alike fields. -/
theorem FieldsAlike.bind_eq {α : Type} {a b : Json} {read : (String → Option Json) → Option α}
    (h : r.FieldsAlike a b)
    (hread : ∀ f g, (∀ name ∈ r.names, FieldAlike name (f name) (g name)) → read f = read g) :
    (r.fieldsOf a).bind read = (r.fieldsOf b).bind read := by
  unfold FieldsAlike at h
  generalize r.fieldsOf a = fields at h
  generalize r.fieldsOf b = others at h
  cases h with
  | none => rfl
  | some h => exact hread _ _ h

end Record

/-! ## What is read -/

theorem Draft.ofJson?_eq_of_fieldsAlike {a b : Json} (h : Record.draft.FieldsAlike a b) :
    ofJson? a = ofJson? b := by
  rw [ofJson?_eq, ofJson?_eq]
  refine h.bind_eq fun f g hfields => ?_
  have htype := (hfields "type" (by decide)).eq (by decide) (by decide)
  have hresources := (hfields "resources" (by decide)).eq (by decide) (by decide)
  have hchild := (hfields "dataset_filter" (by decide)).required_child
  simp only [ofFields, htype, hresources, hchild]

/-- The fields of a request that hold no drafts are read alike only if they are the same. -/
theorem RuleRequest.fields_eq_of_alike {f g : String → Option Json}
    (h : ∀ name ∈ fieldNames, FieldAlike name (f name) (g name)) :
    f "name" = g "name" ∧ f "description" = g "description" ∧ f "is_enabled" = g "is_enabled" ∧
      f "contacts" = g "contacts" ∧ f "contact_groups" = g "contact_groups" := by
  have heq {name : String} (hname : name ∈ fieldNames) (hchild : name ≠ "dataset_filter")
      (hdrafts : name ≠ "datasets") : f name = g name := (h name hname).eq hchild hdrafts
  exact ⟨heq (by decide) (by decide) (by decide), heq (by decide) (by decide) (by decide),
    heq (by decide) (by decide) (by decide), heq (by decide) (by decide) (by decide),
    heq (by decide) (by decide) (by decide)⟩

theorem RuleRequest.ofJson?_eq_of_fieldsAlike {a b : Json} (h : Record.request.FieldsAlike a b) :
    ofJson? a = ofJson? b := by
  rw [ofJson?_eq, ofJson?_eq]
  refine h.bind_eq fun f g hfields => ?_
  obtain ⟨hname, hdescription, henabled, hcontacts, hgroups⟩ := fields_eq_of_alike hfields
  have hdrafts := (hfields "datasets" (by decide)).required_drafts
  simp only [ofFields, hname, hdescription, henabled, hcontacts, hgroups, hdrafts]

theorem ChangeRequest.ofJson?_eq_of_fieldsAlike {a b : Json} (h : Record.change.FieldsAlike a b) :
    ofJson? a = ofJson? b := by
  rw [ofJson?_eq, ofJson?_eq]
  refine h.bind_eq fun f g hfields => ?_
  obtain ⟨hname, hdescription, henabled, hcontacts, hgroups⟩ :=
    RuleRequest.fields_eq_of_alike hfields
  have hdrafts := (hfields "datasets" (by decide)).required_nullable_drafts
  simp only [ofFields, hname, hdescription, henabled, hcontacts, hgroups, hdrafts]

/-- A record that is written in another way in one place has fields that are read alike. -/
theorem Rewrite.fieldsAlike {r : Record} {a b : Json} (h : Rewrite r a b) : r.FieldsAlike a b := by
  -- a draft within the record is read alike by what is shown for it
  induction h with
  | permuted h =>
    refine Record.fieldsAlike_obj (fun name _ => by rw [h.countP_eq]) fun name _ hone => ?_
    rw [lookup_eq_of_perm h hone]
    exact .same
  | unknown h => exact Record.fieldsAlike_unknown h
  | omitted _ hdefault hother => exact Record.fieldsAlike_omitted hdefault hother
  | listed _ h => exact Record.fieldsAlike_listed h
  | inChild h ih =>
    have hne := h.ne_null
    exact Record.fieldsAlike_middle (.child rfl hne.1 hne.2 (Draft.ofJson?_eq_of_fieldsAlike ih))
  | inDatasets h ih =>
    exact Record.fieldsAlike_middle (.drafts rfl (Draft.ofJson?_eq_of_fieldsAlike ih))

/-- What is read does not depend on how a record is written, if that makes no difference in one
    place. -/
theorem Record.Alike.eq_of_fieldsAlike {α : Type} {r : Record} {read : Json → α}
    (hread : ∀ a b, r.FieldsAlike a b → read a = read b) {a b : Json} (h : r.Alike a b) :
    read a = read b := by
  induction h with
  | rel a b h => exact hread a b h.fieldsAlike
  | refl a => rfl
  | symm a b _ ih => exact ih.symm
  | trans a b c _ _ hab hbc => exact hab.trans hbc

/-- The JSON forms of drafts, filters and requests. What is written is read back as it was: every
    draft, however deep, every request of either kind, and every filter, whose draft then passes all
    checks. And what is read does not depend on how a record is written: on the order of the members
    of an object, on members that are no fields, on whether fields that hold their defaults are left
    out, and on whether an object or a list of the fields is given, at any level. -/
theorem read_back_in_every_form :
    (∀ draft : Draft, Draft.ofJson? draft.toJson = some draft) ∧
    (∀ f : Filter, Filter.ofJson? f.toJson = some (.ok f)) ∧
    (∀ r : RuleRequest, RuleRequest.ofJson? r.toJson = some r) ∧
    (∀ r : ChangeRequest, ChangeRequest.ofJson? r.toJson = some r) ∧
    (∀ a b, Record.draft.Alike a b →
      Draft.ofJson? a = Draft.ofJson? b ∧ Filter.ofJson? a = Filter.ofJson? b) ∧
    (∀ a b, Record.request.Alike a b → RuleRequest.ofJson? a = RuleRequest.ofJson? b) ∧
    ∀ a b, Record.change.Alike a b → ChangeRequest.ofJson? a = ChangeRequest.ofJson? b := by
  have hdraft (a b : Json) (h : Record.draft.Alike a b) : Draft.ofJson? a = Draft.ofJson? b :=
    h.eq_of_fieldsAlike fun _ _ => Draft.ofJson?_eq_of_fieldsAlike
  refine ⟨Draft.ofJson?_toJson, Filter.ofJson?_toJson, RuleRequest.ofJson?_toJson,
    ChangeRequest.ofJson?_toJson, fun a b h => ⟨hdraft a b h, ?_⟩, fun a b h => ?_,
    fun a b h => ?_⟩
  · rw [Filter.ofJson?, Filter.ofJson?, hdraft a b h]
  · exact h.eq_of_fieldsAlike fun _ _ => RuleRequest.ofJson?_eq_of_fieldsAlike
  · exact h.eq_of_fieldsAlike fun _ _ => ChangeRequest.ofJson?_eq_of_fieldsAlike

/-- A request for a rule whose filter is given as a list: as an object that leaves four fields out
    and has a member that is none, and as a list of all fields. -/
theorem read_back_in_every_form_short :
    let request : RuleRequest := ⟨"Core", "", true, [], [], [.leaf .host [7]]⟩
    let draft : Json := .arr [.str "host", .ids [7]]
    let short : Json :=
      .obj [("note", .int 5), ("name", .str "Core"), ("datasets", .arr [draft])]
    let listed : Json := .arr [.str "Core", .str "", .bool true, .ids [], .ids [], .arr [draft]]
    Record.request.Alike request.toJson short ∧ Record.request.Alike request.toJson listed ∧
      RuleRequest.ofJson? short = some request ∧ RuleRequest.ofJson? listed = some request := by
  intro request draft short listed
  obtain ⟨_, _, hback, _, _, hrequest, _⟩ := read_back_in_every_form
  let name : String × Json := ("name", .str "Core")
  let enabled : String × Json := ("is_enabled", .bool true)
  let contacts : String × Json := ("contacts", .ids [])
  let groups : String × Json := ("contact_groups", .ids [])
  let datasets : String × Json := ("datasets", .arr [draft])
  let full : Json := .obj [name, ("description", .str ""), enabled, contacts, groups, datasets]
  have hfull : Record.request.Alike request.toJson full := by
    have hdraft : Rewrite .draft (Draft.toJson (.leaf .host [7])) draft :=
      .listed [.str "host", .ids [7]] (by decide)
    exact .rel _ _ (@Rewrite.inDatasets .request [name, _, enabled, contacts, groups] [] [] [] _ _
      hdraft)
  -- a field that is left out is moved to the front first
  have hleave (before after : List (String × Json)) (key : String) {value : Json}
      (hname : key ∈ Record.request.names) (hdefault : Record.request.default? key = some value)
      (hother : ∀ m ∈ before ++ after, m.1 ≠ key) :
      Record.request.Alike (.obj (before ++ (key, value) :: after)) (.obj (before ++ after)) :=
    .trans _ _ _ (.rel _ _ (.permuted List.perm_middle)) (.rel _ _ (.omitted hname hdefault hother))
  have hshort : Record.request.Alike full short := by
    have hdescription := hleave [name] [enabled, contacts, groups, datasets] "description"
      (by decide) rfl (by decide)
    have henabled := hleave [name] [contacts, groups, datasets] "is_enabled" (by decide) rfl
      (by decide)
    have hcontacts := hleave [name] [groups, datasets] "contacts" (by decide) rfl (by decide)
    have hgroups := hleave [name] [datasets] "contact_groups" (by decide) rfl (by decide)
    have hnote : Rewrite .request (.obj [name, datasets]) short := .unknown (by decide)
    exact .trans _ _ _ hdescription (.trans _ _ _ henabled (.trans _ _ _ hcontacts
      (.trans _ _ _ hgroups (.rel _ _ hnote))))
  have hlisted : Record.request.Alike full listed :=
    .rel _ _ (.listed [.str "Core", .str "", .bool true, .ids [], .ids [], .arr [draft]]
      (by decide))
  have halike := hfull.trans _ _ _ hshort
  have halike' := hfull.trans _ _ _ hlisted
  refine ⟨halike, halike', ?_, ?_⟩
  · rw [← hrequest _ _ halike, hback]
  · rw [← hrequest _ _ halike', hback]

end AccessScope
