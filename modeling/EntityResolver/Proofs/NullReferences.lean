import EntityResolver.Proofs.Run.Mentions

/-!
# References that are null

A null stands for no entity. A null under the key of an id, or in the place of an object, is passed
over, and a field that refers to one entity at most is then empty. The exception are the members of
lists and maps of ids: each of them counts, and of a null the text is the id.
-/

set_option autoImplicit false

namespace EntityResolver

open Run

/-- The id stands under one key. -/
def IdSpec.isElementary : IdSpec → Bool
  | .elementary _ => true
  | .composite _ => false

mutual

/-- All ids that the picker reads stand under one key each. -/
def Picker.isElementary : Picker → Bool
  | .scalar _ _ | .referenceList _ | .referenceMap _ _ => true
  | .reference id => id.isElementary
  | .inline id fields | .inlineList id fields | .nested _ _ id fields _ _ _ =>
      id.isElementary && fields.areElementary

def FieldPickers.areElementary : FieldPickers → Bool
  | .none => true
  | .field _ picker rest => picker.isElementary && rest.areElementary

end

def Citation.value? : Citation → Option Json
  | .keys (.elementary key) object => object.member? key
  | .keys (.composite _) _ => none
  | .listed value => some value

/-- The id stands in a list or map of ids. -/
def Citation.isListed : Citation → Bool
  | .listed _ => true
  | .keys _ _ => false

section Elementary

variable {schema : Schema} {path key text : String} {picker inner : Picker} {field : Field}
variable {response object : Json} {sub : Selector} {mention : Mention} {id : IdSpec}

theorem IdSpec.member_of_load_elementary
    (known : (IdSpec.elementary key).load path object = .ok (some text)) :
    ∃ value, object.member? key = some value ∧ value.isNull = false ∧ text = idText value := by
  rw [IdSpec.load, IdSpec.lookUp] at known
  cases found : object.member? key with
  | none =>
      rw [found] at known
      cases known
  | some value =>
      rw [found] at known
      refine ⟨value, rfl, ?_⟩
      by_cases isNull : value.isNull = true
      · simp [isNull] at known
      · have present : value.isNull = false := Bool.eq_false_of_not_eq_true isNull
        simp only [present, pure, Except.pure, bind, Except.bind] at known
        exact ⟨present, (Option.some.inj (Except.ok.inj known)).symm⟩

theorem IdSpec.load_of_null (null : object.member? key = some .null) :
    (IdSpec.elementary key).load path object = .ok none := by
  rw [IdSpec.load, IdSpec.lookUp, null]
  rfl

theorem FieldPickers.isElementary_of_find? {fields : FieldPickers} {name : String}
    (elementary : fields.areElementary = true) (found : fields.find? name = some picker) :
    picker.isElementary = true := by
  induction fields using FieldPickers.names.induct with
  | case1 => cases found
  | case2 other first rest inductionHypothesis =>
      obtain ⟨here, others⟩ := Bool.and_eq_true_iff.mp elementary
      rw [FieldPickers.find?] at found
      split at found
      · cases found
        exact here
      · exact inductionHypothesis others found

theorem Picker.isElementary_inside (elementary : picker.isElementary = true) :
    picker.inside.areElementary = true := by
  cases picker with
  | scalar _ _ | reference _ | referenceList _ | referenceMap _ _ => rfl
  | inline _ _ | inlineList _ _ | nested _ _ _ _ _ _ _ =>
      exact (Bool.and_eq_true_iff.mp elementary).2

theorem Picker.Visits.isElementary (visited : picker.Visits response id object)
    (elementary : picker.isElementary = true) : ∃ key, id = .elementary key := by
  have isOne : id.isElementary = true := by
    cases visited with
    | reference _ => exact elementary
    | inline _ _ | member _ _ _ _ | nested _ _ _ _ _ =>
        exact (Bool.and_eq_true_iff.mp elementary).1
  cases id with
  | elementary key => exact ⟨key, rfl⟩
  | composite _ => cases isOne

/-- What is mentioned outside of lists and maps of ids has the text of a value that is not null for
its id. -/
theorem Picker.Mentions.present_or_listed
    (mentions : picker.Mentions schema path field response sub mention)
    (elementary : picker.isElementary = true) :
    ∃ cited, mention.citation.value? = some cited ∧ (mention.citation.isListed = true ∨
      cited.isNull = false ∧ mention.id = idText cited) := by
  induction mentions with
  | item _ _ _ | member _ _ _ => exact ⟨_, rfl, .inl rfl⟩
  | described _ visited known =>
      obtain ⟨key, rfl⟩ := visited.isElementary elementary
      obtain ⟨cited, found, present, same⟩ := IdSpec.member_of_load_elementary known
      exact ⟨cited, found, .inr ⟨present, same⟩⟩
  | within _ _ _ picked _ _ inductionHypothesis =>
      have inside := isElementary_inside elementary
      exact inductionHypothesis (FieldPickers.isElementary_of_find? inside picked)

end Elementary

/-- The response has a null where the picker looks for the one entity of a field: for its id, for
the object that holds it, or for the ids of all its ancestors. -/
inductive Picker.FindsNull (response : Json) : Picker → Prop where
  | reference {key : String} (null : response.member? key = some .null) :
      FindsNull response (.reference (.elementary key))
  | inline {key : String} (null : response.member? key = some .null) (fields : FieldPickers) :
      FindsNull response (.inline (.elementary key) fields)
  | single {key : String} (null : response.member? key = some .null) (id : IdSpec)
      (fields : FieldPickers) (hasSubfields : Bool) (lifts : List (String × String))
      (unique : Bool) : FindsNull response (.nested .single key id fields hasSubfields lifts unique)
  | singleId {key idKey : String} {lifts : List (String × String)} {stored : Json}
      (found : response.member? key = some stored)
      (null : (liftInto lifts response stored).member? idKey = some .null) (fields : FieldPickers)
      (hasSubfields unique : Bool) :
      FindsNull response (.nested .single key (.elementary idKey) fields hasSubfields lifts unique)
  | ancestors {key : String} (null : response.member? key = some .null) (id : IdSpec)
      (fields : FieldPickers) (hasSubfields : Bool) (lifts : List (String × String))
      (unique : Bool) :
      FindsNull response (.nested .ancestors key id fields hasSubfields lifts unique)
  | ancestorIds {key idKey : String} {lifts : List (String × String)} {items : List Json}
      (found : response.member? key = some (.array items))
      (null : ∀ item ∈ items, (liftInto lifts response item).member? idKey = some .null)
      (fields : FieldPickers) (hasSubfields unique : Bool) :
      FindsNull response
        (.nested .ancestors key (.elementary idKey) fields hasSubfields lifts unique)

namespace Run

variable {path : String} {response stored : Json} {cls : ClassId} {sub : Selector} {id : IdSpec}

/-- A field without an entity is empty, even if it should have one. -/
theorem oneEntity_none {ε : Type} (field : Field) :
    oneEntity field (none : Option ε) = .optional none := by
  unfold oneEntity
  split
  · rename_i present
    cases present
  · rfl

theorem loadEntity_of_null (null : id.load path response = .ok none) (loadField : LoadField) :
    loadEntity path id loadField cls response sub = pure none := by
  rw [loadEntity, null]
  rfl

theorem loadAncestors_of_null {plan : ListPlan} {items : List Json}
    (null : ∀ item ∈ items, plan.id.load plan.path (liftInto plan.lifts response item) = .ok none)
    (loadField : LoadField) (nearest : Option Handle) :
    loadAncestors plan loadField response nearest items = pure nearest := by
  induction items with
  | nil => rfl
  | cons item rest inductionHypothesis =>
      obtain ⟨first, others⟩ := List.forall_mem_cons.mp null
      rw [loadAncestors, first]
      exact inductionHypothesis others

theorem loadNested_ancestors_of_null {plan : ListPlan} {items : List Json}
    (listed : itemsOf plan.path plan.key stored = .ok items)
    (null : ∀ item ∈ items, plan.id.load plan.path (liftInto plan.lifts response item) = .ok none)
    (loadField : LoadField) :
    loadNested .ancestors plan loadField response stored = pure (oneEntity plan.field none) := by
  simp only [loadNested, listed]
  change (if _ then _ else _) = _
  split
  · rw [loadAncestors_of_null null]
    rfl
  · split
    · rfl
    · rename_i last isLast
      rw [loadEntity_of_null (null last (List.mem_of_getLast? isLast))]
      rfl

end Run

namespace Picker

variable {context : RunContext} {path : String} {picker : Picker} {field : Field} {response : Json}
variable {sub : Selector}

/-- A picker that can find a null fits only fields that refer to a class. -/
theorem FindsNull.exists_target (null : picker.FindsNull response)
    (fits : picker.fits field.kind = true) (path : String) :
    ∃ cls, field.target path = .ok cls := by
  simp only [Field.target_eq_ok_iff]
  cases kind : field.kind with
  | scalar _ =>
      rw [kind] at fits
      cases null <;> cases fits
  | entity cls | optionalEntity cls | entityList cls | entityMap cls => exact ⟨cls, rfl⟩

/-- What is under the key of nested entities is read, for the class that the field refers to. -/
theorem load_nested_of_found {shape : NestedShape} {key : String} {id : IdSpec}
    {fields : FieldPickers} {hasSubfields unique : Bool} {lifts : List (String × String)}
    {stored : Json} {cls : ClassId} (found : response.member? key = some stored)
    (refers : field.target path = .ok cls) :
    (nested shape key id fields hasSubfields lifts unique).load path field response sub =
      loadNested shape { path, key, id, lifts, unique, field, cls, sub } (fields.loadField path)
        response stored := by
  rw [load, withKey, found]
  dsimp only
  rw [refers]
  rfl

/-- A field that refers to one entity at most is empty where the response has a null for it, and
nothing is spawned. -/
theorem load_of_findsNull (fits : picker.fits field.kind = true)
    (null : picker.FindsNull response) :
    picker.load path field response sub = pure (.optional none) := by
  obtain ⟨cls, refers⟩ := null.exists_target fits path
  rw [← oneEntity_none field]
  cases null with
  | reference null =>
      rw [load, refers, IdSpec.load_of_null null]
      rfl
  | inline null fields =>
      rw [load, refers]
      change (loadEntity _ _ _ _ _ _ >>= _) = _
      rw [loadEntity_of_null (IdSpec.load_of_null null)]
      rfl
  | single null _ _ _ _ _ =>
      rw [load_nested_of_found null refers]
      rfl
  | singleId found null _ _ _ =>
      rw [load_nested_of_found found refers]
      simp only [loadNested, loadEntity_of_null (IdSpec.load_of_null null), pure_bind, ite_self]
  | ancestors null _ _ _ _ _ =>
      rw [load_nested_of_found null refers]
      exact loadNested_ancestors_of_null rfl (by simp) _
  | ancestorIds found null _ _ _ =>
      rw [load_nested_of_found found refers]
      exact loadNested_ancestors_of_null rfl
        (fun item inside => IdSpec.load_of_null (null item inside)) _

/-- If all ids stand under one key each, a field that refers to one entity at most is empty where
the response has a null for it. Whatever is spawned, the entities of the value among it, is
mentioned in the response with a value that is not null, unless it is a member of a list or map of
ids. -/
theorem load_nulls (elementary : picker.isElementary = true) :
    (picker.fits field.kind = true → picker.FindsNull response →
      picker.load path field response sub = pure (.optional none)) ∧
    ∀ before value after, Yields context (picker.load path field response sub) before value after →
      ∃ added, after.origins = added ++ before.origins ∧
        (∀ entity ∈ value.entities, ∃ origin ∈ added, origin.entity = entity) ∧
        ∀ origin ∈ added, ∃ mention cited,
          picker.Mentions context.catalog.schema path field response sub mention ∧
          mention.Spawns origin ∧ mention.citation.value? = some cited ∧
          (mention.citation.isListed = true ∨ cited.isNull = false) := by
  refine ⟨load_of_findsNull, fun before value after done => ?_⟩
  obtain ⟨added, spawned, matching⟩ := (picker.traced_load field response sub done).origins
  refine ⟨added, spawned, fun entity inside => ?_, fun origin member => ?_⟩
  · obtain ⟨same, spawnedToo, origin, member, isOrigin⟩ := spawned_of_load done inside
    obtain rfl : same = added := List.append_cancel_right (spawnedToo.symm.trans spawned)
    exact ⟨origin, member, isOrigin⟩
  · obtain ⟨mention, mentions, spawns⟩ := matching origin member
    obtain ⟨cited, known, source⟩ := mentions.present_or_listed elementary
    exact ⟨mention, cited, mentions, spawns, known, source.imp_right And.left⟩

end Picker

namespace Ferries

def ferry : ClassId := ⟨0⟩

def captain : Field := ⟨"captain", ferry, .optionalEntity ⟨1⟩, false, false⟩

def ports : Field := ⟨"ports", ferry, .entityList ⟨2⟩, false, false⟩

def berths : Field := ⟨"berths", ferry, .entityMap ⟨2⟩, false, false⟩

def context : RunContext where
  catalog := Catalog.empty ⟨[]⟩
  remote := fun _ _ => .ok .null
  lang := .pl
  roundLimit := 0

/-- Nobody is the captain. The first port is not known, and nor is one of the berths. -/
def response : Json :=
  .object [("captain_id", .null), ("ports", .array [.null, .str "7"]),
    ("berths", .object [("north", .null), ("south", .object [("id", .int 7)])])]

def captainPicker : Picker := .reference (.elementary "captain_id")

def portsPicker : Picker := .referenceList "ports"

def berthsPicker : Picker := .nested .map "berths" (.elementary "id") .none true [] false

/-- The port that is not known becomes an entity with the id `null`. -/
theorem port_of_null :
    portsPicker.isElementary = true ∧ portsPicker.fits ports.kind = true ∧
    ∃ after origin mention,
      Yields context (portsPicker.load "ferries/ferry" ports response .empty) { calls := [] }
        (.list [⟨0⟩, ⟨1⟩]) after ∧
      origin ∈ after.origins ∧ origin.entity = ⟨0⟩ ∧ origin.id = "null" ∧
      portsPicker.Mentions context.catalog.schema "ferries/ferry" ports response .empty mention ∧
      mention.Spawns origin ∧ mention.citation.value? = some .null := by
  have unknown : portsPicker.Mentions context.catalog.schema "ferries/ferry" ports response .empty
      ⟨⟨2⟩, idText .null, .empty, .none, .listed .null⟩ :=
    .item rfl rfl List.mem_cons_self
  refine ⟨rfl, rfl, _, ⟨⟨0⟩, ⟨2⟩, "null", .empty, false⟩, _, rfl, ?_, rfl, rfl, unknown, ?_, rfl⟩
  · exact List.mem_cons_of_mem _ List.mem_cons_self
  · exact ⟨rfl, by decide, rfl⟩

/-- There is no captain, and of the berths only the one that is known is spawned. -/
theorem load_nulls_ferry :
    (captainPicker.isElementary = true ∧ captainPicker.fits captain.kind = true ∧
      captainPicker.FindsNull response ∧ berthsPicker.isElementary = true) ∧
    captainPicker.load "ferries/ferry" captain response .empty = pure (.optional none) ∧
    ∃ value after, Yields context (berthsPicker.load "ferries/ferry" berths response .empty)
        { calls := [] } value after ∧
      value = .map [("south", ⟨0⟩)] ∧ after.origins.map Origin.id = ["7"] ∧
      ∀ origin ∈ after.origins, ∃ mention cited,
        berthsPicker.Mentions context.catalog.schema "ferries/ferry" berths response .empty
          mention ∧
        mention.Spawns origin ∧ mention.citation.value? = some cited ∧
        (mention.citation.isListed = true ∨ cited.isNull = false) := by
  have null : captainPicker.FindsNull response := .reference rfl
  refine ⟨⟨rfl, rfl, null, rfl⟩, ?_, ?_⟩
  · obtain ⟨empty, _⟩ := @Picker.load_nulls context "ferries/ferry" captainPicker captain response
      .empty rfl
    exact empty rfl null
  · have reads : Yields context (berthsPicker.load "ferries/ferry" berths response .empty)
        { calls := [] } (.map [("south", ⟨0⟩)]) _ := rfl
    refine ⟨_, _, reads, rfl, by decide, ?_⟩
    obtain ⟨added, spawned, _, cited⟩ := (Picker.load_nulls rfl).2 _ _ _ reads
    rw [spawned, List.append_nil]
    exact cited

end Ferries

end EntityResolver
