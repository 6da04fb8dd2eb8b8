import EntityResolver.Proofs.Catalog.Requests
import EntityResolver.Proofs.Run.Keys
import EntityResolver.Proofs.Run.Lifting
import EntityResolver.Schema.Build

/-!
# Requests cover what is read

A response that holds all that was asked for, at every object that is read, is read without a key
missing: everything is asked for where it is read, also where it is lifted from the object around or
shared by several pickers. Only what is lifted to nested objects has to be told from ids, and
nothing else may be lifted to the same place.
-/

set_option autoImplicit false

namespace EntityResolver

open Run

def Json.isObject : Json → Bool
  | .object _ => true
  | _ => false

namespace NestedShape

/-- The value is of the sort that nested objects are read from. -/
def suits : NestedShape → Json → Bool
  | .single, .object _ | .list, .array _ | .map, .object _ | .ancestors, .array _ => true
  | _, _ => false

/-- The value is null, or an object or a collection of objects as is expected. -/
def Holds (shape : NestedShape) (value : Json) : Prop :=
  value.isNull = true ∨
    shape.suits value = true ∧ ∀ item ∈ shape.objects value, item.isObject = true

instance (shape : NestedShape) (value : Json) : Decidable (shape.Holds value) :=
  inferInstanceAs (Decidable (_ ∨ _))

theorem Holds.isObject {shape : NestedShape} {value item : Json} (holds : shape.Holds value)
    (member : item ∈ shape.objects value) : ∃ members, item = .object members := by
  rcases holds with isNull | ⟨_, objects⟩
  · cases value <;> cases isNull
    cases shape <;> cases member
  · have isObject := objects item member
    cases item <;> cases isObject
    exact ⟨_, rfl⟩

end NestedShape

def Provides (asked : Selector) (object : Json) : Prop :=
  ∀ key ∈ asked.names, (object.member? key).isSome = true

instance (asked : Selector) (object : Json) : Decidable (Provides asked object) :=
  inferInstanceAs (Decidable (∀ key ∈ asked.names, _))

/-- What was asked for of an object with values lifted from the one around it: where a value was
lifted, what was asked for of that value. -/
def liftAsked (asked : Selector) (around : Json) : List (String × String) → Selector → Selector
  | [], nested => nested
  | (source, lifted) :: rest, nested =>
      liftAsked asked around rest
        (if (around.member? source).isSome then nested.insert lifted (asked.under source)
          else nested)

mutual

/-- What was asked for is there at all objects inside the one around a field. -/
def Picker.Answered : Picker → Selector → Selector → Json → Prop
  | .inline _ fields, sub, asked, object =>
      ∀ entry ∈ sub.resolved, fields.FieldAnswered entry.1 entry.2 asked object
  | .nested shape key _ fields _ lifts _, sub, asked, object =>
      ∀ value ∈ object.member? key, shape.Holds value ∧
        ∀ item ∈ shape.objects value, Provides (asked.under key) item ∧
          ∀ entry ∈ sub.resolved, fields.FieldAnswered entry.1 entry.2
            (liftAsked asked object lifts (asked.under key)) (liftInto lifts object item)
  | _, _, _, _ => True

def FieldPickers.FieldAnswered : FieldPickers → String → Selector → Selector → Json → Prop
  | .none, _, _, _, _ => True
  | .field name picker rest, wanted, sub, asked, object =>
      if name = wanted then picker.Answered sub asked object
      else rest.FieldAnswered wanted sub asked object

end

/-- At all objects that are read for the selected fields, the response has what was asked for. -/
def FieldPickers.Answered (fields : FieldPickers) (selector asked : Selector) (response : Json) :
    Prop :=
  Provides asked response ∧
    ∀ entry ∈ selector.resolved, fields.FieldAnswered entry.1 entry.2 asked response

mutual

def Picker.decideAnswered : (picker : Picker) → (sub asked : Selector) → (object : Json) →
    Decidable (picker.Answered sub asked object)
  | .inline _ fields, sub, _, _ =>
      have := fun entry : String × Selector => fields.decideFieldAnswered entry.1 entry.2
      inferInstanceAs (Decidable (∀ entry ∈ sub.resolved, _))
  | .nested _ key _ fields _ _ _, _, _, object =>
      have := fun entry : String × Selector => fields.decideFieldAnswered entry.1 entry.2
      inferInstanceAs (Decidable (∀ value ∈ object.member? key, _ ∧ ∀ item ∈ _, _ ∧ ∀ entry ∈ _, _))
  | .scalar _ _, _, _, _ | .reference _, _, _, _ | .referenceList _, _, _, _
  | .referenceMap _ _, _, _, _ | .inlineList _ _, _, _, _ => .isTrue trivial

def FieldPickers.decideFieldAnswered : (fields : FieldPickers) → (name : String) →
    (sub asked : Selector) → (object : Json) →
    Decidable (fields.FieldAnswered name sub asked object)
  | .none, _, _, _, _ => .isTrue trivial
  | .field name picker rest, wanted, sub, asked, object =>
      have := picker.decideAnswered sub asked object
      have := rest.decideFieldAnswered wanted sub asked object
      inferInstanceAs (Decidable (if name = wanted then _ else _))

end

instance (fields : FieldPickers) (selector asked : Selector) (response : Json) :
    Decidable (fields.Answered selector asked response) :=
  have := fun entry : String × Selector => fields.decideFieldAnswered entry.1 entry.2
  inferInstanceAs (Decidable (_ ∧ ∀ entry ∈ selector.resolved, _))

section Lifted

variable {asked nested : Selector} {around : Json} {lifts : List (String × String)}
  {members : List (String × Json)} {key head : String} {path : List String} {value : Json}

theorem provides_lifted (provided : Provides nested (.object members)) :
    Provides (liftAsked asked around lifts nested) (liftInto lifts around (.object members)) := by
  induction lifts generalizing nested members with
  | nil => exact provided
  | cons lift rest inductionHypothesis =>
      obtain ⟨source, lifted⟩ := lift
      rw [liftAsked, liftInto_cons]
      cases found : around.member? source with
      | none => exact inductionHypothesis provided
      | some value =>
          refine inductionHypothesis fun key listed => ?_
          rw [if_pos (by rfl), Selector.mem_names_insert_iff] at listed
          change (OrderedMap.get? (Json.setMember lifted value members) key).isSome = true
          rw [Json.get?_setMember]
          split
          · rfl
          · rename_i differs
            rcases listed with same | listed
            · exact absurd same.symm differs
            · exact provided key listed

theorem asks_liftAsked_of_unlifted (unlifted : ∀ lift ∈ lifts, lift.2 ≠ head)
    (asks : nested.Asks (head :: path)) :
    (liftAsked asked around lifts nested).Asks (head :: path) := by
  induction lifts generalizing nested with
  | nil => exact asks
  | cons lift rest inductionHypothesis =>
      obtain ⟨source, lifted⟩ := lift
      refine inductionHypothesis
        (fun lift member => unlifted lift (List.mem_cons_of_mem _ member)) ?_
      split
      · have differs : lifted ≠ head := unlifted (source, lifted) List.mem_cons_self
        exact Selector.asks_insertEntry_iff.mpr (by rwa [if_neg differs])
      · exact asks

theorem mem_names_liftAsked (listed : key ∈ nested.names) :
    key ∈ (liftAsked asked around lifts nested).names := by
  induction lifts generalizing nested with
  | nil => exact listed
  | cons lift rest inductionHypothesis =>
      refine inductionHypothesis ?_
      split
      · exact Selector.mem_names_insert_iff.mpr (.inr listed)
      · exact listed

theorem asks_liftAsked_of_lifted {lift : String × String}
    (found : (lifts.find? fun lift => lift.2 == head) = some lift)
    (present : (around.member? lift.1).isSome = true)
    (single : path ≠ [] → (lifts.map Prod.snd).count head ≤ 1)
    (asks : (asked.under lift.1).Asks path) :
    (liftAsked asked around lifts nested).Asks (head :: path) := by
  induction lifts generalizing nested with
  | nil => cases found
  | cons first rest inductionHypothesis =>
      obtain ⟨source, lifted⟩ := first
      by_cases same : lifted = head
      · subst same
        rw [List.find?_cons_of_pos (by simp)] at found
        cases found
        unfold liftAsked
        rw [if_pos present]
        by_cases short : path = []
        · subst short
          exact ⟨mem_names_liftAsked (Selector.mem_names_insert_iff.mpr (.inl rfl)), trivial⟩
        · -- nothing that is lifted later takes the place of this value
          refine asks_liftAsked_of_unlifted (fun other member named => ?_) ?_
          · have once := single short
            have again : 0 < (rest.map Prod.snd).count lifted :=
              List.count_pos_iff.mpr (List.mem_map.mpr ⟨other, member, named⟩)
            simp only [List.map_cons, List.count_cons_self] at once
            omega
          · exact Selector.asks_insertEntry_iff.mpr (by rwa [if_pos rfl])
      · rw [List.find?_cons_of_neg (by simpa using same)] at found
        refine inductionHypothesis found fun long => ?_
        have once := single long
        rwa [List.map_cons, List.count_cons_of_ne same] at once

/-- What is needed of an object with lifted values is asked for of it, if it is where it stands. -/
theorem asks_liftAsked {needs : List String → Prop} (provided : Provides asked around)
    (single : ∀ head next path, needs (head :: next :: path) →
      (lifts.map Prod.snd).count head ≤ 1)
    (asks : ∀ inner, needs inner → asked.Asks (outside key lifts inner)) (needed : needs path) :
    (liftAsked asked around lifts (asked.under key)).Asks path := by
  cases path with
  | nil => trivial
  | cons head path =>
      have asksOutside := asks _ needed
      cases found : lifts.find? fun lift => lift.2 == head with
      | none =>
          simp only [outside, found] at asksOutside
          have unlifted : ∀ lift ∈ lifts, lift.2 ≠ head := by
            simpa using List.find?_eq_none.mp found
          exact asks_liftAsked_of_unlifted unlifted asksOutside.2
      | some lift =>
          simp only [outside, found] at asksOutside
          refine asks_liftAsked_of_lifted found (provided lift.1 asksOutside.1) (fun long => ?_)
            asksOutside.2
          obtain ⟨next, further, rfl⟩ := List.exists_cons_of_ne_nil long
          exact single head next further needed

end Lifted

section Pickers

variable {asked sub : Selector} {object : Json}

theorem Provides.isSome_of_asks {key : String} {path : List String}
    (provided : Provides asked object) (asks : asked.Asks (key :: path)) :
    (object.member? key).isSome = true :=
  provided key asks.1

mutual

theorem Picker.findsKeys_load : (picker : Picker) → (sub asked : Selector) → (object : Json) →
    picker.isKeyed = true → picker.Throughout Separate → sub.RecursionFree →
    Provides asked object → (∀ path, picker.Needs sub path → asked.Asks path) →
    picker.Answered sub asked object → (path : String) → (field : Field) →
    FindsKeys (picker.load path field object sub)
  | .scalar rule key, _, _, _, _, _, _, provided, asks, _, path, field => by
      refine findsKeys_withKey (provided.isSome_of_asks (asks [key] rfl)) fun value _ => ?_
      refine findsKeys_read.bind fun context => ?_
      split
      · exact findsKeys_pure _
      · exact findsKeys_throw rfl
  | .reference id, sub, _, _, _, _, _, provided, asks, _, path, field => by
      refine (findsKeys_target path field).bind fun cls => ?_
      have present : ∀ key ∈ id.keys, _ := fun key listed =>
        provided.isSome_of_asks (asks [key] ⟨key, listed, rfl⟩)
      refine (findsKeys_id present).bind fun id? => ?_
      cases id? with
      | none => exact findsKeys_pure _
      | some id => exact (findsKeys_spawn cls id sub [] false).bind fun _ => findsKeys_pure _
  | .referenceList key, sub, _, _, _, _, _, provided, asks, _, path, field => by
      refine findsKeys_withKey (provided.isSome_of_asks (asks [key] rfl)) fun value _ => ?_
      refine (findsKeys_target path field).bind fun cls => ?_
      refine (findsKeys_itemsOf path key value).bind fun items => ?_
      exact (findsKeys_spawnAll cls sub _).bind fun _ => findsKeys_pure _
  | .referenceMap key flipped, sub, _, _, _, _, _, provided, asks, _, path, field => by
      refine findsKeys_withKey (provided.isSome_of_asks (asks [key] rfl)) fun value _ => ?_
      refine (findsKeys_target path field).bind fun cls => ?_
      refine (findsKeys_membersOf path key value).bind fun members => ?_
      exact (findsKeys_spawnMap cls sub [] _).bind fun _ => findsKeys_pure _
  | .inline id fields, sub, asked, object, keyed, inside, free, provided, asks, answered, path,
      field => by
      refine (findsKeys_target path field).bind fun cls => ?_
      have readable : Readable id (fields.loadField path) sub object := by
        refine ⟨fun key listed => ?_, fun entry selected cls => ?_⟩
        · exact provided.isSome_of_asks (asks [key] (.inr ⟨key, listed, rfl⟩))
        · exact fields.findsKeys_loadField entry.1 entry.2 asked object keyed
            (Picker.throughout_iff.mp inside).2 (free.of_resolved selected) provided
            (fun path needed => asks path (.inl ⟨entry, selected, needed⟩))
            (answered entry selected) path cls
      exact (readable.loadEntity cls).bind fun _ => findsKeys_pure _
  | .inlineList _ _, _, _, _, keyed, _, _, _, _, _, _, _ => by cases keyed
  | .nested shape key id fields hasSubfields lifts unique, sub, asked, object, keyed, inside, free,
      provided, asks, answered, path, field => by
      simp only [Picker.isKeyed, Bool.and_eq_true, bne_iff_ne] at keyed
      obtain ⟨⟨flat, _⟩, keyedFields⟩ := keyed
      replace inside := Picker.throughout_iff.mp inside
      have present := provided.isSome_of_asks (asks [key] (.inl rfl))
      refine findsKeys_withKey present fun value found => ?_
      refine (findsKeys_target path field).bind fun cls => ?_
      obtain ⟨holds, answeredItems⟩ := answered value found
      have unstarred := free.isRecursive_eq_false field.name
      refine findsKeys_loadNested flat unstarred found fun item member => ?_
      obtain ⟨members, rfl⟩ := holds.isObject member
      obtain ⟨providedItem, answeredFields⟩ := answeredItems _ member
      have providedHere : Provides (liftAsked asked object lifts (asked.under key))
          (liftInto lifts object (.object members)) := provides_lifted providedItem
      -- what is needed of the item is asked for of it, with what is lifted
      have asksHere : ∀ inner,
          ((∃ entry ∈ sub.resolved, fields.FieldNeeds entry.1 entry.2 inner) ∨
            ∃ key ∈ id.keys, inner = [key]) →
          (liftAsked asked object lifts (asked.under key)).Asks inner := by
        intro inner
        refine asks_liftAsked provided (fun head next further needed => inside.1.2 head ?_)
          fun inner needed => asks _ (.inr ⟨inner, needed, rfl⟩)
        rcases needed with ⟨entry, _, needed⟩ | ⟨_, _, same⟩
        · exact fields.mem_carriers_of_needs needed
        · cases same
      refine ⟨fun key listed => ?_, fun entry selected cls => ?_⟩
      · exact providedHere.isSome_of_asks (asksHere [key] (.inr ⟨key, listed, rfl⟩))
      · exact fields.findsKeys_loadField entry.1 entry.2 _ _ keyedFields inside.2
          (free.of_resolved selected) providedHere
          (fun path needed => asksHere path (.inl ⟨entry, selected, needed⟩))
          (answeredFields entry selected) path cls

theorem FieldPickers.findsKeys_loadField : (fields : FieldPickers) → (name : String) →
    (sub asked : Selector) → (object : Json) → fields.areKeyed = true → fields.Throughout Separate →
    sub.RecursionFree → Provides asked object →
    (∀ path, fields.FieldNeeds name sub path → asked.Asks path) →
    fields.FieldAnswered name sub asked object → (path : String) → (cls : ClassId) →
    FindsKeys (fields.loadField path cls object name sub)
  | .none, _, _, _, _, _, _, _, _, _, _, _, _ => findsKeys_pure _
  | .field name picker rest, wanted, sub, asked, object, keyed, inside, free, provided, asks,
      answered, path, cls => by
      simp only [FieldPickers.areKeyed, Bool.and_eq_true] at keyed
      rw [FieldPickers.throughout_field_iff] at inside
      unfold FieldPickers.loadField
      unfold FieldPickers.FieldAnswered at answered
      by_cases same : name = wanted
      · rw [if_pos same] at answered ⊢
        refine findsKeys_schema.bind fun schema => ?_
        split
        · exact findsKeys_throw rfl
        · rename_i field _
          refine (picker.findsKeys_load sub asked object keyed.1 inside.1 free provided ?_ answered
            path field).bind fun _ => findsKeys_pure _
          exact fun path needed => asks path (by simpa [FieldPickers.FieldNeeds, same] using needed)
      · rw [if_neg same] at answered ⊢
        refine rest.findsKeys_loadField wanted sub asked object keyed.2 inside.2 free provided ?_
          answered path cls
        exact fun path needed => asks path (by simpa [FieldPickers.FieldNeeds, same] using needed)

end

/-- Of a response with all keys that were asked for, at every object that is read, no key is
missing. This is so if nested objects have keys of their own and what is lifted to where more is
read is no id, nor one of several values lifted there. -/
theorem FieldPickers.findsKeys_of_answered {fields : FieldPickers} {selector : Selector}
    {response : Json} (keyed : fields.areKeyed = true) (nested : fields.Everywhere NestedApart)
    (lifted : fields.Everywhere LiftedApart) (free : selector.RecursionFree)
    (answered : fields.Answered selector (fields.request selector .empty) response) (path : String)
    (cls : ClassId) : FindsKeys (fields.load path cls response selector) := by
  have separate := FieldPickers.separate_everywhere nested lifted
  refine findsKeys_loadValues fun entry selected => ?_
  refine fields.findsKeys_loadField entry.1 entry.2 (fields.request selector .empty) response keyed
    separate.2 (free.of_resolved selected) answered.1 (fun path needed => ?_)
    (answered.2 entry selected) path cls
  exact FieldPickers.asks_request keyed separate free ⟨entry, selected, needed⟩

end Pickers

namespace Courses

/-- A course has groups, and its coordinator stands in for the lecturer of every group. -/
def pickers : FieldPickers :=
  .ofList [
    ("name", .scalar .raw "name"),
    ("term", .inline (.elementary "term_id") (.ofList [("name", .scalar .raw "term_name")])),
    ("groups", .nested .list "groups" (.composite ["course_id", "number"])
      (.ofList [
        ("course", .reference (.elementary "course_id")),
        ("lecturer", .nested .single "lecturer" (.elementary "id")
          (.ofList [("name", .scalar .raw "name")]) true [] false)])
      true [("course_id", "course_id"), ("coordinator", "lecturer")] false)]

def selector : Selector :=
  .nested "groups"
    (.nested "course" .empty (.nested "lecturer" (.nested "name" .empty .empty) .empty))
    (.nested "term" (.nested "name" .empty .empty) .empty)

def response : Json :=
  .object [
    ("coordinator", .object [("id", .int 7), ("name", .str "Ann")]),
    ("course_id", .str "C1"),
    ("groups", .array [.object [("number", .int 1)], .object [("number", .int 2)]]),
    ("term_id", .str "2024"),
    ("term_name", .str "Summer")]

/-- The coordinator is asked for in the place of lecturers. -/
example : (pickers.request selector .empty).render =
    "course_id|coordinator[name|id]|groups[number]|term_name|term_id" := by decide +kernel

/-- The lecturers of groups are read out of the coordinator, with all keys that this takes. -/
theorem findsKeys_groups :
    (pickers.areKeyed = true ∧ pickers.Everywhere NestedApart ∧ pickers.Everywhere LiftedApart ∧
      selector.RecursionFree ∧
      pickers.Answered selector (pickers.request selector .empty) response) ∧
    FindsKeys (pickers.load "courses/course" ⟨0⟩ response selector) := by
  have keyed : pickers.areKeyed = true := by decide +kernel
  have nested : pickers.Everywhere NestedApart := by decide +kernel
  have lifted : pickers.Everywhere LiftedApart := by decide +kernel
  have free : selector.RecursionFree := by simp [selector, Selector.RecursionFree]
  have answered : pickers.Answered selector (pickers.request selector .empty) response := by
    decide +kernel
  exact ⟨⟨keyed, nested, lifted, free, answered⟩,
    FieldPickers.findsKeys_of_answered keyed nested lifted free answered _ _⟩

def decls : List ClassDecl := [
  { name := "Course"
    fields := [
      { name := "groups", kind := .entityList "Group" },
      { name := "coordinator", kind := .entity "User" }] },
  { name := "Group", fields := [{ name := "lecturer", kind := .entity "User" }] },
  { name := "User", fields := [{ name := "name", kind := .scalar .string }] }]

def schema : Schema := ⟨[
  { id := ⟨0⟩
    name := "Course"
    fields := [
      ⟨"groups", ⟨0⟩, .entityList ⟨1⟩, false, false⟩,
      ⟨"coordinator", ⟨0⟩, .entity ⟨2⟩, false, false⟩]
    searchItem := none
    foundField := none
    defaultSelector := .empty },
  { id := ⟨1⟩
    name := "Group"
    fields := [⟨"lecturer", ⟨1⟩, .entity ⟨2⟩, false, false⟩]
    searchItem := none
    foundField := none
    defaultSelector := .empty },
  { id := ⟨2⟩
    name := "User"
    fields := [⟨"name", ⟨2⟩, .scalar .string, false, false⟩]
    searchItem := none
    foundField := none
    defaultSelector := .empty }]⟩

def context : RunContext where
  catalog := .empty schema
  remote := fun _ _ => .ok .null
  lang := .pl
  roundLimit := 0

def groups (lifts : List (String × String)) : Picker :=
  .nested .list "groups" (.elementary "number")
    (.ofList [
      ("lecturer", .nested .single "lecturer" (.elementary "id")
        (.ofList [("name", .scalar .raw "name")]) true [] false)])
    true lifts false

/-- The response answers the request for the selected fields, but is not read without a key
missing. -/
def Misses (fields : FieldPickers) (selector : Selector) (response : Json) : Prop :=
  fields.check schema "courses/course" ⟨0⟩ = .ok () ∧ fields.areKeyed = true ∧
    fields.Everywhere NestedApart ∧ selector.RecursionFree ∧
    fields.Answered selector (fields.request selector .empty) response ∧
    ¬ FindsKeys (fields.load "courses/course" ⟨0⟩ response selector)

def lecturers (rest : Selector) : Selector :=
  .nested "groups" (.nested "lecturer" (.nested "name" .empty .empty) .empty) rest

/-- The coordinator is also read as an entity known by its id. -/
def coordinated : FieldPickers :=
  .ofList [
    ("groups", groups [("coordinator", "lecturer")]),
    ("coordinator", .reference (.elementary "coordinator"))]

/-- A deputy is lifted to the same place as the coordinator. -/
def deputised : FieldPickers :=
  .ofList [("groups", groups [("coordinator", "lecturer"), ("deputy", "lecturer")])]

theorem misses_of_failure {fields : FieldPickers} {selector : Selector} {response : Json}
    {key name : String} {after : RunState}
    (fits : fields.check schema "courses/course" ⟨0⟩ = .ok () ∧ fields.areKeyed = true ∧
      fields.Everywhere NestedApart)
    (free : selector.RecursionFree)
    (answered : fields.Answered selector (fields.request selector .empty) response)
    (failed : fields.load "courses/course" ⟨0⟩ response selector context {} =
      .error (.malformed "courses/course" (.missingKey key name)) after) :
    Misses fields selector response :=
  ⟨fits.1, fits.2.1, fits.2.2, free, answered, fun finds => nomatch finds context {} _ after failed⟩

/-- That the coordinator is an id drops what was asked for of the lecturer, and what is lifted last
is not what was asked for. -/
theorem misses_lecturers :
    Schema.ofDecls decls = .ok schema ∧
    Misses coordinated (lecturers (.nested "coordinator" .empty .empty))
      (.object [
        ("coordinator", .object [("id", .int 7)]),
        ("groups", .array [.object [("number", .int 1)]])]) ∧
    Misses deputised (lecturers .empty)
      (.object [
        ("coordinator", .object [("id", .int 7), ("name", .str "Ann")]),
        ("deputy", .object [("id", .int 8)]),
        ("groups", .array [.object [("number", .int 1)]])]) := by
  refine ⟨by decide +kernel, ?_, ?_⟩
  · refine misses_of_failure (by decide +kernel) ?_ (by decide +kernel) rfl
    simp [lecturers, Selector.RecursionFree]
  · refine misses_of_failure (by decide +kernel) ?_ (by decide +kernel) rfl
    simp [lecturers, Selector.RecursionFree]

end Courses

end EntityResolver
