import EntityResolver.Proofs.Run.Nesting
import EntityResolver.Proofs.Selector.Rooted
import Mathlib.Logic.Relation

/-!
# Types of selectors

A star repeats what is selected below a field for whatever class the field refers to there, and so
on. Reading a text makes sure no more than that there is such a field one level below, so that
elsewhere a repetition may select fields of classes that do not have them. A selector that was read
is well typed along all its paths exactly if what is repeated fits every class that it is repeated
for.
-/

set_option autoImplicit false

namespace EntityResolver

/-- Along every path through the selector, recursion followed, fields are fields of the class that
the path leads to, and only below those that refer to entities something is selected. -/
def Schema.Typed (schema : Schema) (cls : ClassId) (selector : Selector) : Prop :=
  ∀ inner sub, schema.Within cls selector inner sub → ∀ name deeper, (name, deeper) ∈ sub.resolved →
    ∃ field, schema.field? inner name = some field ∧ (deeper ≠ .empty → field.kind.isEntity = true)

def Schema.Repeats (schema : Schema) (name : String) : ClassId → ClassId → Prop :=
  Relation.ReflTransGen fun one other => schema.Refers one name other

/-- What is selected below a field of the class is selected for the inner class, repeated or not. -/
def Schema.Enters (schema : Schema) (cls : ClassId) (name : String) (sub : Selector)
    (inner : ClassId) : Prop :=
  ∃ first, schema.Refers cls name first ∧
    (inner = first ∨ sub.isRecursive name = true ∧ schema.Repeats name first inner)

namespace Schema

variable {schema : Schema} {id inner : ClassId} {selector sub : Selector} {name : String}

theorem Refers.isEntity (refers : schema.Refers id name inner) :
    ∃ field, schema.field? id name = some field ∧ field.kind.isEntity = true := by
  obtain ⟨field, known, target⟩ := refers
  exact ⟨field, known, by simp [FieldKind.isEntity, target]⟩

theorem Typed.next (typed : schema.Typed id selector)
    (selected : (name, sub) ∈ selector.resolved) (refers : schema.Refers id name inner) :
    schema.Typed inner sub :=
  fun last deepest inside => typed last deepest (.next selected refers inside)

theorem Typed.enter (typed : schema.Typed id selector)
    (selected : (name, sub) ∈ selector.resolved) (entered : schema.Enters id name sub inner) :
    schema.Typed inner sub := by
  obtain ⟨first, refers, entered⟩ := entered
  have typedFirst := typed.next selected refers
  rcases entered with rfl | ⟨starred, repeats⟩
  · exact typedFirst
  · induction repeats with
    | refl => exact typedFirst
    | tail _ refersOn inductionHypothesis =>
        exact inductionHypothesis.next (Selector.mem_resolved_of_isRecursive starred) refersOn

end Schema

namespace Selector

/-- What is said fits the class and, below the fields, every class that it is said for. -/
def Fits (schema : Schema) : ClassId → Selector → Prop
  | _, .empty => True
  | cls, .nested name sub rest =>
      ((∃ field, schema.field? cls name = some field ∧
          (sub ≠ .empty → field.kind.isEntity = true)) ∧
        ∀ inner, schema.Enters cls name sub inner → Fits schema inner sub) ∧
      Fits schema cls rest
  | cls, .recursive name rest => (∃ inner, schema.Refers cls name inner) ∧ Fits schema cls rest

/-- What is selected below a starred field fits every class for which it is repeated. -/
def StarsFit (schema : Schema) : ClassId → Selector → Prop
  | _, .empty => True
  | cls, .nested name sub rest =>
      (∀ first, schema.Refers cls name first → StarsFit schema first sub ∧
        (sub.isRecursive name = true →
          ∀ inner, schema.Repeats name first inner → Fits schema inner sub)) ∧
      StarsFit schema cls rest
  | cls, .recursive _ rest => StarsFit schema cls rest

def Entry.Fits (schema : Schema) (cls : ClassId) (name : String) : Entry → Prop
  | .nested sub =>
      (∃ field, schema.field? cls name = some field ∧ (sub ≠ .empty → field.kind.isEntity = true)) ∧
        ∀ inner, schema.Enters cls name sub inner → Selector.Fits schema inner sub
  | .recursive => ∃ inner, schema.Refers cls name inner

section

variable {schema : Schema} {cls : EntityClass} {id inner : ClassId} {selector sub : Selector}
  {name : String}

theorem entrywise_fits (schema : Schema) (cls : ClassId) :
    Entrywise (Entry.Fits schema cls) (Fits schema cls) where
  empty := trivial
  nested _ _ _ := Iff.rfl
  recursive _ _ := Iff.rfl

/-- A field without a star leaves nothing recursive below it. -/
theorem Rooted.of_unstarred (distinct : sub.Distinct) (rooted : Rooted (some name) sub)
    (unstarred : sub.isRecursive name = false) : Rooted none sub := by
  refine ((entrywise_rooted none).holds_iff distinct).mpr fun other entry found => ?_
  have rootedEntry := (entrywise_rooted (some name)).of_found rooted found
  cases entry with
  | nested inner => exact rootedEntry
  | recursive =>
      cases rootedEntry
      simp [isRecursive, found] at unstarred

theorem fits_of_formed (distinct : selector.Distinct) (rooted : Rooted none selector)
    (known : schema.class? id = some cls) (formed : Formed schema cls selector)
    (starsFit : StarsFit schema id selector) : Fits schema id selector := by
  induction selector generalizing id cls with
  | empty => trivial
  | recursive name rest _ => cases rooted.1
  | nested name sub rest below behind =>
      obtain ⟨⟨field, found, _, fits⟩, formedRest⟩ := formed
      obtain ⟨_, distinctSub, distinctRest⟩ := distinct
      have declared : schema.field? id name = some field := by simp [Schema.field?, known, found]
      refine ⟨⟨⟨field, declared, fun nonempty => ?_⟩, ?_⟩,
        behind distinctRest rooted.2 known formedRest starsFit.2⟩
      · obtain ⟨target, refers, _⟩ := fits nonempty
        obtain ⟨_, refersTo, _⟩ := Option.bind_eq_some_iff.mp refers
        simp [FieldKind.isEntity, refersTo]
      · rintro inner ⟨first, refers, entered⟩
        obtain ⟨fittingBelow, fittingRepeated⟩ := starsFit.1 first refers
        cases starred : sub.isRecursive name with
        | true =>
            refine fittingRepeated starred inner ?_
            rcases entered with rfl | ⟨_, repeats⟩
            · exact .refl
            · exact repeats
        | false =>
            obtain rfl : inner = first := by simpa [starred] using entered
            by_cases isEmpty : sub = .empty
            · rw [isEmpty]
              trivial
            · obtain ⟨target, refersTo, formedSub⟩ := fits isEmpty
              obtain ⟨same, declaredToo, targetOf⟩ := refers
              cases declared.symm.trans declaredToo
              rw [targetOf, Option.bind_some] at refersTo
              exact below distinctSub (rooted.1.of_unstarred distinctSub starred) refersTo formedSub
                fittingBelow

/-- What is met on a path: it fits, and where it is recursive it fits every class that it is
repeated for from there on. -/
structure Stands (schema : Schema) (cls : ClassId) (selector : Selector) : Prop where
  distinct : selector.Distinct
  fits : Fits schema cls selector
  repeated : ∃ around?, selector.Rooted around? ∧ ∀ name, around? = some name →
    selector.isRecursive name = true → ∀ inner, schema.Repeats name cls inner →
      Fits schema inner selector

theorem Stands.next (stands : Stands schema id selector)
    (selected : (name, sub) ∈ selector.resolved) (refers : schema.Refers id name inner) :
    Stands schema inner sub := by
  obtain ⟨entry, found, rfl⟩ :=
    Option.map_eq_some_iff.mp ((mem_resolved_iff stands.distinct).mp selected)
  obtain ⟨around?, rooted, repeated⟩ := stands.repeated
  have rootedEntry := (entrywise_rooted around?).of_found rooted found
  have fitsEntry := (entrywise_fits schema id).of_found stands.fits found
  cases entry with
  | nested sub =>
      refine ⟨stands.distinct.of_nested found, fitsEntry.2 inner ⟨inner, refers, .inl rfl⟩,
        some name, rootedEntry, fun same sameName starred last repeats => ?_⟩
      cases sameName
      exact fitsEntry.2 last ⟨inner, refers, .inr ⟨starred, repeats⟩⟩
  | recursive =>
      -- the field around is met again, for a class that it is repeated for
      have starred : selector.isRecursive name = true := by simp [isRecursive, found]
      have everywhere (last : ClassId) (repeats : schema.Repeats name inner last) :
          Fits schema last selector :=
        repeated name rootedEntry starred last (.head refers repeats)
      refine ⟨stands.distinct, everywhere inner .refl, around?, rooted,
        fun same around _ last repeats => ?_⟩
      cases rootedEntry.symm.trans around
      exact everywhere last repeats

theorem Stands.exists_field (stands : Stands schema id selector)
    (selected : (name, sub) ∈ selector.resolved) :
    ∃ field, schema.field? id name = some field ∧
      (sub ≠ .empty → field.kind.isEntity = true) := by
  obtain ⟨entry, found, rfl⟩ :=
    Option.map_eq_some_iff.mp ((mem_resolved_iff stands.distinct).mp selected)
  have fitsEntry := (entrywise_fits schema id).of_found stands.fits found
  cases entry with
  | nested sub => exact fitsEntry.1
  | recursive =>
      obtain ⟨inner, refers⟩ := fitsEntry
      obtain ⟨field, known, isEntity⟩ := refers.isEntity
      exact ⟨field, known, fun _ => isEntity⟩

theorem Stands.typed (stands : Stands schema id selector) : schema.Typed id selector := by
  intro inner sub inside
  induction inside with
  | here => exact fun name deeper selected => stands.exists_field selected
  | next selected refers _ inductionHypothesis =>
      exact inductionHypothesis (stands.next selected refers)

/-- The induction is on a part of the selector, since a marker leads back to the whole of it. -/
theorem fits_of_typed {whole : Selector} (typed : schema.Typed id whole)
    (part : ∀ entry ∈ selector.entries, entry ∈ whole.entries) : Fits schema id selector := by
  induction selector generalizing id whole with
  | empty => trivial
  | nested name sub rest below behind =>
      have selected : (name, sub) ∈ whole.resolved :=
        List.mem_map.mpr ⟨_, part (name, .nested sub) List.mem_cons_self, rfl⟩
      exact ⟨⟨typed id whole (.here id whole) name sub selected,
          fun inner entered => below (typed.enter selected entered) fun _ member => member⟩,
        behind typed fun entry member => part entry (List.mem_cons_of_mem _ member)⟩
  | recursive name rest behind =>
      have marked := part (name, .recursive) List.mem_cons_self
      have selected : (name, whole) ∈ whole.resolved := List.mem_map.mpr ⟨_, marked, rfl⟩
      obtain ⟨field, known, isEntity⟩ := typed id whole (.here id whole) name whole selected
      have nonempty : whole ≠ .empty := by
        rintro rfl
        cases marked
      obtain ⟨inner, refers⟩ := Option.isSome_iff_exists.mp (isEntity nonempty)
      exact ⟨⟨inner, field, known, refers⟩,
        behind typed fun entry member => part entry (List.mem_cons_of_mem _ member)⟩

theorem Fits.starsFit (fits : Fits schema id selector) : StarsFit schema id selector := by
  induction selector generalizing id with
  | empty => trivial
  | nested name sub rest below behind =>
      obtain ⟨⟨_, fitsBelow⟩, fitsBehind⟩ := fits
      refine ⟨fun first refers => ⟨?_, fun starred inner repeats => ?_⟩, behind fitsBehind⟩
      · exact below (fitsBelow first ⟨first, refers, .inl rfl⟩)
      · exact fitsBelow inner ⟨first, refers, .inr ⟨starred, repeats⟩⟩
  | recursive name rest behind => exact behind fits.2

end

/-- What was read is well typed exactly if, below every starred field, it fits all classes for which
the star repeats it. -/
theorem typed_iff_starsFit {naming : String → String} {declared : List ClassDecl} {schema : Schema}
    {id : ClassId} {cls : EntityClass} {text : String} {selector : Selector}
    (built : Schema.ofDeclsNaming naming declared = .ok schema)
    (known : schema.class? id = some cls)
    (done : parse schema cls text = .ok selector) :
    schema.Typed id selector ↔ StarsFit schema id selector := by
  have wellFormed := Schema.wellFormed_of_ofDeclsNaming built
  obtain ⟨distinct, formed⟩ := formed_of_parse wellFormed known done
  have rooted := rooted_of_parse wellFormed done
  constructor
  · exact fun typed => (fits_of_typed typed fun _ member => member).starsFit
  · intro starsFit
    have fits := fits_of_formed distinct rooted known formed starsFit
    exact Stands.typed ⟨distinct, fits, none, rooted, nofun⟩

end Selector

namespace Guides

/-- Guides and trainees are each other's deputies. A guide has a desk for a post, and a desk is
posted with a text. -/
def decls : List ClassDecl := [
  { name := "Guide"
    fields := [
      { name := "name", kind := .scalar .string, isDefault := true },
      { name := "deputy", kind := .entity "Trainee" },
      { name := "post", kind := .entity "Desk" }] },
  { name := "Trainee"
    fields := [
      { name := "name", kind := .scalar .string, isDefault := true },
      { name := "deputy", kind := .entity "Guide" }] },
  { name := "Desk", fields := [{ name := "post", kind := .scalar .string }] }]

def guide : EntityClass :=
  { id := ⟨0⟩
    name := "Guide"
    fields := [
      ⟨"name", ⟨0⟩, .scalar .string, true, false⟩,
      ⟨"deputy", ⟨0⟩, .entity ⟨1⟩, false, false⟩,
      ⟨"post", ⟨0⟩, .entity ⟨2⟩, false, false⟩]
    searchItem := none
    foundField := none
    defaultSelector := .nested "name" .empty .empty }

def trainee : EntityClass :=
  { id := ⟨1⟩
    name := "Trainee"
    fields := [
      ⟨"name", ⟨1⟩, .scalar .string, true, false⟩,
      ⟨"deputy", ⟨1⟩, .entity ⟨0⟩, false, false⟩]
    searchItem := none
    foundField := none
    defaultSelector := .nested "name" .empty .empty }

def desk : EntityClass :=
  { id := ⟨2⟩
    name := "Desk"
    fields := [⟨"post", ⟨2⟩, .scalar .string, false, false⟩]
    searchItem := none
    foundField := none
    defaultSelector := .empty }

def schema : Schema := ⟨[guide, trainee, desk]⟩

theorem ofDecls_decls : Schema.ofDecls decls = .ok schema := by
  decide +kernel

def deputy : Selector := .nested "name" .empty (.recursive "deputy" .empty)

/-- Deputies are guides or trainees, all of whom have names and deputies. -/
theorem fits_deputy {id : ClassId} (person : id = ⟨0⟩ ∨ id = ⟨1⟩) :
    Selector.Fits schema id deputy := by
  rcases person with rfl | rfl <;>
    exact ⟨⟨⟨_, rfl, nofun⟩, fun _ _ => trivial⟩, ⟨_, _, rfl, rfl⟩, trivial⟩

theorem person_of_repeats {id : ClassId} (repeats : schema.Repeats "deputy" ⟨1⟩ id) :
    id = ⟨0⟩ ∨ id = ⟨1⟩ := by
  induction repeats with
  | refl => exact .inr rfl
  | tail _ refers inductionHypothesis =>
      obtain ⟨field, known, target⟩ := refers
      rcases inductionHypothesis with rfl | rfl
      all_goals
        cases known
        cases target
      · exact .inr rfl
      · exact .inl rfl

/-- The deputies of deputies are of two classes by turns. -/
theorem typed_deputies :
    (Schema.ofDecls decls = .ok schema ∧ schema.class? ⟨0⟩ = some guide ∧
      Selector.parse schema guide "deputy*" = .ok (.single "deputy" deputy)) ∧
    schema.Typed ⟨0⟩ (.single "deputy" deputy) := by
  have known : schema.class? ⟨0⟩ = some guide := rfl
  have done : Selector.parse schema guide "deputy*" = .ok (.single "deputy" deputy) := by
    decide +kernel
  refine ⟨⟨ofDecls_decls, known, done⟩,
    (Selector.typed_iff_starsFit ofDecls_decls known done).mpr ?_⟩
  refine ⟨fun first refers => ?_, trivial⟩
  obtain ⟨field, declared, target⟩ := refers
  cases declared
  cases target
  refine ⟨(fits_deputy (.inr rfl)).starsFit, fun _ id repeats => ?_⟩
  exact fits_deputy (person_of_repeats repeats)

/-- The text on a desk is selected as if it were a desk again. -/
theorem untyped_posts :
    Schema.ofDecls decls = .ok schema ∧ schema.class? ⟨0⟩ = some guide ∧
    Selector.parse schema guide "post*" =
      .ok (.single "post" (.recursive "post" .empty)) ∧
    ¬ schema.Typed ⟨0⟩ (.single "post" (.recursive "post" .empty)) := by
  refine ⟨ofDecls_decls, rfl, by decide +kernel, fun typed => ?_⟩
  have posted : schema.Within ⟨0⟩ (.single "post" (.recursive "post" .empty)) ⟨2⟩
      (.recursive "post" .empty) :=
    .next List.mem_cons_self ⟨_, rfl, rfl⟩ (.here _ _)
  obtain ⟨field, declared, isEntity⟩ := typed _ _ posted "post" _ List.mem_cons_self
  cases declared
  cases isEntity nofun

end Guides

end EntityResolver
