import EntityResolver.Proofs.Checked
import EntityResolver.Proofs.Run.Reading

/-!
Steps that find the keys that they read.

Of all the ways in which reading a response fails, one is that the response lacks a key. A step does
not fail so if the steps that it is made of do not.
-/

set_option autoImplicit false

namespace EntityResolver

def ResolveError.lacksKey : ResolveError → Bool
  | .malformed _ (.missingKey _ _) | .malformed _ (.missingIdKey _) => true
  | _ => false

def NestedShape.objects : NestedShape → Json → List Json
  | .single, value => if value.isNull then [] else [value]
  | .list, .array items | .ancestors, .array items => items
  | .map, .object members => (members.map Prod.snd).filter fun member => !member.isNull
  | _, _ => []

namespace Run

variable {α β : Type}

/-- The step does not fail for a key that a response lacks. -/
def FindsKeys (step : Run α) : Prop :=
  ∀ context before error after, step context before = .error error after → error.lacksKey = false

theorem findsKeys_of_succeeds {step : Run α}
    (succeeds : ∀ context before, Succeeds context step before) : FindsKeys step := by
  intro context before error after failed
  obtain ⟨result, state, done⟩ := succeeds context before
  rw [Yields, failed] at done
  cases done

theorem findsKeys_pure (value : α) : FindsKeys (pure value : Run α) :=
  findsKeys_of_succeeds fun _ before => ⟨value, before, rfl⟩

theorem findsKeys_throw {error : ResolveError} (other : error.lacksKey = false) :
    FindsKeys (throw error : Run α) := by
  intro context before raised after failed
  cases failed
  exact other

theorem findsKeys_ofExcept {outcome : Except ResolveError α}
    (other : ∀ error, outcome = .error error → error.lacksKey = false) :
    FindsKeys (ofExcept outcome : Run α) := by
  cases outcome with
  | ok value => exact findsKeys_pure value
  | error error => exact findsKeys_throw (other error rfl)

theorem FindsKeys.bind {step : Run α} {next : α → Run β} (first : FindsKeys step)
    (rest : ∀ value, FindsKeys (next value)) : FindsKeys (step >>= next) := by
  intro context before error after failed
  cases outcome : step context before with
  | ok value middle =>
      rw [Yields.bind outcome] at failed
      exact rest value context middle error after failed
  | error raised middle =>
      rw [bind_of_error outcome] at failed
      cases failed
      exact first context before error after outcome

theorem findsKeys_read : FindsKeys (read : Run RunContext) :=
  findsKeys_of_succeeds fun context before => ⟨context, before, rfl⟩

theorem findsKeys_schema : FindsKeys schema :=
  findsKeys_of_succeeds fun context before => ⟨context.catalog.schema, before, rfl⟩

theorem findsKeys_spawn (cls : ClassId) (id : String) (selector : Selector) (values : FieldValues)
    (isWeak : Bool) : FindsKeys (spawn cls id selector values isWeak) :=
  findsKeys_of_succeeds fun _ before => succeeds_spawn cls id selector values isWeak before

theorem findsKeys_target (path : String) (field : Field) :
    FindsKeys (ofExcept (field.target path)) := by
  refine findsKeys_ofExcept fun error failed => ?_
  unfold Field.target at failed
  split at failed <;> cases failed
  rfl

theorem findsKeys_itemsOf (path key : String) (value : Json) :
    FindsKeys (ofExcept (itemsOf path key value)) := by
  refine findsKeys_ofExcept fun error failed => ?_
  unfold itemsOf at failed
  split at failed <;> cases failed
  rfl

theorem findsKeys_membersOf (path key : String) (value : Json) :
    FindsKeys (ofExcept (membersOf path key value)) := by
  refine findsKeys_ofExcept fun error failed => ?_
  unfold membersOf at failed
  split at failed <;> cases failed
  rfl

theorem findsKeys_spawnAll (cls : ClassId) (sub : Selector) (ids : List String) :
    FindsKeys (spawnAll cls sub ids) := by
  induction ids with
  | nil => exact findsKeys_pure _
  | cons id rest inductionHypothesis =>
      exact (findsKeys_spawn cls id sub [] false).bind fun _ =>
        inductionHypothesis.bind fun _ => findsKeys_pure _

theorem findsKeys_spawnMap (cls : ClassId) (sub : Selector) (built : OrderedMap Handle)
    (entries : List (String × String)) : FindsKeys (spawnMap cls sub built entries) := by
  induction entries generalizing built with
  | nil => exact findsKeys_pure _
  | cons entry rest inductionHypothesis =>
      exact (findsKeys_spawn cls entry.2 sub [] false).bind fun _ => inductionHypothesis _

theorem findsKeys_withKey {path key : String} {field : Field} {response : Json}
    {load : Json → Run (FieldValue Handle)} (present : (response.member? key).isSome = true)
    (finds : ∀ value, response.member? key = some value → FindsKeys (load value)) :
    FindsKeys (withKey path field key response load) := by
  unfold withKey
  cases found : response.member? key with
  | none => simp [found] at present
  | some value => exact finds value found

variable {path : String} {id : IdSpec} {loadField : LoadField} {sub : Selector} {object : Json}

theorem exists_lookUp_id {key : String} (present : (object.member? key).isSome = true) :
    ∃ value, IdSpec.lookUp path object key = .ok value := by
  obtain ⟨value, found⟩ := Option.isSome_iff_exists.mp present
  exact ⟨value, by rw [IdSpec.lookUp, found]⟩

theorem exists_lookUpTexts {keys : List String}
    (present : ∀ key ∈ keys, (object.member? key).isSome = true) :
    ∃ texts, IdSpec.lookUpTexts path object keys = .ok texts := by
  induction keys with
  | nil => exact ⟨[], rfl⟩
  | cons key rest inductionHypothesis =>
      obtain ⟨value, found⟩ : ∃ value, IdSpec.lookUp path object key = .ok value :=
        exists_lookUp_id (present key List.mem_cons_self)
      obtain ⟨texts, others⟩ := inductionHypothesis fun key member =>
        present key (List.mem_cons_of_mem _ member)
      exact ⟨_, bind_eq_ok_iff.mpr ⟨value, found, bind_eq_ok_iff.mpr ⟨texts, others, rfl⟩⟩⟩

theorem findsKeys_id (present : ∀ key ∈ id.keys, (object.member? key).isSome = true) :
    FindsKeys (ofExcept (id.load path object)) := by
  have loaded : ∃ id?, id.load path object = .ok id? := by
    cases id with
    | elementary key =>
        obtain ⟨value, found⟩ : ∃ value, IdSpec.lookUp path object key = .ok value :=
          exists_lookUp_id (present key List.mem_cons_self)
        exact ⟨_, bind_eq_ok_iff.mpr ⟨value, found, rfl⟩⟩
    | composite keys =>
        obtain ⟨texts, found⟩ : ∃ texts, IdSpec.lookUpTexts path object keys = .ok texts :=
          exists_lookUpTexts present
        exact ⟨_, bind_eq_ok_iff.mpr ⟨texts, found, rfl⟩⟩
  obtain ⟨id?, loaded⟩ := loaded
  rw [loaded]
  exact findsKeys_pure id?

/-- The keys of the id are there, and those of the selected fields. -/
def Readable (id : IdSpec) (loadField : LoadField) (sub : Selector) (object : Json) : Prop :=
  (∀ key ∈ id.keys, (object.member? key).isSome = true) ∧
    ∀ entry ∈ sub.resolved, ∀ cls, FindsKeys (loadField cls object entry.1 entry.2)

theorem findsKeys_loadValues {cls : ClassId}
    (finds : ∀ entry ∈ sub.resolved, FindsKeys (loadField cls object entry.1 entry.2)) :
    FindsKeys (loadValues loadField cls object sub) := by
  unfold loadValues
  generalize sub.resolved = entries at finds
  induction entries with
  | nil => exact findsKeys_pure _
  | cons entry rest inductionHypothesis =>
      refine (finds entry List.mem_cons_self).bind fun _ => ?_
      have behind := inductionHypothesis fun entry member =>
        finds entry (List.mem_cons_of_mem _ member)
      exact behind.bind fun _ => findsKeys_pure _

theorem Readable.loadEntity (readable : Readable id loadField sub object) (cls : ClassId) :
    FindsKeys (loadEntity path id loadField cls object sub) := by
  refine (findsKeys_id readable.1).bind fun id? => ?_
  cases id? with
  | none => exact findsKeys_pure _
  | some id =>
      refine (findsKeys_loadValues fun entry member => readable.2 entry member cls).bind
        fun values => ?_
      exact (findsKeys_spawn cls id sub values false).bind fun _ => findsKeys_pure _

theorem findsKeys_loadMembers {loadOne : Json → Run (Option Handle)}
    {members : List (String × Json)}
    (finds : ∀ member ∈ members, member.2.isNull = false → FindsKeys (loadOne member.2)) :
    FindsKeys (loadMembers loadOne members) := by
  induction members with
  | nil => exact findsKeys_pure _
  | cons member rest inductionHypothesis =>
      obtain ⟨key, item⟩ := member
      have here : FindsKeys (loadPresent loadOne item) := by
        unfold loadPresent
        split
        · exact findsKeys_pure _
        · rename_i present
          exact finds (key, item) List.mem_cons_self (by simpa using present)
      rw [loadMembers_cons]
      refine here.bind fun _ => ?_
      exact (inductionHypothesis fun member listed =>
        finds member (List.mem_cons_of_mem _ listed)).bind fun _ => findsKeys_pure _

theorem findsKeys_loadItems {plan : ListPlan} {below : Json → Run (List Handle)} {around : Json}
    {seen : List String} {items : List Json}
    (unstarred : plan.sub.isRecursive plan.field.name = false)
    (readable : ∀ item ∈ items,
      Readable plan.id loadField plan.sub (liftInto plan.lifts around item)) :
    FindsKeys (loadItems plan loadField below around seen items) := by
  induction items generalizing seen with
  | nil => exact findsKeys_pure _
  | cons item rest inductionHypothesis =>
      have further (seen : List String) :
          FindsKeys (loadItems plan loadField below around seen rest) :=
        inductionHypothesis fun item member => readable item (List.mem_cons_of_mem _ member)
      obtain ⟨present, finds⟩ := readable item List.mem_cons_self
      unfold loadItems
      refine (findsKeys_id present).bind fun id? => ?_
      cases id? with
      | none => exact further seen
      | some id =>
          dsimp only
          split
          · exact further seen
          · refine (findsKeys_loadValues fun entry member => finds entry member plan.cls).bind
              fun values => ?_
            simp only [unstarred, Bool.false_and, Bool.false_eq_true, if_false]
            refine (findsKeys_pure values).bind fun values => ?_
            exact (findsKeys_spawn plan.cls id plan.sub values false).bind fun _ =>
              (further _).bind fun _ => findsKeys_pure _

theorem findsKeys_loadList {plan : ListPlan} {depth : Nat} {around value : Json}
    (unstarred : plan.sub.isRecursive plan.field.name = false)
    (found : around.member? plan.key = some value)
    (readable : ∀ item ∈ NestedShape.list.objects value,
      Readable plan.id loadField plan.sub (liftInto plan.lifts around item)) :
    FindsKeys (loadList plan loadField depth around) := by
  cases depth with
  | zero => exact findsKeys_throw rfl
  | succ depth =>
      unfold loadList
      rw [found]
      cases value with
      | array items => exact findsKeys_loadItems unstarred readable
      | null => exact findsKeys_pure []
      | _ => exact findsKeys_throw rfl

/-- Nested entities are read if all their objects can be. -/
theorem findsKeys_loadNested {shape : NestedShape} {plan : ListPlan} {around value : Json}
    (flat : shape ≠ .ancestors) (unstarred : plan.sub.isRecursive plan.field.name = false)
    (found : around.member? plan.key = some value)
    (readable : ∀ item ∈ shape.objects value,
      Readable plan.id loadField plan.sub (liftInto plan.lifts around item)) :
    FindsKeys (loadNested shape plan loadField around value) := by
  cases shape with
  | single =>
      unfold loadNested
      dsimp only
      split
      · exact findsKeys_pure _
      · rename_i present
        have only := readable value (by simp [NestedShape.objects, present])
        exact (only.loadEntity plan.cls).bind fun _ => findsKeys_pure _
  | list => exact (findsKeys_loadList unstarred found readable).bind fun _ => findsKeys_pure _
  | map =>
      refine (?_ : FindsKeys (ofExcept (membersOf plan.path plan.key value) >>= _))
      cases value with
      | object members =>
          refine (findsKeys_loadMembers fun member listed present => ?_).bind fun _ =>
            findsKeys_pure _
          have one := readable member.2 (List.mem_filter.mpr
            ⟨List.mem_map.mpr ⟨member, listed, rfl⟩, by simpa using present⟩)
          exact one.loadEntity plan.cls
      | null => exact findsKeys_pure _
      | _ => exact findsKeys_throw rfl
  | ancestors => exact absurd rfl flat

end Run

end EntityResolver
