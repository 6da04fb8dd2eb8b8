import EntityResolver.Proofs.Database
import EntityResolver.Proofs.Selector.Same
import EntityResolver.Proofs.Value.Shape

/-!
Direct evaluation of a selector over records.

The records of all entities are fixed. A selected field is read out of the record of its entity,
and then all entities that it refers to are evaluated with the subselector of the field. There are
no rounds, no calls and no cache.
-/

set_option autoImplicit false

namespace EntityResolver

/-- A scalar, or entities whose ids stand under one key. -/
def Picker.isPlain : Picker → Bool
  | .scalar _ _ | .reference (.elementary _) | .referenceList _ | .referenceMap _ false => true
  | _ => false

def FieldPickers.arePlain : FieldPickers → Bool
  | .none => true
  | .field _ picker rest => picker.isPlain && rest.arePlain

/-- A getter of one record or of records by id, where ids are sent as they are. -/
def Getter.IsPlain : Getter → Prop
  | .single method => (∃ key, method.id = .elementary key) ∧ method.pickers.arePlain = true
  | .batch method => (∃ param, method.ids = .elementary param) ∧ method.layout = .keyed ∧
      method.pickers.arePlain = true
  | .table _ => False

namespace Catalog

def picker? (catalog : Catalog) (cls : ClassId) (name : String) : Option Picker :=
  (catalog.gettersOf cls).findSome? fun getter => getter.fields.find? name

/-- All getters of a class read a field by the same picker. -/
def Agrees (catalog : Catalog) : Prop :=
  ∀ cls, ∀ first ∈ catalog.gettersOf cls, ∀ second ∈ catalog.gettersOf cls, ∀ name one other,
    first.fields.find? name = some one → second.fields.find? name = some other → one = other

end Catalog

/-- The value under a key of a record. A variant field may lack it. -/
def readUnder (field : Field) (value? : Option Json) (read : Json → Option (FieldValue EntityKey)) :
    Option (FieldValue EntityKey) :=
  match value? with
  | none => if field.isVariant then some .missing else none
  | some value => read value

/-- What a plain picker reads out of a record, with entities by class and id. -/
def Picker.read? (lang : Lang) (field : Field) (record : Json) :
    Picker → Option (FieldValue EntityKey)
  | .scalar rule key =>
      readUnder field (record.member? key) fun value =>
        (rule.apply lang value).toOption.map .scalar
  | .reference (.elementary key) => do
      let cls ← field.kind.target?
      let value ← record.member? key
      return Run.oneEntity field (if value.isNull then none else some (cls, idText value))
  | .referenceList key =>
      readUnder field (record.member? key) fun value => do
        let cls ← field.kind.target?
        match value with
        | .null => return .list []
        | .array items => return .list (items.map fun id => (cls, idText id))
        | _ => none
  | .referenceMap key false =>
      readUnder field (record.member? key) fun value => do
        let cls ← field.kind.target?
        match value with
        | .null => return .map []
        | .object members => return .map (members.map fun (name, id) => (name, (cls, idText id)))
        | _ => none
  | _ => none

/-- The records of entities, each an object. The keys of objects inside them are distinct. -/
structure Records where
  find? : EntityKey → Option (OrderedMap Json)
  distinct : ∀ {key members name inner}, find? key = some members →
    (name, Json.object inner) ∈ members → OrderedMap.Distinct inner

/-- What a remote answers a getter with are the records: one of them, or null without one, or an
object with the record of each id asked for. -/
def Getter.AnsweredBy (records : Records) (remote : Remote) : Getter → Prop
  | .single method => ∀ id selector params earlier, method.params id selector = .ok params →
      remote earlier ⟨method.path, params⟩ =
        .ok ((records.find? (method.cls, id)).elim .null .object)
  | .batch method => ∀ ids selector params earlier, method.params ids selector = .ok params →
      ∃ answer, remote earlier ⟨method.path, params⟩ = .ok (.object answer) ∧
        ∀ id ∈ ids, match records.find? (method.cls, id) with
          | some record => OrderedMap.get? answer id = some (.object record)
          | none => OrderedMap.get? answer id = none ∨ OrderedMap.get? answer id = some .null
  | .table _ => True

/-- An entity that a run is begun for. It need not exist. -/
structure Root where
  key : EntityKey
  selector : Selector

namespace Records

variable (records : Records) (context : RunContext)

def read? (key : EntityKey) (name : String) : Option (FieldValue EntityKey) := do
  let members ← records.find? key
  let field ← context.catalog.schema.field? key.1 name
  let picker ← context.catalog.picker? key.1 name
  picker.read? context.lang field (.object members)

/-- The entity with the fields of a selector, if all of them can be read and all entities that they
refer to can be evaluated. `depth` bounds how many references are followed one after the other. -/
def evaluate : Nat → EntityKey → Selector → Option Entity
  | 0, _, _ => none
  | depth + 1, key, selector => do
      let fields ← selector.resolved.mapM fun (name, sub) => do
        let keys ← records.read? context key name
        let value ← keys.traverseEntities fun inner => evaluate depth inner sub
        return (name, value)
      return ⟨key.1, context.catalog.schema.className key.1, some key.2, fields⟩

/-- There is no such entity, and some getter can be asked for it. -/
def Absent (key : EntityKey) (selector : Selector) : Prop :=
  records.find? key = none ∧ ∃ name ∈ selector.names, (context.catalog.picker? key.1 name).isSome

instance (key : EntityKey) (selector : Selector) :
    Decidable (records.Absent context key selector) :=
  inferInstanceAs (Decidable (_ ∧ ∃ name ∈ selector.names, _))

/-- An entity that need not exist. An absent one has neither id nor fields. -/
def evaluateRoot (depth : Nat) (root : Root) : Option Entity :=
  if records.Absent context root.key root.selector then
    some (.bare root.key.1 (context.catalog.schema.className root.key.1) none)
  else records.evaluate context depth root.key root.selector

end Records

/-- The entities are the same up to the order of their fields on every level. -/
inductive Entity.Alike : Entity → Entity → Prop where
  | intro {first second : Entity} (cls : first.cls = second.cls)
      (className : first.className = second.className) (id : first.id = second.id)
      (names : (OrderedMap.keys first.fields).Perm (OrderedMap.keys second.fields))
      (shapes : ∀ name one other, (name, one) ∈ first.fields → (name, other) ∈ second.fields →
        one.Rel (fun _ _ => True) other)
      (inner : ∀ name one other, (name, one) ∈ first.fields → (name, other) ∈ second.fields →
        List.Forall₂ Alike one.entities other.entities) : Alike first second

theorem Entity.Alike.of_rel {first second : Entity} (cls : first.cls = second.cls)
    (className : first.className = second.className) (id : first.id = second.id)
    (names : (OrderedMap.keys first.fields).Perm (OrderedMap.keys second.fields))
    (values : ∀ name one other, (name, one) ∈ first.fields → (name, other) ∈ second.fields →
      one.Rel Alike other) : first.Alike second :=
  .intro cls className id names
    (fun name one other left right => (values name one other left right).mono fun _ _ _ _ => trivial)
    fun name one other left right => (values name one other left right).entities

namespace Records

variable {records : Records} {context : RunContext} {depth : Nat} {key : EntityKey}
variable {selector other : Selector} {tree : Entity}

/-- An evaluated entity has the selected fields in order, with evaluated entities. -/
theorem evaluate_eq_some_iff :
    records.evaluate context (depth + 1) key selector = some tree ↔
      ∃ fields, tree = ⟨key.1, context.catalog.schema.className key.1, some key.2, fields⟩ ∧
        List.Forall₂ (fun entry field => field.1 = entry.1 ∧
          ∃ keys, records.read? context key entry.1 = some keys ∧
            keys.Rel (fun inner tree => records.evaluate context depth inner entry.2 = some tree)
              field.2) selector.resolved fields := by
  simp only [evaluate, Option.bind_eq_bind, Option.bind_eq_some_iff, Option.pure_def,
    Option.some.injEq, FieldValue.mapM_eq_some_iff, FieldValue.traverse_eq_some_iff]
  constructor
  · rintro ⟨fields, pairs, rfl⟩
    refine ⟨fields, rfl, pairs.imp ?_⟩
    rintro ⟨name, sub⟩ field ⟨keys, read, value, same, rfl⟩
    exact ⟨rfl, keys, read, same⟩
  · rintro ⟨fields, rfl, pairs⟩
    refine ⟨fields, pairs.imp ?_, rfl⟩
    rintro ⟨name, sub⟩ ⟨_, value⟩ ⟨rfl, keys, read, same⟩
    exact ⟨keys, read, value, same, rfl⟩

/-- The evaluation comes to an end without failure. -/
def Evaluates (records : Records) (context : RunContext) (depth : Nat) (key : EntityKey)
    (selector : Selector) : Prop :=
  ∃ tree, records.evaluate context depth key selector = some tree

theorem evaluates_succ_iff :
    records.Evaluates context (depth + 1) key selector ↔
      ∀ name sub, (name, sub) ∈ selector.resolved → ∃ keys,
        records.read? context key name = some keys ∧
          ∀ inner ∈ keys.entities, records.Evaluates context depth inner sub := by
  unfold Evaluates
  simp only [evaluate_eq_some_iff]
  constructor
  · rintro ⟨_, fields, rfl, pairs⟩ name sub member
    obtain ⟨field, _, _, keys, read, same⟩ := FieldValue.exists_related pairs member
    refine ⟨keys, read, ?_⟩
    intro inner inKeys
    obtain ⟨tree, _, evaluated⟩ := FieldValue.exists_related same.entities inKeys
    exact ⟨tree, evaluated⟩
  · intro each
    have fields : ∀ entry ∈ selector.resolved, ∃ field : String × FieldValue Entity,
        field.1 = entry.1 ∧ ∃ keys, records.read? context key entry.1 = some keys ∧
          keys.Rel (fun inner tree => records.evaluate context depth inner entry.2 = some tree)
            field.2 := by
      rintro ⟨name, sub⟩ member
      obtain ⟨keys, read, all⟩ := each name sub member
      obtain ⟨value, same⟩ := FieldValue.exists_rel all
      exact ⟨(name, value), rfl, keys, read, same⟩
    obtain ⟨fields, pairs⟩ := FieldValue.exists_forall₂ fields
    exact ⟨_, fields, rfl, pairs⟩

theorem evaluate_succ (evaluated : records.evaluate context depth key selector = some tree) :
    records.evaluate context (depth + 1) key selector = some tree := by
  induction depth generalizing key selector tree with
  | zero => cases evaluated
  | succ depth inductionHypothesis =>
      obtain ⟨fields, rfl, pairs⟩ := evaluate_eq_some_iff.mp evaluated
      refine evaluate_eq_some_iff.mpr ⟨fields, rfl, pairs.imp ?_⟩
      rintro entry field ⟨named, keys, read, same⟩
      exact ⟨named, keys, read, same.mono fun inner _ tree found => inductionHypothesis found⟩

/-- Deeper evaluation gives nothing else. -/
theorem evaluate_mono {deeper : Nat} (more : depth ≤ deeper)
    (evaluated : records.evaluate context depth key selector = some tree) :
    records.evaluate context deeper key selector = some tree := by
  induction more with
  | refl => exact evaluated
  | step _ inductionHypothesis => exact evaluate_succ inductionHypothesis

theorem evaluate_unique {deeper : Nat} {one : Entity}
    (first : records.evaluate context depth key selector = some tree)
    (second : records.evaluate context deeper key selector = some one) : tree = one := by
  have left := evaluate_mono (Nat.le_max_left depth deeper) first
  have right := evaluate_mono (Nat.le_max_right depth deeper) second
  exact Option.some.inj (left.symm.trans right)

/-- Whether an entity can be evaluated does not depend on the order of fields. -/
theorem Evaluates.of_same (distinct : selector.Distinct) (distinctToo : other.Distinct)
    (same : selector.same other = true) (evaluates : records.Evaluates context depth key selector) :
    records.Evaluates context depth key other := by
  induction depth generalizing key selector other with
  | zero =>
      obtain ⟨_, impossible⟩ := evaluates
      cases impossible
  | succ depth inductionHypothesis =>
      rw [evaluates_succ_iff] at evaluates ⊢
      intro name sub member
      obtain ⟨mine, inSelector, alike⟩ := Selector.exists_resolved_of_same distinctToo distinct
        (Selector.same_symm distinct distinctToo same) member
      obtain ⟨keys, read, all⟩ := evaluates name mine inSelector
      refine ⟨keys, read, ?_⟩
      intro inner inKeys
      have distinctSub := distinctToo.of_mem_resolved member
      have distinctMine := distinct.of_mem_resolved inSelector
      apply inductionHypothesis distinctMine distinctSub _ (all inner inKeys)
      exact Selector.same_symm distinctSub distinctMine alike

theorem Evaluates.exists_record (evaluates : records.Evaluates context depth key selector)
    (selected : selector.names ≠ []) : ∃ members, records.find? key = some members := by
  cases depth with
  | zero =>
      obtain ⟨_, impossible⟩ := evaluates
      cases impossible
  | succ depth =>
      obtain ⟨name, member⟩ := List.exists_mem_of_ne_nil _ selected
      obtain ⟨sub, inResolved⟩ := Selector.exists_mem_resolved member
      obtain ⟨keys, read, _⟩ := evaluates_succ_iff.mp evaluates name sub inResolved
      obtain ⟨members, found, _⟩ := Option.bind_eq_some_iff.mp read
      exact ⟨members, found⟩

end Records

end EntityResolver
