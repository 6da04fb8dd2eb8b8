import EntityResolver.Proofs.Run.Resolving
import EntityResolver.Proofs.Selector.Same
import Mathlib.Data.List.Nodup

/-!
What a run knows of the entities that it has spawned.

Every entity that was spawned is either still waited for, by one target, or known with all fields
of its selector, or known not to exist. What the run takes for true of an entity is up to a `Truth`,
about entities by class and id; the handles in stored values stand for such keys.
-/

set_option autoImplicit false

namespace EntityResolver

structure Truth (schema : Schema) where
  /-- A field of an entity has the value. -/
  holds : ClassId → String → String → FieldValue EntityKey → Prop
  /-- There is no such entity, which asking for the fields of the selector shows. -/
  lacks : ClassId → String → Selector → Prop
  wider : ∀ {cls id selector other}, lacks cls id selector → selector.names ⊆ other.names →
    lacks cls id other
  /-- What the cache keeps of a value is as true as the value. -/
  kept : ∀ {cls id name field keys}, schema.field? cls name = some field → holds cls id name keys →
    holds cls id name (keys.mapEntities fun key =>
      (field.kind.target?.getD cls, if field.kind.isEntity then key.2 else ""))

/-- A value in the cache is true of its entity. -/
def Truth.Remembers {schema : Schema} (truth : Truth schema) (entry : CachedValue) : Prop :=
  ∀ field, schema.field? entry.cls entry.field = some field →
    truth.holds entry.cls entry.id entry.field
      (entry.value.mapEntities fun id => (field.kind.target?.getD entry.cls, id))

namespace RunState

structure Bare (state : RunState) (entity : Handle) (key : EntityKey) : Prop where
  record : state.record? entity = some ⟨key.1, some key.2, []⟩
  shelved : ∀ origin ∈ state.origins, origin.entity ≠ entity

/-- The entity stands for the key with the fields of the selector: it was spawned for them, or it is
bare and there are none. -/
def Stands (state : RunState) (sub : Selector) (entity : Handle) (key : EntityKey) : Prop :=
  (∃ origin ∈ state.origins, origin.entity = entity ∧ origin.isWeak = false ∧ origin.key = key ∧
    origin.selector.same sub = true) ∨
  sub = .empty ∧ state.Bare entity key

structure Keeps (before after : RunState) : Prop where
  origins : ∀ origin ∈ before.origins, origin ∈ after.origins
  bare : ∀ entity key, before.Bare entity key → after.Bare entity key

theorem Keeps.refl (state : RunState) : state.Keeps state :=
  ⟨fun _ member => member, fun _ _ bare => bare⟩

theorem Keeps.trans {before middle after : RunState} (first : before.Keeps middle)
    (second : middle.Keeps after) : before.Keeps after :=
  ⟨fun origin member => second.origins origin (first.origins origin member),
    fun entity key bare => second.bare entity key (first.bare entity key bare)⟩

theorem Stands.mono {before after : RunState} {sub : Selector} {entity : Handle} {key : EntityKey}
    (keeps : before.Keeps after) (stands : before.Stands sub entity key) :
    after.Stands sub entity key := by
  rcases stands with ⟨origin, member, spawned⟩ | ⟨empty, bare⟩
  · exact .inl ⟨origin, keeps.origins origin member, spawned⟩
  · exact .inr ⟨empty, keeps.bare entity key bare⟩

end RunState

variable {schema : Schema} {truth : Truth schema} {state before after : RunState}
variable {origin : Origin} {target : Target} {live rest : List Target}

/-- The value is true of the field, and its entities stand for what it refers to. -/
def Means (truth : Truth schema) (state : RunState) (key : EntityKey) (name : String)
    (sub : Selector) (value : FieldValue Handle) : Prop :=
  ∃ keys, truth.holds key.1 key.2 name keys ∧ value.Rel (state.Stands sub) keys

def Carries (truth : Truth schema) (state : RunState) (key : EntityKey) (selector : Selector)
    (values : FieldValues) : Prop :=
  ∀ name value, (name, value) ∈ values →
    ∃ sub, (name, sub) ∈ selector.resolved ∧ Means truth state key name sub value

theorem Means.mono {key : EntityKey} {name : String} {sub : Selector} {value : FieldValue Handle}
    (keeps : before.Keeps after) (means : Means truth before key name sub value) :
    Means truth after key name sub value := by
  obtain ⟨keys, holds, same⟩ := means
  exact ⟨keys, holds, same.mono fun _ _ _ stands => stands.mono keeps⟩

theorem Carries.mono {key : EntityKey} {selector : Selector} {values : FieldValues}
    (keeps : before.Keeps after) (carries : Carries truth before key selector values) :
    Carries truth after key selector values := by
  intro name value member
  obtain ⟨sub, selected, means⟩ := carries name value member
  exact ⟨sub, selected, means.mono keeps⟩

structure Holds (truth : Truth schema) (state : RunState) (origin : Origin) (values : FieldValues)
    (unresolved : List String) : Prop where
  record : state.record? origin.entity = some ⟨origin.cls, some origin.id, values⟩
  names : (OrderedMap.keys values ++ unresolved).Perm origin.selector.names
  carries : Carries truth state origin.key origin.selector values

theorem Holds.mono {values : FieldValues} {unresolved : List String} (keeps : before.Keeps after)
    (same : after.record? origin.entity = before.record? origin.entity)
    (holds : Holds truth before origin values unresolved) :
    Holds truth after origin values unresolved :=
  ⟨same.trans holds.record, holds.names, holds.carries.mono keeps⟩

/-- The target is what is left of the wish for the entity. One that is still weak is the whole
wish, and one that is so no longer has a field. -/
structure Pending (truth : Truth schema) (state : RunState) (origin : Origin) (target : Target) :
    Prop where
  continues : origin.wish.Continues target
  weak : target.isWeak = true → origin.isWeak = true ∧ target.unresolved = origin.selector.names
  strong : target.isWeak = false → origin.isWeak = true →
    ∃ name keys, truth.holds origin.cls origin.id name keys
  holds : ∃ values, Holds truth state origin values target.unresolved

theorem Pending.mono (keeps : before.Keeps after)
    (same : after.record? origin.entity = before.record? origin.entity)
    (pending : Pending truth before origin target) : Pending truth after origin target := by
  obtain ⟨values, holds⟩ := pending.holds
  exact ⟨pending.continues, pending.weak, pending.strong, values, holds.mono keeps same⟩

theorem Pending.entity (pending : Pending truth state origin target) :
    target.entity = origin.entity :=
  pending.continues.entity

inductive Settled (truth : Truth schema) (state : RunState) (origin : Origin) : Prop where
  | met {values : FieldValues} (holds : Holds truth state origin values [])
  | gone (isWeak : origin.isWeak = true)
      (record : state.record? origin.entity = some ⟨origin.cls, none, []⟩)
      (lacks : truth.lacks origin.cls origin.id origin.selector)

theorem Settled.mono (keeps : before.Keeps after)
    (same : after.record? origin.entity = before.record? origin.entity)
    (settled : Settled truth before origin) : Settled truth after origin := by
  cases settled with
  | met holds => exact .met (holds.mono keeps same)
  | gone isWeak record lacks => exact .gone isWeak (same.trans record) lacks

/-- The fate of every entity spawned is known, and what the cache keeps is true. Each of the live
targets is for an entity of its own. -/
structure Sound (truth : Truth schema) (live : List Target) (state : RunState) : Prop where
  apart : (state.origins.map Origin.entity).Nodup
  distinct : ∀ origin ∈ state.origins, origin.selector.Distinct
  fates : ∀ origin ∈ state.origins,
    (∃ target ∈ live, Pending truth state origin target) ∨ Settled truth state origin
  waits : ∀ target ∈ live, ∃ origin ∈ state.origins, Pending truth state origin target
  once : (live.map Target.entity).Nodup
  cache : ∀ entry ∈ state.cache, truth.Remembers entry

namespace Sound

theorem start (truth : Truth schema) (calls : List Call) : Sound truth [] { calls := calls } := by
  refine ⟨.nil, ?_, ?_, ?_, .nil, ?_⟩ <;> simp

theorem perm {other : List Target} (same : live.Perm other) (sound : Sound truth live state) :
    Sound truth other state where
  apart := sound.apart
  distinct := sound.distinct
  fates origin member := (sound.fates origin member).imp_left fun ⟨target, inLive, pending⟩ =>
    ⟨target, same.mem_iff.mp inLive, pending⟩
  waits target inOther := sound.waits target (same.mem_iff.mpr inOther)
  once := (same.map Target.entity).nodup_iff.mp sound.once
  cache := sound.cache

/-- A target with nothing left to resolve is no longer live. -/
theorem finish (sound : Sound truth (target :: rest) state) (done : target.unresolved = []) :
    Sound truth rest state where
  apart := sound.apart
  distinct := sound.distinct
  fates origin member := by
    rcases sound.fates origin member with ⟨other, inLive, pending⟩ | settled
    · rcases List.mem_cons.mp inLive with rfl | inRest
      · obtain ⟨values, holds⟩ := pending.holds
        exact .inr (.met (done ▸ holds))
      · exact .inl ⟨other, inRest, pending⟩
    · exact .inr settled
  waits other inRest := sound.waits other (List.mem_cons_of_mem _ inRest)
  once := (List.nodup_cons.mp sound.once).2
  cache := sound.cache

theorem active (sound : Sound truth (target :: rest) state) :
    Sound truth ([target].filter Target.isActive ++ rest) state := by
  cases unresolved : target.unresolved with
  | nil => simpa [Target.isActive, unresolved] using sound.finish unresolved
  | cons name names => simpa [Target.isActive, unresolved] using sound

theorem origin_unique (sound : Sound truth live state) {one other : Origin}
    (member : one ∈ state.origins) (memberToo : other ∈ state.origins)
    (same : one.entity = other.entity) : one = other :=
  List.inj_on_of_nodup_map sound.apart member memberToo same

theorem wellFormed (sound : Sound truth live state) (member : target ∈ live) :
    target.WellFormed := by
  obtain ⟨origin, spawned, pending⟩ := sound.waits target member
  have distinct := sound.distinct origin spawned
  have fresh : origin.wish.WellFormed := ⟨distinct, distinct.nodup, List.Subset.refl _⟩
  exact fresh.continues pending.continues

theorem stands_of_same (sound : Sound truth live state) {sub other : Selector} {entity : Handle}
    {key : EntityKey} (distinct : sub.Distinct) (distinctToo : other.Distinct)
    (same : sub.same other = true) (stands : state.Stands sub entity key) :
    state.Stands other entity key := by
  rcases stands with ⟨origin, member, rfl, isStrong, rfl, alike⟩ | ⟨rfl, bare⟩
  · exact .inl ⟨origin, member, rfl, isStrong, rfl,
      Selector.same_trans (sound.distinct origin member) distinct distinctToo alike same⟩
  · exact .inr ⟨Selector.isEmpty_iff.mp (Selector.same_empty rfl same), bare⟩

theorem change (left : Option Target) (sound : Sound truth (target :: rest) before)
    (origins : after.origins = before.origins)
    (elsewhere : ∀ entity, entity ≠ target.entity → after.record? entity = before.record? entity)
    (same : ∀ other ∈ left, other.entity = target.entity)
    (own : ∀ origin ∈ before.origins, before.Keeps after → Pending truth before origin target →
      (∀ other ∈ left, Pending truth after origin other) ∧
        (left = none → Settled truth after origin))
    (cache : ∀ entry ∈ after.cache, truth.Remembers entry) :
    Sound truth (left.toList ++ rest) after ∧ before.Keeps after := by
  obtain ⟨mine, spawned, pending⟩ := sound.waits target List.mem_cons_self
  have keeps : before.Keeps after := by
    refine ⟨fun origin member => origins ▸ member, fun entity key bare => ⟨?_, ?_⟩⟩
    · rw [elsewhere entity fun equal => bare.shelved mine spawned
        (pending.entity.symm.trans equal.symm)]
      exact bare.record
    · rw [origins]
      exact bare.shelved
  obtain ⟨continued, finished⟩ := own mine spawned keeps pending
  have others {origin : Origin} (member : origin ∈ before.origins) (different : origin ≠ mine) :
      after.record? origin.entity = before.record? origin.entity :=
    elsewhere origin.entity fun equal =>
      different (sound.origin_unique member spawned (equal.trans pending.entity))
  have once := List.nodup_cons.mp sound.once
  refine ⟨⟨origins ▸ sound.apart, origins ▸ sound.distinct, ?_, ?_, ?_, cache⟩, keeps⟩
  · intro origin member
    rw [origins] at member
    by_cases equal : origin = mine
    · subst equal
      cases left with
      | none => exact .inr (finished rfl)
      | some other => exact .inl ⟨other, by simp, continued other rfl⟩
    · have record := others member equal
      rcases sound.fates origin member with ⟨other, inLive, waiting⟩ | settled
      · rcases List.mem_cons.mp inLive with rfl | inRest
        · exact absurd (sound.origin_unique member spawned
            (waiting.entity.symm.trans pending.entity)) equal
        · exact .inl ⟨other, by simp [inRest], waiting.mono keeps record⟩
      · exact .inr (settled.mono keeps record)
  · intro other member
    rcases List.mem_append.mp member with inLeft | inRest
    · exact ⟨mine, origins ▸ spawned, continued other (by simpa using inLeft)⟩
    · obtain ⟨origin, inOrigins, waiting⟩ := sound.waits other (List.mem_cons_of_mem _ inRest)
      refine ⟨origin, origins ▸ inOrigins, waiting.mono keeps (others inOrigins fun equal => ?_)⟩
      exact once.1 (List.mem_map.mpr
        ⟨other, inRest, waiting.entity.trans (equal ▸ pending.entity.symm)⟩)
  · cases left with
    | none => exact once.2
    | some other =>
        refine List.nodup_cons.mpr ⟨?_, once.2⟩
        rw [same other rfl]
        exact once.1

end Sound

end EntityResolver
