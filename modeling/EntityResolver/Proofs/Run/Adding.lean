import EntityResolver.Proofs.Run.Composed
import EntityResolver.Proofs.Run.Serving

/-!
What reading a response adds to a run.

Entities come in, each known by its id and with the values that it is spawned with, and targets for
those of their fields that have no value yet. What was there before stays as it is. So a part of a
run is told by what came in between two states, and parts that follow each other are told apart.
-/

set_option autoImplicit false

namespace EntityResolver

namespace RunState

variable {before middle after origin final : RunState} {entity : Handle} {name : String}

/-- The targets that came up since an earlier state. -/
def gained (before after : RunState) : List Target :=
  after.spawned.drop before.spawned.length

/-- Entities came in, and targets for them. All that was there before is as it was. -/
structure Adds (before after : RunState) : Prop extends Grows before after where
  pools : after.pools = before.pools
  spawned : after.spawned = before.spawned ++ before.gained after
  own : ∀ target ∈ before.gained after,
    before.arena.size ≤ target.entity.index ∧ target.entity.index < after.arena.size

def Came (before after : RunState) (entity : Handle) : Prop :=
  before.arena.size ≤ entity.index ∧ entity.index < after.arena.size

/-- A target that came up since an earlier state wants the field of the entity. -/
def Wants (before after : RunState) (entity : Handle) (name : String) : Prop :=
  ∃ target ∈ before.gained after, target.entity = entity ∧ name ∈ target.unresolved

def held? (state : RunState) (entity : Handle) (name : String) : Option (FieldValue Handle) :=
  (state.record? entity).bind fun record => record.values.get? name

/-- The entity came in since an earlier state. It has the id, and holds those of the selected fields
that had a value; the others are wanted. -/
structure Entered (before after : RunState) (cls : ClassId) (id : String) (selector : Selector)
    (values : FieldValues) (entity : Handle) : Prop where
  came : before.arena.size ≤ entity.index
  record : ∃ held, after.record? entity = some ⟨cls, some id, held⟩ ∧
    ∀ name, held.get? name = if name ∈ selector.names then values.get? name else none
  wanted : ∀ name, before.Wants after entity name ↔
    name ∈ selector.names ∧ values.get? name = none

theorem gained_of_append {targets : List Target}
    (spawned : after.spawned = before.spawned ++ targets) : before.gained after = targets := by
  rw [gained, spawned, List.drop_left]

theorem adds_of_spawned (grows : before.Grows after) (pools : after.pools = before.pools)
    {targets : List Target} (spawned : after.spawned = before.spawned ++ targets)
    (own : ∀ target ∈ targets, before.Came after target.entity) : before.Adds after := by
  have gained := gained_of_append spawned
  exact ⟨grows, pools, gained ▸ spawned, gained ▸ own⟩

namespace Adds

theorem refl (state : RunState) : state.Adds state :=
  adds_of_spawned (.refl state) rfl (List.append_nil _).symm (by simp)

theorem spawned_append (first : before.Adds middle) (second : middle.Adds after) :
    after.spawned = before.spawned ++ (before.gained middle ++ middle.gained after) := by
  rw [← List.append_assoc, ← first.spawned]
  exact second.spawned

theorem trans (first : before.Adds middle) (second : middle.Adds after) : before.Adds after := by
  refine adds_of_spawned (first.toGrows.trans second.toGrows) (second.pools.trans first.pools)
    (first.spawned_append second) ?_
  intro target member
  rcases List.mem_append.mp member with early | late
  · obtain ⟨lower, upper⟩ := first.own target early
    exact ⟨lower, upper.trans_le second.size⟩
  · obtain ⟨lower, upper⟩ := second.own target late
    exact ⟨first.size.trans lower, upper⟩

theorem came_iff (first : before.Adds middle) (second : middle.Adds after) :
    before.Came after entity ↔ before.Came middle entity ∨ middle.Came after entity := by
  have lower := first.size
  have upper := second.size
  unfold Came
  omega

/-- What is wanted of entities that were there in between came up before. -/
theorem wants_of_lt (first : before.Adds middle) (second : middle.Adds after)
    (inside : entity.index < middle.arena.size) :
    before.Wants after entity name ↔ before.Wants middle entity name := by
  unfold Wants
  rw [gained_of_append (first.spawned_append second)]
  constructor
  · rintro ⟨target, member, same, wanted⟩
    rcases List.mem_append.mp member with early | late
    · exact ⟨target, early, same, wanted⟩
    · have lower := (second.own target late).1
      rw [same] at lower
      exact absurd inside (Nat.not_lt.mpr lower)
  · rintro ⟨target, member, same, wanted⟩
    exact ⟨target, List.mem_append_left _ member, same, wanted⟩

theorem wants_of_le (first : before.Adds middle) (second : middle.Adds after)
    (outside : middle.arena.size ≤ entity.index) :
    before.Wants after entity name ↔ middle.Wants after entity name := by
  unfold Wants
  rw [gained_of_append (first.spawned_append second)]
  constructor
  · rintro ⟨target, member, same, wanted⟩
    rcases List.mem_append.mp member with early | late
    · have upper := (first.own target early).2
      rw [same] at upper
      exact absurd upper (Nat.not_lt.mpr outside)
    · exact ⟨target, late, same, wanted⟩
  · rintro ⟨target, member, same, wanted⟩
    exact ⟨target, List.mem_append_right _ member, same, wanted⟩

theorem record?_of_lt (adds : before.Adds after) (inside : entity.index < before.arena.size) :
    after.record? entity = before.record? entity :=
  adds.old entity.index inside

end Adds

namespace Entered

variable {cls : ClassId} {id : String} {selector : Selector} {values : FieldValues}

theorem inside (entered : before.Entered after cls id selector values entity) :
    entity.index < after.arena.size := by
  obtain ⟨held, record, _⟩ := entered.record
  exact (Array.getElem?_eq_some_iff.mp record).1

theorem isCame (entered : before.Entered after cls id selector values entity) :
    before.Came after entity :=
  ⟨entered.came, entered.inside⟩

theorem idOf?_eq (entered : before.Entered after cls id selector values entity) :
    after.idOf? entity = some id := by
  obtain ⟨held, record, _⟩ := entered.record
  rw [idOf?, record]
  rfl

theorem held?_eq (entered : before.Entered after cls id selector values entity)
    (selected : name ∈ selector.names) : after.held? entity name = values.get? name := by
  obtain ⟨held, record, stored⟩ := entered.record
  rw [held?, record, Option.bind_some, stored, if_pos selected]

/-- An entity that came in within a part of a run came in within the whole. -/
theorem frame (first : origin.Adds before)
    (entered : before.Entered after cls id selector values entity) (within : before.Adds after)
    (last : after.Adds final) : origin.Entered final cls id selector values entity where
  came := first.size.trans entered.came
  record := by
    obtain ⟨held, record, stored⟩ := entered.record
    exact ⟨held, (last.record?_of_lt entered.inside).trans record, stored⟩
  wanted name := by
    rw [(first.trans within).wants_of_lt last entered.inside, first.wants_of_le within entered.came]
    exact entered.wanted name

end Entered

end RunState

namespace Run

open RunState

variable {context : RunContext} {before after : RunState} {target continued : Target}
variable {values : FieldValues} {names : List String} {cls : ClassId} {id : String}
variable {selector : Selector} {isWeak : Bool} {entity : Handle}

/-- What is left to resolve once the named fields that have a value are resolved. -/
theorem unresolved_resolveGiven
    (done : Yields context (resolveGiven values names target) before continued after) :
    continued.unresolved =
      target.unresolved.diff (names.filter fun name => (values.get? name).isSome) := by
  induction names generalizing before target with
  | nil =>
      obtain ⟨rfl, rfl⟩ := yields_pure_iff.mp done
      rfl
  | cons name rest inductionHypothesis =>
      rw [resolveGiven] at done
      split at done
      · rename_i value given
        obtain ⟨resolved, middle, first, remaining⟩ := yields_bind_iff.mp done
        obtain ⟨rfl, rfl⟩ := yields_resolveAndCache_iff.mp first
        rw [List.filter_cons_of_pos (by rw [given]; rfl), List.diff_cons]
        exact inductionHypothesis remaining
      · rename_i absent
        rw [List.filter_cons_of_neg (by rw [absent]; exact Bool.false_ne_true)]
        exact inductionHypothesis done

/-- Exactly the fields without a value are left, also where a name occurs more than once. -/
theorem mem_unresolved_resolveGiven (all : target.unresolved = names)
    (done : Yields context (resolveGiven values names target) before continued after)
    (name : String) :
    name ∈ continued.unresolved ↔ name ∈ names ∧ values.get? name = none := by
  rw [unresolved_resolveGiven done, all, ← List.count_pos_iff, List.count_diff]
  cases given : values.get? name with
  | none =>
      have unlisted : name ∉ names.filter fun name => (values.get? name).isSome := by
        simp [given]
      rw [List.count_eq_zero_of_not_mem unlisted, Nat.sub_zero, List.count_pos_iff]
      simp
  | some value =>
      rw [List.count_filter (by rw [given]; rfl), Nat.sub_self]
      simp

theorem record_resolveGiven {old : EntityRecord} (found : before.record? target.entity = some old)
    (done : Yields context (resolveGiven values names target) before continued after) :
    ∃ held, after.record? target.entity = some { old with values := held } ∧
      ∀ name, held.get? name =
        if name ∈ names then (values.get? name).or (old.values.get? name)
        else old.values.get? name := by
  induction names generalizing before target old with
  | nil =>
      obtain ⟨rfl, rfl⟩ := yields_pure_iff.mp done
      exact ⟨old.values, found, by simp⟩
  | cons name rest inductionHypothesis =>
      rw [resolveGiven] at done
      split at done
      · rename_i value given
        obtain ⟨resolved, middle, first, remaining⟩ := yields_bind_iff.mp done
        obtain ⟨rfl, rfl⟩ := yields_resolveAndCache_iff.mp first
        obtain ⟨held, record, holds⟩ := inductionHypothesis (record_learned_own found) remaining
        refine ⟨held, record, fun other => (holds other).trans ?_⟩
        rw [OrderedMap.get?_set]
        by_cases same : name = other
        · subst same
          simp [given]
        · simp [same, Ne.symm same]
      · rename_i absent
        obtain ⟨held, record, holds⟩ := inductionHypothesis found done
        refine ⟨held, record, fun other => (holds other).trans ?_⟩
        by_cases same : name = other
        · subst same
          simp [absent]
        · simp [Ne.symm same]

theorem entered_of_spawn
    (done : Yields context (spawn cls id selector values isWeak) before entity after) :
    before.Adds after ∧ before.Entered after cls id selector values entity ∧
      after.arena.size = before.arena.size + 1 := by
  obtain ⟨rfl, target, resolved, given, rfl⟩ := yields_spawn_iff.mp done
  obtain ⟨size, grows⟩ := grows_spawn given
  obtain ⟨continues, arena, events, cache, stats, quiet⟩ := quiet_resolveGiven given
  have own : target.entity = ⟨before.arena.size⟩ := continues.entity
  have spawned : (resolved.enlisted target).spawned =
      before.spawned ++ [target].filter Target.isActive := by
    rw [quiet]
    rfl
  have adds : before.Adds (resolved.enlisted target) := by
    refine adds_of_spawned (grows.congr rfl) (by rw [quiet]; rfl) spawned ?_
    intro other member
    cases List.mem_singleton.mp (List.mem_of_mem_filter member)
    rw [own]
    exact ⟨Nat.le_refl _, size.symm ▸ Nat.lt_succ_self _⟩
  refine ⟨adds, ⟨Nat.le_refl _, ?_, fun name => ?_⟩, size⟩
  · have fresh : (before.begun (before.next cls id selector isWeak)).record?
        (before.next cls id selector isWeak).wish.entity = some ⟨cls, some id, []⟩ :=
      Array.getElem?_push_size
    obtain ⟨held, record, holds⟩ := record_resolveGiven fresh given
    exact ⟨held, record, fun name => by simpa using holds name⟩
  · have all : (before.next cls id selector isWeak).wish.unresolved = selector.names := rfl
    rw [← mem_unresolved_resolveGiven all given name]
    unfold Wants
    rw [gained_of_append spawned]
    constructor
    · rintro ⟨other, member, -, wanted⟩
      cases List.mem_singleton.mp (List.mem_of_mem_filter member)
      exact wanted
    · intro wanted
      have active : target.isActive = true := by
        rw [Target.isActive, Bool.not_eq_true', List.isEmpty_eq_false_iff]
        exact List.ne_nil_of_mem wanted
      exact ⟨target, List.mem_filter.mpr ⟨List.mem_singleton_self _, active⟩, own, wanted⟩

def Adding {α : Type} (step : Run α) : Prop :=
  ∀ {context before result after}, Yields context step before result after → before.Adds after

theorem closedUnderSteps_adding : ClosedUnderSteps .everything fun step => Adding step where
  pure value := by
    intro context before result after done
    obtain ⟨rfl, rfl⟩ := yields_pure_iff.mp done
    exact .refl _
  bind first rest := by
    intro context before result after done
    obtain ⟨value, middle, done, remaining⟩ := yields_bind_iff.mp done
    exact (first done).trans (rest value remaining)
  throw _ := by
    intro context before result after done
    exact absurd done not_yields_throw
  read next := by
    intro context before result after done
    exact next context trivial done
  spawn cls id selector values := by
    intro context before result after done
    exact (entered_of_spawn done).1
  alloc cls id values := by
    intro context before result after done
    obtain ⟨rfl, rfl⟩ := yields_alloc_iff.mp done
    exact adds_of_spawned (before.grows_allocated _) rfl (List.append_nil _).symm (by simp)

/-- Reading a response adds entities and targets for them, and changes nothing else about what a run
knows. -/
theorem closed_adding : ClosedUnderReading .everything fun step => Adding step :=
  closedUnderSteps_adding.reading fun done => absurd done not_yields_throw

end Run

end EntityResolver
