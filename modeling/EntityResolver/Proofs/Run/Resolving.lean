import EntityResolver.Proofs.Run.Outcome
import EntityResolver.Proofs.Value.Shape

/-!
What happens to a target while its fields are resolved.

A target stays the wish that it was and only loses unresolved fields. Of the state nothing changes
but the arena, the cache and the statistics.
-/

set_option autoImplicit false

namespace EntityResolver

/-- The same wish, with fewer fields to resolve. -/
structure Target.Continues (before after : Target) : Prop where
  entity : after.entity = before.entity
  cls : after.cls = before.cls
  id : after.id = before.id
  selector : after.selector = before.selector
  unresolved : after.unresolved.Sublist before.unresolved

/-- Its unresolved fields are selected, and no name occurs twice. -/
structure Target.WellFormed (target : Target) : Prop where
  distinct : target.selector.Distinct
  nodup : target.unresolved.Nodup
  selected : target.unresolved ⊆ target.selector.names

/-- Nothing changed but the arena, what happened to it, the cache and the statistics. -/
def RunState.Quiet (before after : RunState) : Prop :=
  ∃ arena events cache stats, after =
    { before with arena := arena, events := events, cache := cache, stats := stats }

def RunState.allocated (state : RunState) (record : EntityRecord) : RunState :=
  { state with arena := state.arena.push record, events := .entered record :: state.events }

abbrev EntityKey : Type := ClassId × String

def Origin.key (origin : Origin) : EntityKey :=
  (origin.cls, origin.id)

def Origin.wish (origin : Origin) : Target :=
  { entity := origin.entity
    cls := origin.cls
    id := origin.id
    selector := origin.selector
    unresolved := origin.selector.names
    isWeak := origin.isWeak }

def RunState.enlisted (state : RunState) (target : Target) : RunState :=
  { state with spawned := state.spawned ++ [target].filter Target.isActive }

def RunState.next (state : RunState) (cls : ClassId) (id : String) (selector : Selector)
    (isWeak : Bool) : Origin :=
  ⟨⟨state.arena.size⟩, cls, id, selector, isWeak⟩

/-- The state with a new entity that is being spawned. -/
def RunState.begun (state : RunState) (origin : Origin) : RunState :=
  { state.allocated ⟨origin.cls, some origin.id, []⟩ with origins := origin :: state.origins }

/-- The state with a new entity, known by id alone. -/
def RunState.wished (state : RunState) (origin : Origin) : RunState :=
  (state.begun origin).enlisted origin.wish

def RunState.stored (state : RunState) (source : Source) (target : Target) (name : String)
    (value : FieldValue Handle) : RunState :=
  { state with
    arena := state.arena.modify target.entity.index fun record =>
      { record with values := record.values.set name value }
    events := .resolved source target name value :: state.events }

/-- The state with the value of a field kept for later targets, where it can be kept. -/
def RunState.kept (schema : Schema) (state : RunState) (target : Target) (name : String)
    (value : FieldValue Handle) : RunState :=
  match Run.cacheable? schema state target name value with
  | some kept => { state with cache := ⟨target.cls, target.id, name, kept⟩ :: state.cache }
  | none => state

abbrev RunState.learned (schema : Schema) (state : RunState) (target : Target) (name : String)
    (value : FieldValue Handle) : RunState :=
  (state.kept schema target name value).stored .response target name value

def RunState.forgotten (state : RunState) (target : Target) : RunState :=
  { state with
    arena := state.arena.modify target.entity.index fun record => { record with id := none }
    events := .lost target :: state.events }

def Target.without (target : Target) (name : String) : Target :=
  { target with unresolved := target.unresolved.erase name, isWeak := false }

namespace Target

variable {first second third target : Target}

theorem Continues.refl (target : Target) : target.Continues target :=
  ⟨rfl, rfl, rfl, rfl, .refl _⟩

theorem Continues.trans (left : first.Continues second) (right : second.Continues third) :
    first.Continues third :=
  ⟨right.entity.trans left.entity, right.cls.trans left.cls, right.id.trans left.id,
    right.selector.trans left.selector, right.unresolved.trans left.unresolved⟩

theorem continues_without (target : Target) (name : String) :
    target.Continues (target.without name) :=
  ⟨rfl, rfl, rfl, rfl, List.erase_sublist⟩

theorem exists_continues {olds news : List Target} (pairs : List.Forall₂ Continues olds news)
    (member : target ∈ news) : ∃ old ∈ olds, old.Continues target := by
  have flipped : List.Forall₂ (flip Continues) news olds := pairs.flip
  exact FieldValue.exists_related flipped member

/-- What holds of targets holds of them later on, if it has nothing to do with how much is left. -/
theorem forall_continues {holds : Target → Prop} {olds news : List Target}
    (pairs : List.Forall₂ Continues olds news)
    (stays : ∀ {old new : Target}, old.Continues new → holds old → holds new)
    (all : ∀ target ∈ olds, holds target) : ∀ target ∈ news, holds target := by
  intro target member
  obtain ⟨old, inOlds, continues⟩ := exists_continues pairs member
  exact stays continues (all old inOlds)

theorem WellFormed.continues (valid : first.WellFormed) (continued : first.Continues second) :
    second.WellFormed :=
  ⟨continued.selector ▸ valid.distinct, continued.unresolved.nodup valid.nodup,
    fun _ member =>
      continued.selector ▸ valid.selected (continued.unresolved.subset member)⟩

end Target

namespace RunState

variable {before middle after : RunState}

theorem Quiet.refl (state : RunState) : state.Quiet state :=
  ⟨_, _, _, _, rfl⟩

theorem Quiet.trans (left : before.Quiet middle) (right : middle.Quiet after) :
    before.Quiet after := by
  obtain ⟨_, _, _, _, rfl⟩ := left
  obtain ⟨_, _, _, _, rfl⟩ := right
  exact ⟨_, _, _, _, rfl⟩

theorem Quiet.spawned (quiet : before.Quiet after) : after.spawned = before.spawned := by
  obtain ⟨_, _, _, _, rfl⟩ := quiet
  rfl

theorem quiet_stored (state : RunState) (source : Source) (target : Target) (name : String)
    (value : FieldValue Handle) : state.Quiet (state.stored source target name value) :=
  ⟨_, _, _, _, rfl⟩

theorem quiet_kept (schema : Schema) (state : RunState) (target : Target) (name : String)
    (value : FieldValue Handle) : state.Quiet (state.kept schema target name value) := by
  unfold kept
  split
  · exact ⟨_, _, _, _, rfl⟩
  · exact .refl state

section Learned

variable (schema : Schema) (state : RunState) (target : Target) (name : String)
variable (value : FieldValue Handle)

@[simp] theorem arena_learned : (state.learned schema target name value).arena =
    state.arena.modify target.entity.index fun record =>
      { record with values := record.values.set name value } := by
  unfold learned stored kept
  split <;> rfl

@[simp] theorem events_learned : (state.learned schema target name value).events =
    .resolved .response target name value :: state.events := by
  unfold learned stored kept
  split <;> rfl

end Learned

end RunState

namespace Run

variable {context : RunContext} {before middle after : RunState} {target continued : Target}
variable {name path : String} {value : FieldValue Handle}

@[simp] theorem yields_resolve_iff {source : Source} :
    Yields context (resolve source target name value) before continued after ↔
      continued = target.without name ∧ after = before.stored source target name value := by
  simp only [resolve, update, yields_bind_iff, yields_modify_iff, yields_pure_iff]
  constructor
  · rintro ⟨_, _, rfl, rfl, rfl⟩
    exact ⟨rfl, rfl⟩
  · rintro ⟨rfl, rfl⟩
    exact ⟨⟨⟩, _, rfl, rfl, rfl⟩

@[simp] theorem yields_resolveAndCache_iff :
    Yields context (resolveAndCache target name value) before continued after ↔
      continued = target.without name ∧
        after = before.learned context.catalog.schema target name value := by
  simp only [resolveAndCache, cacheValue, yields_bind_iff, yields_schema_iff, yields_modify_iff,
    yields_resolve_iff]
  constructor
  · rintro ⟨_, _, ⟨_, _, ⟨rfl, rfl⟩, rfl⟩, rfl, rfl⟩
    exact ⟨rfl, rfl⟩
  · rintro ⟨rfl, rfl⟩
    exact ⟨⟨⟩, _, ⟨_, _, ⟨rfl, rfl⟩, rfl⟩, rfl, rfl⟩

theorem quiet_resolveAndCache
    (done : Yields context (resolveAndCache target name value) before continued after) :
    target.Continues continued ∧ before.Quiet after := by
  obtain ⟨rfl, rfl⟩ := yields_resolveAndCache_iff.mp done
  exact ⟨target.continues_without name,
    (RunState.quiet_kept _ _ _ _ _).trans (RunState.quiet_stored _ _ _ _ _)⟩

theorem quiet_resolveGiven {values : FieldValues} {names : List String}
    (done : Yields context (resolveGiven values names target) before continued after) :
    target.Continues continued ∧ before.Quiet after := by
  induction names generalizing before target with
  | nil =>
      obtain ⟨rfl, rfl⟩ := yields_pure_iff.mp done
      exact ⟨.refl _, .refl _⟩
  | cons name rest inductionHypothesis =>
      simp only [resolveGiven] at done
      split at done
      · obtain ⟨resolved, middle, first, remaining⟩ := yields_bind_iff.mp done
        obtain ⟨continues, quiet⟩ := quiet_resolveAndCache first
        obtain ⟨continuesToo, quietToo⟩ := inductionHypothesis remaining
        exact ⟨continues.trans continuesToo, quiet.trans quietToo⟩
      · exact inductionHypothesis done

@[simp] theorem yields_alloc_iff {cls : ClassId} {id : Option String} {values : FieldValues}
    {entity : Handle} :
    Yields context (alloc cls id values) before entity after ↔
      entity = ⟨before.arena.size⟩ ∧ after = before.allocated ⟨cls, id, values⟩ := by
  simp only [alloc, yields_bind_iff, yields_get_iff, yields_modify_iff, yields_pure_iff]
  constructor
  · rintro ⟨_, _, ⟨rfl, rfl⟩, _, _, rfl, rfl, rfl⟩
    exact ⟨rfl, rfl⟩
  · rintro ⟨rfl, rfl⟩
    exact ⟨_, _, ⟨rfl, rfl⟩, ⟨⟩, _, rfl, rfl, rfl⟩

/-- Spawning resolves the given values of a new entity and leaves the rest wanted. -/
theorem yields_spawn_iff {cls : ClassId} {id : String} {selector : Selector} {values : FieldValues}
    {isWeak : Bool} {entity : Handle} :
    Yields context (spawn cls id selector values isWeak) before entity after ↔
      entity = ⟨before.arena.size⟩ ∧ ∃ target resolved,
        Yields context
          (resolveGiven values selector.names (before.next cls id selector isWeak).wish)
          (before.begun (before.next cls id selector isWeak)) target resolved ∧
        after = resolved.enlisted target := by
  have enlist {target : Target} {resolved : RunState} :
      Yields context (do
        if target.isActive then
          modify fun state => { state with spawned := state.spawned ++ [target] }
        return ⟨before.arena.size⟩) resolved entity after ↔
      entity = ⟨before.arena.size⟩ ∧ after = resolved.enlisted target := by
    cases active : target.isActive with
    | true => simp [RunState.enlisted, active, and_comm]
    | false =>
        have same : resolved.enlisted target = resolved := by simp [RunState.enlisted, active]
        simp [same, and_comm]
  simp only [spawn, yields_bind_iff, yields_alloc_iff, yields_modify_iff]
  constructor
  · rintro ⟨_, _, ⟨rfl, rfl⟩, _, _, rfl, target, resolved, given, done⟩
    obtain ⟨rfl, rfl⟩ := enlist.mp done
    exact ⟨rfl, target, resolved, given, rfl⟩
  · rintro ⟨rfl, target, resolved, given, rfl⟩
    exact ⟨_, _, ⟨rfl, rfl⟩, ⟨⟩, _, rfl, target, resolved, given, enlist.mpr ⟨rfl, rfl⟩⟩

/-- What spawning does: a new entity, and a target for it if fields of it are unresolved. -/
theorem spawn_cases {cls : ClassId} {id : String} {selector : Selector} {values : FieldValues}
    {isWeak : Bool} {entity : Handle}
    (done : Yields context (spawn cls id selector values isWeak) before entity after) :
    entity = ⟨before.arena.size⟩ ∧ ∃ target arena events cache stats,
      Target.Continues (Origin.wish ⟨entity, cls, id, selector, isWeak⟩) target ∧
      after = { before with
        arena := arena
        events := events
        cache := cache
        stats := stats
        origins := ⟨entity, cls, id, selector, isWeak⟩ :: before.origins
        spawned := before.spawned ++ [target].filter Target.isActive } := by
  obtain ⟨rfl, target, resolved, given, rfl⟩ := yields_spawn_iff.mp done
  obtain ⟨continues, arena, events, cache, stats, rfl⟩ := quiet_resolveGiven given
  exact ⟨rfl, target, arena, events, cache, stats, continues, rfl⟩

theorem resolveGiven_nil (names : List String) (target : Target) :
    resolveGiven [] names target = pure target := by
  induction names with
  | nil => rfl
  | cons name rest inductionHypothesis => exact inductionHypothesis

/-- Spawning an entity known by id alone always succeeds. -/
theorem yields_spawn_nil_iff {cls : ClassId} {id : String} {selector : Selector} {isWeak : Bool}
    {entity : Handle} :
    Yields context (spawn cls id selector [] isWeak) before entity after ↔
      entity = ⟨before.arena.size⟩ ∧
        after = before.wished (before.next cls id selector isWeak) := by
  simp only [yields_spawn_iff, resolveGiven_nil, yields_pure_iff]
  constructor
  · rintro ⟨rfl, _, _, ⟨rfl, rfl⟩, rfl⟩
    exact ⟨rfl, rfl⟩
  · rintro ⟨rfl, rfl⟩
    exact ⟨rfl, _, _, ⟨rfl, rfl⟩, rfl⟩

theorem succeeds_resolveGiven (values : FieldValues) (names : List String) (target : Target)
    (state : RunState) : Succeeds context (resolveGiven values names target) state := by
  induction names generalizing target state with
  | nil => exact (yields_pure_iff.mpr ⟨rfl, rfl⟩).succeeds
  | cons name rest inductionHypothesis =>
      rw [resolveGiven]
      split
      · apply succeeds_bind (yields_resolveAndCache_iff.mpr ⟨rfl, rfl⟩)
        exact inductionHypothesis _ _
      · exact inductionHypothesis _ _

theorem succeeds_spawn (cls : ClassId) (id : String) (selector : Selector) (values : FieldValues)
    (isWeak : Bool) (state : RunState) :
    Succeeds context (spawn cls id selector values isWeak) state := by
  have resolves : Succeeds context
      (resolveGiven values selector.names (state.next cls id selector isWeak).wish)
      (state.begun (state.next cls id selector isWeak)) := succeeds_resolveGiven _ _ _ _
  obtain ⟨target, resolved, given⟩ := resolves
  exact ⟨_, _, yields_spawn_iff.mpr ⟨rfl, target, resolved, given, rfl⟩⟩

theorem yields_giveUp_iff :
    Yields context (giveUp target) before continued after ↔
      target.isWeak = true ∧ continued = { target with unresolved := [] } ∧
        after = before.forgotten target := by
  unfold giveUp
  split
  · rename_i isWeak
    simp only [update, yields_bind_iff, yields_modify_iff, yields_pure_iff]
    constructor
    · rintro ⟨_, _, rfl, rfl, rfl⟩
      exact ⟨isWeak, rfl, rfl⟩
    · rintro ⟨_, rfl, rfl⟩
      exact ⟨⟨⟩, _, rfl, rfl, rfl⟩
  · rename_i isStrong
    simp only [yields_bind_iff, yields_className_iff, not_yields_throw, and_false, exists_false,
      false_iff]
    exact fun weak => isStrong weak.1

theorem quiet_giveUp (done : Yields context (giveUp target) before continued after) :
    target.Continues continued ∧ continued.unresolved = [] ∧ before.Quiet after := by
  obtain ⟨_, rfl, rfl⟩ := yields_giveUp_iff.mp done
  exact ⟨⟨rfl, rfl, rfl, rfl, List.nil_sublist _⟩, rfl, _, _, _, _, rfl⟩

theorem quiet_resolveFetched {values : FieldValues} {names : List String}
    (nodup : target.unresolved.Nodup)
    (done : Yields context (resolveFetched path values names target) before continued after) :
    target.Continues continued ∧ (∀ name ∈ names, name ∉ continued.unresolved) ∧
      before.Quiet after := by
  induction names generalizing before target with
  | nil =>
      obtain ⟨rfl, rfl⟩ := yields_pure_iff.mp done
      exact ⟨.refl _, by simp, .refl _⟩
  | cons name rest inductionHypothesis =>
      simp only [resolveFetched] at done
      split at done
      · split at done
        · obtain ⟨resolved, middle, first, remaining⟩ := yields_bind_iff.mp done
          obtain ⟨continues, quiet⟩ := quiet_resolveAndCache first
          obtain ⟨rfl, _⟩ := yields_resolveAndCache_iff.mp first
          obtain ⟨continuesToo, gone, quietToo⟩ :=
            inductionHypothesis (continues.unresolved.nodup nodup) remaining
          refine ⟨continues.trans continuesToo, ?_, quiet.trans quietToo⟩
          intro other member
          rcases List.mem_cons.mp member with rfl | inRest
          · exact fun left => nodup.not_mem_erase (continuesToo.unresolved.subset left)
          · exact gone other inRest
        · exact absurd done not_yields_throw
      · rename_i resolved
        obtain ⟨continues, gone, quiet⟩ := inductionHypothesis nodup done
        refine ⟨continues, ?_, quiet⟩
        intro other member
        rcases List.mem_cons.mp member with rfl | inRest
        · exact fun left => resolved (by simpa using continues.unresolved.subset left)
        · exact gone other inRest

/-- A settled target has none of the fields that were fetched for it left. -/
theorem quiet_settle {names : List String} {results : FetchResults}
    (nodup : target.unresolved.Nodup)
    (done : Yields context (settle path names results target) before continued after) :
    target.Continues continued ∧ (∀ name ∈ names, name ∉ continued.unresolved) ∧
      before.Quiet after := by
  have given (finished : Yields context (giveUp target) before continued after) :
      target.Continues continued ∧ (∀ name ∈ names, name ∉ continued.unresolved) ∧
        before.Quiet after := by
    obtain ⟨continues, none, quiet⟩ := quiet_giveUp finished
    exact ⟨continues, by simp [none], quiet⟩
  unfold settle at done
  split at done
  · exact quiet_resolveFetched nodup done
  · exact given done
  · exact given done

def settleAt (path : String) (names : List String) (results : FetchResults) (chosen : List Nat)
    (position : Nat) (target : Target) : Run Target :=
  if chosen.contains position then settle path names results target else pure target

theorem settleChosen_cons (path : String) (names : List String) (results : FetchResults)
    (chosen : List Nat) (position : Nat) (target : Target) (rest : List Target) :
    settleChosen path names results chosen position (target :: rest) = (do
      let settled ← settleAt path names results chosen position target
      let others ← settleChosen path names results chosen (position + 1) rest
      return settled :: others) := by
  unfold settleAt
  rw [settleChosen]
  split <;> rfl

theorem quiet_settleAt {names : List String} {results : FetchResults} {chosen : List Nat}
    {position : Nat} (nodup : target.unresolved.Nodup)
    (done : Yields context (settleAt path names results chosen position target) before continued
      after) :
    target.Continues continued ∧ before.Quiet after ∧
      (position ∈ chosen → ∀ name ∈ names, name ∉ continued.unresolved) := by
  unfold settleAt at done
  split at done
  · obtain ⟨continues, gone, quiet⟩ := quiet_settle nodup done
    exact ⟨continues, quiet, fun _ => gone⟩
  · rename_i other
    obtain ⟨rfl, rfl⟩ := yields_pure_iff.mp done
    exact ⟨.refl _, .refl _, fun chosen => absurd chosen (by simpa using other)⟩

theorem quiet_settleChosen {names : List String} {results : FetchResults} {chosen : List Nat}
    {position : Nat} {pool settled : List Target} (nodup : ∀ target ∈ pool, target.unresolved.Nodup)
    (done : Yields context (settleChosen path names results chosen position pool) before settled
      after) :
    List.Forall₂ Target.Continues pool settled ∧ before.Quiet after ∧
      ∀ (index : Nat) (target : Target), pool[index]? = some target → position + index ∈ chosen →
        ∃ continued, settled[index]? = some continued ∧
          ∀ name ∈ names, name ∉ continued.unresolved := by
  induction pool generalizing position before settled with
  | nil =>
      obtain ⟨rfl, rfl⟩ := yields_pure_iff.mp done
      exact ⟨.nil, .refl _, by simp⟩
  | cons target rest inductionHypothesis =>
      rw [settleChosen_cons] at done
      simp only [yields_bind_iff, yields_pure_iff] at done
      obtain ⟨continued, middle, first, others, _, remaining, rfl, rfl⟩ := done
      obtain ⟨continues, quiet, gone⟩ := quiet_settleAt (nodup target (by simp)) first
      obtain ⟨all, quietToo, goneToo⟩ :=
        inductionHypothesis (fun other member => nodup other (by simp [member])) remaining
      refine ⟨.cons continues all, quiet.trans quietToo, ?_⟩
      intro index found at_ isChosen
      cases index with
      | zero => exact ⟨continued, rfl, gone isChosen⟩
      | succ index =>
          refine goneToo index found at_ ?_
          rwa [Nat.add_right_comm, Nat.add_assoc]

/-- What each step of a traversal does to a state and finds is what the whole traversal does. -/
theorem yields_mapM {α β : Type} {step : α → Run β} (valid : RunState → Prop)
    (leads : RunState → RunState → Prop) (found : RunState → α → β → Prop)
    (refl : ∀ state, leads state state)
    (trans : ∀ {before middle after}, leads before middle → leads middle after →
      leads before after)
    (keeps : ∀ {before after one other}, leads before after → found before one other →
      found after one other)
    {ones : List α} {others : List β}
    (each : ∀ {one before other after}, one ∈ ones → valid before →
      Yields context (step one) before other after →
        valid after ∧ leads before after ∧ found after one other)
    (start : valid before) (done : Yields context (ones.mapM step) before others after) :
    valid after ∧ leads before after ∧ List.Forall₂ (found after) ones others := by
  induction ones generalizing before others with
  | nil =>
      rw [List.mapM_nil] at done
      obtain ⟨rfl, rfl⟩ := yields_pure_iff.mp done
      exact ⟨start, refl _, .nil⟩
  | cons one rest inductionHypothesis =>
      rw [List.mapM_cons] at done
      simp only [yields_bind_iff, yields_pure_iff] at done
      obtain ⟨other, middle, first, others, _, remaining, rfl, rfl⟩ := done
      obtain ⟨validMiddle, later, pair⟩ := each List.mem_cons_self start first
      obtain ⟨validAfter, laterToo, pairs⟩ := inductionHypothesis
        (fun member => each (List.mem_cons_of_mem _ member)) validMiddle remaining
      exact ⟨validAfter, trans later laterToo, .cons (keeps laterToo pair) pairs⟩

/-- What holds of each entity that a value is taken over with holds of the whole value. -/
theorem yields_traverseEntities {ε τ : Type} {visit : ε → Run τ} (valid : RunState → Prop)
    (leads : RunState → RunState → Prop) (found : RunState → ε → τ → Prop)
    (refl : ∀ state, leads state state)
    (trans : ∀ {before middle after}, leads before middle → leads middle after →
      leads before after)
    (keeps : ∀ {before after one other}, leads before after → found before one other →
      found after one other)
    {value : FieldValue ε} {result : FieldValue τ}
    (each : ∀ {one before other after}, one ∈ value.entities → valid before →
      Yields context (visit one) before other after →
        valid after ∧ leads before after ∧ found after one other)
    (start : valid before) (done : Yields context (value.traverseEntities visit) before result after) :
    valid after ∧ leads before after ∧ value.Rel (found after) result := by
  cases value with
  | missing =>
      obtain ⟨rfl, rfl⟩ := yields_pure_iff.mp done
      exact ⟨start, refl _, .missing⟩
  | scalar scalar =>
      obtain ⟨rfl, rfl⟩ := yields_pure_iff.mp done
      exact ⟨start, refl _, .scalar scalar⟩
  | entity one =>
      simp only [FieldValue.traverseEntities, yields_bind_iff, yields_pure_iff] at done
      obtain ⟨other, _, visited, rfl, rfl⟩ := done
      obtain ⟨validAfter, later, pair⟩ := each List.mem_cons_self start visited
      exact ⟨validAfter, later, .entity pair⟩
  | optional one? =>
      cases one? with
      | none =>
          obtain ⟨rfl, rfl⟩ := yields_pure_iff.mp done
          exact ⟨start, refl _, .optional .none⟩
      | some one =>
          simp only [FieldValue.traverseEntities, yields_bind_iff, yields_pure_iff] at done
          obtain ⟨other, _, visited, rfl, rfl⟩ := done
          obtain ⟨validAfter, later, pair⟩ := each List.mem_cons_self start visited
          exact ⟨validAfter, later, .optional (.some pair)⟩
  | list ones =>
      simp only [FieldValue.traverseEntities, yields_bind_iff, yields_pure_iff] at done
      obtain ⟨others, _, visited, rfl, rfl⟩ := done
      obtain ⟨validAfter, later, pairs⟩ :=
        yields_mapM valid leads found refl trans keeps each start visited
      exact ⟨validAfter, later, .list pairs⟩
  | map ones =>
      simp only [FieldValue.traverseEntities, yields_bind_iff, yields_pure_iff] at done
      obtain ⟨others, _, visited, rfl, rfl⟩ := done
      have eachEntry {one : String × ε} {before : RunState} {other : String × τ}
          {after : RunState} (member : one ∈ ones) (start : valid before)
          (done : Yields context (do return (one.1, ← visit one.2)) before other after) :
          valid after ∧ leads before after ∧ one.1 = other.1 ∧ found after one.2 other.2 := by
        simp only [yields_bind_iff, yields_pure_iff] at done
        obtain ⟨inner, _, first, rfl, rfl⟩ := done
        obtain ⟨validAfter, later, pair⟩ := each (List.mem_map_of_mem member) start first
        exact ⟨validAfter, later, rfl, pair⟩
      have keepsEntry {before after : RunState} {one : String × ε} {other : String × τ}
          (later : leads before after) (pair : one.1 = other.1 ∧ found before one.2 other.2) :
          one.1 = other.1 ∧ found after one.2 other.2 :=
        ⟨pair.1, keeps later pair.2⟩
      obtain ⟨validAfter, later, pairs⟩ := yields_mapM valid leads
        (fun state one other => one.1 = other.1 ∧ found state one.2 other.2) refl trans keepsEntry
        eachEntry start visited
      exact ⟨validAfter, later, .map pairs⟩

/-- A trail that each step leaves what it finds on has all that is found, in order. -/
theorem trail_mapM {α β γ : Type} {step : α → Run β} (project : β → γ) (trail : RunState → List γ)
    (each : ∀ {one before other after}, Yields context (step one) before other after →
      trail after = trail before ++ [project other])
    {ones : List α} {others : List β} (done : Yields context (ones.mapM step) before others after) :
    trail after = trail before ++ others.map project := by
  induction ones generalizing before others with
  | nil =>
      rw [List.mapM_nil] at done
      obtain ⟨rfl, rfl⟩ := yields_pure_iff.mp done
      simp
  | cons one rest inductionHypothesis =>
      rw [List.mapM_cons] at done
      simp only [yields_bind_iff, yields_pure_iff] at done
      obtain ⟨other, middle, first, others, _, remaining, rfl, rfl⟩ := done
      rw [inductionHypothesis remaining, each first, List.map_cons, List.append_assoc,
        List.singleton_append]

theorem trail_traverseEntities {ε τ : Type} {visit : ε → Run τ} (trail : RunState → List τ)
    (each : ∀ {one before other after}, Yields context (visit one) before other after →
      trail after = trail before ++ [other])
    {value : FieldValue ε} {result : FieldValue τ}
    (done : Yields context (value.traverseEntities visit) before result after) :
    trail after = trail before ++ result.entities := by
  cases value with
  | missing | scalar _ =>
      obtain ⟨rfl, rfl⟩ := yields_pure_iff.mp done
      exact (List.append_nil _).symm
  | entity one =>
      simp only [FieldValue.traverseEntities, yields_bind_iff, yields_pure_iff] at done
      obtain ⟨other, _, visited, rfl, rfl⟩ := done
      exact each visited
  | optional one? =>
      cases one? with
      | none =>
          obtain ⟨rfl, rfl⟩ := yields_pure_iff.mp done
          exact (List.append_nil _).symm
      | some one =>
          simp only [FieldValue.traverseEntities, yields_bind_iff, yields_pure_iff] at done
          obtain ⟨other, _, visited, rfl, rfl⟩ := done
          exact each visited
  | list ones =>
      simp only [FieldValue.traverseEntities, yields_bind_iff, yields_pure_iff] at done
      obtain ⟨others, _, visited, rfl, rfl⟩ := done
      simpa [FieldValue.entities] using trail_mapM id trail each visited
  | map ones =>
      simp only [FieldValue.traverseEntities, yields_bind_iff, yields_pure_iff] at done
      obtain ⟨others, _, visited, rfl, rfl⟩ := done
      apply trail_mapM Prod.snd trail ?_ visited
      intro one before other after entry
      simp only [yields_bind_iff, yields_pure_iff] at entry
      obtain ⟨inner, _, first, rfl, rfl⟩ := entry
      exact each first

theorem succeeds_mapM {α β : Type} {step : α → Run β}
    (each : ∀ one state, Succeeds context (step one) state) (ones : List α) (state : RunState) :
    Succeeds context (ones.mapM step) state := by
  induction ones generalizing state with
  | nil => exact ⟨_, _, yields_pure_iff.mpr ⟨rfl, rfl⟩⟩
  | cons one rest inductionHypothesis =>
      obtain ⟨other, middle, first⟩ := each one state
      obtain ⟨others, after, remaining⟩ := inductionHypothesis middle
      refine ⟨other :: others, after, ?_⟩
      rw [List.mapM_cons]
      simp only [yields_bind_iff, yields_pure_iff]
      exact ⟨other, middle, first, others, after, remaining, rfl, rfl⟩

theorem succeeds_traverseEntities {ε τ : Type} {visit : ε → Run τ}
    (each : ∀ one state, Succeeds context (visit one) state) (value : FieldValue ε)
    (state : RunState) : Succeeds context (value.traverseEntities visit) state := by
  have ofBind {α β : Type} {step : Run α} {wrap : α → β} (first : Succeeds context step state) :
      Succeeds context (do return wrap (← step)) state := by
    obtain ⟨other, after, done⟩ := first
    exact succeeds_bind done (yields_pure_iff.mpr ⟨rfl, rfl⟩).succeeds
  cases value with
  | missing | scalar _ => exact ⟨_, _, yields_pure_iff.mpr ⟨rfl, rfl⟩⟩
  | entity one => exact ofBind (each one state)
  | optional one? =>
      cases one? with
      | none => exact ⟨_, _, yields_pure_iff.mpr ⟨rfl, rfl⟩⟩
      | some one => exact ofBind (each one state)
  | list ones => exact ofBind (succeeds_mapM each ones state)
  | map ones =>
      refine ofBind (succeeds_mapM (fun one state => ?_) ones state)
      obtain ⟨other, after, done⟩ := each one.2 state
      exact succeeds_bind done (yields_pure_iff.mpr ⟨rfl, rfl⟩).succeeds

theorem quiet_alloc {cls : ClassId} {id : Option String} {values : FieldValues} {entity : Handle}
    (done : Yields context (alloc cls id values) before entity after) : before.Quiet after := by
  obtain ⟨_, rfl⟩ := yields_alloc_iff.mp done
  exact ⟨_, _, _, _, rfl⟩

theorem quiet_resolveCached {served : List (String × FieldValue String)}
    (done : Yields context (resolveCached served target) before continued after) :
    target.Continues continued ∧ before.Quiet after := by
  induction served generalizing before target with
  | nil =>
      obtain ⟨rfl, rfl⟩ := yields_pure_iff.mp done
      exact ⟨.refl _, .refl _⟩
  | cons entry rest inductionHypothesis =>
      obtain ⟨name, kept⟩ := entry
      simp only [resolveCached, yields_bind_iff, yields_schema_iff] at done
      obtain ⟨_, _, ⟨rfl, rfl⟩, done⟩ := done
      split at done
      · exact inductionHypothesis done
      · simp only [yields_bind_iff, yields_resolve_iff, yields_modify_iff] at done
        obtain ⟨value, referenced, traversed, _, _, ⟨rfl, rfl⟩, _, _, rfl, remaining⟩ := done
        have quiet := (yields_traverseEntities (fun _ => True) RunState.Quiet (fun _ _ _ => True)
          .refl .trans (fun _ pair => pair)
          (fun _ _ done => ⟨trivial, quiet_alloc done, trivial⟩) trivial traversed).2.1
        obtain ⟨continues, quietToo⟩ := inductionHypothesis remaining
        refine ⟨(target.continues_without name).trans continues, quiet.trans ?_⟩
        exact (RunState.quiet_stored _ _ _ _ _).trans
          (RunState.Quiet.trans ⟨_, _, _, _, rfl⟩ quietToo)

/-- The cache can serve what is unresolved, with nothing selected below it, and kept. -/
theorem mem_servable_iff {state : RunState} {name : String} {kept : FieldValue String} :
    (name, kept) ∈ servable state target ↔ name ∈ target.unresolved ∧
      (target.selector.subselector? name).all Selector.isEmpty = true ∧
        state.cached? target.cls target.id name = some kept := by
  unfold servable
  rw [List.mem_filterMap]
  constructor
  · rintro ⟨other, wanted, found⟩
    split at found
    · rename_i plain
      obtain ⟨value, cached, same⟩ := Option.map_eq_some_iff.mp found
      cases same
      exact ⟨wanted, plain, cached⟩
    · cases found
  · rintro ⟨wanted, plain, cached⟩
    exact ⟨name, wanted, by rw [if_pos plain, cached]; rfl⟩

theorem quiet_sweepPool {pool swept : List Target}
    (done : Yields context (sweepPool pool) before swept after) :
    List.Forall₂ Target.Continues pool swept ∧ before.Quiet after := by
  induction pool generalizing before swept with
  | nil =>
      obtain ⟨rfl, rfl⟩ := yields_pure_iff.mp done
      exact ⟨.nil, .refl _⟩
  | cons target rest inductionHypothesis =>
      simp only [sweepPool, yields_bind_iff, yields_get_iff, yields_pure_iff] at done
      obtain ⟨_, _, ⟨rfl, rfl⟩, continued, middle, first, others, _, remaining, rfl, rfl⟩ := done
      obtain ⟨continues, quiet⟩ := quiet_resolveCached first
      obtain ⟨all, quietToo⟩ := inductionHypothesis remaining
      exact ⟨.cons continues all, quiet.trans quietToo⟩

theorem quiet_sweepPools {pools swept : List (ClassId × List Target)}
    (done : Yields context (sweepPools pools) before swept after) :
    List.Forall₂ (fun old new => new.1 = old.1 ∧ List.Forall₂ Target.Continues old.2 new.2) pools
      swept ∧ before.Quiet after := by
  induction pools generalizing before swept with
  | nil =>
      obtain ⟨rfl, rfl⟩ := yields_pure_iff.mp done
      exact ⟨.nil, .refl _⟩
  | cons entry rest inductionHypothesis =>
      obtain ⟨cls, pool⟩ := entry
      simp only [sweepPools, yields_bind_iff, yields_pure_iff] at done
      obtain ⟨continued, middle, first, others, _, remaining, rfl, rfl⟩ := done
      obtain ⟨all, quiet⟩ := quiet_sweepPool first
      obtain ⟨allToo, quietToo⟩ := inductionHypothesis remaining
      exact ⟨.cons ⟨rfl, all⟩ allToo, quiet.trans quietToo⟩

end Run

end EntityResolver
