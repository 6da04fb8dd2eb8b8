import EntityResolver.Proofs.Run.History
import EntityResolver.Proofs.Run.Invariant

/-!
References in the arena lead to entities and never in a circle.

What one fetch spawns refers only to what the fetch has spawned before, and it is referred to from
older entities once the targets are settled. So entities are ranked by fetch, the last fetch lowest,
and by age within one.
-/

set_option autoImplicit false

namespace EntityResolver

structure Falls (arena : Array EntityRecord) (rank : Nat → Nat) : Prop where
  bounded : ∀ index < arena.size, rank index < arena.size
  falls : ∀ (index : Nat) record, arena[index]? = some record →
    ∀ name value, (name, value) ∈ record.values → ∀ entity ∈ value.entities,
      entity.index < arena.size ∧ rank entity.index < rank index

/-- Following references comes to an end. -/
def Ranked (arena : Array EntityRecord) : Prop :=
  ∃ rank, Falls arena rank

/-- The old entities are as they were, and new ones refer to new ones that are older. -/
structure Layered (base arena : Array EntityRecord) : Prop where
  size : base.size ≤ arena.size
  old : ∀ index < base.size, arena[index]? = base[index]?
  new : ∀ (index : Nat) record, base.size ≤ index → arena[index]? = some record →
    ∀ name value, (name, value) ∈ record.values → ∀ entity ∈ value.entities,
      base.size ≤ entity.index ∧ entity.index < index

variable {base arena : Array EntityRecord} {rank : Nat → Nat}

theorem Layered.refl (arena : Array EntityRecord) : Layered arena arena where
  size := Nat.le_refl _
  old _ _ := rfl
  new index record outside found := by
    have inside := (Array.getElem?_eq_some_iff.mp found).1
    omega

theorem Falls.extend (falls : Falls base rank) (layered : Layered base arena) :
    ∃ wider, Falls arena wider ∧ ∀ old < base.size, ∀ new, base.size ≤ new → new < arena.size →
      wider new < wider old := by
  have grown := layered.size
  -- New entities keep the order of the arena among themselves. All old ones move up above them.
  let wider (index : Nat) : Nat :=
    if index < base.size then rank index + (arena.size - base.size) else index - base.size
  have wider_old {index : Nat} (inside : index < base.size) :
      wider index = rank index + (arena.size - base.size) := if_pos inside
  have wider_new {index : Nat} (outside : base.size ≤ index) :
      wider index = index - base.size := if_neg (Nat.not_lt.mpr outside)
  refine ⟨wider, ⟨fun index inside => ?_, fun index record found name value stored entity member =>
    ?_⟩, fun old inside new outside insideToo => ?_⟩
  · by_cases isOld : index < base.size
    · have bound := falls.bounded index isOld
      rw [wider_old isOld]
      omega
    · rw [wider_new (Nat.not_lt.mp isOld)]
      omega
  · by_cases isOld : index < base.size
    · rw [layered.old index isOld] at found
      obtain ⟨inside, less⟩ := falls.falls index record found name value stored entity member
      rw [wider_old isOld, wider_old inside]
      omega
    · obtain ⟨fresh, less⟩ := layered.new index record (Nat.not_lt.mp isOld) found name value
        stored entity member
      have inside := (Array.getElem?_eq_some_iff.mp found).1
      rw [wider_new (Nat.not_lt.mp isOld), wider_new fresh]
      omega
  · rw [wider_old inside, wider_new outside]
    omega

/-- A record is changed so that it still refers to entities of lower rank only. -/
theorem Falls.modify (falls : Falls arena rank) {position : Nat}
    {change : EntityRecord → EntityRecord}
    (own : ∀ record, arena[position]? = some record →
      ∀ name value, (name, value) ∈ (change record).values → ∀ entity ∈ value.entities,
        entity.index < arena.size ∧ rank entity.index < rank position) :
    Falls (arena.modify position change) rank := by
  refine ⟨by simpa using falls.bounded, fun index record found => ?_⟩
  rw [Array.size_modify]
  rw [Array.getElem?_modify] at found
  split at found
  · rename_i same
    subst same
    obtain ⟨old, foundOld, rfl⟩ := Option.map_eq_some_iff.mp found
    exact own old foundOld
  · exact falls.falls index record found

theorem Falls.store (falls : Falls arena rank) {target : Handle} {name : String}
    {value : FieldValue Handle}
    (below : ∀ entity ∈ value.entities,
      entity.index < arena.size ∧ rank entity.index < rank target.index) :
    Falls (arena.modify target.index fun record =>
      { record with values := record.values.set name value }) rank := by
  refine falls.modify fun record found other stored member entity inValue => ?_
  rcases OrderedMap.mem_set member with same | old
  · cases same
    exact below entity inValue
  · exact falls.falls _ record found other stored old entity inValue

theorem Layered.push {record : EntityRecord} (layered : Layered base arena)
    (below : ∀ name value, (name, value) ∈ record.values → ∀ entity ∈ value.entities,
      base.size ≤ entity.index ∧ entity.index < arena.size) :
    Layered base (arena.push record) := by
  have size := layered.size
  refine ⟨by simp; omega, fun index inside => ?_, fun index other outside found => ?_⟩
  · rw [Array.getElem?_push, if_neg (by omega)]
    exact layered.old index inside
  · rw [Array.getElem?_push] at found
    split at found
    · rename_i last
      cases found
      exact last ▸ below
    · exact layered.new index other outside found

theorem Layered.store {target : Handle} {name : String} {value : FieldValue Handle}
    (layered : Layered base arena) (isNew : base.size ≤ target.index)
    (below : ∀ entity ∈ value.entities,
      base.size ≤ entity.index ∧ entity.index < target.index) :
    Layered base (arena.modify target.index fun record =>
      { record with values := record.values.set name value }) := by
  refine ⟨by simpa using layered.size, fun index inside => ?_, fun index record outside found => ?_⟩
  · rw [Array.getElem?_modify, if_neg (by omega)]
    exact layered.old index inside
  · rw [Array.getElem?_modify] at found
    split at found
    · rename_i same
      subst same
      obtain ⟨old, foundOld, rfl⟩ := Option.map_eq_some_iff.mp found
      intro other stored member entity inValue
      rcases OrderedMap.mem_set member with equal | inOld
      · cases equal
        exact below entity inValue
      · exact layered.new _ old outside foundOld other stored inOld entity inValue
    · exact layered.new index record outside found

theorem Falls.of_layered (layered : Layered #[] arena) : Falls arena id := by
  refine ⟨fun index inside => inside, fun index record found name value stored entity member => ?_⟩
  obtain ⟨_, less⟩ := layered.new index record (Nat.zero_le _) found name value stored entity member
  have inside := (Array.getElem?_eq_some_iff.mp found).1
  exact ⟨less.trans inside, less⟩

structure RunState.Holding (state : RunState) : Prop where
  origins : ∀ origin ∈ state.origins, origin.entity.index < state.arena.size
  outputs : ∀ entities ∈ state.outputs, ∀ entity ∈ entities, entity.index < state.arena.size
  targets : ∀ target ∈ state.waiting, target.entity.index < state.arena.size

namespace RunState

variable {before after : RunState}

theorem Holding.quiet (holding : before.Holding) (quiet : before.Quiet after)
    (size : before.arena.size ≤ after.arena.size) : after.Holding := by
  obtain ⟨_, _, _, _, rfl⟩ := quiet
  refine ⟨fun origin member => ?_, fun entities member entity inside => ?_, fun target member => ?_⟩
  · exact (holding.origins origin member).trans_le size
  · exact (holding.outputs entities member entity inside).trans_le size
  · exact (holding.targets target member).trans_le size

theorem Holding.regroup (holding : before.Holding) (arena : after.arena = before.arena)
    (origins : after.origins = before.origins) (outputs : after.outputs = before.outputs)
    (targets : ∀ target ∈ after.waiting, target.entity.index < before.arena.size) :
    after.Holding where
  origins := by
    rw [arena, origins]
    exact holding.origins
  outputs := by
    rw [arena, outputs]
    exact holding.outputs
  targets := by
    rw [arena]
    exact targets

theorem quiet_learned (schema : Schema) (state : RunState) (target : Target) (name : String)
    (value : FieldValue Handle) : state.Quiet (state.learned schema target name value) :=
  (quiet_kept _ _ _ _ _).trans (quiet_stored _ _ _ _ _)

theorem materialize_congr {schema : Schema} (entity : Handle) (arena : after.arena = before.arena) :
    after.materialize schema entity = before.materialize schema entity := by
  have same (depth : Nat) : after.tree schema depth = before.tree schema depth := by
    induction depth with
    | zero =>
        funext entity
        simp only [tree, record?, arena]
    | succ depth inductionHypothesis =>
        funext entity
        simp only [tree, record?, arena, inductionHypothesis]
  rw [materialize, materialize, same, arena]

end RunState

namespace Run

variable {context : RunContext} {before after : RunState} {target continued : Target}
variable {path : String} {names : List String} {values : FieldValues} {results : FetchResults}

/-- Since the events of `base` the ranks have fallen along references, while no entity came in. -/
structure Settling (rank : Nat → Nat) (base : List Event) (size : Nat) (state : RunState) :
    Prop where
  falls : Recorded (fun arena => Falls arena rank) base state
  size : state.arena.size = size
  holding : state.Holding

theorem settles_of_below {rank : Nat → Nat} {base : List Event} {size : Nat}
    (below : ∀ values, (target.id, .found values) ∈ results →
      ∀ name value, (name, value) ∈ values → ∀ entity ∈ value.entities,
        entity.index < size ∧ rank entity.index < rank target.entity.index) :
    Settles context (Settling rank base size) names results target where
  stores := by
    intro state continued values name value continues found _ _ member settling
    have size : (state.learned context.catalog.schema continued name value).arena.size =
        state.arena.size := by
      rw [RunState.arena_learned, Array.size_modify]
    refine ⟨?_, size.trans settling.size, ?_⟩
    · apply settling.falls.log (RunState.arena_learned ..) (RunState.events_learned ..)
      rw [RunState.arena_learned]
      apply settling.falls.now.store
      rw [continues.entity, settling.size]
      exact below values found name value member
    · exact settling.holding.quiet (RunState.quiet_learned ..) size.ge
  forgets := by
    intro state settling
    have size : (state.forgotten target).arena.size = state.arena.size := Array.size_modify
    refine ⟨?_, size.trans settling.size, settling.holding.quiet ⟨_, _, _, _, rfl⟩ size.ge⟩
    apply settling.falls.log rfl rfl
    change Falls (state.arena.modify target.entity.index fun record => { record with id := none })
      rank
    apply settling.falls.now.modify
    exact fun record found => settling.falls.now.falls target.entity.index record found

structure Layering (base : List Event) (state : RunState) : Prop where
  layered : Recorded (Layered (arenaAfter base)) base state
  holding : state.Holding

def InLayer (base : List Event) (state : RunState) (entity : Handle) : Prop :=
  (arenaAfter base).size ≤ entity.index ∧ entity.index < state.arena.size

def AllInLayer (base : List Event) (state : RunState) (values : FieldValues) : Prop :=
  ∀ name value, (name, value) ∈ values → ∀ entity ∈ value.entities, InLayer base state entity

variable {base : List Event}

theorem InLayer.grow {entity : Handle} (inLayer : InLayer base before entity)
    (later : before.arena.size ≤ after.arena.size) : InLayer base after entity :=
  ⟨inLayer.1, inLayer.2.trans_le later⟩

theorem allInLayer_nil (base : List Event) (state : RunState) : AllInLayer base state [] :=
  fun _ _ member => absurd member List.not_mem_nil

theorem layering_alloc {cls : ClassId} {id : Option String} {entity : Handle}
    (layering : Layering base before) (below : AllInLayer base before values)
    (done : Yields context (alloc cls id values) before entity after) :
    Layering base after ∧ before.arena.size ≤ after.arena.size ∧ InLayer base after entity := by
  obtain ⟨rfl, rfl⟩ := yields_alloc_iff.mp done
  have layered := layering.layered.now
  have size : (before.allocated ⟨cls, id, values⟩).arena.size = before.arena.size + 1 :=
    Array.size_push _
  refine ⟨⟨?_, ?_⟩, by omega, layered.size, by simp [size]⟩
  · apply layering.layered.log rfl rfl
    exact layered.push below
  · exact layering.holding.quiet ⟨_, _, _, _, rfl⟩ (by omega)

theorem layering_spawn {cls : ClassId} {id : String} {selector : Selector} {isWeak : Bool}
    {entity : Handle} (layering : Layering base before) (below : AllInLayer base before values)
    (done : Yields context (spawn cls id selector values isWeak) before entity after) :
    Layering base after ∧ before.arena.size ≤ after.arena.size ∧ InLayer base after entity := by
  obtain ⟨rfl, target, resolved, given, rfl⟩ := yields_spawn_iff.mp done
  let size := before.arena.size
  let origin := before.next cls id selector isWeak
  have allocated : Yields context (alloc cls (some id) []) before ⟨size⟩
      (before.allocated ⟨cls, some id, []⟩) := yields_alloc_iff.mpr ⟨rfl, rfl⟩
  obtain ⟨begun, _⟩ := layering_alloc layering (allInLayer_nil _ _) allocated
  let spawning (state : RunState) : Prop := Layering base state ∧ state.arena.size = size + 1
  have started : spawning (before.begun origin) := by
    refine ⟨⟨begun.layered.congr rfl rfl, ?_, begun.holding.outputs, begun.holding.targets⟩,
      Array.size_push _⟩
    intro other member
    rcases List.mem_cons.mp member with rfl | old
    · exact (Array.size_push _).symm ▸ Nat.lt_succ_self size
    · exact begun.holding.origins other old
  have resolving : spawning resolved := by
    apply invariant_resolveGiven ?_ started given
    intro state other name value continues _ member ⟨spawning, grown⟩
    have grownToo : (state.learned context.catalog.schema other name value).arena.size =
        state.arena.size := by
      rw [RunState.arena_learned, Array.size_modify]
    have own : other.entity.index = size := congrArg Handle.index continues.entity
    refine ⟨⟨?_, ?_⟩, grownToo.trans grown⟩
    · apply spawning.layered.log (RunState.arena_learned ..) (RunState.events_learned ..)
      rw [RunState.arena_learned]
      apply spawning.layered.now.store
      · rw [own]
        exact layering.layered.now.size
      · rw [own]
        exact below name value member
    · exact spawning.holding.quiet (RunState.quiet_learned ..) grownToo.ge
  obtain ⟨layered, grown⟩ := resolving
  have own : target.entity.index = size :=
    congrArg Handle.index (quiet_resolveGiven given).1.entity
  have enlisted : (resolved.enlisted target).Holding := by
    refine layered.holding.regroup rfl rfl rfl fun other member => ?_
    rcases mem_waiting_enlisted member with old | rfl
    · exact layered.holding.targets other old
    · rw [own, grown]
      exact Nat.lt_succ_self size
  have after : (resolved.enlisted target).arena.size = size + 1 := grown
  refine ⟨⟨layered.layered.congr rfl rfl, enlisted⟩, ?_, layering.layered.now.size, ?_⟩
  · omega
  · exact after ▸ Nat.lt_succ_self size

theorem layering_start (calls : List Call) : Layering [] { calls := calls } := by
  refine ⟨⟨rfl, List.suffix_refl _, fun _ _ earlier => ?_⟩, by simp, by simp,
    by simp [RunState.waiting, RunState.pooled]⟩
  exact List.suffix_nil.mp earlier ▸ .refl _

def layering (context : RunContext) (base : List Event) : Discipline context where
  embeds := True
  given state _ := AllInLayer base state
  admits _ _ := True
  invariant := Layering base
  leads before after := before.arena.size ≤ after.arena.size
  serves state _ _ entity := InLayer base state entity
  knows state entity := entity.index < state.arena.size
  refl _ := Nat.le_refl _
  trans := Nat.le_trans
  keeps later serve := serve.grow later
  known serve := serve.2
  remains later known := known.trans_le later
  below _ _ _ := trivial
  spawns := by
    intro before after cls id selector values entity spawning _ _ brought done
    apply layering_spawn spawning ?_ done
    intro name value member entity inValue
    obtain ⟨_, _, linked⟩ := brought name value member
    obtain ⟨_, _, serve⟩ := linked entity inValue
    exact serve
  roots := by
    intro before after cls id selector values isWeak entity spawning _ below done
    obtain ⟨spawned, size, _⟩ := layering_spawn spawning below done
    exact ⟨spawned, size⟩
  frame calls stats outputs spawning inside := by
    refine ⟨⟨spawning.layered.congr rfl rfl, spawning.holding.origins, ?_,
      spawning.holding.targets⟩,
      Nat.le_refl _⟩
    intro entities member entity listed
    rcases inside entities member entity listed with ⟨old, inOld, listedToo⟩ | known
    · exact spawning.holding.outputs old inOld entity listedToo
    · exact known
  shelves := by
    intro before after cls id sub values entity spawning below done
    have inLayer : AllInLayer base before values := fun name value member other inValue =>
      (below name value member other inValue).choose_spec
    obtain ⟨shelved, size, inLayer⟩ := layering_alloc spawning inLayer done
    exact ⟨shelved, size, inLayer.2⟩

structure Tracked (base : List Event) (size : Nat) (state : RunState) : Prop where
  ranked : Recorded Ranked base state
  size : size ≤ state.arena.size
  holding : state.Holding

/-- With nothing below, references go back in the arena. -/
theorem tracked_of_layering (layering : Layering [] before) : Tracked [] 0 before := by
  refine ⟨⟨layering.layered.replays, layering.layered.since, fun past since earlier => ?_⟩,
    Nat.zero_le _, layering.holding⟩
  exact ⟨id, .of_layered (layering.layered.always past since earlier)⟩

theorem Tracked.regroup (tracked : Tracked [] 0 before) (arena : after.arena = before.arena)
    (events : after.events = before.events) (origins : after.origins = before.origins)
    (outputs : after.outputs = before.outputs)
    (targets : ∀ target ∈ after.waiting, target.entity.index < before.arena.size) :
    Tracked [] 0 after :=
  ⟨tracked.ranked.congr arena events, Nat.zero_le _,
    tracked.holding.regroup arena origins outputs targets⟩

/-- A layer on top keeps what held below. -/
theorem Tracked.layer {size : Nat} (tracked : Tracked base size before)
    (layering : Layering before.events after) : Tracked base size after := by
  have replays := tracked.ranked.replays
  obtain ⟨rank, falls⟩ : Ranked (arenaAfter before.events) := replays ▸ tracked.ranked.now
  have grown := layering.layered.now.size
  rw [← replays] at grown
  refine ⟨?_, tracked.size.trans grown, layering.holding⟩
  apply tracked.ranked.join layering.layered
  intro arena layered
  obtain ⟨wider, fallsWider, _⟩ := falls.extend layered
  exact ⟨wider, fallsWider⟩

theorem layering_restore {cls : ClassId} {kept : FieldValue String} {value : FieldValue Handle}
    (replays : before.arena = arenaAfter before.events) (holding : before.Holding)
    (done : Yields context (kept.traverseEntities fun id => alloc cls (some id) []) before value
      after) :
    Layering before.events after ∧ ∀ entity ∈ value.entities, InLayer before.events after entity := by
  have start : Layering before.events before := ⟨.start replays (replays ▸ .refl _), holding⟩
  obtain ⟨layered, _, same⟩ := yields_traverseEntities (Layering before.events)
    (fun one other => one.arena.size ≤ other.arena.size)
    (fun state (_ : String) entity => InLayer before.events state entity) (fun _ => Nat.le_refl _)
    Nat.le_trans (fun later inLayer => inLayer.grow later)
    (fun _ spawning done => layering_alloc spawning (allInLayer_nil _ _) done) start done
  refine ⟨layered, fun entity member => ?_⟩
  obtain ⟨_, _, inLayer⟩ := same.exists_of_mem member
  exact inLayer

theorem restores_tracked {size : Nat} (inside : target.entity.index < size) :
    Restores context (Tracked base size) target := by
  intro _ state restored continued name field kept value _ _ continues _ tracked traversed
  have replays := tracked.ranked.replays
  obtain ⟨layering, fresh⟩ := layering_restore replays tracked.holding traversed
  have restoredToo := tracked.layer layering
  have within : target.entity.index < (arenaAfter state.events).size := by
    rw [← replays]
    exact inside.trans_le tracked.size
  have grown : (restored.stored .cache continued name value).arena.size = restored.arena.size :=
    Array.size_modify
  refine ⟨?_, restoredToo.size.trans grown.ge, ?_⟩
  · apply restoredToo.ranked.log rfl rfl
    obtain ⟨rank, falls⟩ : Ranked (arenaAfter state.events) := replays ▸ tracked.ranked.now
    obtain ⟨wider, fallsWider, less⟩ := falls.extend layering.layered.now
    refine ⟨wider, fallsWider.store fun entity member => ?_⟩
    obtain ⟨isNew, bound⟩ := fresh entity member
    rw [continues.entity]
    exact ⟨bound, less _ within _ isNew bound⟩
  · exact layering.holding.quiet ⟨_, _, _, _, rfl⟩ grown.ge

theorem tracked_filled (tracked : Tracked [] 0 before) : Tracked [] 0 before.filled :=
  tracked.regroup rfl rfl rfl rfl fun target member =>
    tracked.holding.targets target (mem_waiting_filled member)

/-- The values that the demands give refer to entities that the run has come across by then. -/
def GivesKnown (context : RunContext) (before : RunState) (demands : List Demand) : Prop :=
  ∀ placed demand rest, demands = placed ++ demand :: rest → ∀ state,
    Yields context (Demand.placeAll placed) before () state →
    ∀ name value, (name, value) ∈ demand.values → ∀ entity ∈ value.entities,
      entity.index < state.arena.size

theorem givesKnown_of_nil {demands : List Demand}
    (none : ∀ demand ∈ demands, demand.values = []) : GivesKnown context before demands := by
  rintro placed demand rest rfl state _ name value member
  rw [none demand (by simp)] at member
  cases member

theorem tracked_of_begun {demands : List Demand} {earlier : List Call}
    (gives : GivesKnown context { calls := earlier } demands) :
    Meets context (do Demand.placeAll demands; prepare) { calls := earlier }
      (fun _ => Tracked [] 0) (Tracked [] 0) := by
  let discipline := layering context []
  have ignores : discipline.IgnoresPrerequisites := fun state prerequisites spawning =>
    have holding := spawning.holding
    ⟨⟨spawning.layered.congr rfl rfl, holding.origins, holding.outputs, holding.targets⟩,
      Nat.le_refl _⟩
  have accepted : discipline.AcceptsAll { calls := earlier } demands := by
    refine fun placed demand rest split state done => ⟨?_, fun _ _ => trivial⟩
    intro _ _ name value member entity inValue
    exact ⟨Nat.zero_le _, gives placed demand rest split state done name value member entity inValue⟩
  apply meets_bind_iff.mpr
  apply Meets.mono (discipline.placeAll trivial ignores accepted (layering_start earlier)
    (by simp [Discipline.Awaits]))
  · rintro _ placed ⟨reached, awaits, _⟩
    apply (discipline.prepare trivial ignores reached.valid awaits).mono
    · rintro _ ready ⟨satisfied, settled, _, pooled⟩
      cases yields_poolSpawned_iff.mp pooled
      exact tracked_filled (tracked_of_layering settled.valid)
    · exact fun failed reached => tracked_of_layering reached.valid
  · exact fun failed reached => tracked_of_layering reached.valid

theorem tracked_swept {swept : List (ClassId × List Target)} (tracked : Tracked [] 0 before)
    (sweeps : Yields context (sweepPools before.pools) before swept after) :
    Tracked [] 0 { after with pools := prune swept } := by
  have start : Tracked [] before.arena.size before :=
    ⟨tracked.ranked, Nat.le_refl _, tracked.holding⟩
  have inside : ∀ target ∈ before.pooled, target.entity.index < before.arena.size :=
    fun target member => tracked.holding.targets target (List.mem_append_left _ member)
  have final : Tracked [] before.arena.size after :=
    invariant_sweepPools (fun target member => restores_tracked (inside target member)) start sweeps
  have whole : Tracked [] 0 after := ⟨final.ranked, Nat.zero_le _, final.holding⟩
  refine whole.regroup rfl rfl rfl rfl fun target member => ?_
  obtain ⟨old, waited, continues⟩ := mem_waiting_swept sweeps member
  rw [continues.entity]
  exact (tracked.holding.targets old waited).trans_le final.size

theorem tracked_settled {fetched : RunState} {cls owner : ClassId} {selector : Selector}
    {pool : List Target} {path : String} {results : FetchResults} {chosen : List Nat}
    (tracked : Tracked [] 0 before)
    (inside : ∀ target ∈ pool, target.entity.index < before.arena.size)
    (recent : Layering before.events fetched)
    (delivered : (layering context before.events).Delivered fetched owner selector results) :
    Meets context (settleChosen path names results chosen 0 pool) fetched
      (fun settled last => Tracked [] 0 { last with pools := last.pools ++ prune [(cls, settled)] })
      (Tracked [] 0) := by
  have replays := tracked.ranked.replays
  rw [replays] at inside
  obtain ⟨rank, falls⟩ : Ranked (arenaAfter before.events) := replays ▸ tracked.ranked.now
  -- From here on the ranks stay as they are: settling only links targets with what was fetched.
  obtain ⟨wider, fallsWider, less⟩ := falls.extend recent.layered.now
  have start : Settling wider fetched.events fetched.arena.size fetched :=
    ⟨.start recent.layered.replays fallsWider, rfl, recent.holding⟩
  have ends {state : RunState} (settling : Settling wider fetched.events fetched.arena.size state) :
      Tracked [] 0 state := by
    refine ⟨?_, Nat.zero_le _, settling.holding⟩
    exact (tracked.layer recent).ranked.join settling.falls fun _ falls => ⟨wider, falls⟩
  have settles : ∀ target ∈ pool, Settles context
      (Settling wider fetched.events fetched.arena.size) names results target := by
    intro target member
    apply settles_of_below
    intro values found name value stored entity inValue
    obtain ⟨_, _, suits⟩ := delivered target.id values found name value stored
    obtain ⟨_, _, isNew, bound⟩ := suits entity inValue
    exact ⟨bound, less _ (inside target member) _ isNew bound⟩
  apply (meets_settleChosen settles start).mono ?_ fun _ settling => ends settling
  rintro settled last ⟨pairs, settling⟩
  have grown : (arenaAfter before.events).size ≤ last.arena.size := by
    rw [settling.size]
    exact recent.layered.now.size
  refine (ends settling).regroup rfl rfl rfl rfl fun target member => ?_
  rcases mem_waiting_settled pairs member with waits | ⟨old, inPool, continues⟩
  · exact settling.holding.targets target waits
  · rw [continues.entity]
    exact (inside old inPool).trans_le grown

theorem tracked_served (tracked : Tracked [] 0 before) (waiting : before.pools ≠ []) :
    Meets context serveFirst before (fun _ => Tracked [] 0) (Tracked [] 0) := by
  obtain ⟨⟨cls, pool⟩, others, first⟩ := List.exists_cons_of_ne_nil waiting
  have replays := tracked.ranked.replays
  have shortened : Tracked [] 0 { before with pools := others } :=
    tracked.regroup rfl rfl rfl rfl fun target member =>
      tracked.holding.targets target (mem_waiting_others first member)
  apply meets_serveFirst first shortened
  intro getter candidacy _
  have start : Layering before.events { before with pools := others } :=
    ⟨(Recorded.start replays (replays ▸ .refl _)).congr rfl rfl, shortened.holding⟩
  have fetches : (layering context before.events).Fetches getter.cls candidacy.selector
      (getter.fetch candidacy) := Discipline.fetch (.inr trivial) _ fun _ _ _ _ _ => trivial
  apply Meets.mono (fetches start)
  · rintro results fetched ⟨⟨recent, _⟩, delivered⟩
    apply tracked_settled tracked ?_ recent delivered
    exact fun target member => tracked.holding.targets target (mem_waiting_first first member)
  · exact fun failed reached => tracked.layer reached.valid

theorem tracked_round (tracked : Tracked [] 0 before) (waiting : before.pools ≠ []) :
    Meets context round before (fun _ => Tracked [] 0) (Tracked [] 0) := by
  have counted : Tracked [] 0 before.counted :=
    tracked.regroup rfl rfl rfl rfl tracked.holding.targets
  apply meets_round (tracked_served counted waiting)
  exact fun middle swept last tracked sweeps => tracked_swept (tracked_filled tracked) sweeps

theorem tracked_rounds (limit : Nat) (tracked : Tracked [] 0 before) :
    Meets context (rounds limit) before (fun _ => Tracked [] 0) (Tracked [] 0) := by
  apply (meets_rounds limit tracked_round tracked).mono
  · exact fun isDone after ended => ended.1
  · exact fun after failed => failed

end Run

end EntityResolver
