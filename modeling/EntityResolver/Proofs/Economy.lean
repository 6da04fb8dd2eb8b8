import EntityResolver.Proofs.Coherence

/-!
# What is known is not fetched again

A round ends with a sweep over all targets that wait, after everything that the round has brought is
in the cache. So at the start of the next round no target waits for a field that the run has come
across for the same entity, where nothing is selected below the field.
-/

set_option autoImplicit false

namespace EntityResolver

/-- A response has held the field of the entity. -/
def RunState.Knows (state : RunState) (cls : ClassId) (id name : String) : Prop :=
  ∃ event ∈ state.events, (event.response? cls id name).isSome

instance (state : RunState) (cls : ClassId) (id name : String) :
    Decidable (state.Knows cls id name) :=
  inferInstanceAs (Decidable (∃ event ∈ state.events, _))

/-- Fields that are known, and below which nothing is selected, are neither waited for nor part of
any candidacy. -/
structure Frugal (context : RunContext) (state : RunState) : Prop where
  targets : ∀ target ∈ state.waiting, ∀ name ∈ target.unresolved,
    (context.catalog.schema.field? target.cls name).isSome →
    target.selector.subselector? name = some .empty → ¬ state.Knows target.cls target.id name
  candidacies : ∀ cls pool getter candidacy, (cls, pool) ∈ state.pools →
    getter ∈ context.catalog.gettersOf cls → getter.candidacy? pool = some candidacy →
    ∀ index ∈ candidacy.chosen, ∃ target, pool[index]? = some target ∧
      ∀ name ∈ candidacy.selector.names, (context.catalog.schema.field? target.cls name).isSome →
        candidacy.selector.subselector? name = some .empty → ¬ state.Knows target.cls target.id name

section

variable {context : RunContext} {schema : Schema} {state before after : RunState}
variable {target continued : Target}

theorem Accounted.cached_of_knows (accounted : Accounted schema state) {cls : ClassId}
    {id name : String} (isField : (schema.field? cls name).isSome)
    (knows : state.Knows cls id name) :
    ∃ kept, state.cached? cls id name = some kept := by
  obtain ⟨held, isLatest⟩ := Option.isSome_iff_exists.mp (List.findSome?_isSome_iff.mpr knows)
  have kept := accounted.ledger cls id name isField
  rw [show latest state.events cls id name = some held from isLatest] at kept
  generalize state.cached? cls id name = cached? at kept
  cases kept with
  | some _ => exact ⟨_, rfl⟩

/-- The cache can serve nothing more of the target. -/
def Spent (schema : Schema) (cache : List CachedValue) (target : Target) : Prop :=
  ∀ state : RunState, state.cache = cache → ∀ name kept, (name, kept) ∈ Run.servable state target →
    schema.field? target.cls name = none

theorem Accounted.not_knows (accounted : Accounted schema state)
    (spent : Spent schema state.cache target) {name : String} (wanted : name ∈ target.unresolved)
    (isField : (schema.field? target.cls name).isSome)
    (plain : target.selector.subselector? name = some .empty) :
    ¬ state.Knows target.cls target.id name := by
  intro knows
  obtain ⟨kept, cached⟩ := accounted.cached_of_knows isField knows
  have served : (name, kept) ∈ Run.servable state target :=
    Run.mem_servable_iff.mpr ⟨wanted, by rw [plain]; rfl, cached⟩
  rw [spent state rfl name kept served] at isField
  cases isField

namespace Run

theorem servable_congr {one other : RunState} (same : one.cache = other.cache) :
    servable one target = servable other target := by
  simp only [servable, RunState.cached?, same]

theorem cache_restores (cache : List CachedValue) :
    Restores context (fun state => state.cache = cache) target := by
  rintro earlier state restored continued name field kept value - - - - rfl traversed
  obtain ⟨same, -⟩ := yields_traverseEntities (fun other => other.cache = state.cache)
    (fun _ _ => True) (fun _ _ _ => True) (fun _ => trivial) (fun _ _ => trivial)
    (fun _ found => found) (fun _ kept done => by
      obtain ⟨_, rfl⟩ := yields_alloc_iff.mp done
      exact ⟨kept, trivial, trivial⟩) rfl traversed
  exact same

theorem resolved_resolveCached {served : List (String × FieldValue String)}
    (nodup : target.unresolved.Nodup)
    (done : Yields context (resolveCached served target) before continued after) :
    ∀ name kept, (name, kept) ∈ served → name ∈ continued.unresolved →
      context.catalog.schema.field? target.cls name = none := by
  induction served generalizing before target with
  | nil => exact fun _ _ member => absurd member List.not_mem_nil
  | cons entry rest inductionHypothesis =>
      obtain ⟨head, value⟩ := entry
      simp only [resolveCached, yields_bind_iff, yields_schema_iff] at done
      obtain ⟨_, _, ⟨rfl, rfl⟩, done⟩ := done
      split at done
      · rename_i unknown
        intro name kept member left
        rcases List.mem_cons.mp member with same | inRest
        · cases same
          exact unknown
        · exact inductionHypothesis nodup done name kept inRest left
      · simp only [yields_bind_iff, yields_resolve_iff, yields_modify_iff] at done
        obtain ⟨_, _, _, _, _, ⟨rfl, rfl⟩, _, _, rfl, remaining⟩ := done
        intro name kept member left
        rcases List.mem_cons.mp member with same | inRest
        · cases same
          have stays := (quiet_resolveCached remaining).1.unresolved.subset left
          exact absurd stays nodup.not_mem_erase
        · exact inductionHypothesis (nodup.erase head) remaining name kept inRest left

theorem spent_resolveCached (nodup : target.unresolved.Nodup)
    (done : Yields context (resolveCached (servable before target) target) before continued after) :
    Spent context.catalog.schema before.cache continued := by
  intro state same name kept served
  obtain ⟨continues, _⟩ := quiet_resolveCached done
  obtain ⟨wanted, plain, cached⟩ := mem_servable_iff.mp served
  rw [continues.cls]
  apply resolved_resolveCached nodup done name kept ?_ wanted
  rw [← servable_congr same]
  apply mem_servable_iff.mpr
  exact ⟨continues.unresolved.subset wanted, continues.selector ▸ plain,
    continues.cls ▸ continues.id ▸ cached⟩

/-- After a sweep the cache can serve nothing more. -/
theorem spent_sweepPool {pool swept : List Target}
    (nodup : ∀ target ∈ pool, target.unresolved.Nodup)
    (done : Yields context (sweepPool pool) before swept after) :
    after.cache = before.cache ∧ ∀ target ∈ swept, Spent context.catalog.schema before.cache target := by
  refine ⟨invariant_sweepPool (fun _ _ => cache_restores before.cache) rfl done, ?_⟩
  induction pool generalizing before swept with
  | nil =>
      obtain ⟨rfl, rfl⟩ := yields_pure_iff.mp done
      simp
  | cons target rest inductionHypothesis =>
      simp only [sweepPool, yields_bind_iff, yields_get_iff, yields_pure_iff] at done
      obtain ⟨_, begun, ⟨rfl, rfl⟩, continued, middle, first, others, _, remaining, rfl, rfl⟩ :=
        done
      have same : middle.cache = begun.cache := invariant_resolveCached (cache_restores begun.cache)
        rfl (List.Subset.refl _) (.refl target) rfl first
      obtain ⟨own, nodupRest⟩ := List.forall_mem_cons.mp nodup
      have spentRest := inductionHypothesis nodupRest remaining
      rw [same] at spentRest
      exact List.forall_mem_cons.mpr ⟨spent_resolveCached own first, spentRest⟩

theorem spent_sweepPools {pools swept : List (ClassId × List Target)}
    (nodup : ∀ target ∈ pools.flatMap Prod.snd, target.unresolved.Nodup)
    (done : Yields context (sweepPools pools) before swept after) :
    after.cache = before.cache ∧
      ∀ target ∈ swept.flatMap Prod.snd, Spent context.catalog.schema before.cache target := by
  refine ⟨invariant_sweepPools (fun _ _ => cache_restores before.cache) rfl done, ?_⟩
  induction pools generalizing before swept with
  | nil =>
      obtain ⟨rfl, rfl⟩ := yields_pure_iff.mp done
      simp
  | cons entry rest inductionHypothesis =>
      obtain ⟨cls, pool⟩ := entry
      rw [List.flatMap_cons] at nodup
      obtain ⟨own, nodupRest⟩ := List.forall_mem_append.mp nodup
      simp only [sweepPools, yields_bind_iff, yields_pure_iff] at done
      obtain ⟨continued, middle, first, others, _, remaining, rfl, rfl⟩ := done
      obtain ⟨same, spent⟩ := spent_sweepPool own first
      have spentRest := inductionHypothesis nodupRest remaining
      rw [same] at spentRest
      rw [List.flatMap_cons]
      exact List.forall_mem_append.mpr ⟨spent, spentRest⟩

theorem frugal_of_targets (accounted : Accounted context.catalog.schema state)
    (targets : ∀ target ∈ state.waiting, ∀ name ∈ target.unresolved,
      (context.catalog.schema.field? target.cls name).isSome →
      target.selector.subselector? name = some .empty → ¬ state.Knows target.cls target.id name) :
    Frugal context state := by
  refine ⟨targets, fun cls pool getter candidacy inPools _ offered index chosen => ?_⟩
  have waits {target : Target} (member : target ∈ pool) : target ∈ state.waiting :=
    List.mem_append_left _ (mem_pooled_iff.mpr ⟨cls, pool, inPools, member⟩)
  have valid : ∀ target ∈ pool, target.WellFormed := fun target member =>
    (accounted.fits target (waits member)).wellFormed
  obtain ⟨first, serves⟩ := Getter.candidacy_serves valid offered
  have validFirst := valid first serves.first_mem
  obtain ⟨target, found, alike, _⟩ := serves.chosen index chosen
  have member := List.mem_of_getElem? found
  have validTarget := valid target member
  refine ⟨target, found, fun name asked isField plain => ?_⟩
  have wanted := serves.names_subset_unresolved validFirst validTarget alike asked
  have distinct := serves.distinct validFirst
  obtain ⟨other, selected, same⟩ := serves.exists_resolved validFirst validTarget alike
    ((Selector.mem_resolved_iff distinct).mpr plain)
  have none : other = .empty := Selector.isEmpty_iff.mp (Selector.same_empty rfl same)
  apply targets target (waits member) name wanted isField
  rw [← none]
  exact (Selector.mem_resolved_iff validTarget.distinct).mp selected

theorem frugal_round (accounted : Accounted context.catalog.schema before)
    (waiting : before.pools ≠ []) (done : Yields context round before () after) :
    Frugal context after := by
  have accountedAfter := (accounted_round accounted waiting).yields done
  obtain ⟨served, swept, last, ⟨service⟩, sweeps, rfl⟩ := round_cases waiting done
  have counted : Accounted context.catalog.schema before.counted :=
    accounted.regroup rfl rfl rfl accounted.classed accounted.fits
  have waitingToo : before.counted.pools ≠ [] := waiting
  have accountedServed : Accounted context.catalog.schema served :=
    (accounted_served counted waitingToo).yields service.yields
  have filled := accounted_filled accountedServed
  have nodup : ∀ target ∈ served.filled.pooled, target.unresolved.Nodup := fun target member =>
    (filled.fits target (List.mem_append_left _ member)).wellFormed.nodup
  obtain ⟨cache, spent⟩ := spent_sweepPools nodup sweeps
  apply frugal_of_targets accountedAfter
  intro target member name wanted isField plain
  apply accountedAfter.not_knows ?_ wanted isField plain
  -- Nothing is spawned after the pools were filled, so that the sweep comes to every target.
  rcases List.mem_append.mp member with pooled | spawned
  · rw [RunState.pooled, flatMap_prune] at pooled
    exact cache ▸ spent target (List.mem_of_mem_filter pooled)
  · have none : last.spawned = [] := (quiet_sweepPools sweeps).2.spawned
    rw [none] at spawned
    cases spawned

/-- Once nothing waits for what is known, it stays so. -/
theorem replays_frugal_rounds {limit : Nat} {isDone : Bool}
    (accounted : Accounted context.catalog.schema before) (frugal : Frugal context before)
    (done : Yields context (rounds limit) before isDone after) :
    after.arena = arenaAfter after.events ∧ Frugal context after := by
  let careful (state : RunState) : Prop :=
    Accounted context.catalog.schema state ∧ Frugal context state
  -- There may be no round at all, so that being frugal has to hold beforehand and is kept.
  have met : Meets context (rounds limit) before
      (fun isDone after => careful after ∧ (isDone = true → after.pools = [])) fun _ => True := by
    apply meets_rounds limit ?_ ⟨accounted, frugal⟩
    rintro state ⟨accounted, _⟩ waiting
    apply Meets.mono (Meets.andYields (accounted_round accounted waiting))
    · exact fun _ after ⟨accountedAfter, done⟩ =>
        ⟨accountedAfter, frugal_round accounted waiting done⟩
    · exact fun _ _ => trivial
  obtain ⟨⟨accountedAfter, frugalAfter⟩, _⟩ := met.yields done
  exact ⟨accountedAfter.replays, frugalAfter⟩

theorem frugal_of_uncached (accounted : Accounted context.catalog.schema state)
    (uncached : state.cache = []) : Frugal context state := by
  apply frugal_of_targets accounted
  intro target _ name _ isField _ knows
  obtain ⟨kept, cached⟩ := accounted.cached_of_knows isField knows
  rw [RunState.cached?, uncached] at cached
  cases cached

theorem uncached_of_placeAll {demands : List Demand}
    (roots : ∀ demand ∈ demands, ∃ cls id selector isWeak, demand = .entity cls id selector [] isWeak)
    (none : before.cache = [] ∧ before.prerequisites = [])
    (done : Yields context (Demand.placeAll demands) before () after) :
    after.cache = [] ∧ after.prerequisites = [] := by
  induction demands generalizing before with
  | nil =>
      obtain ⟨_, rfl⟩ := yields_pure_iff.mp done
      exact none
  | cons demand rest inductionHypothesis =>
      obtain ⟨_, middle, placed, remaining⟩ := yields_bind_iff.mp done
      obtain ⟨⟨cls, id, selector, isWeak, rfl⟩, rootsRest⟩ := List.forall_mem_cons.mp roots
      obtain ⟨_, _, spawned, _, rfl⟩ := yields_bind_iff.mp placed
      obtain ⟨_, rfl⟩ := yields_spawn_nil_iff.mp spawned
      let origin := before.next cls id selector isWeak
      have noneToo : (before.wished origin).cache = [] ∧
          (before.wished origin).prerequisites = [] :=
        none
      exact inductionHypothesis rootsRest noneToo remaining

theorem uncached_of_begun {demands : List Demand} {earlier : List Call}
    (roots : ∀ demand ∈ demands, ∃ cls id selector isWeak, demand = .entity cls id selector [] isWeak)
    (begun : Yields context (do Demand.placeAll demands; prepare) { calls := earlier } () after) :
    after.cache = [] := by
  obtain ⟨_, placed, first, prepared⟩ := yields_bind_iff.mp begun
  obtain ⟨cache, prerequisites⟩ := uncached_of_placeAll roots ⟨rfl, rfl⟩ first
  obtain ⟨satisfied, done, rfl⟩ := yields_prepare_iff.mp prepared
  rw [prerequisites] at done
  obtain ⟨_, rfl⟩ := yields_pure_iff.mp done
  exact cache

end Run

end

namespace Run

/-- Whatever the remote answers: where roots are spawned without values, and nothing is selected
below scalar fields, what the run has come across is not waited for at the beginning of
any round. -/
theorem frugal_of_roots (context : RunContext) (demands : List Demand) (earlier : List Call)
    (limit : Nat) (isDone : Bool) (state : RunState)
    (roots : ∀ demand ∈ demands, ∃ cls id selector isWeak,
      demand = .entity cls id selector [] isWeak ∧ selector.Distinct ∧
        context.catalog.schema.Nests cls selector)
    (reached : Yields context (do Demand.placeAll demands; prepare; rounds limit)
      { calls := earlier } isDone state) :
    state.arena = arenaAfter state.events ∧ Frugal context state := by
  obtain ⟨_, placed, first, rest⟩ := yields_bind_iff.mp reached
  obtain ⟨_, ready, prepared, remaining⟩ := yields_bind_iff.mp rest
  have orderly : Orderly context { calls := earlier } demands := by
    refine .of_valueless (fun demand member => ?_) (fun demand member => ?_)
      fun demand member begun begins => ?_
    all_goals obtain ⟨_, _, _, _, rfl, distinct, nests⟩ := roots demand member
    · rfl
    · exact distinct
    · cases begins
      exact nests
  have begun : Yields context (do Demand.placeAll demands; prepare) { calls := earlier } () ready :=
    yields_bind_iff.mpr ⟨_, placed, first, prepared⟩
  have accounted := (accounted_of_begun orderly).yields begun
  have uncached : ready.cache = [] := by
    apply uncached_of_begun (fun demand member => ?_) begun
    obtain ⟨cls, id, selector, isWeak, same, _⟩ := roots demand member
    exact ⟨cls, id, selector, isWeak, same⟩
  exact replays_frugal_rounds accounted (frugal_of_uncached accounted uncached) remaining

end Run

namespace Units

open Run

/-- The parent of a unit is wanted twice, but not for long. -/
theorem frugal_overlapping : ∃ state,
    Yields (context three) (do Demand.placeAll overlapping; prepare; rounds 1) { calls := [] } false
      state ∧
    state.waiting.length = 2 ∧ state.arena = arenaAfter state.events ∧
    Frugal (context three) state := by
  have reached : Yields (context three) (do Demand.placeAll overlapping; prepare; rounds 1)
      { calls := [] } false _ := rfl
  refine ⟨_, reached, rfl, frugal_of_roots (context three) overlapping [] 1 false _ ?_ reached⟩
  intro demand member
  obtain ⟨id, selector, rfl, distinct, nests⟩ := of_mem_overlapping member
  exact ⟨cls, id, selector, true, rfl, distinct, nests⟩

end Units

namespace Run

/-- From the second round on, whatever a run is begun for: what the run has come across by the end
of a round is not waited for in the next one. -/
theorem frugal_of_second (context : RunContext) (demands : List Demand) (earlier : List Call)
    (limit : Nat) (isDone : Bool) (ready state : RunState)
    (orderly : Orderly context { calls := earlier } demands)
    (begun : Yields context (do Demand.placeAll demands; prepare) { calls := earlier } () ready)
    (waiting : ready.pools ≠ []) (reached : Yields context (rounds (limit + 1)) ready isDone state) :
    state.arena = arenaAfter state.events ∧ Frugal context state := by
  have accounted := (accounted_of_begun orderly).yields begun
  rw [Yields, rounds_succ waiting] at reached
  obtain ⟨_, middle, first, remaining⟩ := yields_bind_iff.mp reached
  have accountedMiddle := (accounted_round accounted waiting).yields first
  exact replays_frugal_rounds accountedMiddle (frugal_round accounted waiting first) remaining

end Run

namespace People

open Run

def cls : ClassId := ⟨0⟩

/-- A list of people names not those that it lists, but the partner of each. -/
def decls : List ClassDecl :=
  [{ name := "Person"
     fields :=
      [{ name := "name", kind := .scalar .string }, { name := "partner", kind := .entity "Person" }] }]

def personClass : EntityClass :=
  { id := cls
    name := "Person"
    fields := [⟨"name", cls, .scalar .string, false, false⟩,
      ⟨"partner", cls, .entity cls, false, false⟩]
    searchItem := none
    foundField := none
    defaultSelector := .empty }

def schema : Schema := ⟨[personClass]⟩

def named (key : String) : FieldPickers := .field "name" (.scalar .raw key) .none

def lister : ListMethod :=
  { domain := "all"
    path := "people/all"
    cls := cls
    pickers :=
      ⟨.elementary "person_id",
        .field "partner" (.inline (.elementary "partner_id") (named "partner_name")) .none⟩
    steps := [.each]
    sendsFields := false }

def getter : SingleGetter :=
  { path := "people/person"
    cls := cls
    id := .elementary "person_id"
    pickers := named "name"
    sendsFields := false }

def item (id partner name : String) : Json :=
  .object [("partner_id", .str partner), ("partner_name", .str name), ("person_id", .str id)]

/-- Lists two people who are partners of each other, and calls everybody else Bob. -/
def remote : Remote := fun _ call =>
  if call.path = lister.path then .ok (.array [item "1" "2" "Ann", item "2" "1" "Bob"])
  else .ok (.object [("name", .str "Bob")])

def context : RunContext where
  catalog := { Catalog.empty schema with getters := [.single getter], lists := [lister] }
  remote := remote
  lang := .pl
  roundLimit := 0

theorem accepted : Schema.ofDecls decls = .ok schema ∧
    Catalog.ofRegistrations schema [.list lister, .getter (.single getter)] =
      .ok context.catalog :=
  ⟨rfl, rfl⟩

def couple : Selector := .nested "name" .empty (.nested "partner" (.nested "name" .empty .empty) .empty)

def everybody : List Demand := [.list cls "all" couple]

theorem refers_partner : schema.Refers cls "partner" cls :=
  ⟨_, rfl, rfl⟩

theorem cls_of_refers {holder inner : ClassId} {name : String}
    (refers : schema.Refers holder name inner) : inner = cls := by
  obtain ⟨field, found, targets⟩ := refers
  obtain ⟨person, inPeople, inFields⟩ := Option.bind_eq_some_iff.mp found
  cases List.mem_singleton.mp (List.mem_of_getElem? inPeople)
  rcases List.mem_pair.mp (List.mem_of_find?_eq_some inFields) with rfl | rfl
  · cases targets
  · cases targets
    rfl

theorem nests_couple : schema.Nests cls couple := by
  let family (holder : ClassId) (level : Selector) : Prop :=
    holder = cls ∧ (level = couple ∨ level = .nested "name" .empty .empty ∨ level = .empty)
  have resolved {level : Selector} {name : String} {sub : Selector}
      (known : level = couple ∨ level = .nested "name" .empty .empty ∨ level = .empty)
      (selected : (name, sub) ∈ level.resolved) :
      (name = "name" ∧ sub = .empty) ∨ (name = "partner" ∧ sub = .nested "name" .empty .empty) := by
    rcases known with rfl | rfl | rfl
    · rcases List.mem_pair.mp selected with same | same
      · cases same
        exact .inl ⟨rfl, rfl⟩
      · cases same
        exact .inr ⟨rfl, rfl⟩
    · cases List.mem_singleton.mp selected
      exact .inl ⟨rfl, rfl⟩
    · cases selected
  have belongs : family cls couple := ⟨rfl, .inl rfl⟩
  refine Schema.Nests.of_closed (fun holder level member name sub inner selected refers => ?_)
    (fun holder level member name sub selected nested => ?_) belongs
  · refine ⟨cls_of_refers refers, ?_⟩
    rcases resolved member.2 selected with ⟨-, rfl⟩ | ⟨-, rfl⟩
    · exact .inr (.inr rfl)
    · exact .inr (.inl rfl)
  · obtain ⟨rfl, known⟩ := member
    rcases resolved known selected with ⟨-, rfl⟩ | ⟨rfl, -⟩
    · exact absurd rfl nested
    · exact ⟨cls, refers_partner⟩

theorem orderly_everybody : Orderly context { calls := [] } everybody := by
  refine .of_valueless (fun demand member => ?_) (fun demand member => ?_)
    fun demand member begun begins => ?_
  all_goals cases List.mem_singleton.mp member
  · rfl
  · simp [Demand.selector, couple, Selector.Distinct, Selector.names]
  · cases begins
    exact nests_couple

/-- A name that is known is waited for, and asked for in the next round. -/
def AsksAgain (ready : RunState) : Prop :=
  ∃ target ∈ ready.waiting, "name" ∈ target.unresolved ∧
    (schema.field? target.cls "name").isSome ∧
    target.selector.subselector? "name" = some .empty ∧ ready.Knows target.cls target.id "name" ∧
    Meets context round ready
      (fun _ after => after.calls.getLast? = some ⟨getter.path, [("person_id", target.id)]⟩)
      fun _ => False

instance : DecidablePred AsksAgain := fun ready =>
  inferInstanceAs (Decidable (∃ target ∈ ready.waiting, _))

/-- Before the first round the cache is not swept: both names are known from the list, as those of
partners, and yet the round asks for one of them. -/
theorem asksAgain_everybody : ∃ ready,
    Yields context (do Demand.placeAll everybody; prepare) { calls := [] } () ready ∧
    Orderly context { calls := [] } everybody ∧ AsksAgain ready ∧ ¬ Frugal context ready := by
  have met : Meets context (do Demand.placeAll everybody; prepare) { calls := [] }
      (fun _ ready => AsksAgain ready) fun _ => False := by
    decide +kernel
  obtain ⟨_, ready, begun, again⟩ := met.exists_yields
  refine ⟨ready, begun, orderly_everybody, again, fun frugal => ?_⟩
  obtain ⟨target, waits, wanted, isField, plain, knows, _⟩ := again
  exact frugal.targets target waits "name" wanted isField plain knows

/-- After the first round the other name is taken from the cache. -/
theorem frugal_everybody : ∃ ready state,
    Yields context (do Demand.placeAll everybody; prepare) { calls := [] } () ready ∧
    ready.pools ≠ [] ∧ Yields context (rounds 1) ready true state ∧ state.stats = ⟨1, 2, 1⟩ ∧
    state.arena = arenaAfter state.events ∧ Frugal context state := by
  have met : Meets context (do Demand.placeAll everybody; prepare) { calls := [] }
      (fun _ ready => ready.pools ≠ [] ∧
        Meets context (rounds 1) ready
          (fun isDone state => isDone = true ∧ state.stats = ⟨1, 2, 1⟩) fun _ => False)
      fun _ => False := by
    decide +kernel
  obtain ⟨_, ready, begun, waiting, metToo⟩ := met.exists_yields
  obtain ⟨_, state, reached, rfl, stats⟩ := metToo.exists_yields
  exact ⟨ready, state, begun, waiting, reached, stats,
    frugal_of_second context everybody [] 0 true ready state orderly_everybody begun waiting reached⟩

end People

end EntityResolver
