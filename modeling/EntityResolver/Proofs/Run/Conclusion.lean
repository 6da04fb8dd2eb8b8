import EntityResolver.Proofs.Run.Termination

/-!
Runs by their beginning and their rounds.
-/

set_option autoImplicit false

namespace EntityResolver

/-- A run for the demands, given up after `limit` rounds. -/
def Demand.runWithin (limit : Nat) (demands : List Demand) : Run RunStats := do
  Demand.placeAll demands
  Run.executeWithin limit

namespace Run

variable {context : RunContext} {before : RunState} {demands : List Demand}
variable {earlier : List Call}

/-- The part of a run that comes after its preparation. -/
def conclude (limit : Nat) : Run RunStats := do
  if ← rounds limit then
    modify fun state => { state with cache := [] }
    return (← get).stats
  else throw (.tooManyRounds limit)

theorem yields_conclude_iff {after : RunState} {limit : Nat} {stats : RunStats} :
    Yields context (conclude limit) before stats after ↔ ∃ final,
      Yields context (rounds limit) before true final ∧ stats = final.stats ∧
        after = { final with cache := [] } := by
  simp only [conclude, yields_bind_iff]
  constructor
  · rintro ⟨isDone, final, done, concluded⟩
    cases isDone with
    | false => exact absurd concluded not_yields_throw
    | true =>
        simp only [if_true, yields_bind_iff, yields_modify_iff, yields_get_iff, yields_pure_iff]
          at concluded
        obtain ⟨_, _, rfl, _, _, ⟨rfl, rfl⟩, rfl, rfl⟩ := concluded
        exact ⟨final, done, rfl, rfl⟩
  · rintro ⟨final, done, rfl, rfl⟩
    refine ⟨true, final, done, ?_⟩
    simp only [if_true, yields_bind_iff, yields_modify_iff, yields_get_iff, yields_pure_iff]
    exact ⟨⟨⟩, _, rfl, _, _, ⟨rfl, rfl⟩, rfl, rfl⟩

theorem runWithin_eq (limit : Nat) (demands : List Demand) :
    Demand.runWithin limit demands =
      (do Demand.placeAll demands; prepare) >>= fun _ => conclude limit := by
  rw [Demand.runWithin, bind_assoc]
  rfl

/-- What is prepared is prepared in the same way whatever the number of rounds. -/
theorem runWithin_of_begun {ready : RunState} (limit : Nat)
    (begun : Yields context (do Demand.placeAll demands; prepare) { calls := earlier } () ready) :
    Demand.runWithin limit demands context { calls := earlier } = conclude limit context ready := by
  rw [runWithin_eq, begun.bind]

/-- A run is as its beginning and its rounds are. The cache is emptied in the end. -/
theorem meets_runWithin {begun good bad : RunState → Prop} {limit : Nat}
    (begins : Meets context (do Demand.placeAll demands; prepare) { calls := earlier }
      (fun _ => begun) bad)
    (goes : ∀ ready, begun ready → Meets context (rounds limit) ready (fun _ => good) bad)
    (clears : ∀ final, good final → good { final with cache := [] })
    (stops : ∀ final, good final → bad final) :
    Meets context (Demand.runWithin limit demands) { calls := earlier } (fun _ => good) bad := by
  rw [runWithin_eq]
  apply meets_bind_iff.mpr
  apply begins.mono ?_ fun _ failed => failed
  intro _ ready holds
  apply meets_bind_iff.mpr
  apply (goes ready holds).mono ?_ fun _ failed => failed
  intro isDone final holds
  cases isDone with
  | false => exact stops final holds
  | true => exact clears final holds

theorem conclude_congr {few many : Nat} {state : RunState}
    (same : rounds many context state = rounds few context state)
    (final : ∀ after, ¬ Yields context (rounds few) state false after) :
    conclude many context state = conclude few context state := by
  unfold conclude
  cases outcome : rounds few context state with
  | error error failed => rw [bind_of_error outcome, bind_of_error (same.trans outcome)]
  | ok isDone ended =>
      cases isDone with
      | false => exact absurd outcome (final ended)
      | true =>
          rw [Yields.bind outcome, Yields.bind (same.trans outcome)]
          rfl

theorem waits_of_begun {admits : ClassId → Selector → Prop} {ready : RunState}
    (distinct : ∀ {cls selector}, admits cls selector → selector.Distinct)
    (below : ∀ {cls selector name sub inner}, admits cls selector →
      (name, sub) ∈ selector.resolved → context.catalog.schema.Refers cls name inner →
        admits inner sub)
    (admitted : ∀ demand ∈ demands, ∀ cls, demand.Begins context.catalog cls →
      admits cls demand.selector)
    (begun : Yields context (do Demand.placeAll demands; prepare) { calls := earlier } () ready) :
    Waits (fun target => target.WellFormed ∧ admits target.cls target.selector) ready := by
  obtain ⟨_, placed, first, prepared⟩ := yields_bind_iff.mp begun
  let discipline := queueing context 0 admits distinct below
  have ignores : discipline.IgnoresPrerequisites := fun state prerequisites valid =>
    ⟨valid, trivial⟩
  have nothing : discipline.invariant { calls := earlier } := by simp [discipline, queueing]
  have accepted : discipline.AcceptsAll { calls := earlier } demands :=
    Discipline.acceptsAll_of_forall fun demand member _ =>
      ⟨fun _ _ => trivial, admitted demand member⟩
  obtain ⟨reached, awaits, pools⟩ :=
    (discipline.placeAll trivial ignores accepted nothing (by simp [Discipline.Awaits])).yields first
  obtain ⟨satisfied, settled, same, pooled⟩ :=
    (discipline.prepare trivial ignores reached.valid awaits).yields prepared
  have none : satisfied.pools = [] := same.trans pools
  rw [yields_poolSpawned_iff.mp pooled]
  refine ⟨rfl, classed_filled (by simp [none, RunState.Classed]), fun target member => ?_⟩
  have inSpawned := (perm_filled satisfied).mem_iff.mp member
  rw [RunState.pooled, none] at inSpawned
  have spawned : target ∈ satisfied.spawned := List.mem_of_mem_filter (by simpa using inSpawned)
  exact settled.valid target (by simpa using spawned)

end Run

end EntityResolver
