import EntityResolver.Proofs.Run.Rounds

/-!
What holds of all waiting targets throughout a run.

It holds of a target later on, when fewer of its fields are unresolved, and it holds of the targets
that a fetch spawns if it holds of those that the fetch was made for.
-/

set_option autoImplicit false

namespace EntityResolver.Run

variable {context : RunContext} {fits : Target → Prop} {before after : RunState}

/-- What holds of targets passes on to what becomes of them and to what fetches for them spawn. -/
structure Persists (context : RunContext) (fits : Target → Prop) : Prop where
  wellFormed : ∀ {target}, fits target → target.WellFormed
  continues : ∀ {target continued : Target}, target.Continues continued → fits target →
    fits continued
  fetches : ∀ {cls pool getter candidacy before results fetched},
    (∀ target ∈ pool, fits target ∧ target.cls = cls) →
    getter ∈ context.catalog.gettersOf cls → getter.candidacy? pool = some candidacy →
    before.spawned = [] → Yields context (getter.fetch candidacy) before results fetched →
    ∀ target ∈ fetched.spawned, fits target

theorem Waits.pool (waits : Waits fits before) (service : Service context before after) :
    ∀ target ∈ service.pool, fits target ∧ target.cls = service.cls := by
  intro target member
  refine ⟨waits.fits target (by simp [service.pooled_before, member]), ?_⟩
  exact waits.classed _ _ (service.first ▸ List.mem_cons_self) target member

namespace Persists

variable (persists : Persists context fits)

include persists

theorem forall_continues {olds news : List Target}
    (pairs : List.Forall₂ Target.Continues olds news) (all : ∀ target ∈ olds, fits target) :
    ∀ target ∈ news, fits target :=
  Target.forall_continues pairs persists.continues all

theorem filled (service : Service context before after) (waits : Waits fits before) :
    ∀ target ∈ after.filled.pooled, fits target := by
  have inPool := waits.pool service
  have nodup : ∀ target ∈ service.pool, target.unresolved.Nodup := fun target member =>
    (persists.wellFormed (inPool target member).1).nodup
  obtain ⟨_, _, pairs⟩ := service.served nodup
  obtain ⟨offers, offered⟩ := mem_of_bestCandidacy service.best
  have begun : ({ before with pools := service.others } : RunState).spawned = [] := waits.none
  intro target member
  rcases List.mem_append.mp ((service.perm_pooled nodup).mem_iff.mp member) with old | new
  · rcases List.mem_append.mp old with inOthers | inSettled
    · exact waits.fits target (by simp [service.pooled_before, inOthers])
    · exact persists.forall_continues pairs (fun target member => (inPool target member).1) target
        (List.mem_of_mem_filter inSettled)
  · exact persists.fetches inPool offers offered begun service.fetches target
      (List.mem_of_mem_filter new)

theorem round (waits : Waits fits before) (waiting : before.pools ≠ [])
    (done : Yields context round before () after) : Waits fits after := by
  obtain ⟨served, swept, last, ⟨service⟩, sweeps, rfl⟩ := round_cases waiting done
  have counted : Waits fits before.counted := ⟨waits.none, waits.classed, waits.fits⟩
  have nodup : ∀ target ∈ service.pool, target.unresolved.Nodup := fun target member =>
    (persists.wellFormed (counted.pool service target member).1).nodup
  obtain ⟨pairs, _, _, _, _, quiet⟩ := quiet_sweepPools sweeps
  have pooled : RunState.pooled { last with pools := prune swept } =
      (swept.flatMap Prod.snd).filter Target.isActive := flatMap_prune swept
  refine ⟨?_, ?_, ?_⟩
  · rw [quiet]
    rfl
  · exact classed_prune (classed_sweepPools pairs (service.classed nodup waits.classed))
  · rw [pooled]
    exact fun target member => persists.forall_continues (flatMap_continues pairs)
      (persists.filled service counted) target (List.mem_of_mem_filter member)

end Persists

end EntityResolver.Run
