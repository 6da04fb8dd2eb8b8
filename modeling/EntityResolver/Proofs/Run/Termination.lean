import EntityResolver.Proofs.Order.Replacement
import EntityResolver.Proofs.Run.Persistence
import Mathlib.Data.Prod.Lex

/-!
Rounds come to an end where every fetch spawns targets that rank below the targets it was made for.

The weight of a target is its rank together with the number of its unresolved fields. In a round the
chosen targets get lighter, the new ones are lighter than a chosen one, and none gets heavier, so
the weights fall in the order of multisets.
-/

set_option autoImplicit false

namespace EntityResolver.Run

variable {context : RunContext} {before after state : RunState} {ρ : Type*} [Preorder ρ]

structure Ranking (context : RunContext) (ρ : Type*) [Preorder ρ] where
  fits : Target → Prop
  rank : Target → ρ
  wellFormed : ∀ {target}, fits target → target.WellFormed
  continues : ∀ {target continued}, target.Continues continued → fits target →
    fits continued ∧ rank continued = rank target
  fetches : ∀ {cls pool getter candidacy before results fetched},
    (∀ target ∈ pool, fits target ∧ target.cls = cls) →
    getter ∈ context.catalog.gettersOf cls → getter.candidacy? pool = some candidacy →
    before.spawned = [] →
    Yields context (getter.fetch candidacy) before results fetched →
    ∀ target ∈ fetched.spawned, fits target ∧
      ∃ index ∈ candidacy.chosen, ∃ old, pool[index]? = some old ∧ rank target < rank old

namespace Ranking

variable (ranking : Ranking context ρ)

/-- The rank of a target, and how many fields it lacks. -/
def weight (target : Target) : ρ ×ₗ Nat :=
  toLex (ranking.rank target, target.unresolved.length)

def weights (state : RunState) : Multiset (ρ ×ₗ Nat) :=
  ↑(state.pooled.map ranking.weight)

variable {ranking}

theorem weight_lt_of_rank_lt {first second : Target}
    (less : ranking.rank first < ranking.rank second) :
    ranking.weight first < ranking.weight second :=
  Prod.Lex.toLex_lt_toLex.mpr (.inl less)

theorem weight_continues {target continued : Target} (continues : target.Continues continued)
    (fits : ranking.fits target) :
    ranking.weight continued = ranking.weight target ∨
      ranking.weight continued < ranking.weight target := by
  have same := (ranking.continues continues fits).2
  rcases Nat.eq_or_lt_of_le continues.unresolved.length_le with equal | fewer
  · exact .inl (by simp [weight, same, equal])
  · exact .inr (Prod.Lex.toLex_lt_toLex.mpr (.inr ⟨same, fewer⟩))

theorem shrinks_weights {old new : List Target} (pairs : List.Forall₂ Target.Continues old new)
    (fits : ∀ target ∈ old, ranking.fits target) :
    Shrinks (old.map ranking.weight) (new.map ranking.weight) := by
  induction pairs with
  | nil => exact .nil
  | cons pair _ inductionHypothesis =>
      exact .cons (weight_continues pair (fits _ List.mem_cons_self))
        (inductionHypothesis fun other member => fits other (List.mem_cons_of_mem _ member))

theorem persists (ranking : Ranking context ρ) : Persists context ranking.fits where
  wellFormed := ranking.wellFormed
  continues continues fits := (ranking.continues continues fits).1
  fetches fits offers offered none done target member :=
    (ranking.fetches fits offers offered none done target member).1

/-- A chosen target gets lighter: it lacks a field that was fetched, and no more after that. -/
theorem shrunk_of_chosen (service : Service context before after)
    (fits : ∀ target ∈ service.pool, ranking.fits target) {index : Nat} {target : Target}
    (chosen : index ∈ service.candidacy.chosen) (found : service.pool[index]? = some target) :
    Shrunk (service.pool.map ranking.weight) (service.settled.map ranking.weight)
      (ranking.weight target) := by
  have valid : ∀ target ∈ service.pool, target.WellFormed := fun target member =>
    ranking.wellFormed (fits target member)
  obtain ⟨first, serves⟩ :=
    Getter.candidacy_serves valid (mem_of_bestCandidacy service.best).2
  obtain ⟨_, foundToo, alike, _⟩ := serves.chosen index chosen
  cases found.symm.trans foundToo
  have inPool := List.mem_of_getElem? found
  obtain ⟨name, fetched, lacks⟩ := serves.exists_open (valid first serves.first_mem)
    (valid target inPool) alike
  obtain ⟨pairs, _, gone⟩ :=
    quiet_settleChosen (fun target member => (valid target member).nodup) service.settles
  obtain ⟨continued, at_, resolved⟩ := gone index target found (by simpa using chosen)
  have pair : target.Continues continued := by
    have aligned := (List.forall₂_iff_get.mp pairs).2
    obtain ⟨inside, same⟩ := List.getElem?_eq_some_iff.mp found
    obtain ⟨insideToo, sameToo⟩ := List.getElem?_eq_some_iff.mp at_
    have here := aligned index inside insideToo
    simp only [List.get_eq_getElem, same, sameToo] at here
    exact here
  refine ⟨index, ranking.weight continued, by simp [found], by simp [at_], ?_⟩
  refine (weight_continues pair (fits target inPool)).resolve_left fun same => ?_
  have lengths : continued.unresolved.length = target.unresolved.length :=
    congrArg (fun weight => (ofLex weight).2) same
  exact resolved name fetched (pair.unresolved.eq_of_length lengths ▸ lacks)

theorem fresh_of_service (service : Service context before after)
    (fits : ∀ target ∈ service.pool, ranking.fits target ∧ target.cls = service.cls)
    (none : before.spawned = []) :
    ∀ target ∈ service.fetched.spawned,
      ∃ old, Shrunk (service.pool.map ranking.weight) (service.settled.map ranking.weight) old ∧
        ranking.weight target < old := by
  intro target member
  obtain ⟨offers, offered⟩ := mem_of_bestCandidacy service.best
  have begun : ({ before with pools := service.others } : RunState).spawned = [] := none
  obtain ⟨_, index, chosen, old, found, less⟩ :=
    ranking.fetches fits offers offered begun service.fetches target member
  exact ⟨_, shrunk_of_chosen service (fun target member => (fits target member).1) chosen found,
    weight_lt_of_rank_lt less⟩

theorem filled_lt (service : Service context before after)
    (fits : ∀ target ∈ service.pool, ranking.fits target ∧ target.cls = service.cls)
    (none : before.spawned = []) :
    Multiset.IsDershowitzMannaLT (ranking.weights after.filled) (ranking.weights before) := by
  have fitsPool := fun target member => (fits target member).1
  have nodup : ∀ target ∈ service.pool, target.unresolved.Nodup := fun target member =>
    (ranking.wellFormed (fitsPool target member)).nodup
  obtain ⟨_, _, pairs⟩ := service.served nodup
  obtain ⟨first, serves⟩ := Getter.candidacy_serves
    (fun target member => ranking.wellFormed (fitsPool target member))
    (mem_of_bestCandidacy service.best).2
  obtain ⟨index, chosen, found⟩ := serves.chosenFirst
  have less := lt_of_shrinks (shrinks_weights pairs fitsPool)
    (shrunk_of_chosen service fitsPool chosen found)
    ((service.others.flatMap Prod.snd).map ranking.weight)
    (service.fetched.spawned.map ranking.weight) (by
      intro new member
      obtain ⟨target, inSpawned, rfl⟩ := List.mem_map.mp member
      exact fresh_of_service service fits none target inSpawned)
  have perm := (service.perm_pooled nodup).map ranking.weight
  rw [weights, weights, Multiset.coe_eq_coe.mpr perm, service.pooled_before]
  simp only [List.map_append] at less ⊢
  refine lt_of_sublist_of_lt ?_ less
  refine List.Sublist.append (List.Sublist.append (.refl _) ?_) ?_
  · exact List.filter_sublist.map _
  · exact List.filter_sublist.map _

/-- A round keeps everything in order and makes the weights smaller. -/
theorem round (waits : Waits ranking.fits before) (waiting : before.pools ≠ [])
    (done : Yields context round before () after) :
    Waits ranking.fits after ∧
      Multiset.IsDershowitzMannaLT (ranking.weights after) (ranking.weights before) := by
  refine ⟨ranking.persists.round waits waiting done, ?_⟩
  obtain ⟨served, swept, last, ⟨service⟩, sweeps, rfl⟩ := round_cases waiting done
  have counted : Waits ranking.fits before.counted := ⟨waits.none, waits.classed, waits.fits⟩
  have less := filled_lt service (counted.pool service) waits.none
  have swept_continue := flatMap_continues (quiet_sweepPools sweeps).1
  have shrinks := shrinks_weights swept_continue (ranking.persists.filled service counted)
  rw [weights, RunState.pooled, flatMap_prune]
  exact lt_of_sublist_of_lt (List.filter_sublist.map ranking.weight)
    (lt_of_shrinks_of_lt shrinks less)

end Ranking

/-- With enough rounds no target is left, or the run has failed, and more rounds change nothing. -/
def RoundsEnd (context : RunContext) (state : RunState) : Prop :=
  ∃ enough, (∀ after, ¬ Yields context (rounds enough) state false after) ∧
    ∀ limit, enough ≤ limit → rounds limit context state = rounds enough context state

theorem rounds_of_isEmpty (empty : state.pools = []) (limit : Nat) :
    rounds limit context state = .ok true state := by
  have same : state.pools.isEmpty = true := by simp [empty]
  cases limit with
  | zero => exact congrArg (fun value => EStateM.Result.ok value state) same
  | succ limit =>
      change (if state.pools.isEmpty then pure true else _ : Run Bool) context state = _
      rw [if_pos same]
      rfl

theorem rounds_succ (waiting : state.pools ≠ []) (limit : Nat) :
    rounds (limit + 1) context state = (Run.round >>= fun _ => rounds limit) context state := by
  have other : ¬ state.pools.isEmpty = true := by simpa using waiting
  change (if state.pools.isEmpty then pure true else _ : Run Bool) context state = _
  rw [if_neg other]

theorem Ranking.roundsEnd [WellFoundedLT ρ] (ranking : Ranking context ρ) {state : RunState}
    (waits : Waits ranking.fits state) : RoundsEnd context state := by
  by_cases empty : state.pools = []
  · refine ⟨0, fun after done => ?_, fun limit _ => ?_⟩
    · rw [Yields, rounds_of_isEmpty empty] at done
      cases done
    · rw [rounds_of_isEmpty empty, rounds_of_isEmpty empty]
  · cases outcome : Run.round context state with
    | error error failed =>
        have ends (limit : Nat) : rounds (limit + 1) context state = .error error failed := by
          rw [rounds_succ empty, bind_of_error outcome]
        refine ⟨1, fun after done => ?_, fun limit enough => ?_⟩
        · rw [Yields, ends] at done
          cases done
        · obtain ⟨fewer, rfl⟩ := Nat.exists_eq_add_of_le' enough
          rw [ends, ends]
    | ok _ middle =>
        have continues (limit : Nat) :
            rounds (limit + 1) context state = rounds limit context middle := by
          rw [rounds_succ empty, Yields.bind outcome]
        obtain ⟨waitsMiddle, less⟩ := ranking.round waits empty outcome
        obtain ⟨enough, final, stable⟩ := ranking.roundsEnd waitsMiddle
        refine ⟨enough + 1, fun after done => ?_, fun limit more => ?_⟩
        · rw [Yields, continues] at done
          exact final after done
        · obtain ⟨fewer, rfl⟩ : ∃ fewer, limit = fewer + 1 := ⟨limit - 1, by omega⟩
          rw [continues, continues]
          exact stable fewer (by omega)
termination_by ranking.weights state
decreasing_by exact less

end EntityResolver.Run
