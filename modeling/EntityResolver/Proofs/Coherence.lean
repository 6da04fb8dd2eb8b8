import EntityResolver.Proofs.Recursion
import EntityResolver.Proofs.Run.Accounts

/-!
# What the cache serves is what responses held

Responses may contradict each other. Whatever they hold, a target gets from the cache just what the
latest response held for the same field of the same entity.
-/

set_option autoImplicit false

namespace EntityResolver

namespace Run

/-- Whatever the remote answers and however a run ends: a value that the cache has served is the
latest that a response held for the class, the id and the field, with a new entity of the same id in
the place of each entity, and it was served only where no fields are selected below. -/
theorem coherent_of_run (context : RunContext) (demands : List Demand) (limit : Nat)
    (earlier : List Call) (ended : RunState)
    (orderly : Orderly context { calls := earlier } demands)
    (leaves : Leaves context (Demand.runWithin limit demands) { calls := earlier } ended) :
    ended.arena = arenaAfter ended.events ∧ Coherent context.catalog.schema ended.events := by
  let told (state : RunState) : Prop :=
    state.arena = arenaAfter state.events ∧ Coherent context.catalog.schema state.events
  have tells {state : RunState} (accounted : Accounted context.catalog.schema state) : told state :=
    ⟨accounted.replays, accounted.coherent⟩
  have met : Meets context (Demand.runWithin limit demands) { calls := earlier }
      (fun _ => told) told := by
    have begins := (accounted_of_begun orderly).mono (fun _ _ accounted => accounted)
      fun _ accounted => tells accounted
    apply meets_runWithin begins
    · intro ready accounted
      exact (accounted_rounds limit accounted).mono (fun _ _ final => tells final)
        fun _ final => tells final
    · exact fun final told => told
    · exact fun final told => told
  exact met.of_leaves leaves

end Run

namespace Units

open Run

def three : OrderedMap Json := [("1", .null), ("2", .str "1"), ("3", .str "2")]

def once : Selector := .nested "parent" .empty .empty

theorem cls_of_refers {holder inner : ClassId} {name : String}
    (refers : schema.Refers holder name inner) : inner = cls := by
  obtain ⟨field, found, targets⟩ := refers
  obtain ⟨unit, inUnits, inFields⟩ := Option.bind_eq_some_iff.mp found
  cases List.mem_singleton.mp (List.mem_of_getElem? inUnits)
  cases List.mem_singleton.mp (List.mem_of_find?_eq_some inFields)
  cases targets
  rfl

theorem nests_of_known {selector : Selector} (known : selector = twice ∨ selector = once) :
    schema.Nests cls selector := by
  let family (holder : ClassId) (level : Selector) : Prop :=
    holder = cls ∧ (level = twice ∨ level = once ∨ level = .empty)
  have belongs : family cls selector := ⟨rfl, known.imp_right .inl⟩
  refine Schema.Nests.of_closed (fun holder level member name sub inner selected refers => ?_)
    (fun holder level member name sub selected _ => ?_) belongs
  · obtain ⟨rfl, rfl | rfl | rfl⟩ := member
    · cases List.mem_singleton.mp selected
      exact ⟨cls_of_refers refers, .inr (.inl rfl)⟩
    · cases List.mem_singleton.mp selected
      exact ⟨cls_of_refers refers, .inr (.inr rfl)⟩
    · cases selected
  · obtain ⟨rfl, rfl | rfl | rfl⟩ := member
    · cases List.mem_singleton.mp selected
      exact ⟨cls, _, rfl, rfl⟩
    · cases List.mem_singleton.mp selected
      exact ⟨cls, _, rfl, rfl⟩
    · cases selected

/-- The wish for a unit with two generations, and for its parent. -/
def overlapping : List Demand := [.entity cls "3" twice [] true, .entity cls "2" once [] true]

theorem of_mem_overlapping {demand : Demand} (member : demand ∈ overlapping) :
    ∃ id selector, demand = .entity cls id selector [] true ∧ selector.Distinct ∧
      schema.Nests cls selector := by
  simp only [overlapping, List.mem_cons, List.not_mem_nil, or_false] at member
  rcases member with rfl | rfl
  · refine ⟨_, _, rfl, ?_, nests_of_known (.inl rfl)⟩
    simp [twice, Selector.Distinct, Selector.names]
  · refine ⟨_, _, rfl, ?_, nests_of_known (.inr rfl)⟩
    simp [once, Selector.Distinct, Selector.names]

theorem orderly_overlapping : Orderly (context three) { calls := [] } overlapping := by
  refine .of_valueless (fun demand member => ?_) (fun demand member => ?_)
    fun demand member begun begins => ?_
  all_goals obtain ⟨id, selector, rfl, distinct, nests⟩ := of_mem_overlapping member
  · rfl
  · exact distinct
  · cases begins
    exact nests

/-- The parent of a unit is wanted twice, and served from the cache once it is known. -/
theorem coherent_overlapping : ∃ ended,
    Leaves (context three) (Demand.runWithin 2 overlapping) { calls := [] } ended ∧
    ended.stats.cacheHits = 1 ∧ ended.arena = arenaAfter ended.events ∧
    Coherent (context three).catalog.schema ended.events := by
  have leaves : Leaves (context three) (Demand.runWithin 2 overlapping) { calls := [] } _ :=
    .inl ⟨⟨2, 2, 1⟩, rfl⟩
  exact ⟨_, leaves, rfl,
    coherent_of_run (context three) overlapping 2 [] _ orderly_overlapping leaves⟩

end Units

end EntityResolver
