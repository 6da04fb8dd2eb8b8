import EntityResolver.Proofs.Run.Resolving

/-!
What the events of a run tell.

The events are a log of all that happens to the arena, so that replaying them gives every arena that
the run has had: each end of the log is how things stood at some point of the run.
-/

set_option autoImplicit false

namespace EntityResolver

def Event.apply (arena : Array EntityRecord) : Event → Array EntityRecord
  | .entered record => arena.push record
  | .resolved _ target name value =>
      arena.modify target.entity.index fun record =>
        { record with values := record.values.set name value }
  | .lost target => arena.modify target.entity.index fun record => { record with id := none }

/-- The arena as it was after the events, the latest first. -/
def arenaAfter : List Event → Array EntityRecord
  | [] => #[]
  | event :: earlier => event.apply (arenaAfter earlier)

/-- The log tells the arena, and ever since `base` the arena was as `valid` says. -/
structure Recorded (valid : Array EntityRecord → Prop) (base : List Event) (state : RunState) :
    Prop where
  replays : state.arena = arenaAfter state.events
  since : base <:+ state.events
  always : ∀ past, base <:+ past → past <:+ state.events → valid (arenaAfter past)

namespace Recorded

variable {valid wider : Array EntityRecord → Prop} {base : List Event}
variable {state before after : RunState}

theorem now (recorded : Recorded valid base state) : valid state.arena := by
  rw [recorded.replays]
  exact recorded.always _ recorded.since (List.suffix_refl _)

theorem start (replays : state.arena = arenaAfter state.events) (holds : valid state.arena) :
    Recorded valid state.events state := by
  refine ⟨replays, List.suffix_refl _, fun past since before => ?_⟩
  rw [before.eq_of_length_le since.length_le, ← replays]
  exact holds

theorem congr (recorded : Recorded valid base before) (arena : after.arena = before.arena)
    (events : after.events = before.events) : Recorded valid base after := by
  refine ⟨?_, events ▸ recorded.since, events ▸ recorded.always⟩
  rw [arena, events]
  exact recorded.replays

theorem log (recorded : Recorded valid base before) {event : Event}
    (arena : after.arena = event.apply before.arena)
    (events : after.events = event :: before.events) (holds : valid after.arena) :
    Recorded valid base after := by
  have replays : after.arena = arenaAfter after.events := by
    rw [arena, events, recorded.replays]
    rfl
  refine ⟨replays, ?_, fun past since before => ?_⟩
  · rw [events]
    exact recorded.since.trans (List.suffix_cons _ _)
  · rw [events] at before
    rcases List.suffix_cons_iff.mp before with rfl | earlier
    · rw [← events, ← replays]
      exact holds
    · exact recorded.always past since earlier

theorem join (first : Recorded valid base before) (second : Recorded wider before.events after)
    (implies : ∀ arena, wider arena → valid arena) : Recorded valid base after := by
  refine ⟨second.replays, first.since.trans second.since, fun past since earlier => ?_⟩
  rcases List.suffix_or_suffix_of_suffix earlier second.since with old | new
  · exact first.always past since old
  · exact implies _ (second.always past new earlier)

end Recorded

theorem Event.size_le_apply (arena : Array EntityRecord) (event : Event) :
    arena.size ≤ (event.apply arena).size := by
  cases event with
  | entered record => simp [Event.apply]
  | resolved source target name value => simp [Event.apply]
  | lost target => simp [Event.apply]

theorem size_arenaAfter_le {past events : List Event} (earlier : past <:+ events) :
    (arenaAfter past).size ≤ (arenaAfter events).size := by
  obtain ⟨later, rfl⟩ := earlier
  induction later with
  | nil => exact Nat.le_refl _
  | cons event later inductionHypothesis =>
      exact Nat.le_trans inductionHypothesis (event.size_le_apply _)

def Bears (events : List Event) (entity : Handle) (id : String) : Prop :=
  ∃ past, past <:+ events ∧ ((arenaAfter past)[entity.index]?).bind EntityRecord.id = some id

theorem Bears.mono {past events : List Event} {entity : Handle} {id : String}
    (bears : Bears past entity id) (later : past <:+ events) : Bears events entity id := by
  obtain ⟨older, earlier, found⟩ := bears
  exact ⟨older, earlier.trans later, found⟩

theorem id_of_apply {arena : Array EntityRecord} {event : Event} {index : Nat} {id : String}
    (inside : index < arena.size) (found : ((event.apply arena)[index]?).bind EntityRecord.id = some id) :
    (arena[index]?).bind EntityRecord.id = some id := by
  cases event with
  | entered record =>
      rw [Event.apply, Array.getElem?_push, if_neg (by omega)] at found
      exact found
  | resolved source target name value =>
      rw [Event.apply, Array.getElem?_modify] at found
      split at found
      · rw [Option.bind_map] at found
        exact found
      · exact found
  | lost target =>
      rw [Event.apply, Array.getElem?_modify] at found
      split at found
      · obtain ⟨_, changed, kept⟩ := Option.bind_eq_some_iff.mp found
        obtain ⟨_, _, rfl⟩ := Option.map_eq_some_iff.mp changed
        cases kept
      · exact found

theorem id_of_suffix {past events : List Event} (earlier : past <:+ events) {index : Nat}
    {id : String} (inside : index < (arenaAfter past).size)
    (found : ((arenaAfter events)[index]?).bind EntityRecord.id = some id) :
    ((arenaAfter past)[index]?).bind EntityRecord.id = some id := by
  obtain ⟨later, rfl⟩ := earlier
  induction later with
  | nil => exact found
  | cons event later inductionHypothesis =>
      have grown := size_arenaAfter_le (List.suffix_append later past)
      exact inductionHypothesis (id_of_apply (Nat.lt_of_lt_of_le inside grown) found)

theorem Bears.unique {events : List Event} {entity : Handle} {one other : String}
    (bears : Bears events entity one) (bearsToo : Bears events entity other) : one = other := by
  obtain ⟨first, earlier, found⟩ := bears
  obtain ⟨second, earlierToo, foundToo⟩ := bearsToo
  have inside {past : List Event} {id : String}
      (found : ((arenaAfter past)[entity.index]?).bind EntityRecord.id = some id) :
      entity.index < (arenaAfter past).size := by
    obtain ⟨record, here, _⟩ := Option.bind_eq_some_iff.mp found
    exact (Array.getElem?_eq_some_iff.mp here).1
  rcases List.suffix_or_suffix_of_suffix earlier earlierToo with before | after
  · exact Option.some.inj (found.symm.trans (id_of_suffix before (inside found) foundToo))
  · exact Option.some.inj ((id_of_suffix after (inside foundToo) found).symm.trans foundToo)

def Event.response? (cls : ClassId) (id name : String) : Event → Option (FieldValue Handle)
  | .resolved .response target field value =>
      if target.cls = cls ∧ target.id = id ∧ field = name then some value else none
  | .resolved .cache _ _ _ | .entered _ | .lost _ => none

/-- The latest value that responses held for a field of an entity. -/
def latest (events : List Event) (cls : ClassId) (id name : String) : Option (FieldValue Handle) :=
  events.findSome? (Event.response? cls id name)

section Latest

variable {events : List Event} {target : Target} {field : String} {value : FieldValue Handle}

theorem latest_response (cls : ClassId) (id name : String) :
    latest (.resolved .response target field value :: events) cls id name =
      if target.cls = cls ∧ target.id = id ∧ field = name then some value
      else latest events cls id name := by
  simp only [latest, List.findSome?_cons, Event.response?]
  by_cases mine : target.cls = cls ∧ target.id = id ∧ field = name
  · simp only [if_pos mine]
  · simp only [if_neg mine]

end Latest

end EntityResolver
