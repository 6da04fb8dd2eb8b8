import EntityResolver.Proofs.Evaluation.Unfolding
import EntityResolver.Proofs.Run.Progress

/-!
Runs do not fail where evaluation succeeds.

All targets that wait are for entities that can be evaluated, or for roots that do not exist. So
every fetch finds what it asks for, and only targets that may be given up have to be.
-/

set_option autoImplicit false

namespace EntityResolver

open Run

variable {context : RunContext} {records : Records} {state before after : RunState}
variable {weak : List Handle} {target : Target} {live : List Target}

/-- The entity of the target can be evaluated, or it need not exist and does not. -/
def Promising (records : Records) (context : RunContext) (weak : List Handle) (target : Target) :
    Prop :=
  (∃ depth, records.Evaluates context depth target.key target.selector) ∨
    target.entity ∈ weak ∧ records.Absent context target.key target.selector

theorem inherits_promising (weak : List Handle) :
    Inherits records context (Promising records context weak) where
  continues := by
    intro target continued continues promising
    unfold Promising
    rw [continues.key, continues.selector, continues.entity]
    exact promising
  below := by
    intro old target name sub keys promising distinct selected read inKeys distinctToo same
    rcases promising with ⟨depth, evaluates⟩ | ⟨_, absent, _⟩
    · cases depth with
      | zero =>
          obtain ⟨_, impossible⟩ := evaluates
          cases impossible
      | succ depth =>
          obtain ⟨_, readToo, all⟩ := Records.evaluates_succ_iff.mp evaluates name sub selected
          cases read.symm.trans readToo
          have distinctSub := distinct.of_mem_resolved selected
          refine .inl ⟨depth, (all _ inKeys).of_same distinctSub distinctToo ?_⟩
          exact Selector.same_symm distinctToo distinctSub same
    · obtain ⟨members, found, _⟩ := Option.bind_eq_some_iff.mp read
      cases absent.symm.trans found

theorem Promising.ends (promising : Promising records context weak target) :
    records.Ends context target.key target.selector := by
  rcases promising with ⟨depth, evaluates⟩ | ⟨_, absent⟩
  · exact ⟨depth, evaluates.unfolds⟩
  · exact ⟨1, absent.unfolds⟩

theorem Promising.exists_read (promising : Promising records context weak target)
    {members : OrderedMap Json} (found : records.find? target.key = some members) {name : String}
    {sub : Selector} (selected : (name, sub) ∈ target.selector.resolved) :
    ∃ keys, records.read? context target.key name = some keys := by
  rcases promising with ⟨depth, evaluates⟩ | ⟨_, absent, _⟩
  · cases depth with
    | zero =>
        obtain ⟨_, impossible⟩ := evaluates
        cases impossible
    | succ depth =>
        obtain ⟨keys, read, _⟩ := Records.evaluates_succ_iff.mp evaluates name sub selected
        exact ⟨keys, read⟩
  · cases absent.symm.trans found

structure Hopeful (records : Records) (context : RunContext) (weak : List Handle)
    (state : RunState) : Prop where
  steady : Steady (records.truth context) state
  lively : RunState.Lively state.pools
  expendable : ∀ entity ∈ weak, ∃ origin ∈ state.origins,
    origin.entity = entity ∧ origin.isWeak = true
  promising : ∀ target ∈ state.pooled, Promising records context weak target

/-- Nothing is known of a target whose entity does not exist, and it may be given up. -/
theorem Sound.weak_of_absent (sound : Sound (records.truth context) live state)
    (member : target ∈ live)
    (weak : ∃ origin ∈ state.origins, origin.entity = target.entity ∧ origin.isWeak = true)
    (absent : records.find? target.key = none) :
    target.isWeak = true ∧ target.unresolved = target.selector.names := by
  obtain ⟨origin, spawned, same, isWeak⟩ := weak
  obtain ⟨mine, spawnedToo, pending⟩ := sound.waits target member
  cases sound.origin_unique spawned spawnedToo (same.trans pending.entity)
  by_cases still : target.isWeak = true
  · refine ⟨still, ?_⟩
    rw [pending.continues.selector]
    exact (pending.weak still).2
  · obtain ⟨name, keys, read⟩ := pending.strong (by simpa using still) isWeak
    obtain ⟨members, found, _⟩ := Option.bind_eq_some_iff.mp read
    rw [pending.key] at absent
    cases absent.symm.trans found

theorem FieldPickers.mem_names_of_find :
    ∀ {fields : FieldPickers} {name : String} {picker : Picker}, fields.find? name = some picker →
      name ∈ fields.names
  | .none, _, _, found => nomatch found
  | .field other _ rest, name, _, found => by
      rw [find?] at found
      split at found
      · rename_i same
        exact same ▸ List.mem_cons_self
      · exact List.mem_cons_of_mem _ (mem_names_of_find found)

theorem Catalog.exists_supplier {catalog : Catalog} {cls : ClassId} {name : String}
    (some_ : (catalog.picker? cls name).isSome = true) :
    ∃ getter ∈ catalog.gettersOf cls, name ∈ getter.supplied := by
  obtain ⟨picker, found⟩ := Option.isSome_iff_exists.mp some_
  obtain ⟨getter, offers, own⟩ := List.exists_of_findSome?_eq_some found
  refine ⟨getter, offers, ?_⟩
  have listed := FieldPickers.mem_names_of_find own
  cases getter with
  | single method => exact listed
  | batch method => exact listed
  | table method => cases own

namespace Hopeful

theorem exists_getter (hopeful : Hopeful records context weak state)
    (member : target ∈ state.pooled)
    (active : target.isActive = true) :
    ∃ getter ∈ context.catalog.gettersOf target.cls, target.openAmong getter.supplied ≠ [] := by
  have valid := hopeful.steady.sound.wellFormed member
  have wanted : ∃ name ∈ target.unresolved, (context.catalog.picker? target.cls name).isSome = true := by
    rcases hopeful.promising target member with ⟨depth, evaluates⟩ | ⟨inWeak, absent⟩
    · have lacking : target.unresolved ≠ [] := by simpa [Target.isActive] using active
      obtain ⟨name, lacks⟩ := List.exists_mem_of_ne_nil _ lacking
      obtain ⟨sub, selected⟩ := Selector.exists_mem_resolved (valid.selected lacks)
      have record := evaluates.exists_record (List.ne_nil_of_mem (valid.selected lacks))
      obtain ⟨members, found⟩ := record
      obtain ⟨keys, read⟩ := (hopeful.promising target member).exists_read found selected
      obtain ⟨_, _, _, _, picker, own, _⟩ := Records.read_eq_some_iff.mp read
      exact ⟨name, lacks, by rw [own]; rfl⟩
    · obtain ⟨_, untouched⟩ :=
        hopeful.steady.sound.weak_of_absent member (hopeful.expendable _ inWeak) absent.1
      obtain ⟨_, name, selected, supplied⟩ := absent
      exact ⟨name, untouched ▸ selected, supplied⟩
  obtain ⟨name, lacks, some_⟩ := wanted
  obtain ⟨getter, offers, supplied⟩ := Catalog.exists_supplier some_
  refine ⟨getter, offers, ?_⟩
  exact List.ne_nil_of_mem (Target.mem_openAmong.mpr ⟨lacks, supplied⟩)

end Hopeful

theorem Tells.exists_value {key : EntityKey} {fields : List (String × Selector)}
    {values : FieldValues} (tells : Tells records context state key fields values) {name : String}
    (listed : name ∈ fields.map Prod.fst) : ∃ value, values.get? name = some value := by
  induction tells with
  | nil => cases listed
  | @cons entry stored _ _ pair _ inductionHypothesis =>
      obtain ⟨other, value⟩ := stored
      rw [OrderedMap.get?_cons]
      by_cases same : other = name
      · exact ⟨value, if_pos same⟩
      · rw [if_neg same]
        apply inductionHypothesis
        rcases List.mem_cons.mp listed with here | inRest
        · exact absurd (pair.1.trans here.symm) same
        · exact inRest

theorem Says.settleable {selector : Selector} {results : FetchResults} {outcome : FetchOutcome}
    (told : Says records context state target.key selector outcome)
    (found : results.get? target.id = some outcome)
    (weak : records.find? target.key = none → target.isWeak = true) :
    Settleable selector.names results target := by
  unfold Settleable
  rw [found]
  cases outcome with
  | absent => exact weak told
  | found values =>
      obtain ⟨_, _, tells⟩ := told
      intro name listed
      exact tells.exists_value (by simpa using listed)

namespace Hopeful

section First

variable {cls : ClassId} {pool : List Target} {others : List (ClassId × List Target)}
variable {getter : Getter} {candidacy : Candidacy} {leading : Target}

theorem mem_of_first (hopeful : Hopeful records context weak state)
    (first : state.pools = (cls, pool) :: others) (member : target ∈ pool) :
    target ∈ state.pooled ∧ target.WellFormed ∧ target.cls = cls := by
  have pooled : target ∈ state.pooled := by
    rw [RunState.pooled_of_first first]
    exact List.mem_append_left _ member
  refine ⟨pooled, hopeful.steady.sound.wellFormed pooled, ?_⟩
  exact hopeful.steady.classed _ _ (first ▸ List.mem_cons_self) target member

/-- Some getter offers itself, since some target lacks a field that can be read. -/
theorem exists_best (hopeful : Hopeful records context weak state)
    (first : state.pools = (cls, pool) :: others) :
    ∃ getter candidacy leading,
      bestCandidacy? pool (context.catalog.gettersOf cls) = some (getter, candidacy) ∧
        getter ∈ context.catalog.gettersOf cls ∧
        candidacy.Serves getter.supplied pool leading := by
  have valid : ∀ target ∈ pool, target.WellFormed := fun target member =>
    (hopeful.mem_of_first first member).2.1
  obtain ⟨filled, active⟩ := hopeful.lively _ _ (first ▸ List.mem_cons_self)
  obtain ⟨lacking, member⟩ := List.exists_mem_of_ne_nil _ filled
  obtain ⟨pooled, _, rfl⟩ := hopeful.mem_of_first first member
  obtain ⟨able, offersAble, isOpen⟩ := hopeful.exists_getter pooled (active lacking member)
  obtain ⟨_, offered⟩ := exists_candidacy valid member isOpen
  obtain ⟨⟨getter, candidacy⟩, best⟩ := exists_bestCandidacy offersAble offered
  obtain ⟨offers, offered⟩ := mem_of_bestCandidacy best
  obtain ⟨leading, serves⟩ := Getter.candidacy_serves valid offered
  exact ⟨getter, candidacy, leading, best, offers, serves⟩

theorem readable_of_serves (hopeful : Hopeful records context weak state)
    (first : state.pools = (cls, pool) :: others)
    (serves : candidacy.Serves getter.supplied pool leading) :
    ∀ id ∈ candidacy.ids, Readable records context (cls, id) candidacy.selector := by
  intro id asked members found entry selected
  obtain ⟨index, chosen, old, at_, rfl⟩ := serves.asked id asked
  obtain ⟨_, atToo, alike, _⟩ := serves.chosen index chosen
  cases at_.symm.trans atToo
  obtain ⟨_, validLeading, _⟩ := hopeful.mem_of_first first serves.first_mem
  obtain ⟨pooled, valid, rfl⟩ := hopeful.mem_of_first first (List.mem_of_getElem? at_)
  obtain ⟨sub, inOld, _⟩ := serves.exists_resolved validLeading valid alike selected
  exact (hopeful.promising old pooled).exists_read found inOld

/-- A chosen target can be settled by what the records say: if its entity does not exist, it may be
given up. -/
theorem settleable_of_serves (hopeful : Hopeful records context weak state)
    (first : state.pools = (cls, pool) :: others)
    (serves : candidacy.Serves getter.supplied pool leading) {results : FetchResults}
    (told : SaysAll records context after cls candidacy.selector candidacy.ids results)
    {index : Nat} (found : pool[index]? = some target) (chosen : index ∈ candidacy.chosen) :
    Settleable candidacy.selector.names results target := by
  obtain ⟨_, foundToo, alike, asked⟩ := serves.chosen index chosen
  cases found.symm.trans foundToo
  obtain ⟨_, validLeading, _⟩ := hopeful.mem_of_first first serves.first_mem
  obtain ⟨pooled, valid, rfl⟩ := hopeful.mem_of_first first (List.mem_of_getElem? found)
  obtain ⟨outcome, given, says_⟩ := told.exists_says asked
  apply says_.settleable given
  intro absent
  rcases hopeful.promising target pooled with ⟨depth, evaluates⟩ | ⟨inWeak, _⟩
  · obtain ⟨name, _, lacks⟩ := serves.exists_open validLeading valid alike
    obtain ⟨members, exists_⟩ := evaluates.exists_record (List.ne_nil_of_mem (valid.selected lacks))
    cases absent.symm.trans exists_
  · exact (hopeful.steady.sound.weak_of_absent pooled (hopeful.expendable _ inWeak) absent).1

end First

theorem succeeds_round (served : Served context records)
    (hopeful : Hopeful records context weak state) (waiting : state.pools ≠ []) :
    Succeeds context round state := by
  obtain ⟨⟨cls, pool⟩, others, first⟩ := List.exists_cons_of_ne_nil waiting
  obtain ⟨getter, candidacy, leading, best, offers, serves⟩ := hopeful.exists_best first
  obtain ⟨_, valid, _⟩ := hopeful.mem_of_first first serves.first_mem
  have supplied := serves.names_subset_supplied valid
  obtain ⟨results, fetched, fetches⟩ := served.succeeds_fetch offers supplied
    (hopeful.readable_of_serves first serves) { state.counted with pools := others }
  have knows : Knows records context state.pooled { state.counted with pools := others } := by
    unfold Knows
    rw [show RunState.spawned { state.counted with pools := others } = [] from
      hopeful.steady.none]
    exact (hopeful.steady.sound.frame others state.spawned state.prerequisites state.outputs
      state.counted.stats state.calls).1
  obtain ⟨_, _, told⟩ := served.fetch offers supplied (serves.distinct valid) knows fetches
  apply Run.succeeds_round first best fetches
  exact fun index target found chosen =>
    hopeful.settleable_of_serves first serves told found chosen

theorem round (served : Served context records) (hopeful : Hopeful records context weak before)
    (waiting : before.pools ≠ []) (done : Yields context Run.round before () after) :
    Hopeful records context weak after := by
  obtain ⟨steady, keeps⟩ := hopeful.steady.round served.faithful waiting done
  let ranking := served.ranking (inherits_promising weak)
  have waits : Waits ranking.fits before := by
    refine ⟨hopeful.steady.none, hopeful.steady.classed, ?_⟩
    intro target member
    have promising := hopeful.promising target member
    exact ⟨hopeful.steady.sound.wellFormed member, promising.ends, promising⟩
  obtain ⟨waitsAfter, _⟩ := ranking.round waits waiting done
  refine ⟨steady, ?_, ?_, fun target member => (waitsAfter.fits target member).2.2⟩
  · obtain ⟨_, swept, _, _, _, rfl⟩ := round_cases waiting done
    exact lively_prune swept
  · intro entity inWeak
    obtain ⟨origin, spawned, known⟩ := hopeful.expendable entity inWeak
    exact ⟨origin, keeps.origins origin spawned, known⟩

theorem exists_round (served : Served context records)
    (hopeful : Hopeful records context weak before)
    (waiting : before.pools ≠ []) :
    ∃ after, Yields context Run.round before () after ∧ Hopeful records context weak after := by
  obtain ⟨_, after, done⟩ := hopeful.succeeds_round served waiting
  exact ⟨after, done, hopeful.round served waiting done⟩

end Hopeful

end EntityResolver
