import EntityResolver.Proofs.Evaluation.Fetching
import EntityResolver.Proofs.Run.Termination
import Mathlib.Order.Lattice.Nat

/-!
How far references are followed.

Direct evaluation comes to an end, with success or not, where references do. A run follows the same
references, and comes to an end there too.
-/

set_option autoImplicit false

namespace EntityResolver

namespace Records

/-- All rows of references that the selector follows from the entity are shorter than `depth`. -/
def Unfolds (records : Records) (context : RunContext) : Nat → EntityKey → Selector → Prop
  | 0, _, _ => False
  | depth + 1, key, selector => ∀ name sub keys, (name, sub) ∈ selector.resolved →
      records.read? context key name = some keys →
      ∀ inner ∈ keys.entities, Unfolds records context depth inner sub

/-- The references that the selector follows from the entity come to an end. -/
def Ends (records : Records) (context : RunContext) (key : EntityKey)
    (selector : Selector) : Prop :=
  ∃ depth, records.Unfolds context depth key selector

variable {records : Records} {context : RunContext} {depth : Nat} {key inner : EntityKey}
variable {selector other sub : Selector} {name : String} {keys : FieldValue EntityKey}

theorem Evaluates.unfolds (evaluates : records.Evaluates context depth key selector) :
    records.Unfolds context depth key selector := by
  induction depth generalizing key selector with
  | zero =>
      obtain ⟨_, impossible⟩ := evaluates
      cases impossible
  | succ depth inductionHypothesis =>
      intro name sub keys member read inner inKeys
      obtain ⟨found, readToo, all⟩ := evaluates_succ_iff.mp evaluates name sub member
      cases read.symm.trans readToo
      exact inductionHypothesis (all inner inKeys)

/-- An entity without a record refers to nothing. -/
theorem Absent.unfolds (absent : records.Absent context key selector) :
    records.Unfolds context 1 key selector := by
  intro name sub keys _ read
  obtain ⟨members, found, _⟩ := Option.bind_eq_some_iff.mp read
  cases absent.1.symm.trans found

/-- How far references are followed does not depend on the order of fields. -/
theorem Unfolds.of_same (distinct : selector.Distinct) (distinctToo : other.Distinct)
    (same : selector.same other = true) (unfolds : records.Unfolds context depth key selector) :
    records.Unfolds context depth key other := by
  induction depth generalizing key selector other with
  | zero => exact unfolds
  | succ depth inductionHypothesis =>
      intro name sub keys member read inner inKeys
      obtain ⟨mine, inSelector, alike⟩ := Selector.exists_resolved_of_same distinctToo distinct
        (Selector.same_symm distinct distinctToo same) member
      have distinctSub := distinctToo.of_mem_resolved member
      have distinctMine := distinct.of_mem_resolved inSelector
      apply inductionHypothesis distinctMine distinctSub
      · exact Selector.same_symm distinctSub distinctMine alike
      · exact unfolds name mine keys inSelector read inner inKeys

/-- How many references are followed one after the other at most. -/
noncomputable def extent (records : Records) (context : RunContext) (key : EntityKey)
    (selector : Selector) : Nat :=
  sInf {depth | records.Unfolds context depth key selector}

/-- Fewer references are followed from an entity that is referred to. -/
theorem extent_lt (ends : records.Ends context key selector)
    (member : (name, sub) ∈ selector.resolved)
    (read : records.read? context key name = some keys) (inKeys : inner ∈ keys.entities)
    (distinct : other.Distinct) (distinctSub : sub.Distinct) (same : other.same sub = true) :
    records.Ends context inner other ∧
      records.extent context inner other < records.extent context key selector := by
  have least : records.Unfolds context (records.extent context key selector) key selector :=
    Nat.sInf_mem ends
  cases extent : records.extent context key selector with
  | zero =>
      rw [extent] at least
      exact least.elim
  | succ depth =>
      rw [extent] at least
      have below := (least name sub keys member read inner inKeys).of_same distinctSub distinct
        (Selector.same_symm distinct distinctSub same)
      exact ⟨⟨depth, below⟩, Nat.lt_succ_of_le (Nat.sInf_le below)⟩

end Records

open Run

variable {context : RunContext} {records : Records} {before after : RunState}

theorem wanted_of_spawnKeys {keys : FieldValue EntityKey} {sub : Selector}
    {value : FieldValue Handle} (distinct : sub.Distinct)
    (done : Yields context (keys.traverseEntities (spawnKey sub)) before value after) :
    ∃ new, after.spawned = before.spawned ++ new ∧ ∀ target ∈ new, target.WellFormed ∧
      target.key ∈ keys.entities ∧ target.selector = sub := by
  let queue (state : RunState) : Prop :=
    ∃ new, state.spawned = before.spawned ++ new ∧ ∀ target ∈ new, target.WellFormed ∧
      target.key ∈ keys.entities ∧ target.selector = sub
  have each {key : EntityKey} (member : key ∈ keys.entities) {first : RunState} {entity : Handle}
      {second : RunState} (queued : queue first)
      (done : Yields context (spawnKey sub key) first entity second) :
      queue second ∧ True ∧ True := by
    obtain ⟨_, rfl⟩ := yields_spawn_nil_iff.mp done
    obtain ⟨new, split, all⟩ := queued
    let origin := first.next key.1 key.2 sub false
    refine ⟨⟨new ++ [origin.wish].filter Target.isActive, ?_, ?_⟩, trivial, trivial⟩
    · rw [← List.append_assoc, ← split]
      rfl
    · intro target inNew
      rcases List.mem_append.mp inNew with old | fresh
      · exact all target old
      · cases List.mem_singleton.mp (List.mem_of_mem_filter fresh)
        exact ⟨⟨distinct, distinct.nodup, List.Subset.refl _⟩, member, rfl⟩
  have started : queue before := ⟨[], by simp, by simp⟩
  exact (yields_traverseEntities queue (fun _ _ => True) (fun _ _ _ => True)
    (fun _ => trivial) (fun _ _ => trivial) (fun _ _ => trivial) (fun member => each member)
    started done).1

def Records.database (records : Records) : Database where
  Shows key record := ∃ members, records.find? key = some members ∧ record = .object members

namespace Served

variable {getter : Getter} {cls : ClassId} {target : Target}

theorem answeredFrom (served : Served context records)
    (member : getter ∈ context.catalog.getters) :
    getter.AnsweredFrom records.database context.remote := by
  have plain := served.plain getter member
  have answered := served.answered getter member
  cases getter with
  | single method =>
      intro id selector params earlier response prepared replied
      cases (answered id selector params earlier prepared).symm.trans replied
      cases found : records.find? (method.cls, id) with
      | none => exact .inl rfl
      | some members => exact .inr ⟨members, found, rfl⟩
  | batch method =>
      obtain ⟨⟨param, elementary⟩, keyed, _⟩ := plain
      intro ids selector params earlier response prepared replied
      obtain ⟨answer, repliedToo, holds⟩ := answered ids selector params earlier prepared
      cases repliedToo.symm.trans replied
      rw [keyed]
      intro id asked key record isKey stored
      rw [elementary] at isKey
      cases isKey
      have here := holds id asked
      change OrderedMap.get? answer id = some record at stored
      cases found : records.find? (method.cls, id) with
      | none =>
          simp only [found, stored] at here
          rcases here with none | null
          · cases none
          · cases null
            exact .inl rfl
      | some members =>
          simp only [found, stored] at here
          cases here
          exact .inr ⟨members, found, rfl⟩
  | table method => exact plain.elim

theorem exists_referring (served : Served context records) {pool : List Target}
    {candidacy : Candidacy} {first : Target} {results : FetchResults}
    (offers : getter ∈ context.catalog.gettersOf cls)
    (fits : ∀ target ∈ pool, target.WellFormed ∧ target.cls = cls)
    (serves : candidacy.Serves getter.supplied pool first) (none : before.spawned = [])
    (done : Yields context (getter.fetch candidacy) before results after)
    (member : target ∈ after.spawned) :
    target.WellFormed ∧ ∃ index ∈ candidacy.chosen, ∃ old, pool[index]? = some old ∧
      ∃ name sub keys, (name, sub) ∈ old.selector.resolved ∧ target.selector.same sub = true ∧
        records.read? context old.key name = some keys ∧ target.key ∈ keys.entities := by
  have inGetters : getter ∈ context.catalog.getters := List.mem_of_mem_filter offers
  have sameClass := cls_eq offers
  have validFirst := (fits first serves.first_mem).1
  have distinct := serves.distinct validFirst
  rcases fromRecords_fetch (served.answeredFrom inGetters) done target member with old |
    ⟨id, asked, _, ⟨members, found, rfl⟩, name, sub, selected, spawns⟩
  · rw [none] at old
    cases old
  · obtain ⟨first, value?, second, new, loaded, split, inNew⟩ := spawns
    subst sameClass
    have supplied := serves.names_subset_supplied validFirst
    obtain ⟨keys, read, value, _, spawned⟩ := (served.yields_loadField_iff offers found
      (served.fields_of_supplied offers supplied _ selected)).mp loaded
    have distinctSub := distinct.of_mem_resolved selected
    obtain ⟨more, splitToo, wanted⟩ := wanted_of_spawnKeys distinctSub spawned
    cases List.append_cancel_left (split.symm.trans splitToo)
    obtain ⟨valid, inKeys, rfl⟩ := wanted target inNew
    obtain ⟨index, chosen, old, at_, rfl⟩ := serves.asked id asked
    obtain ⟨_, atToo, alike, _⟩ := serves.chosen index chosen
    cases at_.symm.trans atToo
    obtain ⟨validOld, sameClass⟩ := fits old (List.mem_of_getElem? at_)
    obtain ⟨other, inOld, same⟩ := serves.exists_resolved validFirst validOld alike selected
    rw [← sameClass] at read
    exact ⟨valid, index, chosen, old, at_, name, other, keys, inOld, same, read, inKeys⟩

end Served

structure Inherits (records : Records) (context : RunContext) (admits : Target → Prop) : Prop where
  continues : ∀ {target continued}, target.Continues continued → admits target → admits continued
  below : ∀ {old target name sub keys}, admits old → old.selector.Distinct →
    (name, sub) ∈ old.selector.resolved → records.read? context old.key name = some keys →
    target.key ∈ keys.entities → target.selector.Distinct → target.selector.same sub = true →
    admits target

theorem inherits_true : Inherits records context fun _ => True where
  continues _ _ := trivial
  below _ _ _ _ _ _ _ := trivial

theorem Target.Continues.key {target continued : Target} (continues : target.Continues continued) :
    continued.key = target.key :=
  Prod.ext continues.cls continues.id

/-- Targets rank by how far references are followed from them. -/
noncomputable def Served.ranking (served : Served context records) {admits : Target → Prop}
    (inherits : Inherits records context admits) : Ranking context Nat where
  fits target := target.WellFormed ∧ records.Ends context target.key target.selector ∧ admits target
  rank target := records.extent context target.key target.selector
  wellFormed fits := fits.1
  continues continues fits := by
    rw [continues.key, continues.selector]
    exact ⟨⟨fits.1.continues continues, fits.2.1, inherits.continues continues fits.2.2⟩, rfl⟩
  fetches := by
    intro cls pool getter candidacy before results fetched fits offers offered none done target
      member
    have valid : ∀ target ∈ pool, target.WellFormed ∧ target.cls = cls := fun target member =>
      ⟨(fits target member).1.1, (fits target member).2⟩
    obtain ⟨first, serves⟩ :=
      Getter.candidacy_serves (fun target member => (valid target member).1) offered
    obtain ⟨wellFormed, index, chosen, old, found, name, sub, keys, selected, same, read, inKeys⟩ :=
      served.exists_referring offers valid serves none done member
    obtain ⟨⟨validOld, ends, admitted⟩, _⟩ := fits old (List.mem_of_getElem? found)
    obtain ⟨endsToo, less⟩ := Records.extent_lt ends selected read inKeys wellFormed.distinct
      (validOld.distinct.of_mem_resolved selected) same
    refine ⟨⟨wellFormed, endsToo, ?_⟩, index, chosen, old, found, less⟩
    exact inherits.below admitted validOld.distinct selected read inKeys wellFormed.distinct same

end EntityResolver
