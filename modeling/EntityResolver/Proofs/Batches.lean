import EntityResolver.Proofs.BatchKeys
import EntityResolver.Proofs.Run.Candidates
import EntityResolver.Proofs.Run.Requests

/-!
# Batches

A batch is led by the first target that a getter can serve. It takes those that lack the same fields
and were selected alike, as many as one call may have, and leaves no such target out before. What
the call is made for is what its results speak of.
-/

set_option autoImplicit false

namespace EntityResolver

variable {first target : Target} {pool : List Target} {supplied : List String}
variable {limit : Option Nat} {candidacy : Candidacy}

/-- Whatever the order, the same fields are unresolved and the same is selected. -/
theorem Target.isAlike_iff (valid : target.WellFormed) :
    target.isAlike first = true ↔
      target.unresolved.Perm first.unresolved ∧ target.selector.same first.selector = true := by
  constructor
  · exact fun alike => ⟨perm_of_isAlike valid alike, same_of_isAlike alike⟩
  · rintro ⟨perm, same⟩
    have inside (name : String) (member : name ∈ target.unresolved) :
        first.unresolved.contains name = true := by
      simpa using perm.mem_iff.mp member
    simp [isAlike, sameUnresolved, perm.length_eq, List.all_eq_true.mpr inside, same]

theorem Target.openAmong_of_isAlike (valid : target.WellFormed)
    (isOpen : first.openAmong supplied ≠ []) (alike : target.isAlike first = true) :
    target.openAmong supplied ≠ [] := by
  obtain ⟨name, member⟩ := List.exists_mem_of_ne_nil _ isOpen
  obtain ⟨unresolved, named⟩ := mem_openAmong.mp member
  have here := (perm_of_isAlike valid alike).mem_iff.mpr unresolved
  exact List.ne_nil_of_mem (mem_openAmong.mpr ⟨here, named⟩)

namespace Candidacy

def upTo {α : Type} (limit : Option Nat) (entries : List α) : List α :=
  match limit with
  | none => entries
  | some count => entries.take (max 1 count)

/-- Choosing keeps the order of the pool, and stops only at the limit. -/
theorem choose_eq (admits : Target → Bool) (limit : Option Nat) (position : Nat)
    (pool : List Target) :
    choose admits limit position pool =
      upTo limit (((pool.zipIdx position).filter fun entry => admits entry.1).map Prod.swap) := by
  induction pool generalizing limit position with
  | nil => cases limit <;> simp [choose, upTo]
  | cons head rest inductionHypothesis =>
      simp only [choose, List.zipIdx_cons, List.filter_cons]
      split
      · rw [List.map_cons]
        cases limit with
        | none => exact congrArg _ (inductionHypothesis none (position + 1))
        | some count =>
            dsimp only [upTo, Prod.swap]
            split
            · rename_i last
              rw [Nat.max_eq_left last, List.take_succ_cons, List.take_zero]
            · rename_i more
              have fewer : max 1 count = max 1 (count - 1) + 1 := by omega
              rw [inductionHypothesis, upTo, fewer, List.take_succ_cons]
      · exact inductionHypothesis limit (position + 1)

/-- The targets of a pool that are like the first, with their positions, up to the limit. -/
def mates (limit : Option Nat) (first : Target) (pool : List Target) : List (Target × Nat) :=
  upTo limit (pool.zipIdx.filter fun entry => entry.1.isAlike first)

/-- The candidacy is for the first target that can be served and for those like it, for all of its
unresolved fields that are supplied. -/
structure IsBatch (candidacy : Candidacy) (supplied : List String) (limit : Option Nat)
    (pool : List Target) (first : Target) : Prop where
  leader : pool.find? (fun target => !(target.openAmong supplied).isEmpty) = some first
  chosen : candidacy.chosen = (mates limit first pool).map Prod.snd
  names : candidacy.selector.names = first.openAmong supplied
  selector : candidacy.selector = first.selector.project (first.openAmong supplied)
  ids : candidacy.ids = ((mates limit first pool).map fun entry => entry.1.id).eraseDups
  score : candidacy.score = candidacy.chosen.length * candidacy.selector.names.length

theorem batchOf_eq (valid : ∀ target ∈ pool, target.WellFormed)
    (leader : pool.find? (fun target => !(target.openAmong supplied).isEmpty) = some first) :
    batchOf supplied limit pool = (mates limit first pool).map Prod.swap := by
  have isOpen : first.openAmong supplied ≠ [] := by simpa using List.find?_some leader
  have same : pool.zipIdx.filter (fun entry =>
      !(entry.1.openAmong supplied).isEmpty && entry.1.isAlike first) =
      pool.zipIdx.filter fun entry => entry.1.isAlike first := by
    refine List.filter_congr fun entry member => ?_
    cases alike : entry.1.isAlike first with
    | false => rw [Bool.and_false]
    | true =>
        have inPool := List.fst_mem_of_mem_zipIdx member
        simpa using Target.openAmong_of_isAlike (valid _ inPool) isOpen alike
  simp only [batchOf, leader]
  rw [choose_eq, same, mates]
  cases limit with
  | none => rfl
  | some count => exact List.map_take.symm

theorem exists_mates (limit : Option Nat) (valid : ∀ target ∈ pool, target.WellFormed)
    (leader : pool.find? (fun target => !(target.openAmong supplied).isEmpty) = some first) :
    ∃ position rest, mates limit first pool = (first, position) :: rest ∧
      batchOf supplied limit pool = (position, first) :: rest.map Prod.swap := by
  have head : (batchOf supplied limit pool).head?.map Prod.snd = some first := by
    simp only [batchOf, leader]
    rw [head_choose]
    exact find?_isAlike (valid first (List.mem_of_find?_eq_some leader)) leader
  rw [batchOf_eq valid leader] at head
  cases found : mates limit first pool with
  | nil => simp [found] at head
  | cons entry rest =>
      obtain ⟨target, position⟩ := entry
      have same : target = first := by simpa [found] using head
      subst same
      refine ⟨position, rest, rfl, ?_⟩
      rw [batchOf_eq valid leader, found]
      rfl

theorem distinct_sublist (texts : List String) : (distinct texts).Sublist texts := by
  induction texts with
  | nil => exact .refl _
  | cons text rest inductionHypothesis =>
      exact (List.filter_sublist.trans inductionHypothesis).cons_cons text

/-- No batch has more ids than its limit, which lets one through at least. -/
theorem IsBatch.length_ids_le {count : Nat}
    (batch : candidacy.IsBatch supplied (some count) pool first) :
    candidacy.ids.length ≤ max 1 count := by
  rw [batch.ids, ← distinct_eq_eraseDups]
  refine (distinct_sublist _).length_le.trans ?_
  rw [List.length_map, mates, upTo]
  exact List.length_take_le _ _

/-- Nothing is offered exactly if no target lacks a field that is supplied. -/
theorem ofBatch_eq_none_iff (valid : ∀ target ∈ pool, target.WellFormed) {repeatIds : Bool} :
    ofBatch supplied limit repeatIds pool = none ↔
      ∀ target ∈ pool, target.openAmong supplied = [] := by
  cases leader : pool.find? fun target => !(target.openAmong supplied).isEmpty with
  | none =>
      have nobody : ∀ target ∈ pool, target.openAmong supplied = [] := by
        simpa using List.find?_eq_none.mp leader
      simpa [ofBatch, batchOf, leader] using nobody
  | some first =>
      obtain ⟨position, rest, _, batch⟩ := exists_mates limit valid leader
      have isOpen : first.openAmong supplied ≠ [] := by simpa using List.find?_some leader
      have someone : ¬ ∀ target ∈ pool, target.openAmong supplied = [] := fun nobody =>
        isOpen (nobody first (List.mem_of_find?_eq_some leader))
      simp [ofBatch, batch, someone]

theorem ofBatch_isBatch (valid : ∀ target ∈ pool, target.WellFormed)
    (offered : ofBatch supplied limit false pool = some candidacy) :
    ∃ first, candidacy.IsBatch supplied limit pool first := by
  cases leader : pool.find? fun target => !(target.openAmong supplied).isEmpty with
  | none => simp [ofBatch, batchOf, leader] at offered
  | some first =>
      have inPool := List.mem_of_find?_eq_some leader
      obtain ⟨position, rest, found, batch⟩ := exists_mates limit valid leader
      have named : (first.selector.project (first.openAmong supplied)).names =
          first.openAmong supplied :=
        Selector.names_project (Target.nodup_openAmong (valid first inPool) supplied)
          (Target.openAmong_subset_names (valid first inPool) supplied)
      simp only [ofBatch, batch, Bool.false_eq_true, if_false, Option.some.injEq] at offered
      subst offered
      refine ⟨first, leader, ?_, named, rfl, ?_, ?_⟩
      · simp [found, Function.comp_def]
      · rw [distinct_eq_eraseDups, found]
        simp [Function.comp_def]
      · simp [named]

end Candidacy

/-- A batch getter offers nothing exactly if no unresolved field is supplied. What it offers is a
batch, and its call says something about each id of the batch and about no other. -/
theorem BatchGetter.candidacy_exact (method : BatchGetter) (pool : List Target)
    (valid : ∀ target ∈ pool, target.WellFormed) :
    ((Getter.batch method).candidacy? pool = none ↔
      ∀ target ∈ pool, ∀ name ∈ target.unresolved, name ∉ method.pickers.names) ∧
    ∀ candidacy, (Getter.batch method).candidacy? pool = some candidacy →
      (∃ first, candidacy.IsBatch method.pickers.names method.limit pool first ∧
        ∀ target ∈ pool, target.isAlike first = true ↔
          target.unresolved.Perm first.unresolved ∧ target.selector.same first.selector = true) ∧
      (∀ count, method.limit = some count → 1 ≤ count → candidacy.ids.length ≤ count) ∧
      ∀ context before results after,
        Run.Yields context ((Getter.batch method).fetch candidacy) before results after →
        OrderedMap.keys results = candidacy.ids ∧
          ∀ id, (OrderedMap.get? results id).isSome = true ↔ id ∈ candidacy.ids := by
  refine ⟨?_, fun candidacy offered => ?_⟩
  · refine (Candidacy.ofBatch_eq_none_iff valid).trans ?_
    simp only [Target.openAmong, List.filter_eq_nil_iff, List.contains_iff_mem]
    rfl
  · obtain ⟨first, batch⟩ : ∃ first,
        candidacy.IsBatch method.pickers.names method.limit pool first :=
      Candidacy.ofBatch_isBatch valid offered
    refine ⟨⟨first, batch, fun target member => Target.isAlike_iff (valid target member)⟩, ?_, ?_⟩
    · intro count limited positive
      rw [limited] at batch
      exact batch.length_ids_le.trans_eq (Nat.max_eq_right positive)
    · intro context before results after done
      have keys : OrderedMap.keys results = candidacy.ids := keys_fetchAll done
      exact ⟨keys, fun id => keys ▸ OrderedMap.isSome_get?_iff⟩

namespace Groups

def nameless (entity : Nat) (id : String) : Target := ⟨⟨entity⟩, cls, id, named, ["name"], true⟩

theorem wellFormed_nameless (entity : Nat) (id : String) : (nameless entity id).WellFormed :=
  ⟨by simp [nameless, named, Selector.Distinct, Selector.names], by simp [nameless], by
    simp [nameless, named, Selector.names]⟩

/-- A group that lacks nothing, and one that is wanted twice, before the limit is reached. -/
theorem candidacy_exact_two :
    let method := { getter with limit := some 2 }
    let pool := [{ nameless 0 "12|1" with unresolved := [] }, nameless 1 "12|2", nameless 2 "12|2",
      nameless 3 "12|3"]
    (∀ target ∈ pool, target.WellFormed) ∧
    ∃ candidacy, (Getter.batch method).candidacy? pool = some candidacy ∧
      candidacy.chosen = [1, 2] ∧ candidacy.ids = ["12|2"] ∧ candidacy.score = 2 ∧
      ∃ first, candidacy.IsBatch method.pickers.names method.limit pool first := by
  intro method pool
  have valid : ∀ target ∈ pool, target.WellFormed := by
    have resolved : { nameless 0 "12|1" with unresolved := [] }.WellFormed :=
      ⟨(wellFormed_nameless 0 "12|1").distinct, List.nodup_nil, List.nil_subset _⟩
    simp [pool, resolved, wellFormed_nameless]
  have offered : (Getter.batch method).candidacy? pool = some ⟨[1, 2], ["12|2"], named, 2⟩ := rfl
  obtain ⟨⟨first, batch, _⟩, _⟩ := (BatchGetter.candidacy_exact method pool valid).2 _ offered
  exact ⟨valid, _, offered, rfl, rfl, rfl, first, batch⟩

end Groups

end EntityResolver
