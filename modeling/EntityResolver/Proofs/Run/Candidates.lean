import EntityResolver.Proofs.Run.Resolving
import EntityResolver.Proofs.Selector.Project

/-!
Which targets a candidacy chooses, and what it wants to know of them.
-/

set_option autoImplicit false

namespace EntityResolver

/-- The candidacy wants the supplied open fields of one target, for it and for targets like it. -/
structure Candidacy.Serves (candidacy : Candidacy) (supplied : List String) (pool : List Target)
    (first : Target) : Prop where
  isOpen : first.openAmong supplied ≠ []
  selector : candidacy.selector = first.selector.project (first.openAmong supplied)
  chosenFirst : ∃ index ∈ candidacy.chosen, pool[index]? = some first
  chosen : ∀ index ∈ candidacy.chosen,
    ∃ target, pool[index]? = some target ∧ target.isAlike first = true ∧ target.id ∈ candidacy.ids
  asked : ∀ id ∈ candidacy.ids,
    ∃ index ∈ candidacy.chosen, ∃ target, pool[index]? = some target ∧ target.id = id

namespace Target

variable {first second target : Target} {name : String}

theorem mem_openAmong {names : List String} :
    name ∈ target.openAmong names ↔ name ∈ target.unresolved ∧ name ∈ names := by
  simp [openAmong]

theorem isAlike_refl (valid : target.WellFormed) : target.isAlike target = true := by
  simp [isAlike, sameUnresolved, Selector.same_refl valid.distinct]

theorem same_of_isAlike (alike : first.isAlike second = true) :
    first.selector.same second.selector = true :=
  (Bool.and_eq_true_iff.mp alike).2

/-- Targets that are alike lack the same fields. -/
theorem perm_of_isAlike (valid : first.WellFormed) (alike : first.isAlike second = true) :
    first.unresolved.Perm second.unresolved := by
  obtain ⟨lengths, all⟩ := Bool.and_eq_true_iff.mp (Bool.and_eq_true_iff.mp alike).1
  have included : first.unresolved ⊆ second.unresolved := by
    intro name member
    simpa using List.all_eq_true.mp all name member
  exact (valid.nodup.subperm included).perm_of_length_le
    (Nat.le_of_eq (beq_iff_eq.mp lengths).symm)

theorem openAmong_subset_names (valid : target.WellFormed) (names : List String) :
    target.openAmong names ⊆ target.selector.names :=
  fun _ member => valid.selected (mem_openAmong.mp member).1

theorem nodup_openAmong (valid : target.WellFormed) (names : List String) :
    (target.openAmong names).Nodup :=
  valid.nodup.filter _

end Target

namespace Candidacy

variable {admits : Target → Bool} {limit : Option Nat} {position index : Nat}
variable {pool : List Target} {target first : Target} {supplied : List String}
variable {candidacy : Candidacy}

theorem choose_sound (member : (index, target) ∈ choose admits limit position pool) :
    ∃ offset, index = position + offset ∧ pool[offset]? = some target ∧ admits target = true := by
  induction pool generalizing limit position with
  | nil => simp [choose] at member
  | cons head rest inductionHypothesis =>
      have later {limit : Option Nat}
          (member : (index, target) ∈ choose admits limit (position + 1) rest) :
          ∃ offset, index = position + offset ∧ (head :: rest)[offset]? = some target ∧
            admits target = true := by
        obtain ⟨offset, rfl, found, admitted⟩ := inductionHypothesis member
        exact ⟨offset + 1, by omega, found, admitted⟩
      simp only [choose] at member
      split at member
      · rename_i admitted
        have here (same : (index, target) = (position, head)) :
            ∃ offset, index = position + offset ∧ (head :: rest)[offset]? = some target ∧
              admits target = true := by
          cases same
          exact ⟨0, rfl, rfl, admitted⟩
        split at member
        · rcases List.mem_cons.mp member with same | inRest
          · exact here same
          · exact later inRest
        · split at member
          · exact here (List.mem_singleton.mp member)
          · rcases List.mem_cons.mp member with same | inRest
            · exact here same
            · exact later inRest
      · exact later member

theorem head_choose (admits : Target → Bool) (limit : Option Nat) (position : Nat)
    (pool : List Target) :
    (choose admits limit position pool).head?.map Prod.snd = pool.find? admits := by
  induction pool generalizing limit position with
  | nil => rfl
  | cons head rest inductionHypothesis =>
      simp only [choose, List.find?_cons]
      split
      · rename_i admitted
        rw [admitted]
        split
        · rfl
        · split <;> rfl
      · rename_i refused
        rw [Bool.not_eq_true] at refused
        rw [refused]
        exact inductionHypothesis limit (position + 1)

theorem mem_distinct {ids : List String} {id : String} : id ∈ distinct ids ↔ id ∈ ids := by
  induction ids with
  | nil => simp [distinct]
  | cons head rest inductionHypothesis =>
      by_cases same : id = head <;> simp [distinct, same, inductionHypothesis]

theorem nodup_distinct (ids : List String) : (distinct ids).Nodup := by
  induction ids with
  | nil => exact .nil
  | cons head rest inductionHypothesis =>
      exact List.nodup_cons.mpr ⟨by simp, inductionHypothesis.filter _⟩

theorem exists_ids_of_ofSingle (offered : ofSingle supplied pool = some candidacy) :
    ∃ id, candidacy.ids = [id] := by
  unfold ofSingle at offered
  split at offered
  · cases offered
  · cases offered
    exact ⟨_, rfl⟩

theorem ofSingle_serves (valid : ∀ target ∈ pool, target.WellFormed)
    (offered : ofSingle supplied pool = some candidacy) :
    ∃ first, candidacy.Serves supplied pool first := by
  unfold ofSingle at offered
  split at offered
  · cases offered
  · rename_i position first rest chosen
    cases offered
    obtain ⟨offset, rfl, found, isOpen⟩ := choose_sound (chosen ▸ List.mem_cons_self)
    rw [Nat.zero_add] at *
    refine ⟨first, by simpa using isOpen, rfl, ⟨offset, by simp, found⟩, ?_, ?_⟩
    · intro index member
      cases List.mem_singleton.mp member
      exact ⟨first, found, Target.isAlike_refl (valid first (List.mem_of_getElem? found)), by simp⟩
    · intro id member
      cases List.mem_singleton.mp member
      exact ⟨offset, by simp, first, found, rfl⟩

/-- The first target that can be served is the first like it that can be served. -/
theorem find?_isAlike (valid : first.WellFormed)
    (found : pool.find? (fun target => !(target.openAmong supplied).isEmpty) = some first) :
    pool.find? (fun target => !(target.openAmong supplied).isEmpty && target.isAlike first) =
      some first := by
  obtain ⟨isOpen, before, after, split, earlier⟩ := List.find?_eq_some_iff_append.mp found
  refine List.find?_eq_some_iff_append.mpr ⟨?_, before, after, split, ?_⟩
  · simpa [Target.isAlike_refl valid] using isOpen
  · intro target member
    have refused := earlier target member
    simp only [Bool.not_eq_true'] at refused ⊢
    simp [refused]

theorem batchOf_sound (valid : ∀ target ∈ pool, target.WellFormed) {limit : Option Nat}
    {rest : List (Nat × Target)}
    (batch : batchOf supplied limit pool = (index, first) :: rest) :
    first.openAmong supplied ≠ [] ∧
      ∀ index target, (index, target) ∈ batchOf supplied limit pool →
        pool[index]? = some target ∧ target.isAlike first = true := by
  unfold batchOf at batch ⊢
  cases found : pool.find? fun target => !(target.openAmong supplied).isEmpty with
  | none => simp [found] at batch
  | some wanted =>
      simp only [found] at batch ⊢
      have inPool := List.mem_of_find?_eq_some found
      have isOpen := List.find?_some found
      have same : first = wanted := by
        have head := head_choose (fun target =>
          !(target.openAmong supplied).isEmpty && target.isAlike wanted) limit 0 pool
        rw [batch] at head
        rw [find?_isAlike (valid wanted inPool) found] at head
        simpa using head
      subst same
      refine ⟨by simpa using isOpen, fun index target member => ?_⟩
      obtain ⟨offset, rfl, at_, admitted⟩ := choose_sound member
      rw [Nat.zero_add]
      exact ⟨at_, (Bool.and_eq_true_iff.mp admitted).2⟩

theorem ofBatch_serves (valid : ∀ target ∈ pool, target.WellFormed) {repeatIds : Bool}
    (offered : ofBatch supplied limit repeatIds pool = some candidacy) :
    ∃ first, candidacy.Serves supplied pool first := by
  unfold ofBatch at offered
  cases batch : batchOf supplied limit pool with
  | nil => simp [batch] at offered
  | cons entry rest =>
      obtain ⟨position, first⟩ := entry
      obtain ⟨isOpen, sound⟩ := batchOf_sound valid batch
      rw [batch] at sound
      simp only [batch, Option.some.injEq] at offered
      subst offered
      have listed (id : String) :
          id ∈ (if repeatIds then ((position, first) :: rest).map fun entry => entry.2.id
            else distinct (((position, first) :: rest).map fun entry => entry.2.id)) ↔
            ∃ entry ∈ (position, first) :: rest, entry.2.id = id := by
        split <;> simp [mem_distinct, eq_comm]
      refine ⟨first, isOpen, rfl, ⟨position, by simp, (sound _ _ List.mem_cons_self).1⟩, ?_, ?_⟩
      · intro index member
        obtain ⟨⟨_, target⟩, inBatch, rfl⟩ := List.mem_map.mp member
        obtain ⟨found, alike⟩ := sound _ _ inBatch
        exact ⟨target, found, alike, (listed _).mpr ⟨_, inBatch, rfl⟩⟩
      · intro id member
        obtain ⟨⟨index, target⟩, inBatch, same⟩ := (listed id).mp member
        exact ⟨index, List.mem_map.mpr ⟨_, inBatch, rfl⟩, target, (sound _ _ inBatch).1, same⟩

end Candidacy

theorem Getter.candidacy_serves {getter : Getter} {pool : List Target} {candidacy : Candidacy}
    (valid : ∀ target ∈ pool, target.WellFormed)
    (offered : getter.candidacy? pool = some candidacy) :
    ∃ first, candidacy.Serves getter.supplied pool first := by
  cases getter with
  | single method => exact Candidacy.ofSingle_serves valid offered
  | batch method => exact Candidacy.ofBatch_serves valid offered
  | table method => exact Candidacy.ofBatch_serves valid offered

theorem mem_of_bestCandidacy {pool : List Target} {getters : List Getter} {getter : Getter}
    {candidacy : Candidacy} (best : bestCandidacy? pool getters = some (getter, candidacy)) :
    getter ∈ getters ∧ getter.candidacy? pool = some candidacy := by
  induction getters with
  | nil => simp [bestCandidacy?] at best
  | cons head rest inductionHypothesis =>
      have later (best : bestCandidacy? pool rest = some (getter, candidacy)) :
          getter ∈ head :: rest ∧ getter.candidacy? pool = some candidacy := by
        obtain ⟨member, offered⟩ := inductionHypothesis best
        exact ⟨List.mem_cons_of_mem _ member, offered⟩
      simp only [bestCandidacy?] at best
      split at best
      · exact later best
      · rename_i offered _
        cases best
        exact ⟨List.mem_cons_self, offered⟩
      · rename_i offered found
        split at best
        · cases best
          exact later found
        · cases best
          exact ⟨List.mem_cons_self, offered⟩

namespace Candidacy.Serves

variable {candidacy : Candidacy} {supplied : List String} {pool : List Target}
variable {first target : Target}

theorem first_mem (serves : candidacy.Serves supplied pool first) : first ∈ pool := by
  obtain ⟨_, _, found⟩ := serves.chosenFirst
  exact List.mem_of_getElem? found

theorem names_eq (serves : candidacy.Serves supplied pool first) (valid : first.WellFormed) :
    candidacy.selector.names = first.openAmong supplied := by
  rw [serves.selector]
  exact Selector.names_project (Target.nodup_openAmong valid supplied)
    (Target.openAmong_subset_names valid supplied)

theorem distinct (serves : candidacy.Serves supplied pool first) (valid : first.WellFormed) :
    candidacy.selector.Distinct :=
  serves.selector ▸ valid.distinct.project _

theorem names_subset_supplied (serves : candidacy.Serves supplied pool first)
    (valid : first.WellFormed) : candidacy.selector.names ⊆ supplied := by
  rw [serves.names_eq valid]
  intro name isOpen
  exact (Target.mem_openAmong.mp isOpen).2

theorem names_subset_unresolved (serves : candidacy.Serves supplied pool first)
    (validFirst : first.WellFormed) (valid : target.WellFormed)
    (alike : target.isAlike first = true) : candidacy.selector.names ⊆ target.unresolved := by
  rw [serves.names_eq validFirst]
  intro name isOpen
  exact (Target.perm_of_isAlike valid alike).mem_iff.mpr (Target.mem_openAmong.mp isOpen).1

/-- What a chosen target wants of a fetched field is what the field is fetched with. -/
theorem exists_resolved (serves : candidacy.Serves supplied pool first)
    (validFirst : first.WellFormed) (valid : target.WellFormed)
    (alike : target.isAlike first = true) {name : String} {sub : Selector}
    (member : (name, sub) ∈ candidacy.selector.resolved) :
    ∃ other, (name, other) ∈ target.selector.resolved ∧ sub.same other = true := by
  have nodup := Target.nodup_openAmong validFirst supplied
  have listed := Target.openAmong_subset_names validFirst supplied
  have distinct := serves.distinct validFirst
  rw [serves.selector] at member distinct
  obtain ⟨middle, inFirst, same⟩ :=
    Selector.exists_resolved_of_project validFirst.distinct nodup listed member
  have reversed :=
    Selector.same_symm valid.distinct validFirst.distinct (Target.same_of_isAlike alike)
  obtain ⟨other, inTarget, sameToo⟩ :=
    Selector.exists_resolved_of_same validFirst.distinct valid.distinct reversed inFirst
  exact ⟨other, inTarget, Selector.same_trans (distinct.of_mem_resolved member)
    (validFirst.distinct.of_mem_resolved inFirst) (valid.distinct.of_mem_resolved inTarget) same
    sameToo⟩

/-- A chosen target lacks one of the fields that are fetched. -/
theorem exists_open (serves : candidacy.Serves supplied pool first)
    (validFirst : first.WellFormed) (valid : target.WellFormed)
    (alike : target.isAlike first = true) :
    ∃ name ∈ candidacy.selector.names, name ∈ target.unresolved := by
  obtain ⟨name, member⟩ := List.exists_mem_of_ne_nil _ serves.isOpen
  rw [← serves.names_eq validFirst] at member
  exact ⟨name, member, serves.names_subset_unresolved validFirst valid alike member⟩

end Candidacy.Serves

end EntityResolver
