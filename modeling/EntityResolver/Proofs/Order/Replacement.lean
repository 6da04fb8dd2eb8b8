import Mathlib.Data.List.Forall2
import Mathlib.Data.Multiset.DershowitzManna

/-!
Lists in which some elements become smaller, in the order of multisets.

A round of a run replaces some weights by smaller ones and adds others, each smaller than a weight
that was replaced.
-/

set_option autoImplicit false

namespace EntityResolver

open Multiset (IsDershowitzMannaLT)

variable {α : Type*} [Preorder α] {before after : List α}

/-- Every element stays as it is or becomes smaller. -/
abbrev Shrinks (before after : List α) : Prop :=
  List.Forall₂ (fun old new => new = old ∨ new < old) before after

/-- The element at some position became smaller than it was, which is `old`. -/
def Shrunk (before after : List α) (old : α) : Prop :=
  ∃ (index : Nat) (new : α), before[index]? = some old ∧ after[index]? = some new ∧ new < old

theorem exists_replacement (shrinks : Shrinks before after) :
    ∃ kept gone come : Multiset α, ↑before = kept + gone ∧ ↑after = kept + come ∧
      (∀ new ∈ come, ∃ old ∈ gone, new < old) ∧ ∀ old, Shrunk before after old → old ∈ gone := by
  induction shrinks with
  | nil => exact ⟨0, 0, 0, rfl, rfl, by simp, by simp [Shrunk]⟩
  | @cons old new before after pair _ inductionHypothesis =>
      obtain ⟨kept, gone, come, rfl_before, rfl_after, smaller, shrunk⟩ := inductionHypothesis
      have tail {lost : α} (found : Shrunk (old :: before) (new :: after) lost)
          (other : ∀ (index : Nat) (last : α), (old :: before)[index]? = some lost →
            (new :: after)[index]? = some last → last < lost → index = 0 → False) :
          lost ∈ gone := by
        obtain ⟨index, last, at_, atToo, less⟩ := found
        cases index with
        | zero => exact (other 0 last at_ atToo less rfl).elim
        | succ index => exact shrunk lost ⟨index, last, at_, atToo, less⟩
      rcases pair with rfl | less
      · refine ⟨new ::ₘ kept, gone, come, ?_, ?_, smaller, fun lost found => ?_⟩
        · rw [← Multiset.cons_coe, rfl_before, Multiset.cons_add]
        · rw [← Multiset.cons_coe, rfl_after, Multiset.cons_add]
        · refine tail found fun index last at_ atToo less zero => ?_
          subst zero
          cases at_
          cases atToo
          exact lt_irrefl _ less
      · refine ⟨kept, old ::ₘ gone, new ::ₘ come, ?_, ?_, ?_, fun lost found => ?_⟩
        · rw [← Multiset.cons_coe, rfl_before, Multiset.add_cons]
        · rw [← Multiset.cons_coe, rfl_after, Multiset.add_cons]
        · intro one member
          rcases Multiset.mem_cons.mp member with rfl | inCome
          · exact ⟨old, Multiset.mem_cons_self _ _, less⟩
          · obtain ⟨bigger, inGone, smaller⟩ := smaller one inCome
            exact ⟨bigger, Multiset.mem_cons_of_mem inGone, smaller⟩
        · obtain ⟨index, last, at_, atToo, lessToo⟩ := found
          cases index with
          | zero =>
              cases at_
              exact Multiset.mem_cons_self _ _
          | succ index =>
              exact Multiset.mem_cons_of_mem (shrunk lost ⟨index, last, at_, atToo, lessToo⟩)

/-- A list in which some element became smaller is smaller, even with more elements that are smaller
than one that became so. -/
theorem lt_of_shrinks (shrinks : Shrinks before after) {lost : α}
    (strict : Shrunk before after lost) (rest fresh : List α)
    (below : ∀ new ∈ fresh, ∃ old, Shrunk before after old ∧ new < old) :
    IsDershowitzMannaLT (↑(rest ++ after ++ fresh) : Multiset α) ↑(before ++ rest) := by
  obtain ⟨kept, gone, come, split, splitToo, smaller, shrunk⟩ := exists_replacement shrinks
  refine ⟨↑rest + kept, come + ↑fresh, gone, ?_, ?_, ?_, ?_⟩
  · intro none
    have member := shrunk lost strict
    rw [none] at member
    exact Multiset.notMem_zero _ member
  · rw [← Multiset.coe_add, ← Multiset.coe_add, splitToo, add_assoc, add_assoc, add_assoc]
  · rw [← Multiset.coe_add, split, add_comm, add_assoc]
  · intro new member
    rcases Multiset.mem_add.mp member with inCome | inFresh
    · exact smaller new inCome
    · obtain ⟨old, found, less⟩ := below new inFresh
      exact ⟨old, shrunk old found, less⟩

/-- A smaller list stays smaller when elements of it become smaller. -/
theorem lt_of_shrinks_of_lt (shrinks : Shrinks before after) {bound : Multiset α}
    (less : IsDershowitzMannaLT (↑before : Multiset α) bound) :
    IsDershowitzMannaLT (↑after : Multiset α) bound := by
  obtain ⟨kept, gone, come, split, splitToo, smaller, _⟩ := exists_replacement shrinks
  by_cases none : gone = 0
  · have nothing : come = 0 := by
      refine Multiset.eq_zero_of_forall_notMem fun new member => ?_
      obtain ⟨old, inGone, _⟩ := smaller new member
      rw [none] at inGone
      exact Multiset.notMem_zero _ inGone
    rw [splitToo, nothing, ← none, ← split]
    exact less
  · exact Multiset.IsDershowitzMannaLT.trans ⟨kept, come, gone, none, splitToo, split, smaller⟩
      less

/-- A smaller list stays smaller when elements of it are left out. -/
theorem lt_of_sublist_of_lt (fewer : after.Sublist before) {bound : Multiset α}
    (less : IsDershowitzMannaLT (↑before : Multiset α) bound) :
    IsDershowitzMannaLT (↑after : Multiset α) bound := by
  have included : (↑after : Multiset α) ≤ ↑before := Multiset.coe_le.mpr fewer.subperm
  obtain ⟨gone, split⟩ := Multiset.le_iff_exists_add.mp included
  by_cases none : gone = 0
  · rw [split, none, add_zero] at less
    exact less
  · refine Multiset.IsDershowitzMannaLT.trans ?_ less
    exact ⟨↑after, 0, gone, none, by simp, split, by simp⟩

end EntityResolver
