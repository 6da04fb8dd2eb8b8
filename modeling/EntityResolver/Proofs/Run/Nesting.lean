import EntityResolver.Proofs.Run.Reading
import EntityResolver.Proofs.Selector.Same

/-!
Selectors that select nothing below scalar fields.
-/

set_option autoImplicit false

namespace EntityResolver

/-- Following references of the schema inside a selector for one class leads to another selector,
for another class. -/
inductive Schema.Within (schema : Schema) : ClassId → Selector → ClassId → Selector → Prop where
  | here (cls : ClassId) (selector : Selector) : Within schema cls selector cls selector
  | next {cls inner last : ClassId} {selector sub deepest : Selector} {name : String}
      (selected : (name, sub) ∈ selector.resolved) (refers : schema.Refers cls name inner)
      (inside : Within schema inner sub last deepest) : Within schema cls selector last deepest

/-- Fields are selected below a field only if it refers to entities, and so on inside, recursion
followed. -/
def Schema.Nests (schema : Schema) (cls : ClassId) (selector : Selector) : Prop :=
  ∀ inner sub, schema.Within cls selector inner sub → ∀ name deeper, (name, deeper) ∈ sub.resolved →
    deeper ≠ .empty → ∃ other, schema.Refers inner name other

structure Schema.Plain (schema : Schema) (cls : ClassId) (selector : Selector) : Prop where
  distinct : selector.Distinct
  alike : ∃ other : Selector, other.Distinct ∧ selector.same other = true ∧ schema.Nests cls other

namespace Schema

variable {schema : Schema} {cls inner : ClassId} {selector other sub : Selector} {name : String}

theorem Nests.below (nests : schema.Nests cls selector) (selected : (name, sub) ∈ selector.resolved)
    (refers : schema.Refers cls name inner) : schema.Nests inner sub :=
  fun last deepest inside => nests last deepest (.next selected refers inside)

/-- Selectors of a family that is closed under following references nest in references if each
selects nothing below its own scalar fields. -/
theorem Nests.of_closed {family : ClassId → Selector → Prop}
    (closed : ∀ ⦃cls selector⦄, family cls selector → ∀ ⦃name sub inner⦄,
      (name, sub) ∈ selector.resolved → schema.Refers cls name inner → family inner sub)
    (flat : ∀ ⦃cls selector⦄, family cls selector → ∀ ⦃name sub⦄, (name, sub) ∈ selector.resolved →
      sub ≠ .empty → ∃ inner, schema.Refers cls name inner)
    (belongs : family cls selector) : schema.Nests cls selector := by
  intro inner sub inside name deeper
  apply flat
  induction inside with
  | here => exact belongs
  | next selected refers _ inductionHypothesis =>
      exact inductionHypothesis (closed belongs selected refers)

namespace Plain

theorem of_nests (distinct : selector.Distinct) (nests : schema.Nests cls selector) :
    schema.Plain cls selector :=
  ⟨distinct, selector, distinct, Selector.same_refl distinct, nests⟩

theorem of_same (plain : schema.Plain cls selector) (distinct : other.Distinct)
    (same : other.same selector = true) : schema.Plain cls other := by
  obtain ⟨model, distinctModel, alike, nests⟩ := plain.alike
  refine ⟨distinct, model, distinctModel, ?_, nests⟩
  exact Selector.same_trans distinct plain.distinct distinctModel same alike

theorem below (plain : schema.Plain cls selector) (selected : (name, sub) ∈ selector.resolved)
    (refers : schema.Refers cls name inner) : schema.Plain inner sub := by
  obtain ⟨model, distinctModel, alike, nests⟩ := plain.alike
  obtain ⟨theirs, selectedToo, same⟩ :=
    Selector.exists_resolved_of_same plain.distinct distinctModel alike selected
  refine ⟨plain.distinct.of_mem_resolved selected, theirs, ?_, same, ?_⟩
  · exact distinctModel.of_mem_resolved selectedToo
  · exact nests.below selectedToo refers

/-- What is selected below a scalar field is nothing. -/
theorem exists_refers (plain : schema.Plain cls selector)
    (selected : (name, sub) ∈ selector.resolved) (nested : sub ≠ .empty) :
    ∃ inner, schema.Refers cls name inner := by
  obtain ⟨model, distinctModel, alike, nests⟩ := plain.alike
  obtain ⟨theirs, selectedToo, same⟩ :=
    Selector.exists_resolved_of_same plain.distinct distinctModel alike selected
  apply nests cls model (.here cls model) name theirs selectedToo
  rintro rfl
  have distinct := plain.distinct.of_mem_resolved selected
  have back := Selector.same_symm distinct (distinctModel.of_mem_resolved selectedToo) same
  exact nested (Selector.isEmpty_iff.mp (Selector.same_empty rfl back))

theorem refers_of_isRecursive (plain : schema.Plain cls selector)
    (recursive : selector.isRecursive name = true) : ∃ inner, schema.Refers cls name inner := by
  have selected := Selector.mem_resolved_of_isRecursive recursive
  apply plain.exists_refers selected
  rintro rfl
  cases selected

end Plain

end Schema

end EntityResolver
