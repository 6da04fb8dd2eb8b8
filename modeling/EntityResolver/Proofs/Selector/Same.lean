import EntityResolver.Proofs.Selector.Entries
import Mathlib.Data.List.Perm.Subperm

/-!
Equality of selectors up to the order of fields.

On selectors without repeated names it is an equivalence, and equal selectors say the same about
every field.
-/

set_option autoImplicit false

namespace EntityResolver.Selector

/-- Both entries are recursive, or their subselectors are equal up to order. -/
def Entry.Alike : Entry → Entry → Prop
  | .nested first, .nested second => first.same second
  | .recursive, .recursive => True
  | _, _ => False

variable {first second sub : Selector} {name : String} {entry : Entry}

theorem sizeOf_lt_of_nested {selector : Selector}
    (found : selector.entry? name = some (.nested sub)) : sizeOf sub < sizeOf selector := by
  induction selector with
  | empty => simp [Selector.entry?] at found
  | nested other inner rest _ inductionHypothesis =>
      simp only [Selector.entry?] at found
      split at found
      · cases found
        simp only [nested.sizeOf_spec]
        omega
      · have smaller := inductionHypothesis found
        simp only [nested.sizeOf_spec]
        omega
  | recursive other rest inductionHypothesis =>
      simp only [Selector.entry?] at found
      split at found
      · cases found
      · have smaller := inductionHypothesis found
        simp only [recursive.sizeOf_spec]
        omega

theorem covered_iff :
    first.covered second = true ↔
      ∀ name entry, (name, entry) ∈ first.entries →
        ∃ other, second.entry? name = some other ∧ entry.Alike other := by
  induction first with
  | empty => simp [covered, entries]
  | nested head sub rest _ inductionHypothesis =>
      rw [covered, Bool.and_eq_true, inductionHypothesis]
      simp only [entries, List.mem_cons]
      constructor
      · rintro ⟨here, there⟩ name entry (same | member)
        · cases same
          split at here
          · rename_i theirs found
            exact ⟨_, found, here⟩
          · cases here
        · exact there name entry member
      · intro every
        refine ⟨?_, fun name entry member => every name entry (.inr member)⟩
        obtain ⟨other, found, alike⟩ := every head (.nested sub) (.inl rfl)
        cases other with
        | nested theirs =>
            rw [found]
            exact alike
        | recursive => exact alike.elim
  | recursive head rest inductionHypothesis =>
      rw [covered, Bool.and_eq_true, inductionHypothesis]
      simp only [entries, List.mem_cons]
      constructor
      · rintro ⟨here, there⟩ name entry (same | member)
        · cases same
          exact ⟨.recursive, by simpa [isRecursive] using here, trivial⟩
        · exact there name entry member
      · intro every
        refine ⟨?_, fun name entry member => every name entry (.inr member)⟩
        obtain ⟨other, found, alike⟩ := every head .recursive (.inl rfl)
        cases other with
        | nested theirs => exact alike.elim
        | recursive => simpa [isRecursive] using found

theorem same_iff (distinct : first.Distinct) :
    first.same second = true ↔
      first.names.Perm second.names ∧
        ∀ name entry, first.entry? name = some entry →
          ∃ other, second.entry? name = some other ∧ entry.Alike other := by
  simp only [same, Bool.and_eq_true, beq_iff_eq, covered_iff, mem_entries_iff distinct]
  constructor
  · rintro ⟨sizes, alike⟩
    refine ⟨?_, alike⟩
    have included : first.names ⊆ second.names := by
      intro name listed
      obtain ⟨entry, found⟩ := mem_names_iff.mp listed
      obtain ⟨other, foundToo, _⟩ := alike name entry found
      exact mem_names_of_found foundToo
    exact (distinct.nodup.subperm included).perm_of_length_le (Nat.le_of_eq sizes.symm)
  · rintro ⟨names, alike⟩
    exact ⟨names.length_eq, alike⟩

theorem same_refl {first : Selector} (distinct : first.Distinct) : first.same first = true := by
  rw [same_iff distinct]
  refine ⟨.refl _, fun name entry found => ⟨entry, found, ?_⟩⟩
  cases entry with
  | recursive => trivial
  | nested sub =>
      have smaller := sizeOf_lt_of_nested found
      exact same_refl (distinct.of_nested found)
termination_by sizeOf first

theorem same_symm {first second : Selector} (distinct : first.Distinct)
    (distinctToo : second.Distinct)
    (same : first.same second = true) : second.same first = true := by
  obtain ⟨names, alike⟩ := (same_iff distinct).mp same
  refine (same_iff distinctToo).mpr ⟨names.symm, fun name entry found => ?_⟩
  obtain ⟨other, foundToo⟩ := mem_names_iff.mp (names.mem_iff.mpr (mem_names_of_found found))
  obtain ⟨again, foundAgain, likeness⟩ := alike name other foundToo
  cases found.symm.trans foundAgain
  refine ⟨other, foundToo, ?_⟩
  match entry, other, likeness with
  | .recursive, .recursive, _ => trivial
  | .nested sub, .nested inner, equal =>
      have smaller := sizeOf_lt_of_nested foundToo
      exact same_symm (distinct.of_nested foundToo) (distinctToo.of_nested found) equal
termination_by sizeOf first

theorem same_trans {first second third : Selector} (distinct : first.Distinct)
    (distinctToo : second.Distinct) (distinctThird : third.Distinct)
    (left : first.same second = true)
    (right : second.same third = true) : first.same third = true := by
  obtain ⟨names, alike⟩ := (same_iff distinct).mp left
  obtain ⟨namesToo, alikeToo⟩ := (same_iff distinctToo).mp right
  refine (same_iff distinct).mpr ⟨names.trans namesToo, fun name entry found => ?_⟩
  obtain ⟨middle, foundMiddle, likeness⟩ := alike name entry found
  obtain ⟨last, foundLast, likenessToo⟩ := alikeToo name middle foundMiddle
  refine ⟨last, foundLast, ?_⟩
  match entry, middle, last, likeness, likenessToo with
  | .recursive, .recursive, .recursive, _, _ => trivial
  | .nested one, .nested two, .nested three, equal, equalToo =>
      have smaller := sizeOf_lt_of_nested found
      exact same_trans (distinct.of_nested found) (distinctToo.of_nested foundMiddle)
        (distinctThird.of_nested foundLast) equal equalToo
termination_by sizeOf first

theorem same_empty (empty : first.isEmpty = true) (same : first.same second = true) :
    second.isEmpty = true := by
  rw [isEmpty_iff] at empty
  subst empty
  cases second with
  | empty => rfl
  | nested name sub rest => simp [Selector.same, size, names] at same
  | recursive name rest => simp [Selector.same, size, names] at same

theorem Entry.Alike.within {other : Entry} (alike : entry.Alike other)
    (same : first.same second = true) :
    (entry.within first).same (other.within second) = true := by
  match entry, other, alike with
  | .recursive, .recursive, _ => exact same
  | .nested _, .nested _, equal => exact equal

/-- A field of one of two equal selectors is a field of the other, with an equal subselector. -/
theorem exists_resolved_of_same (distinct : first.Distinct) (distinctToo : second.Distinct)
    (same : first.same second = true) (member : (name, sub) ∈ first.resolved) :
    ∃ other, (name, other) ∈ second.resolved ∧ sub.same other = true := by
  obtain ⟨entry, found, rfl⟩ := Option.map_eq_some_iff.mp ((mem_resolved_iff distinct).mp member)
  obtain ⟨other, foundToo, alike⟩ := ((same_iff distinct).mp same).2 name entry found
  refine ⟨other.within second, (mem_resolved_iff distinctToo).mpr ?_, ?_⟩
  · simp [subselector?, foundToo]
  · exact alike.within same

end EntityResolver.Selector
