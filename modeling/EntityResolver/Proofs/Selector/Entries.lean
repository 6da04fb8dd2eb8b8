import EntityResolver.Selector.Basic

/-!
The entries of selectors: what is found under a name after a selector was changed.
-/

set_option autoImplicit false

namespace EntityResolver.Selector

variable {selector sub : Selector} {name : String} {entry : Entry}

@[simp] theorem map_fst_entries (selector : Selector) :
    selector.entries.map Prod.fst = selector.names := by
  induction selector with
  | empty => rfl
  | nested name sub rest _ inductionHypothesis => simp [entries, names, inductionHypothesis]
  | recursive name rest inductionHypothesis => simp [entries, names, inductionHypothesis]

theorem entry?_eq_none_iff : selector.entry? name = none ↔ name ∉ selector.names := by
  induction selector with
  | empty => simp [Selector.entry?, names]
  | nested other sub rest _ inductionHypothesis =>
      by_cases same : other = name
      · simp [Selector.entry?, names, same]
      · simp [Selector.entry?, names, same, inductionHypothesis, Ne.symm same]
  | recursive other rest inductionHypothesis =>
      by_cases same : other = name
      · simp [Selector.entry?, names, same]
      · simp [Selector.entry?, names, same, inductionHypothesis, Ne.symm same]

theorem mem_names_iff : name ∈ selector.names ↔ ∃ entry, selector.entry? name = some entry := by
  rw [← Option.ne_none_iff_exists', ne_eq, entry?_eq_none_iff, Classical.not_not]

theorem mem_names_of_found (found : selector.entry? name = some entry) : name ∈ selector.names :=
  mem_names_iff.mpr ⟨entry, found⟩

theorem isEmpty_iff : selector.isEmpty = true ↔ selector = .empty := by
  cases selector <;> simp [isEmpty]

theorem Distinct.nodup (distinct : selector.Distinct) : selector.names.Nodup := by
  induction selector with
  | empty => simp [names]
  | nested name sub rest _ inductionHypothesis =>
      exact List.nodup_cons.mpr ⟨distinct.1, inductionHypothesis distinct.2.2⟩
  | recursive name rest inductionHypothesis =>
      exact List.nodup_cons.mpr ⟨distinct.1, inductionHypothesis distinct.2⟩

theorem entry?_of_mem_entries (distinct : selector.Distinct)
    (member : (name, entry) ∈ selector.entries) : selector.entry? name = some entry := by
  have listed {rest : Selector} (inside : (name, entry) ∈ rest.entries) : name ∈ rest.names := by
    rw [← map_fst_entries]
    exact List.mem_map.mpr ⟨_, inside, rfl⟩
  induction selector with
  | empty => simp [entries] at member
  | nested other sub rest _ inductionHypothesis =>
      rcases List.mem_cons.mp member with same | inRest
      · cases same
        simp [Selector.entry?]
      · have differs : other ≠ name := fun same => distinct.1 (same ▸ listed inRest)
        simp [Selector.entry?, differs, inductionHypothesis distinct.2.2 inRest]
  | recursive other rest inductionHypothesis =>
      rcases List.mem_cons.mp member with same | inRest
      · cases same
        simp [Selector.entry?]
      · have differs : other ≠ name := fun same => distinct.1 (same ▸ listed inRest)
        simp [Selector.entry?, differs, inductionHypothesis distinct.2 inRest]

theorem mem_entries_iff (distinct : selector.Distinct) :
    (name, entry) ∈ selector.entries ↔ selector.entry? name = some entry :=
  ⟨entry?_of_mem_entries distinct, mem_entries_of_found⟩

theorem Distinct.of_nested (distinct : selector.Distinct)
    (found : selector.entry? name = some (.nested sub)) : sub.Distinct := by
  induction selector with
  | empty => simp [Selector.entry?] at found
  | nested other inner rest _ inductionHypothesis =>
      simp only [Selector.entry?] at found
      split at found
      · cases found
        exact distinct.2.1
      · exact inductionHypothesis distinct.2.2 found
  | recursive other rest inductionHypothesis =>
      simp only [Selector.entry?] at found
      split at found
      · cases found
      · exact inductionHypothesis distinct.2 found

theorem mem_resolved_iff (distinct : selector.Distinct) :
    (name, sub) ∈ selector.resolved ↔ selector.subselector? name = some sub := by
  unfold resolved subselector?
  rw [List.mem_map, Option.map_eq_some_iff]
  constructor
  · rintro ⟨⟨other, entry⟩, member, same⟩
    cases same
    exact ⟨entry, entry?_of_mem_entries distinct member, rfl⟩
  · rintro ⟨entry, found, rfl⟩
    exact ⟨(name, entry), mem_entries_of_found found, rfl⟩

@[simp] theorem map_fst_resolved (selector : Selector) :
    selector.resolved.map Prod.fst = selector.names := by
  rw [← map_fst_entries]
  simp [resolved, Function.comp_def]

theorem mem_names_of_mem_resolved (member : (name, sub) ∈ selector.resolved) :
    name ∈ selector.names := by
  rw [← map_fst_resolved]
  exact List.mem_map.mpr ⟨_, member, rfl⟩

theorem exists_mem_resolved (listed : name ∈ selector.names) :
    ∃ sub, (name, sub) ∈ selector.resolved := by
  rw [← map_fst_resolved] at listed
  obtain ⟨⟨other, sub⟩, member, rfl⟩ := List.mem_map.mp listed
  exact ⟨sub, member⟩

theorem Distinct.of_mem_resolved (distinct : selector.Distinct)
    (member : (name, sub) ∈ selector.resolved) : sub.Distinct := by
  obtain ⟨entry, found, rfl⟩ := Option.map_eq_some_iff.mp ((mem_resolved_iff distinct).mp member)
  cases entry with
  | nested inner => exact distinct.of_nested found
  | recursive => exact distinct

theorem entry?_cons (rest : Selector) (other : String) :
    Selector.entry? (entry.cons name rest) other =
      if name = other then some entry else rest.entry? other := by
  cases entry <;> rfl

theorem names_cons (rest : Selector) : (entry.cons name rest).names = name :: rest.names := by
  cases entry <;> rfl

theorem entry?_insertEntry (selector : Selector) (name other : String) (entry : Entry) :
    Selector.entry? (selector.insertEntry name entry) other =
      if name = other then some entry else selector.entry? other := by
  induction selector with
  | empty => exact entry?_cons .empty other
  | nested first sub rest _ inductionHypothesis =>
      simp only [insertEntry]
      split
      · rename_i same
        subst same
        rw [Selector.entry?_cons]
        split <;> simp [Selector.entry?, *]
      · by_cases hit : first = other
        · subst hit
          simp [Selector.entry?, *, Ne.symm]
        · simp [Selector.entry?, hit, inductionHypothesis]
  | recursive first rest inductionHypothesis =>
      simp only [insertEntry]
      split
      · rename_i same
        subst same
        rw [Selector.entry?_cons]
        split <;> simp [Selector.entry?, *]
      · by_cases hit : first = other
        · subst hit
          simp [Selector.entry?, *, Ne.symm]
        · simp [Selector.entry?, hit, inductionHypothesis]

theorem names_insertEntry (fresh : name ∉ selector.names) :
    (selector.insertEntry name entry).names = selector.names ++ [name] := by
  induction selector with
  | empty => exact names_cons .empty
  | nested first sub rest _ inductionHypothesis =>
      simp only [names, List.mem_cons, not_or] at fresh
      obtain ⟨differs, inRest⟩ := fresh
      simp [insertEntry, names, Ne.symm differs, inductionHypothesis inRest]
  | recursive first rest inductionHypothesis =>
      simp only [names, List.mem_cons, not_or] at fresh
      obtain ⟨differs, inRest⟩ := fresh
      simp [insertEntry, names, Ne.symm differs, inductionHypothesis inRest]

theorem Distinct.cons {rest : Selector} (distinct : rest.Distinct)
    (inside : entry.detached.Distinct) (fresh : name ∉ rest.names) :
    (entry.cons name rest).Distinct := by
  cases entry with
  | nested sub => exact ⟨fresh, inside, distinct⟩
  | recursive => exact ⟨fresh, distinct⟩

theorem Distinct.insertEntry (distinct : selector.Distinct) (inside : entry.detached.Distinct) :
    (selector.insertEntry name entry).Distinct := by
  induction selector with
  | empty => exact Distinct.cons distinct inside (by simp [names])
  | nested first sub rest _ inductionHypothesis =>
      simp only [Selector.insertEntry]
      split
      · rename_i same
        exact Distinct.cons distinct.2.2 inside (same ▸ distinct.1)
      · rename_i differs
        refine ⟨?_, distinct.2.1, inductionHypothesis distinct.2.2⟩
        rw [← entry?_eq_none_iff, entry?_insertEntry, if_neg (Ne.symm differs)]
        exact entry?_eq_none_iff.mpr distinct.1
  | recursive first rest inductionHypothesis =>
      simp only [Selector.insertEntry]
      split
      · rename_i same
        exact Distinct.cons distinct.2 inside (same ▸ distinct.1)
      · rename_i differs
        refine ⟨?_, inductionHypothesis distinct.2⟩
        rw [← entry?_eq_none_iff, entry?_insertEntry, if_neg (Ne.symm differs)]
        exact entry?_eq_none_iff.mpr distinct.1

theorem Distinct.detached (distinct : selector.Distinct)
    (found : selector.entry? name = some entry) : entry.detached.Distinct := by
  cases entry with
  | nested sub => exact distinct.of_nested found
  | recursive => trivial

structure Entrywise (good : String → Entry → Prop) (holds : Selector → Prop) : Prop where
  empty : holds .empty
  nested (name : String) (sub rest : Selector) :
    holds (.nested name sub rest) ↔ good name (.nested sub) ∧ holds rest
  recursive (name : String) (rest : Selector) :
    holds (.recursive name rest) ↔ good name .recursive ∧ holds rest

namespace Entrywise

variable {good : String → Entry → Prop} {holds : Selector → Prop}

theorem cons_iff (entrywise : Entrywise good holds) (rest : Selector) :
    holds (entry.cons name rest) ↔ good name entry ∧ holds rest := by
  cases entry with
  | nested sub => exact entrywise.nested name sub rest
  | recursive => exact entrywise.recursive name rest

theorem of_found (entrywise : Entrywise good holds) (given : holds selector)
    (found : selector.entry? name = some entry) : good name entry := by
  have first {other : String} (one : Entry) {rest : Selector} (given : holds (one.cons other rest))
      (found : Selector.entry? (one.cons other rest) name = some entry)
      (inRest : holds rest → rest.entry? name = some entry → good name entry) :
      good name entry := by
    obtain ⟨here, there⟩ := (entrywise.cons_iff rest).mp given
    rw [Selector.entry?_cons] at found
    split at found
    · rename_i same
      cases found
      exact same ▸ here
    · exact inRest there found
  induction selector with
  | empty => cases found
  | nested other sub rest _ inductionHypothesis =>
      exact first (.nested sub) given found inductionHypothesis
  | recursive other rest inductionHypothesis =>
      exact first .recursive given found inductionHypothesis

/-- Where names occur once, good entries are all that it takes. -/
theorem holds_iff (entrywise : Entrywise good holds) (distinct : selector.Distinct) :
    holds selector ↔ ∀ name entry, selector.entry? name = some entry → good name entry := by
  refine ⟨fun given name entry => entrywise.of_found given, fun every => ?_⟩
  have first {other : String} (one : Entry) {rest : Selector} (fresh : other ∉ rest.names)
      (every : ∀ name entry, Selector.entry? (one.cons other rest) name = some entry →
        good name entry)
      (inRest : (∀ name entry, rest.entry? name = some entry → good name entry) → holds rest) :
      holds (one.cons other rest) := by
    refine (entrywise.cons_iff rest).mpr ⟨every other one ?_, inRest fun name entry found => ?_⟩
    · rw [Selector.entry?_cons, if_pos rfl]
    · have differs : other ≠ name := fun same => fresh (same ▸ mem_names_of_found found)
      exact every name entry (by rw [Selector.entry?_cons, if_neg differs, found])
  induction selector with
  | empty => exact entrywise.empty
  | nested other sub rest _ inductionHypothesis =>
      exact first (.nested sub) distinct.1 every (inductionHypothesis distinct.2.2)
  | recursive other rest inductionHypothesis =>
      exact first .recursive distinct.1 every (inductionHypothesis distinct.2)

theorem insertEntry (entrywise : Entrywise good holds) (given : holds selector)
    (fits : good name entry) : holds (selector.insertEntry name entry) := by
  induction selector with
  | empty => exact (entrywise.cons_iff .empty).mpr ⟨fits, entrywise.empty⟩
  | nested other sub rest _ inductionHypothesis =>
      obtain ⟨here, there⟩ := (entrywise.nested other sub rest).mp given
      simp only [Selector.insertEntry]
      split
      · exact (entrywise.cons_iff rest).mpr ⟨fits, there⟩
      · exact (entrywise.nested _ _ _).mpr ⟨here, inductionHypothesis there⟩
  | recursive other rest inductionHypothesis =>
      obtain ⟨here, there⟩ := (entrywise.recursive other rest).mp given
      simp only [Selector.insertEntry]
      split
      · exact (entrywise.cons_iff rest).mpr ⟨fits, there⟩
      · exact (entrywise.recursive _ _).mpr ⟨here, inductionHypothesis there⟩

end Entrywise

end EntityResolver.Selector
