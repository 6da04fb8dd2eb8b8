import EntityResolver.Proofs.Selector.Same

/-!
Parts of selectors.

A part has exactly the names that it was taken for, and says about each of them what the whole
selector says, up to order.
-/

set_option autoImplicit false

namespace EntityResolver.Selector

variable {selector sub : Selector} {name : String} {names : List String}

/-- A selector with the entry for a name put to it, if there is one. -/
def addPicked (selector picked : Selector) (name : String) : Selector :=
  match selector.entry? name with
  | some entry => picked.insertEntry name entry
  | none => picked

theorem pick_eq_foldl (selector : Selector) (names : List String) :
    selector.pick names = names.foldl selector.addPicked .empty := rfl

theorem entry?_addPicked (selector picked : Selector) (name other : String) :
    Selector.entry? (selector.addPicked picked name) other =
      if name = other ∧ name ∈ selector.names then selector.entry? other
      else picked.entry? other := by
  unfold addPicked
  cases found : selector.entry? name with
  | none => simp [Selector.entry?_eq_none_iff.mp found]
  | some entry =>
      simp only [Selector.entry?_insertEntry, mem_names_of_found found, and_true]
      split
      · rename_i same
        rw [← same, found]
      · rfl

theorem entry?_foldl_addPicked (selector built : Selector) (names : List String) (other : String) :
    Selector.entry? (names.foldl selector.addPicked built) other =
      if other ∈ names ∧ other ∈ selector.names then selector.entry? other
      else built.entry? other := by
  induction names generalizing built with
  | nil => simp
  | cons name rest inductionHypothesis =>
      rw [List.foldl_cons, inductionHypothesis, entry?_addPicked]
      by_cases here : name = other <;> by_cases listed : other ∈ selector.names <;>
        simp [here, listed, Ne.symm]

theorem entry?_pick (listed : name ∈ names) :
    Selector.entry? (selector.pick names) name = selector.entry? name := by
  rw [pick_eq_foldl, entry?_foldl_addPicked]
  split
  · rfl
  · rename_i missing
    have unknown : name ∉ selector.names := fun known => missing ⟨listed, known⟩
    rw [Selector.entry?_eq_none_iff.mpr unknown]
    rfl

theorem entry?_pick_iff {entry : Entry} :
    Selector.entry? (selector.pick names) name = some entry ↔
      name ∈ names ∧ selector.entry? name = some entry := by
  rw [pick_eq_foldl, entry?_foldl_addPicked]
  split
  · rename_i listed
    simp [listed.1]
  · rename_i unlisted
    constructor
    · nofun
    · rintro ⟨listed, found⟩
      exact (unlisted ⟨listed, mem_names_of_found found⟩).elim

theorem mem_names_pick_iff :
    name ∈ (selector.pick names).names ↔ name ∈ names ∧ name ∈ selector.names := by
  simp only [mem_names_iff, entry?_pick_iff, exists_and_left]

theorem names_foldl_addPicked {built : Selector} (nodup : (built.names ++ names).Nodup)
    (listed : names ⊆ selector.names) :
    (names.foldl selector.addPicked built).names = built.names ++ names := by
  induction names generalizing built with
  | nil => simp
  | cons name rest inductionHypothesis =>
      obtain ⟨entry, found⟩ := mem_names_iff.mp (listed (List.mem_cons_self))
      have fresh : name ∉ built.names := by
        intro there
        have disjoint := (List.nodup_append.mp nodup).2.2
        exact disjoint name there name (by simp) rfl
      have grown : (selector.addPicked built name).names = built.names ++ [name] := by
        simp only [addPicked, found, names_insertEntry fresh]
      rw [List.foldl_cons, inductionHypothesis]
      · simp [grown]
      · simpa [grown] using nodup
      · exact fun other member => listed (List.mem_cons_of_mem _ member)

theorem names_pick (nodup : names.Nodup) (listed : names ⊆ selector.names) :
    (selector.pick names).names = names := by
  rw [pick_eq_foldl, names_foldl_addPicked (by simpa [Selector.names] using nodup) listed]
  rfl

theorem Distinct.foldl_addPicked {built : Selector} (distinct : selector.Distinct)
    (distinctToo : built.Distinct) (names : List String) :
    (names.foldl selector.addPicked built).Distinct := by
  induction names generalizing built with
  | nil => exact distinctToo
  | cons name rest inductionHypothesis =>
      refine inductionHypothesis ?_
      unfold addPicked
      cases found : selector.entry? name with
      | none => exact distinctToo
      | some entry => exact distinctToo.insertEntry (distinct.detached found)

theorem Distinct.pick (distinct : selector.Distinct) (names : List String) :
    (selector.pick names).Distinct := by
  rw [pick_eq_foldl]
  exact distinct.foldl_addPicked (show Distinct .empty from trivial) names

theorem perm_names_pick (distinct : selector.Distinct) (full : selector.names ⊆ names) :
    (selector.pick names).names.Perm selector.names := by
  refine (List.perm_ext_iff_of_nodup (distinct.pick names).nodup distinct.nodup).mpr fun name => ?_
  rw [mem_names_pick_iff]
  exact ⟨fun both => both.2, fun known => ⟨full known, known⟩⟩

/-- As many fields are taken as there are if and only if every name was asked for. -/
theorem size_pick_eq_iff (distinct : selector.Distinct) :
    (selector.pick names).size = selector.size ↔ selector.names ⊆ names := by
  refine ⟨fun full name known => ?_, fun full => (perm_names_pick distinct full).length_eq⟩
  have taken : (selector.pick names).names ⊆ selector.names :=
    fun other member => (mem_names_pick_iff.mp member).2
  have perm := ((distinct.pick names).nodup.subperm taken).perm_of_length_le (Nat.le_of_eq full.symm)
  exact (mem_names_pick_iff.mp (perm.symm.subset known)).1

theorem names_retarget (selector target : Selector) :
    (selector.retarget target).names = selector.names := by
  induction selector with
  | empty => rfl
  | nested name sub rest _ inductionHypothesis =>
      simp [retarget, Selector.names, inductionHypothesis]
  | recursive name rest inductionHypothesis =>
      simp [retarget, Selector.names, inductionHypothesis]

theorem entry?_retarget (selector target : Selector) (name : String) :
    Selector.entry? (selector.retarget target) name =
      (selector.entry? name).map fun entry => .nested (entry.within target) := by
  induction selector with
  | empty => rfl
  | nested other sub rest _ inductionHypothesis =>
      simp only [retarget, Selector.entry?]
      split
      · rfl
      · exact inductionHypothesis
  | recursive other rest inductionHypothesis =>
      simp only [retarget, Selector.entry?]
      split
      · rfl
      · exact inductionHypothesis

theorem Distinct.retarget {target : Selector} (distinct : selector.Distinct)
    (distinctToo : target.Distinct) : (selector.retarget target).Distinct := by
  induction selector with
  | empty => trivial
  | nested name sub rest _ inductionHypothesis =>
      exact ⟨names_retarget rest target ▸ distinct.1, distinct.2.1,
        inductionHypothesis distinct.2.2⟩
  | recursive name rest inductionHypothesis =>
      exact ⟨names_retarget rest target ▸ distinct.1, distinctToo, inductionHypothesis distinct.2⟩

theorem names_project_subset (selector : Selector) (names : List String) :
    (selector.project names).names ⊆ names := by
  have picked : (selector.pick names).names ⊆ names := by
    intro name member
    obtain ⟨entry, found⟩ := mem_names_iff.mp member
    rw [pick_eq_foldl, entry?_foldl_addPicked] at found
    split at found
    · rename_i listed
      exact listed.1
    · cases found
  unfold project
  simp only
  split
  · exact picked
  · rwa [names_retarget]

theorem names_project (nodup : names.Nodup) (listed : names ⊆ selector.names) :
    (selector.project names).names = names := by
  unfold project
  simp only
  split
  · exact names_pick nodup listed
  · rw [names_retarget, names_pick nodup listed]

theorem Distinct.project (distinct : selector.Distinct) (names : List String) :
    (selector.project names).Distinct := by
  unfold Selector.project
  simp only
  split
  · exact distinct.pick names
  · exact (distinct.pick names).retarget distinct

theorem Entry.alike_refl {entry : Entry} (distinct : selector.Distinct)
    (found : selector.entry? name = some entry) : entry.Alike entry := by
  cases entry with
  | nested sub => exact same_refl (distinct.of_nested found)
  | recursive => trivial

theorem pick_same (distinct : selector.Distinct) (full : selector.names ⊆ names) :
    (selector.pick names).same selector = true := by
  refine (same_iff (distinct.pick names)).mpr ⟨perm_names_pick distinct full, ?_⟩
  intro name entry found
  have original := (entry?_pick_iff.mp found).2
  exact ⟨entry, original, Entry.alike_refl distinct original⟩

theorem exists_resolved_of_project (distinct : selector.Distinct) (nodup : names.Nodup)
    (listed : names ⊆ selector.names) (member : (name, sub) ∈ (selector.project names).resolved) :
    ∃ other, (name, other) ∈ selector.resolved ∧ sub.same other = true := by
  unfold project at member
  simp only at member
  split at member
  · rename_i full
    have whole := pick_same distinct ((size_pick_eq_iff distinct).mp full)
    exact exists_resolved_of_same (distinct.pick names) distinct whole member
  · have whole := (distinct.pick names).retarget distinct
    obtain ⟨entry, found, rfl⟩ := Option.map_eq_some_iff.mp ((mem_resolved_iff whole).mp member)
    rw [Selector.entry?_retarget] at found
    obtain ⟨original, picked, rfl⟩ := Option.map_eq_some_iff.mp found
    have member : name ∈ names := names_pick nodup listed ▸ mem_names_of_found picked
    rw [Selector.entry?_pick member] at picked
    have own : (name, original.within selector) ∈ selector.resolved :=
      (mem_resolved_iff distinct).mpr (by simp [subselector?, picked])
    exact ⟨_, own, same_refl (distinct.of_mem_resolved own)⟩

end EntityResolver.Selector
