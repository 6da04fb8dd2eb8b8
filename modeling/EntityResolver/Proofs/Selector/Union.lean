import EntityResolver.Proofs.Selector.Asked
import EntityResolver.Proofs.Selector.Project

/-!
Selectors without recursion as finite trees: what inserting, erasing, merging and taking a part does
to the paths of keys that they ask for, and that these paths determine them up to order.
-/

set_option autoImplicit false

namespace EntityResolver.Selector

variable {asked base other first second sub : Selector} {key name : String}
  {path keys : List String} {entry : Entry}

/-- Without recursion, and with each name once on its level, a selector is a finite tree. -/
structure IsTree (selector : Selector) : Prop where
  free : selector.RecursionFree
  distinct : selector.Distinct

theorem isTree_empty : IsTree .empty :=
  ⟨trivial, trivial⟩

theorem IsTree.exists_of_found (tree : asked.IsTree) (found : asked.entry? name = some entry) :
    ∃ sub, entry = .nested sub ∧ sub.IsTree := by
  obtain ⟨sub, rfl, free⟩ := tree.free.of_found found
  exact ⟨sub, rfl, free, tree.distinct.of_nested found⟩

theorem IsTree.of_resolved {field : String × Selector} (tree : asked.IsTree)
    (selected : field ∈ asked.resolved) : field.2.IsTree :=
  ⟨tree.free.of_resolved selected, tree.distinct.of_mem_resolved selected⟩

def Agrees (first second : Selector) : Prop :=
  ∀ path, first.Asks path ↔ second.Asks path

theorem mem_names_iff_asks : name ∈ asked.names ↔ asked.Asks [name] := by
  simp [Asks]

/-- Finite trees are equal up to order if they ask for the same. -/
theorem same_of_agrees {first second : Selector} (tree : first.IsTree) (treeToo : second.IsTree)
    (agrees : Agrees first second) : first.same second = true := by
  refine (same_iff tree.distinct).mpr ⟨?_, fun name entry found => ?_⟩
  · refine (List.perm_ext_iff_of_nodup tree.distinct.nodup treeToo.distinct.nodup).mpr ?_
    intro name
    rw [mem_names_iff_asks, mem_names_iff_asks, agrees]
  · obtain ⟨sub, rfl, treeSub⟩ := tree.exists_of_found found
    have listed : second.Asks [name] :=
      (agrees [name]).mp (mem_names_iff_asks.mp (mem_names_of_found found))
    obtain ⟨other, foundToo, _⟩ := asks_cons_iff.mp listed
    obtain ⟨inner, rfl, treeInner⟩ := treeToo.exists_of_found foundToo
    refine ⟨.nested inner, foundToo, ?_⟩
    have smaller := sizeOf_lt_of_nested found
    refine same_of_agrees treeSub treeInner fun path => ?_
    have below := agrees (name :: path)
    simpa [asks_cons_iff, found, foundToo, Entry.detached] using below
termination_by sizeOf first

theorem IsTree.insert (tree : asked.IsTree) (treeSub : sub.IsTree) :
    (asked.insert name sub).IsTree :=
  ⟨tree.free.insert treeSub.free, tree.distinct.insertEntry treeSub.distinct⟩

theorem asks_insert_empty_iff :
    (asked.insert name .empty).Asks path ↔ asked.Asks path ∧ Spares [name] path ∨
      path = [name] := by
  match path with
  | [] => simp [Asks, Spares]
  | [key] =>
      rw [insert, asks_insertEntry_iff]
      by_cases same : name = key
      · simp [same, Asks]
      · simp [same, Spares, Ne.symm same]
  | key :: next :: path =>
      rw [insert, asks_insertEntry_iff]
      by_cases same : name = key
      · simp [same, Spares, Asks, Entry.detached, names]
      · simp [same, Spares, Ne.symm same]

theorem names_erase_subset (asked : Selector) (name : String) :
    (asked.erase name).names ⊆ asked.names := by
  induction asked with
  | empty => exact List.Subset.refl _
  | nested other sub rest _ inductionHypothesis | recursive other rest inductionHypothesis =>
      simp only [erase]
      split
      · exact List.subset_cons_self _ _
      · exact List.cons_subset_cons _ inductionHypothesis

theorem Distinct.erase (distinct : asked.Distinct) (name : String) :
    (asked.erase name).Distinct := by
  induction asked with
  | empty => trivial
  | nested other sub rest _ inductionHypothesis =>
      simp only [Selector.erase]
      split
      · exact distinct.2.2
      · exact ⟨fun member => distinct.1 (names_erase_subset _ _ member), distinct.2.1,
          inductionHypothesis distinct.2.2⟩
  | recursive other rest inductionHypothesis =>
      simp only [Selector.erase]
      split
      · exact distinct.2
      · exact ⟨fun member => distinct.1 (names_erase_subset _ _ member),
          inductionHypothesis distinct.2⟩

theorem IsTree.erase (tree : asked.IsTree) (name : String) : (asked.erase name).IsTree :=
  ⟨tree.free.erase name, tree.distinct.erase name⟩

theorem entry?_erase_self (distinct : asked.Distinct) :
    Selector.entry? (asked.erase name) name = none := by
  induction asked with
  | empty => rfl
  | nested other sub rest _ inductionHypothesis =>
      simp only [erase]
      split
      · rename_i same
        exact entry?_eq_none_iff.mpr (same ▸ distinct.1)
      · rename_i differs
        simpa [Selector.entry?, differs] using inductionHypothesis distinct.2.2
  | recursive other rest inductionHypothesis =>
      simp only [erase]
      split
      · rename_i same
        exact entry?_eq_none_iff.mpr (same ▸ distinct.1)
      · rename_i differs
        simpa [Selector.entry?, differs] using inductionHypothesis distinct.2

theorem asks_erase_iff (distinct : asked.Distinct) :
    (asked.erase name).Asks (key :: path) ↔ name ≠ key ∧ asked.Asks (key :: path) := by
  by_cases same : name = key
  · subst same
    simp [asks_cons_iff, entry?_erase_self distinct]
  · simp [asks_cons_iff, entry?_erase_of_ne same, same]

theorem IsTree.merge (tree : base.IsTree) (treeToo : other.IsTree) : (base.merge other).IsTree := by
  refine ⟨(merge_spec tree.free treeToo.free).1, ?_⟩
  induction other generalizing base with
  | empty =>
      rw [Selector.merge]
      exact tree.distinct
  | recursive name rest _ => exact treeToo.free.elim
  | nested name sub rest within behind =>
      obtain ⟨⟨freeSub, freeRest⟩, _, distinctSub, distinctRest⟩ := treeToo
      rw [Selector.merge]
      cases found : base.entry? name with
      | none => exact behind (tree.insert ⟨freeSub, distinctSub⟩) ⟨freeRest, distinctRest⟩
      | some entry =>
          obtain ⟨mine, rfl, treeMine⟩ := tree.exists_of_found found
          have merged := within treeMine ⟨freeSub, distinctSub⟩
          have wider : (mine.merge sub).IsTree := ⟨(merge_spec treeMine.free freeSub).1, merged⟩
          exact behind (tree.insert wider) ⟨freeRest, distinctRest⟩

theorem asks_of_asks_merge (free : base.RecursionFree) (tree : other.IsTree)
    (asks : (base.merge other).Asks path) : base.Asks path ∨ other.Asks path := by
  induction other generalizing base path with
  | empty => exact .inl (by rwa [Selector.merge] at asks)
  | recursive name rest _ => exact tree.free.elim
  | nested name sub rest within behind =>
      obtain ⟨⟨freeSub, freeRest⟩, fresh, distinctSub, distinctRest⟩ := tree
      -- what stands at the name afterwards goes on below it as the two entries did
      have narrowed {wider : Selector} (freeWider : wider.RecursionFree)
          (narrow : ∀ path, wider.Asks path → base.Asks (name :: path) ∨ sub.Asks path)
          (asks : ((base.insert name wider).merge rest).Asks path) :
          base.Asks path ∨ (nested name sub rest).Asks path := by
        cases path with
        | nil => exact .inl trivial
        | cons key path =>
            rw [asks_nested_iff]
            rcases behind (free.insert freeWider) ⟨freeRest, distinctRest⟩ asks with asks | asks
            · rw [insert, asks_insertEntry_iff] at asks
              split at asks
              · rename_i same
                rw [if_pos same]
                exact same ▸ narrow path asks
              · exact .inl asks
            · have differs : name ≠ key := fun same => fresh (same ▸ asks.1)
              rw [if_neg differs]
              exact .inr asks
      rw [Selector.merge] at asks
      cases found : base.entry? name with
      | none =>
          rw [found] at asks
          exact narrowed freeSub (fun _ => .inr) asks
      | some entry =>
          obtain ⟨mine, rfl, freeMine⟩ := free.of_found found
          rw [found] at asks
          refine narrowed (merge_spec freeMine freeSub).1 (fun path asks => ?_) asks
          refine (within freeMine ⟨freeSub, distinctSub⟩ asks).imp_left fun asks => ?_
          exact asks_cons_iff.mpr ⟨_, found, asks⟩

theorem asks_merge_iff (free : base.RecursionFree) (tree : other.IsTree) :
    (base.merge other).Asks path ↔ base.Asks path ∨ other.Asks path :=
  ⟨asks_of_asks_merge free tree, (merge_spec free tree.free).2 path⟩

theorem IsTree.single (tree : sub.IsTree) (key : String) : (single key sub).IsTree :=
  ⟨tree.free.single key, by simp [names], tree.distinct, trivial⟩

theorem IsTree.addKey (tree : asked.IsTree) (key : String) (treeSub : sub.IsTree) :
    (asked.addKey key sub).IsTree :=
  tree.merge (treeSub.single key)

theorem asks_addKey_iff (free : asked.RecursionFree) (tree : sub.IsTree) :
    (asked.addKey key sub).Asks path ↔
      asked.Asks path ∨ ∃ rest, path = key :: rest ∧ sub.Asks rest := by
  rw [addKey, asks_merge_iff free (tree.single key)]
  cases path with
  | nil => simp [Asks]
  | cons head path =>
      rw [single, asks_nested_iff]
      by_cases same : key = head
      · simp [same]
      · simp [same, Ne.symm same, Asks, names]

section Parts

variable {selector : Selector} {names namesToo : List String}

theorem retarget_eq_self (free : first.RecursionFree) (target : Selector) :
    first.retarget target = first := by
  induction first with
  | empty => rfl
  | nested name sub rest _ inductionHypothesis =>
      rw [retarget, inductionHypothesis free.2]
  | recursive name rest _ => exact free.elim

theorem IsTree.pick (tree : selector.IsTree) (names : List String) :
    (selector.pick names).IsTree := by
  have distinct := tree.distinct.pick names
  refine ⟨(entrywise_recursionFree.holds_iff distinct).mpr fun name entry found => ?_, distinct⟩
  exact tree.free.of_found (entry?_pick_iff.mp found).2

theorem IsTree.project_eq_pick (tree : selector.IsTree) (names : List String) :
    selector.project names = selector.pick names := by
  simp only [project]
  split
  · rfl
  · exact retarget_eq_self (tree.pick names).free selector

theorem IsTree.project (tree : selector.IsTree) (names : List String) :
    (selector.project names).IsTree :=
  tree.project_eq_pick names ▸ tree.pick names

theorem same_project (tree : first.IsTree) (treeToo : second.IsTree)
    (same : first.same second = true) (perm : names.Perm namesToo) (nodup : names.Nodup)
    (listed : names ⊆ first.names) :
    (first.project names).same (second.project namesToo) = true := by
  obtain ⟨namesSame, alike⟩ := (same_iff tree.distinct).mp same
  have listedToo : namesToo ⊆ second.names := fun name member =>
    namesSame.subset (listed (perm.symm.subset member))
  rw [tree.project_eq_pick, treeToo.project_eq_pick, same_iff (tree.distinct.pick names),
    names_pick nodup listed, names_pick (perm.nodup_iff.mp nodup) listedToo]
  refine ⟨perm, fun name entry found => ?_⟩
  obtain ⟨member, inFirst⟩ := entry?_pick_iff.mp found
  obtain ⟨other, inSecond, alike⟩ := alike name entry inFirst
  exact ⟨other, entry?_pick_iff.mpr ⟨perm.subset member, inSecond⟩, alike⟩

end Parts

end EntityResolver.Selector
