import EntityResolver.Proofs.Selector.Union

/-!
# Merging selectors

Merging is described field by field: the merged selector has the names of the first selector and
behind them those that only the second has, and under each name what both say of it. Of selectors
without recursion it is a union. It has the laws of one, and asks for the paths of keys that either
of the two asks for; only the order of fields tells which of the two came first.
-/

set_option autoImplicit false

namespace EntityResolver.Selector

variable {base other first second third : Selector} {name key : String} {entry : Entry}

@[elab_as_elim]
theorem entryInduction {motive : Selector → Prop} (empty : motive .empty)
    (cons : ∀ (name : String) (entry : Entry) (rest : Selector), motive rest →
      motive (entry.cons name rest))
    (selector : Selector) : motive selector := by
  induction selector with
  | empty => exact empty
  | nested name sub rest _ inductionHypothesis =>
      exact cons name (.nested sub) rest inductionHypothesis
  | recursive name rest inductionHypothesis => exact cons name .recursive rest inductionHypothesis

theorem distinct_cons_iff {rest : Selector} :
    (entry.cons name rest).Distinct ↔
      name ∉ rest.names ∧ entry.detached.Distinct ∧ rest.Distinct := by
  cases entry with
  | nested sub => rfl
  | recursive => simp [Entry.cons, Entry.detached, Distinct]

theorem eq_of_entry? (distinct : first.Distinct) (distinctToo : second.Distinct)
    (names : first.names = second.names)
    (entries : ∀ name, first.entry? name = second.entry? name) : first = second := by
  induction first using entryInduction generalizing second with
  | empty =>
      cases second with
      | empty => rfl
      | nested name sub rest => cases names
      | recursive name rest => cases names
  | cons name entry rest inductionHypothesis =>
      cases second using entryInduction with
      | empty => simp [names_cons, Selector.names] at names
      | cons nameToo entryToo restToo =>
          rw [names_cons, names_cons] at names
          obtain ⟨rfl, namesBelow⟩ := List.cons.inj names
          obtain ⟨fresh, _, distinctRest⟩ := distinct_cons_iff.mp distinct
          obtain ⟨freshToo, _, distinctRestToo⟩ := distinct_cons_iff.mp distinctToo
          obtain rfl : entry = entryToo := by simpa [entry?_cons] using entries name
          refine congrArg (entry.cons name) (inductionHypothesis distinctRest distinctRestToo
            namesBelow fun key => ?_)
          by_cases same : name = key
          · rw [entry?_eq_none_iff.mpr (same ▸ fresh), entry?_eq_none_iff.mpr (same ▸ freshToo)]
          · simpa [entry?_cons, same] using entries key

theorem insertEntry_cons (rest : Selector) (name first : String) (entry inner : Entry) :
    (inner.cons first rest).insertEntry name entry =
      if first = name then entry.cons name rest else inner.cons first (rest.insertEntry name entry) := by
  cases inner <;> rfl

/-- What stands under its name already is put there without effect. -/
theorem insertEntry_of_found (found : base.entry? name = some entry) :
    base.insertEntry name entry = base := by
  induction base using entryInduction with
  | empty => cases found
  | cons first inner rest inductionHypothesis =>
      rw [entry?_cons] at found
      rw [insertEntry_cons]
      split
      · rename_i same
        rw [if_pos same] at found
        cases found
        rw [same]
      · rename_i differs
        rw [if_neg differs] at found
        rw [inductionHypothesis found]

theorem names_insertEntry_of_mem (known : name ∈ base.names) :
    (base.insertEntry name entry).names = base.names := by
  induction base using entryInduction with
  | empty => cases known
  | cons first inner rest inductionHypothesis =>
      rw [insertEntry_cons]
      split
      · rename_i same
        rw [names_cons, names_cons, same]
      · rename_i differs
        rw [names_cons, List.mem_cons] at known
        rw [names_cons, names_cons, inductionHypothesis (known.resolve_left (Ne.symm differs))]

/-- What is said of a field of both selectors. -/
def Entry.merge : Entry → Entry → Entry
  | .nested mine, .nested theirs => .nested (mine.merge theirs)
  | entry, _ => entry

theorem merge_cons (base rest : Selector) (name : String) (entry : Entry) :
    base.merge (entry.cons name rest) =
      (base.insertEntry name ((base.entry? name).elim entry (·.merge entry))).merge rest := by
  cases entry with
  | nested sub =>
      rw [Entry.cons, Selector.merge]
      cases found : base.entry? name with
      | none => rfl
      | some mine =>
          cases mine with
          | nested mine => rfl
          | recursive =>
              dsimp only [Option.elim, Entry.merge]
              rw [insertEntry_of_found found]
  | recursive =>
      rw [Entry.cons, Selector.merge, contains]
      cases found : base.entry? name with
      | none => rfl
      | some mine =>
          have kept : mine.merge .recursive = mine := by cases mine <;> rfl
          simp only [Option.isSome_some, if_true, Option.elim, kept, insertEntry_of_found found]

/-- Fields of the first keep their order, and those that only the second has follow in theirs. -/
theorem names_merge (distinct : other.Distinct) :
    (base.merge other).names = base.names ++ other.names.filter (· ∉ base.names) := by
  induction other using entryInduction generalizing base with
  | empty => simp [Selector.merge, names]
  | cons name entry rest inductionHypothesis =>
      obtain ⟨fresh, _, distinctRest⟩ := distinct_cons_iff.mp distinct
      rw [merge_cons, inductionHypothesis distinctRest, names_cons, List.filter_cons]
      by_cases known : name ∈ base.names
      · simp [known, names_insertEntry_of_mem]
      · have apart : ∀ key ∈ rest.names, key ≠ name := fun key member same => fresh (same ▸ member)
        have sameLeft : rest.names.filter (· ∉ base.names ++ [name]) =
            rest.names.filter (· ∉ base.names) :=
          List.filter_congr fun key member => by simp [apart key member]
        rw [names_insertEntry known, if_pos (by simpa using known), sameLeft, List.append_assoc]
        rfl

/-- Under each name the merged selector says what the two say of it together. -/
theorem entry?_merge (distinct : other.Distinct) (key : String) :
    Selector.entry? (base.merge other) key =
      Option.merge Entry.merge (base.entry? key) (other.entry? key) := by
  induction other using entryInduction generalizing base with
  | empty => simp [Selector.merge, Selector.entry?]
  | cons name entry rest inductionHypothesis =>
      obtain ⟨fresh, _, distinctRest⟩ := distinct_cons_iff.mp distinct
      rw [merge_cons, inductionHypothesis distinctRest, entry?_insertEntry, entry?_cons]
      by_cases same : name = key
      · subst same
        rw [entry?_eq_none_iff.mpr fresh, if_pos rfl, if_pos rfl]
        cases base.entry? name <;> rfl
      · rw [if_neg same, if_neg same]

/-- A field of both is selected with the two subselectors merged, a field of one as it is there. -/
theorem subselector?_merge (tree : first.IsTree) (treeToo : second.IsTree) (name : String) :
    (first.merge second).subselector? name =
      Option.merge Selector.merge (first.subselector? name) (second.subselector? name) := by
  unfold subselector?
  rw [entry?_merge treeToo.distinct]
  cases found : first.entry? name with
  | none =>
      cases foundToo : second.entry? name with
      | none => rfl
      | some entry =>
          obtain ⟨sub, rfl, _⟩ := treeToo.exists_of_found foundToo
          rfl
  | some entry =>
      obtain ⟨sub, rfl, _⟩ := tree.exists_of_found found
      cases foundToo : second.entry? name with
      | none => rfl
      | some entry =>
          obtain ⟨sub, rfl, _⟩ := treeToo.exists_of_found foundToo
          rfl

theorem empty_merge (tree : first.IsTree) : Selector.empty.merge first = first := by
  refine eq_of_entry? (isTree_empty.merge tree).distinct tree.distinct ?_ fun name => ?_
  · simp [names_merge tree.distinct, names]
  · simp [entry?_merge tree.distinct, Selector.entry?]

theorem merge_self {first : Selector} (tree : first.IsTree) : first.merge first = first := by
  refine eq_of_entry? (tree.merge tree).distinct tree.distinct ?_ fun name => ?_
  · simp [names_merge tree.distinct]
  · rw [entry?_merge tree.distinct]
    cases found : first.entry? name with
    | none => rfl
    | some entry =>
        obtain ⟨sub, rfl, treeSub⟩ := tree.exists_of_found found
        have smaller := sizeOf_lt_of_nested found
        simp [Entry.merge, merge_self treeSub]
termination_by sizeOf first

theorem merge_comm (tree : first.IsTree) (treeToo : second.IsTree) :
    (first.merge second).same (second.merge first) = true := by
  refine same_of_agrees (tree.merge treeToo) (treeToo.merge tree) fun path => ?_
  rw [asks_merge_iff tree.free treeToo, asks_merge_iff treeToo.free tree]
  exact or_comm

theorem merge_assoc {first second third : Selector} (tree : first.IsTree) (treeToo : second.IsTree)
    (treeThird : third.IsTree) :
    (first.merge second).merge third = first.merge (second.merge third) := by
  have treeFront := tree.merge treeToo
  have treeBack := treeToo.merge treeThird
  refine eq_of_entry? (treeFront.merge treeThird).distinct (tree.merge treeBack).distinct ?_
    fun name => ?_
  · rw [names_merge treeThird.distinct, names_merge treeBack.distinct, names_merge treeToo.distinct,
      names_merge treeThird.distinct, List.filter_append, List.filter_filter, List.append_assoc]
    congr 2
    refine List.filter_congr fun name _ => ?_
    by_cases listed : name ∈ first.names <;> simp [listed]
  · rw [entry?_merge treeThird.distinct, entry?_merge treeBack.distinct,
      entry?_merge treeToo.distinct, entry?_merge treeThird.distinct]
    cases found : first.entry? name with
    | none => simp
    | some entry =>
        cases foundToo : second.entry? name with
        | none => simp
        | some entryToo =>
            cases foundThird : third.entry? name with
            | none => simp
            | some last =>
                obtain ⟨one, rfl, treeOne⟩ := tree.exists_of_found found
                obtain ⟨two, rfl, treeTwo⟩ := treeToo.exists_of_found foundToo
                obtain ⟨three, rfl, treeThree⟩ := treeThird.exists_of_found foundThird
                have smaller := sizeOf_lt_of_nested found
                simp [Entry.merge, merge_assoc treeOne treeTwo treeThree]
termination_by sizeOf first

/-- Merging is the union of what is asked for: a selector merged with itself or with the empty one
stays as it is, merging in another order changes at most the order of fields, and merging three does
not depend on which two come first. The paths of keys are those of both, and on each level the
fields of the first selector stand in their order before those that only the second has,
in theirs. -/
theorem merge_is_union (first second third : Selector) (tree : first.IsTree)
    (treeToo : second.IsTree) (treeThird : third.IsTree) :
    (first.merge second).IsTree ∧
    first.merge first = first ∧
    (first.merge second).same (second.merge first) = true ∧
    (first.merge second).merge third = first.merge (second.merge third) ∧
    first.merge .empty = first ∧ Selector.empty.merge first = first ∧
    (∀ path, (first.merge second).Asks path ↔ first.Asks path ∨ second.Asks path) ∧
    (first.merge second).names = first.names ++ second.names.filter (· ∉ first.names) ∧
    ∀ name, (first.merge second).subselector? name =
      Option.merge Selector.merge (first.subselector? name) (second.subselector? name) :=
  ⟨tree.merge treeToo, merge_self tree, merge_comm tree treeToo, merge_assoc tree treeToo treeThird,
    by rw [Selector.merge], empty_merge tree, fun _ => asks_merge_iff tree.free treeToo,
    names_merge treeToo.distinct, subselector?_merge tree treeToo⟩

end EntityResolver.Selector

namespace EntityResolver.Museums

/-- Museums with their rooms and the exhibits in them. -/
def plan : Selector :=
  .nested "rooms" (.nested "floor" .empty (.nested "exhibits" (.nested "title" .empty .empty) .empty))
    (.nested "name" .empty .empty)

def catalogue : Selector :=
  .nested "name" .empty
    (.nested "address" .empty
      (.nested "rooms"
        (.nested "exhibits" (.nested "artist" .empty (.nested "title" .empty .empty)) .empty) .empty))

def visit : Selector :=
  .nested "address" (.nested "street" .empty .empty)
    (.nested "rooms" (.nested "keeper" .empty .empty) .empty)

/-- Rooms come first as in the plan, and so does the title among what is asked for of the exhibits;
the address, which only the catalogue has, comes last. -/
theorem merge_is_union_catalogue :
    (plan.IsTree ∧ catalogue.IsTree ∧ visit.IsTree) ∧
    (plan.merge catalogue).names = ["rooms", "name", "address"] ∧
    (plan.merge catalogue).same (catalogue.merge plan) = true ∧
    (plan.merge catalogue).merge visit = plan.merge (catalogue.merge visit) ∧
    ((plan.merge catalogue).Asks ["rooms", "exhibits", "artist"] ↔
      plan.Asks ["rooms", "exhibits", "artist"] ∨
        catalogue.Asks ["rooms", "exhibits", "artist"]) := by
  have tree : plan.IsTree :=
    ⟨by simp [plan, Selector.RecursionFree], by simp [plan, Selector.Distinct, Selector.names]⟩
  have treeToo : catalogue.IsTree :=
    ⟨by simp [catalogue, Selector.RecursionFree],
      by simp [catalogue, Selector.Distinct, Selector.names]⟩
  have treeThird : visit.IsTree :=
    ⟨by simp [visit, Selector.RecursionFree], by simp [visit, Selector.Distinct, Selector.names]⟩
  obtain ⟨_, _, comm, assoc, _, _, asks, names, _⟩ :=
    Selector.merge_is_union plan catalogue visit tree treeToo treeThird
  exact ⟨⟨tree, treeToo, treeThird⟩, names, comm, assoc, asks _⟩

end EntityResolver.Museums
