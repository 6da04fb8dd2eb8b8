import EntityResolver.Proofs.Selector.Project

/-!
How deep selectors are nested, and on which levels.

From a field to its subselector the height falls, unless the field is recursive.
-/

set_option autoImplicit false

namespace EntityResolver.Selector

/-- How many selectors stand inside each other, recursion not followed. -/
def height : Selector → Nat
  | .empty => 0
  | .nested _ sub rest => max (sub.height + 1) rest.height
  | .recursive _ rest => rest.height

/-- No field is recursive, on any level. -/
def RecursionFree : Selector → Prop
  | .empty => True
  | .nested _ sub rest => sub.RecursionFree ∧ rest.RecursionFree
  | .recursive _ _ => False

inductive IsLevel (level : Selector) : Selector → Prop where
  | outermost : IsLevel level level
  | inside {selector sub : Selector} {name : String}
      (found : selector.entry? name = some (.nested sub)) (below : IsLevel level sub) :
      IsLevel level selector

/-- The selector is met on the way inside another one, recursion followed. -/
inductive IsMet (outer : Selector) : Selector → Prop where
  | here : IsMet outer outer
  | next {selector sub : Selector} {name : String} (met : IsMet outer selector)
      (member : (name, sub) ∈ selector.resolved) : IsMet outer sub

variable {selector sub : Selector} {name : String} {entry : Entry}

theorem entrywise_height (bound : Nat) :
    Entrywise (fun _ entry => ∀ sub, entry = .nested sub → sub.height < bound)
      fun selector => selector.height ≤ bound where
  empty := Nat.zero_le bound
  nested name sub rest := by
    simp only [height, Nat.max_le, Nat.succ_le_iff, Entry.nested.injEq, forall_eq']
  recursive name rest := by simp [height]

theorem height_lt_of_nested (found : selector.entry? name = some (.nested sub)) :
    sub.height < selector.height :=
  (entrywise_height selector.height).of_found (Nat.le_refl _) found sub rfl

theorem height_le_iff {bound : Nat} (distinct : selector.Distinct) :
    selector.height ≤ bound ↔
      ∀ name sub, selector.entry? name = some (.nested sub) → sub.height < bound := by
  rw [(entrywise_height bound).holds_iff distinct]
  constructor
  · exact fun every name sub found => every name _ found sub rfl
  · rintro every name _ found sub rfl
    exact every name sub found

theorem height_le_of_same {first second : Selector} (distinct : first.Distinct)
    (distinctToo : second.Distinct) (same : first.same second = true) :
    first.height ≤ second.height := by
  refine (height_le_iff distinct).mpr fun name sub found => ?_
  obtain ⟨other, foundToo, alike⟩ := ((same_iff distinct).mp same).2 name _ found
  cases other with
  | recursive => exact alike.elim
  | nested inner =>
      have smaller := sizeOf_lt_of_nested found
      have shorter :=
        height_le_of_same (distinct.of_nested found) (distinctToo.of_nested foundToo) alike
      exact Nat.lt_of_le_of_lt shorter (height_lt_of_nested foundToo)
termination_by sizeOf first

theorem height_eq_of_same {first second : Selector} (distinct : first.Distinct)
    (distinctToo : second.Distinct) (same : first.same second = true) :
    first.height = second.height :=
  Nat.le_antisymm (height_le_of_same distinct distinctToo same)
    (height_le_of_same distinctToo distinct (same_symm distinct distinctToo same))

/-- The height falls from a field to its subselector, unless the field is recursive. -/
theorem height_lt_or_isRecursive (distinct : selector.Distinct)
    (member : (name, sub) ∈ selector.resolved) :
    sub.height < selector.height ∨ selector.isRecursive name = true ∧ sub = selector := by
  obtain ⟨entry, found, rfl⟩ := Option.map_eq_some_iff.mp ((mem_resolved_iff distinct).mp member)
  cases entry with
  | nested inner => exact .inl (height_lt_of_nested found)
  | recursive => exact .inr ⟨by simp [isRecursive, found], rfl⟩

theorem entrywise_recursionFree :
    Entrywise (fun _ entry => ∃ sub, entry = .nested sub ∧ sub.RecursionFree) RecursionFree where
  empty := trivial
  nested name sub rest := by simp [RecursionFree]
  recursive name rest := by simp [RecursionFree]

theorem RecursionFree.of_found (free : selector.RecursionFree)
    (found : selector.entry? name = some entry) :
    ∃ sub, entry = .nested sub ∧ sub.RecursionFree :=
  entrywise_recursionFree.of_found free found

theorem RecursionFree.of_same {first second : Selector} (free : first.RecursionFree)
    (distinct : first.Distinct) (distinctToo : second.Distinct)
    (same : first.same second = true) : second.RecursionFree := by
  refine (entrywise_recursionFree.holds_iff distinctToo).mpr fun name entry found => ?_
  obtain ⟨other, foundToo, alike⟩ :=
    ((same_iff distinctToo).mp (same_symm distinct distinctToo same)).2 name entry found
  obtain ⟨inner, rfl, freeInner⟩ := free.of_found foundToo
  cases entry with
  | recursive => exact alike.elim
  | nested sub =>
      have smaller := sizeOf_lt_of_nested foundToo
      have distinctInner := distinct.of_nested foundToo
      have distinctSub := distinctToo.of_nested found
      exact ⟨sub, rfl, freeInner.of_same distinctInner distinctSub
        (same_symm distinctSub distinctInner alike)⟩
termination_by sizeOf first

theorem RecursionFree.of_mem_resolved (free : selector.RecursionFree)
    (distinct : selector.Distinct) (member : (name, sub) ∈ selector.resolved) :
    sub.RecursionFree ∧ sub.height < selector.height := by
  obtain ⟨entry, found, rfl⟩ := Option.map_eq_some_iff.mp ((mem_resolved_iff distinct).mp member)
  obtain ⟨inner, rfl, freeInner⟩ := free.of_found found
  exact ⟨freeInner, height_lt_of_nested found⟩

theorem RecursionFree.of_mem_entries (free : selector.RecursionFree)
    (member : (name, entry) ∈ selector.entries) :
    ∃ sub, entry = .nested sub ∧ sub.RecursionFree := by
  induction selector with
  | empty => cases member
  | nested other sub rest _ inductionHypothesis =>
      rcases List.mem_cons.mp member with same | inRest
      · cases same
        exact ⟨sub, rfl, free.1⟩
      · exact inductionHypothesis free.2 inRest
  | recursive other rest _ => exact free.elim

theorem RecursionFree.of_resolved {field : String × Selector} (free : selector.RecursionFree)
    (selected : field ∈ selector.resolved) : field.2.RecursionFree := by
  obtain ⟨⟨name, entry⟩, member, rfl⟩ := List.mem_map.mp selected
  obtain ⟨sub, rfl, freeSub⟩ := free.of_mem_entries member
  exact freeSub

theorem RecursionFree.isRecursive_eq_false (free : selector.RecursionFree) (name : String) :
    selector.isRecursive name = false := by
  cases found : selector.entry? name with
  | none => simp [isRecursive, found]
  | some entry =>
      obtain ⟨sub, rfl, _⟩ := free.of_found found
      simp [isRecursive, found]

theorem IsLevel.distinct {level : Selector} (inside : IsLevel level selector)
    (distinct : selector.Distinct) : level.Distinct := by
  induction inside with
  | outermost => exact distinct
  | inside found _ inductionHypothesis => exact inductionHypothesis (distinct.of_nested found)

theorem IsLevel.of_mem_resolved {level : Selector} (inside : IsLevel level selector)
    (distinct : level.Distinct) (member : (name, sub) ∈ level.resolved) :
    IsLevel sub selector := by
  induction inside with
  | outermost =>
      obtain ⟨entry, found, rfl⟩ := Option.map_eq_some_iff.mp ((mem_resolved_iff distinct).mp member)
      cases entry with
      | nested inner => exact .inside found .outermost
      | recursive => exact .outermost
  | inside found _ inductionHypothesis => exact .inside found inductionHypothesis

theorem IsMet.distinct {outer : Selector} (met : IsMet outer selector)
    (distinct : outer.Distinct) : selector.Distinct := by
  induction met with
  | here => exact distinct
  | next _ member inductionHypothesis => exact inductionHypothesis.of_mem_resolved member

/-- On the way inside the height falls, as long as recursion does not lead back. -/
theorem IsMet.height_lt_or_eq {outer : Selector} (met : IsMet outer selector)
    (distinct : outer.Distinct) : selector.height < outer.height ∨ selector = outer := by
  induction met with
  | here => exact .inr rfl
  | next met member inductionHypothesis =>
      rcases height_lt_or_isRecursive (met.distinct distinct) member with less | ⟨_, rfl⟩
      · rcases inductionHypothesis with lessToo | rfl
        · exact .inl (Nat.lt_trans less lessToo)
        · exact .inl less
      · exact inductionHypothesis

theorem IsMet.exists_level {outer level whole : Selector} (met : IsMet outer selector)
    (distinct : outer.Distinct) (distinctToo : whole.Distinct) (inside : IsLevel level whole)
    (same : outer.same level = true) :
    ∃ level, IsLevel level whole ∧ selector.same level = true := by
  induction met with
  | here => exact ⟨level, inside, same⟩
  | next met member inductionHypothesis =>
      obtain ⟨found, insideFound, sameFound⟩ := inductionHypothesis
      have distinctFound := insideFound.distinct distinctToo
      obtain ⟨other, memberToo, sameOther⟩ :=
        exists_resolved_of_same (met.distinct distinct) distinctFound sameFound member
      exact ⟨other, insideFound.of_mem_resolved distinctFound memberToo, sameOther⟩

end EntityResolver.Selector
