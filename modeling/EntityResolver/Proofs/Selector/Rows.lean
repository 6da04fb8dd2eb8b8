import EntityResolver.Proofs.Selector.Height
import Mathlib.Data.List.Induction

/-!
Selectors from rows of fields, as they are written one behind the other.

A name that is repeated keeps its first place and gets what stands behind it last, which is what
storing the fields one after the other comes to.
-/

set_option autoImplicit false

namespace EntityResolver.Selector

def ofRow : List (String × Selector) → Selector
  | [] => .empty
  | (name, sub) :: rest =>
      .nested name ((rest.reverse.lookup name).getD sub) ((ofRow rest).erase name)

def row : Selector → List (String × Selector)
  | .empty => []
  | .nested name sub rest => (name, sub) :: rest.row
  | .recursive _ rest => rest.row

def insertRow (selector : Selector) (row : List (String × Selector)) : Selector :=
  row.foldl (fun built field => built.insert field.1 field.2) selector

variable {selector sub : Selector} {name other : String}

theorem erase_of_not_mem (fresh : name ∉ selector.names) : selector.erase name = selector := by
  induction selector with
  | empty => rfl
  | nested first sub rest _ inductionHypothesis =>
      simp only [names, List.mem_cons, not_or] at fresh
      rw [erase, if_neg (Ne.symm fresh.1), inductionHypothesis fresh.2]
  | recursive first rest inductionHypothesis =>
      simp only [names, List.mem_cons, not_or] at fresh
      rw [erase, if_neg (Ne.symm fresh.1), inductionHypothesis fresh.2]

theorem erase_insert_self (selector : Selector) (name : String) (sub : Selector) :
    (selector.insert name sub).erase name = selector.erase name := by
  unfold insert
  induction selector with
  | empty => simp [insertEntry, Entry.cons, erase]
  | nested first inner rest _ inductionHypothesis =>
      by_cases same : first = name
      · simp [insertEntry, Entry.cons, erase, same]
      · simp [insertEntry, erase, same, inductionHypothesis]
  | recursive first rest inductionHypothesis =>
      by_cases same : first = name
      · simp [insertEntry, Entry.cons, erase, same]
      · simp [insertEntry, erase, same, inductionHypothesis]

theorem erase_insert_of_ne (differs : name ≠ other) (selector sub : Selector) :
    (selector.insert name sub).erase other = (selector.erase other).insert name sub := by
  unfold insert
  induction selector with
  | empty => simp [insertEntry, Entry.cons, erase, differs]
  | nested first inner rest _ inductionHypothesis =>
      by_cases same : first = name
      · simp [insertEntry, Entry.cons, erase, same, differs]
      · by_cases gone : first = other
        · simp [insertEntry, erase, gone, Ne.symm differs]
        · simp [insertEntry, erase, same, gone, inductionHypothesis]
  | recursive first rest inductionHypothesis =>
      by_cases same : first = name
      · simp [insertEntry, Entry.cons, erase, same, differs]
      · by_cases gone : first = other
        · simp [insertEntry, erase, gone, Ne.symm differs]
        · simp [insertEntry, erase, same, gone, inductionHypothesis]

theorem ofRow_append_singleton (row : List (String × Selector)) (name : String) (sub : Selector) :
    ofRow (row ++ [(name, sub)]) = (ofRow row).insert name sub := by
  induction row with
  | nil => rfl
  | cons field rest inductionHypothesis =>
      obtain ⟨first, inner⟩ := field
      rw [List.cons_append, ofRow, ofRow, inductionHypothesis, List.reverse_append]
      by_cases same : first = name
      · subst same
        rw [erase_insert_self]
        simp [insert, insertEntry, Entry.cons]
      · have unseen : (first == name) = false := by simpa using same
        rw [erase_insert_of_ne (Ne.symm same)]
        simp [insert, insertEntry, List.lookup_cons, same, unseen]

theorem insertRow_append (selector : Selector) (row others : List (String × Selector)) :
    selector.insertRow (row ++ others) = (selector.insertRow row).insertRow others := by
  simp [insertRow]

theorem insertRow_eq_ofRow (row : List (String × Selector)) :
    insertRow .empty row = ofRow row := by
  induction row using List.reverseRecOn with
  | nil => rfl
  | append_singleton row field inductionHypothesis =>
      rw [insertRow_append, inductionHypothesis, ofRow_append_singleton]
      rfl

theorem map_fst_row (free : selector.RecursionFree) :
    selector.row.map Prod.fst = selector.names := by
  induction selector with
  | empty => rfl
  | nested name sub rest _ inductionHypothesis =>
      simp [row, names, inductionHypothesis free.2]
  | recursive name rest _ => exact free.elim

theorem ofRow_row (distinct : selector.Distinct) (free : selector.RecursionFree) :
    ofRow selector.row = selector := by
  induction selector with
  | empty => rfl
  | nested name sub rest _ inductionHypothesis =>
      have last : rest.row.reverse.lookup name = none := by
        rw [List.lookup_eq_none_iff]
        intro field member
        have listed : field.1 ∈ rest.names := by
          rw [← map_fst_row free.2]
          exact List.mem_map.mpr ⟨field, List.mem_reverse.mp member, rfl⟩
        simpa using fun same : name = field.1 => distinct.1 (same ▸ listed)
      rw [row, ofRow, last, inductionHypothesis distinct.2.2 free.2, erase_of_not_mem distinct.1]
      rfl
  | recursive name rest _ => exact free.elim

end EntityResolver.Selector
