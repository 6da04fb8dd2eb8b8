import EntityResolver.Catalog.Picker
import EntityResolver.Proofs.Selector.Height

/-!
What selectors ask for, as paths of keys.

A selector that is sent with a call asks for the keys on its levels. Asking for more keeps all
paths; asking for a key alone keeps those that do not go on below the key.
-/

set_option autoImplicit false

namespace EntityResolver.Selector

def under (asked : Selector) (key : String) : Selector :=
  ((asked.entry? key).map Entry.detached).getD .empty

def Asks : Selector → List String → Prop
  | _, [] => True
  | asked, key :: path => key ∈ asked.names ∧ Asks (asked.under key) path

/-- The path does not go on below any of the keys. -/
def Spares (keys : List String) : List String → Prop
  | key :: _ :: _ => key ∉ keys
  | _ => True

variable {asked base other sub : Selector} {key name : String} {path keys : List String}
  {entry : Entry}

theorem under_of_found (found : asked.entry? key = some entry) :
    asked.under key = entry.detached := by
  simp [under, found]

theorem asks_cons_iff :
    asked.Asks (key :: path) ↔
      ∃ entry, asked.entry? key = some entry ∧ entry.detached.Asks path := by
  rw [Asks, mem_names_iff]
  constructor
  · rintro ⟨⟨entry, found⟩, below⟩
    exact ⟨entry, found, under_of_found found ▸ below⟩
  · rintro ⟨entry, found, below⟩
    exact ⟨⟨entry, found⟩, under_of_found found ▸ below⟩

theorem asks_nested_iff {rest : Selector} :
    (nested name sub rest).Asks (key :: path) ↔
      if name = key then sub.Asks path else rest.Asks (key :: path) := by
  simp only [asks_cons_iff, Selector.entry?]
  split <;> simp [Entry.detached]

theorem asks_insertEntry_iff :
    (asked.insertEntry name entry).Asks (key :: path) ↔
      if name = key then entry.detached.Asks path else asked.Asks (key :: path) := by
  simp only [asks_cons_iff, entry?_insertEntry]
  split <;> simp

theorem RecursionFree.insert (free : asked.RecursionFree) (freeSub : sub.RecursionFree) :
    (asked.insert name sub).RecursionFree :=
  entrywise_recursionFree.insertEntry free ⟨sub, rfl, freeSub⟩

theorem mem_names_insert_iff :
    key ∈ (asked.insert name sub).names ↔ key = name ∨ key ∈ asked.names := by
  simp only [mem_names_iff, insert, entry?_insertEntry]
  by_cases same : name = key
  · simp [same]
  · simp [same, Ne.symm same]

/-- Asking for a key alone drops only what goes on below it. -/
theorem Asks.insert_empty (asks : asked.Asks path) (spares : Spares [name] path) :
    (asked.insert name .empty).Asks path := by
  match path with
  | [] => trivial
  | [key] =>
      refine asks_insertEntry_iff.mpr ?_
      split
      · trivial
      · exact asks
  | key :: next :: path =>
      have differs : name ≠ key := fun same => spares (by simp [same])
      exact asks_insertEntry_iff.mpr (by rwa [if_neg differs])

theorem entry?_erase_of_ne (differs : name ≠ key) :
    Selector.entry? (asked.erase name) key = asked.entry? key := by
  induction asked with
  | empty => rfl
  | nested first sub rest _ inductionHypothesis =>
      simp only [erase]
      split
      · rename_i same
        simp [Selector.entry?, same, differs]
      · simp [Selector.entry?, inductionHypothesis]
  | recursive first rest inductionHypothesis =>
      simp only [erase]
      split
      · rename_i same
        simp [Selector.entry?, same, differs]
      · simp [Selector.entry?, inductionHypothesis]

theorem Asks.erase (asks : asked.Asks (key :: path)) (differs : name ≠ key) :
    (asked.erase name).Asks (key :: path) := by
  rw [asks_cons_iff] at asks ⊢
  rwa [entry?_erase_of_ne differs]

theorem RecursionFree.erase (free : asked.RecursionFree) (name : String) :
    (asked.erase name).RecursionFree := by
  induction asked with
  | empty => trivial
  | nested first sub rest _ inductionHypothesis =>
      simp only [Selector.erase]
      split
      · exact free.2
      · exact ⟨free.1, inductionHypothesis free.2⟩
  | recursive first rest _ => exact free.elim

theorem recursionFree_empty : Selector.empty.RecursionFree :=
  trivial

theorem merge_spec (free : base.RecursionFree) (freeOther : other.RecursionFree) :
    (base.merge other).RecursionFree ∧
      ∀ path, base.Asks path ∨ other.Asks path → (base.merge other).Asks path := by
  induction other generalizing base with
  | empty =>
      refine ⟨by rwa [merge], fun path asks => ?_⟩
      rw [merge]
      rcases asks with asks | asks
      · exact asks
      · cases path with
        | nil => trivial
        | cons key path =>
            obtain ⟨_, found, _⟩ := asks_cons_iff.mp asks
            cases found
  | recursive name rest _ => exact freeOther.elim
  | nested name sub rest within behind =>
      obtain ⟨freeSub, freeRest⟩ := freeOther
      -- whatever stands at the key afterwards has to keep both ways on below it
      have widened (wider : Selector) (freeWider : wider.RecursionFree)
          (wide : ∀ path, base.Asks (name :: path) ∨ sub.Asks path → wider.Asks path) :
          ((base.insert name wider).merge rest).RecursionFree ∧
            ∀ path, base.Asks path ∨ (nested name sub rest).Asks path →
              ((base.insert name wider).merge rest).Asks path := by
        obtain ⟨freeMerged, keeps⟩ := behind (free.insert freeWider) freeRest
        refine ⟨freeMerged, fun path asks => ?_⟩
        cases path with
        | nil => trivial
        | cons key path =>
            by_cases same : name = key
            · subst same
              rw [asks_nested_iff, if_pos rfl] at asks
              exact keeps _ (.inl (asks_insertEntry_iff.mpr (by
                rw [if_pos rfl]
                exact wide path asks)))
            · rw [asks_nested_iff, if_neg same] at asks
              exact keeps _ (asks.imp_left fun asks =>
                asks_insertEntry_iff.mpr (by rwa [if_neg same]))
      rw [merge]
      cases found : base.entry? name with
      | none =>
          refine widened sub freeSub fun path asks => ?_
          rcases asks with asks | asks
          · obtain ⟨_, foundToo, _⟩ := asks_cons_iff.mp asks
            cases found.symm.trans foundToo
          · exact asks
      | some entry =>
          obtain ⟨mine, rfl, freeMine⟩ := free.of_found found
          obtain ⟨freeMerged, keeps⟩ := within freeMine freeSub
          refine widened (mine.merge sub) freeMerged fun path asks => keeps path ?_
          refine asks.imp_left fun asks => ?_
          obtain ⟨entry, foundToo, below⟩ := asks_cons_iff.mp asks
          cases found.symm.trans foundToo
          exact below

theorem RecursionFree.single (free : sub.RecursionFree) (key : String) :
    (single key sub).RecursionFree :=
  ⟨free, trivial⟩

theorem RecursionFree.addKey (free : asked.RecursionFree) (freeSub : sub.RecursionFree) :
    (asked.addKey key sub).RecursionFree :=
  (merge_spec free (freeSub.single key)).1

theorem Asks.addKey (asks : asked.Asks path) (free : asked.RecursionFree)
    (freeSub : sub.RecursionFree) : (asked.addKey key sub).Asks path :=
  (merge_spec free (freeSub.single key)).2 path (.inl asks)

theorem asks_addKey (asks : sub.Asks path) (free : asked.RecursionFree)
    (freeSub : sub.RecursionFree) : (asked.addKey key sub).Asks (key :: path) :=
  (merge_spec free (freeSub.single key)).2 _
    (.inr (asks_cons_iff.mpr ⟨.nested sub, by simp [single, Selector.entry?], asks⟩))

end EntityResolver.Selector
