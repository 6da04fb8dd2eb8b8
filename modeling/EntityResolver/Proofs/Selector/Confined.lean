import EntityResolver.Proofs.Run.Reading
import EntityResolver.Proofs.Selector.Project
import EntityResolver.Proofs.Selector.Rooted

/-!
Recursion that stays within a class.

Following a recursive field does not leave the class, whatever part of the selector is taken.
-/

set_option autoImplicit false

namespace EntityResolver

namespace Schema

variable {schema : Schema} {cls inner : ClassId} {selector sub : Selector} {name : String}
  {entry : Selector.Entry} {around? : Option String}

theorem Refers.unique {one other : ClassId} (refers : schema.Refers cls name one)
    (refersToo : schema.Refers cls name other) : one = other := by
  obtain ⟨field, found, target⟩ := refers
  obtain ⟨fieldToo, foundToo, targetToo⟩ := refersToo
  cases found.symm.trans foundToo
  exact Option.some.inj (target.symm.trans targetToo)

def StarsStay (schema : Schema) : ClassId → Selector → Prop
  | _, .empty => True
  | cls, .nested name sub rest =>
      (sub.isRecursive name = true → schema.Refers cls name cls) ∧
        (∀ inner, schema.Refers cls name inner → schema.StarsStay inner sub) ∧
          schema.StarsStay cls rest
  | cls, .recursive _ rest => schema.StarsStay cls rest

/-- A field refers to its own class where it is recursive, and around that. -/
def Confines (schema : Schema) : ClassId → Selector → Prop
  | _, .empty => True
  | cls, .nested name sub rest =>
      (∀ inner, schema.Refers cls name inner →
        schema.Confines inner sub ∧ (sub.isRecursive name = true → inner = cls)) ∧
      schema.Confines cls rest
  | cls, .recursive name rest =>
      (∀ inner, schema.Refers cls name inner → inner = cls) ∧ schema.Confines cls rest

/-- What is said about one field of the class. -/
def ConfinesEntry (schema : Schema) (cls : ClassId) (name : String) : Selector.Entry → Prop
  | .nested sub => ∀ inner, schema.Refers cls name inner →
      schema.Confines inner sub ∧ (sub.isRecursive name = true → inner = cls)
  | .recursive => ∀ inner, schema.Refers cls name inner → inner = cls

theorem entrywise_confines (schema : Schema) (cls : ClassId) :
    Selector.Entrywise (schema.ConfinesEntry cls) (schema.Confines cls) where
  empty := trivial
  nested _ _ _ := Iff.rfl
  recursive _ _ := Iff.rfl

theorem Confines.below (confined : schema.Confines cls selector) (distinct : selector.Distinct)
    (member : (name, sub) ∈ selector.resolved) (refers : schema.Refers cls name inner) :
    schema.Confines inner sub ∧ (sub.isRecursive name = true → inner = cls) := by
  obtain ⟨entry, found, rfl⟩ :=
    Option.map_eq_some_iff.mp ((Selector.mem_resolved_iff distinct).mp member)
  have fits := (entrywise_confines schema cls).of_found confined found
  cases entry with
  | nested sub => exact fits inner refers
  | recursive =>
      obtain rfl := fits inner refers
      exact ⟨confined, fun _ => rfl⟩

theorem Confines.pick (confined : schema.Confines cls selector) (distinct : selector.Distinct)
    (names : List String) : schema.Confines cls (selector.pick names) := by
  have entrywise := entrywise_confines schema cls
  refine (entrywise.holds_iff (distinct.pick names)).mpr fun name entry found => ?_
  rw [Selector.pick_eq_foldl, Selector.entry?_foldl_addPicked] at found
  split at found
  · exact entrywise.of_found confined found
  · cases found

theorem Confines.retarget {part : Selector} (confined : schema.Confines cls part)
    (whole : schema.Confines cls selector) (distinct : part.Distinct)
    (distinctWhole : selector.Distinct) : schema.Confines cls (part.retarget selector) := by
  have entrywise := entrywise_confines schema cls
  refine (entrywise.holds_iff (distinct.retarget distinctWhole)).mpr fun name entry found => ?_
  rw [Selector.entry?_retarget] at found
  obtain ⟨original, foundThere, rfl⟩ := Option.map_eq_some_iff.mp found
  have fits := entrywise.of_found confined foundThere
  cases original with
  | nested sub => exact fits
  | recursive =>
      intro inner refers
      obtain rfl := fits inner refers
      exact ⟨whole, fun _ => rfl⟩

theorem Confines.project (confined : schema.Confines cls selector) (distinct : selector.Distinct)
    (names : List String) : schema.Confines cls (selector.project names) := by
  unfold Selector.project
  simp only
  split
  · exact confined.pick distinct names
  · exact (confined.pick distinct names).retarget confined (distinct.pick names) distinct

/-- A selector is confined if its stars are, since nothing else makes it recursive. -/
theorem confines_of_starsStay (rooted : selector.Rooted around?) (distinct : selector.Distinct)
    (stay : schema.StarsStay cls selector)
    (around : ∀ name, around? = some name → (name, .recursive) ∈ selector.entries →
      ∀ inner, schema.Refers cls name inner → inner = cls) :
    schema.Confines cls selector := by
  induction selector generalizing cls around? with
  | empty => trivial
  | nested name sub rest inside others =>
      obtain ⟨home, below, stayRest⟩ := stay
      refine ⟨fun inner refers => ?_, others rooted.2 distinct.2.2 stayRest fun other same member =>
        around other same (List.mem_cons_of_mem _ member)⟩
      have here (isRecursive : sub.isRecursive name = true) : inner = cls :=
        refers.unique (home isRecursive)
      refine ⟨inside rooted.1 distinct.2.1 (below inner refers) ?_, here⟩
      rintro other ⟨⟩ member further refersToo
      have isRecursive : sub.isRecursive name = true := by
        simp [Selector.isRecursive, Selector.entry?_of_mem_entries distinct.2.1 member]
      obtain rfl := here isRecursive
      exact refersToo.unique refers
  | recursive name rest others =>
      exact ⟨around name rooted.1 List.mem_cons_self, others rooted.2 distinct.2 stay
        fun other same member => around other same (List.mem_cons_of_mem _ member)⟩

end Schema

end EntityResolver
