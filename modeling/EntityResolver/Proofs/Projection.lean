import EntityResolver.Proofs.Selector.Project
import EntityResolver.Proofs.Value.Matched

/-!
# What a part of a selector means

A part of a selector says of the fields that it was taken for what the whole says of them, along
every path of fields that begins with one, and it says nothing of other fields. A part of a part is
the part for the names that both were taken for. Names that are repeated, or that the selector does
not have, make no difference.
-/

set_option autoImplicit false

namespace EntityResolver.Selector

/-- What the last field of a path is selected with, recursion followed. -/
def follow? : Selector → List String → Option Selector
  | selector, [] => some selector
  | selector, name :: path => (selector.subselector? name).bind fun sub => sub.follow? path

/-- Both answers are missing, or both are there and equal up to the order of fields. -/
def SameAnswer (first second : Option Selector) : Prop :=
  Option.Rel (fun one other => one.same other = true) first second

variable {selector first second : Selector} {name : String}
    {path names namesToo common : List String}

theorem sameAnswer_refl {answer : Option Selector}
    (distinct : ∀ sub, answer = some sub → sub.Distinct) : SameAnswer answer answer := by
  cases answer with
  | none => exact .none
  | some sub => exact .some (same_refl (distinct sub rfl))

theorem Distinct.of_subselector? {sub : Selector} (distinct : selector.Distinct)
    (found : selector.subselector? name = some sub) : sub.Distinct :=
  distinct.of_mem_resolved ((mem_resolved_iff distinct).mpr found)

/-- Equal selectors say alike things under every name. -/
theorem same_iff_entries (distinct : first.Distinct) (distinctToo : second.Distinct) :
    first.same second = true ↔
      ∀ name, Option.Rel Entry.Alike (first.entry? name) (second.entry? name) := by
  rw [same_iff distinct]
  constructor
  · rintro ⟨names, alike⟩ name
    cases found : first.entry? name with
    | some entry =>
        obtain ⟨other, foundToo, likeness⟩ := alike name entry found
        rw [foundToo]
        exact .some likeness
    | none =>
        have unknown : name ∉ second.names := mt names.mem_iff.mpr (entry?_eq_none_iff.mp found)
        rw [entry?_eq_none_iff.mpr unknown]
        exact .none
  · intro alike
    refine ⟨?_, fun name entry found => ?_⟩
    · refine (List.perm_ext_iff_of_nodup distinct.nodup distinctToo.nodup).mpr fun name => ?_
      rw [mem_names_iff, mem_names_iff]
      rcases optionRel_cases (alike name) with ⟨here, there⟩ | ⟨_, _, here, there, _⟩ <;>
        simp [here, there]
    · rcases optionRel_cases (alike name) with ⟨missing, _⟩ | ⟨_, other, here, there, likeness⟩
      · cases found.symm.trans missing
      · cases found.symm.trans here
        exact ⟨other, there, likeness⟩

theorem sameAnswer_subselector? (distinct : first.Distinct) (distinctToo : second.Distinct)
    (same : first.same second = true) (name : String) :
    SameAnswer (first.subselector? name) (second.subselector? name) := by
  unfold subselector?
  rcases optionRel_cases ((same_iff_entries distinct distinctToo).mp same name) with
    ⟨here, there⟩ | ⟨entry, other, here, there, alike⟩
  · rw [here, there]
    exact .none
  · rw [here, there]
    exact .some (alike.within same)

/-- Lookups that begin with answers that are equal go on to answers that are equal. -/
theorem SameAnswer.follow? {one other : Option Selector} (same : SameAnswer one other)
    (distinct : ∀ sub, one = some sub → sub.Distinct)
    (distinctToo : ∀ sub, other = some sub → sub.Distinct) (path : List String) :
    SameAnswer (one.bind fun sub => sub.follow? path) (other.bind fun sub => sub.follow? path) := by
  induction path generalizing one other with
  | nil => simpa [Selector.follow?] using same
  | cons name path inductionHypothesis =>
      cases same with
      | none => exact .none
      | @some first second same =>
          have distinctFirst := distinct first rfl
          have distinctSecond := distinctToo second rfl
          exact inductionHypothesis (sameAnswer_subselector? distinctFirst distinctSecond same name)
            (fun _ => distinctFirst.of_subselector?) (fun _ => distinctSecond.of_subselector?)

/-- Where every name was asked for, a part has the entries of the whole, recursive ones as such. -/
theorem entry?_project_of_subset (distinct : selector.Distinct) (full : selector.names ⊆ names)
    (name : String) :
    Selector.entry? (selector.project names) name = selector.entry? name := by
  unfold project
  simp only [if_pos ((size_pick_eq_iff distinct).mpr full)]
  by_cases listed : name ∈ names
  · exact Selector.entry?_pick listed
  · have unknown : name ∉ selector.names := fun known => listed (full known)
    rw [Selector.entry?_eq_none_iff.mpr unknown, Selector.entry?_eq_none_iff, mem_names_pick_iff]
    exact fun both => unknown both.2

/-- Where a field was left out, recursive entries of a part lead to the whole. -/
theorem entry?_project_of_not_subset (distinct : selector.Distinct)
    (partly : ¬ selector.names ⊆ names) (name : String) :
    Selector.entry? (selector.project names) name =
      if name ∈ names then (selector.entry? name).map fun entry => .nested (entry.within selector)
      else none := by
  unfold project
  simp only [if_neg (mt (size_pick_eq_iff distinct).mp partly), Selector.entry?_retarget]
  split
  · rename_i listed
    rw [Selector.entry?_pick listed]
  · rename_i unlisted
    have left : name ∉ (selector.pick names).names := fun member =>
      unlisted (mem_names_pick_iff.mp member).1
    rw [Selector.entry?_eq_none_iff.mpr left]
    rfl

theorem same_project_of_subset (distinct : selector.Distinct) (full : selector.names ⊆ names) :
    (selector.project names).same selector = true := by
  unfold project
  simp only [if_pos ((size_pick_eq_iff distinct).mpr full)]
  exact pick_same distinct full

/-- A part says of a field that it was taken for what the whole says of it. -/
theorem sameAnswer_project (distinct : selector.Distinct) (names : List String) (name : String) :
    SameAnswer ((selector.project names).subselector? name)
      (if name ∈ names then selector.subselector? name else none) := by
  by_cases full : selector.names ⊆ names
  · have answers := sameAnswer_subselector? (distinct.project names) distinct
      (same_project_of_subset distinct full) name
    split
    · exact answers
    · rename_i unlisted
      have unknown : name ∉ selector.names := fun known => unlisted (full known)
      simpa [subselector?, entry?_eq_none_iff.mpr unknown] using answers
  · have equal : (selector.project names).subselector? name =
        if name ∈ names then selector.subselector? name else none := by
      unfold subselector?
      rw [entry?_project_of_not_subset distinct full]
      split
      · rw [Option.map_map]
        rfl
      · rfl
    rw [← equal]
    exact sameAnswer_refl fun _ => (distinct.project names).of_subselector?

theorem sameAnswer_follow?_project (distinct : selector.Distinct) (names : List String)
    (name : String) (path : List String) :
    SameAnswer ((selector.project names).follow? (name :: path))
      (if name ∈ names then selector.follow? (name :: path) else none) := by
  have distinctBelow (sub : Selector)
      (found : (if name ∈ names then selector.subselector? name else none) = some sub) :
      sub.Distinct := by
    split at found
    · exact distinct.of_subselector? found
    · cases found
  have answers := (sameAnswer_project distinct names name).follow?
    (fun _ => (distinct.project names).of_subselector?) distinctBelow path
  split
  · rename_i listed
    rwa [if_pos listed] at answers
  · rename_i unlisted
    rwa [if_neg unlisted] at answers

theorem same_of_entry?_eq (distinct : first.Distinct) (distinctToo : second.Distinct)
    (equal : ∀ name, first.entry? name = second.entry? name) : first.same second = true := by
  refine (same_iff_entries distinct distinctToo).mpr fun name => ?_
  rw [← equal]
  cases found : first.entry? name with
  | none => exact .none
  | some entry => exact .some (Entry.alike_refl distinct found)

/-- Only the names that the selector has matter, and neither their order nor their repetition. -/
theorem same_project_of_iff (distinct : selector.Distinct)
    (alike : ∀ name ∈ selector.names, name ∈ names ↔ name ∈ namesToo) :
    (selector.project names).same (selector.project namesToo) = true := by
  refine same_of_entry?_eq (distinct.project names) (distinct.project namesToo) fun name => ?_
  by_cases full : selector.names ⊆ names
  · have fullToo : selector.names ⊆ namesToo := fun name known => (alike name known).mp (full known)
    rw [entry?_project_of_subset distinct full, entry?_project_of_subset distinct fullToo]
  · have partlyToo : ¬ selector.names ⊆ namesToo := fun fullToo =>
      full fun name known => (alike name known).mpr (fullToo known)
    rw [entry?_project_of_not_subset distinct full, entry?_project_of_not_subset distinct partlyToo]
    by_cases known : name ∈ selector.names
    · simp only [alike name known]
    · simp [entry?_eq_none_iff.mpr known]

theorem same_project_of_same (distinct : first.Distinct) (distinctToo : second.Distinct)
    (same : first.same second = true) (names : List String) :
    (first.project names).same (second.project names) = true := by
  have perm := ((same_iff distinct).mp same).1
  have alike := (same_iff_entries distinct distinctToo).mp same
  refine (same_iff_entries (distinct.project names) (distinctToo.project names)).mpr fun name => ?_
  by_cases full : first.names ⊆ names
  · have fullToo : second.names ⊆ names := List.Subset.trans perm.symm.subset full
    rw [entry?_project_of_subset distinct full, entry?_project_of_subset distinctToo fullToo]
    exact alike name
  · have partlyToo : ¬ second.names ⊆ names := fun fullToo =>
      full (List.Subset.trans perm.subset fullToo)
    rw [entry?_project_of_not_subset distinct full,
      entry?_project_of_not_subset distinctToo partlyToo]
    split
    · rcases optionRel_cases (alike name) with ⟨here, there⟩ | ⟨entry, other, here, there, likeness⟩
      · rw [here, there]
        exact .none
      · rw [here, there]
        exact .some (likeness.within same)
    · exact .none

/-- Entries of a part that leaves fields out do not depend on the selector around them, and a part
of it keeps them as they are. -/
theorem entry?_project_project (distinct : selector.Distinct) (partly : ¬ selector.names ⊆ names)
    (namesToo : List String) (name : String) :
    Selector.entry? ((selector.project names).project namesToo) name =
      if name ∈ namesToo then Selector.entry? (selector.project names) name else none := by
  have distinctPart := distinct.project names
  by_cases full : (selector.project names).names ⊆ namesToo
  · rw [entry?_project_of_subset distinctPart full]
    split
    · rfl
    · rename_i unlisted
      exact entry?_eq_none_iff.mpr fun member => unlisted (full member)
  · rw [entry?_project_of_not_subset distinctPart full]
    rw [entry?_project_of_not_subset distinct partly]
    by_cases listed : name ∈ names
    · simp only [if_pos listed, Option.map_map]
      rfl
    · simp [listed]

theorem same_project_project (distinct : selector.Distinct)
    (shared : ∀ name ∈ selector.names, name ∈ common ↔ name ∈ names ∧ name ∈ namesToo) :
    ((selector.project names).project namesToo).same (selector.project common) = true := by
  have distinctPart := distinct.project names
  by_cases full : selector.names ⊆ names
  · -- the first part is the whole in another order, and so is what its recursive entries lead to
    have alike : ∀ name ∈ selector.names, name ∈ namesToo ↔ name ∈ common := fun name known => by
      rw [shared name known]
      exact ⟨fun listed => ⟨full known, listed⟩, fun both => both.2⟩
    exact same_trans (distinctPart.project namesToo) (distinct.project namesToo)
      (distinct.project common)
      (same_project_of_same distinctPart distinct (same_project_of_subset distinct full) namesToo)
      (same_project_of_iff distinct alike)
  · refine same_of_entry?_eq (distinctPart.project namesToo) (distinct.project common) fun name => ?_
    have partlyToo : ¬ selector.names ⊆ common := fun every =>
      full fun name known => ((shared name known).mp (every known)).1
    rw [entry?_project_project distinct full, entry?_project_of_not_subset distinct full,
      entry?_project_of_not_subset distinct partlyToo]
    by_cases known : name ∈ selector.names
    · by_cases listed : name ∈ names <;> simp [shared name known, listed]
    · simp [entry?_eq_none_iff.mpr known]

/-- Of the fields that it was taken for, and only of these, a part says what the whole says, at once
and along every path that begins with one of them. Taking parts one after the other comes to taking
the part for the names that are common to all, whatever else is named and however often. -/
theorem project_keeps_meaning (selector : Selector) (distinct : selector.Distinct) :
    (∀ names name, SameAnswer ((selector.project names).subselector? name)
      (if name ∈ names then selector.subselector? name else none)) ∧
    (∀ names name path, SameAnswer ((selector.project names).follow? (name :: path))
      (if name ∈ names then selector.follow? (name :: path) else none)) ∧
    (∀ names namesToo common : List String,
      (∀ name ∈ selector.names, name ∈ common ↔ name ∈ names ∧ name ∈ namesToo) →
      ((selector.project names).project namesToo).same (selector.project common) = true) ∧
    ∀ names namesToo : List String,
      (∀ name ∈ selector.names, name ∈ names ↔ name ∈ namesToo) →
      (selector.project names).same (selector.project namesToo) = true :=
  ⟨sameAnswer_project distinct, sameAnswer_follow?_project distinct,
    fun _ _ _ => same_project_project distinct, fun _ _ => same_project_of_iff distinct⟩

end EntityResolver.Selector

namespace EntityResolver.Districts

/-- The parts on all levels, and the mayors with all their deputies. -/
def district : Selector :=
  .nested "name" .empty
    (.recursive "parts"
      (.nested "mayor" (.recursive "deputy" (.nested "name" .empty .empty)) .empty))

/-- Without `name` the parts are those of the whole selector, so that `name` is found below them.
With all names they are those of the part, which has them in another order. -/
theorem project_keeps_meaning_district :
    district.Distinct ∧
    Selector.SameAnswer ((district.project ["parts", "flag", "parts"]).subselector? "parts")
      (some district) ∧
    Selector.SameAnswer
      ((district.project ["mayor", "parts"]).follow? ["parts", "parts", "mayor", "deputy", "name"])
      (some .empty) ∧
    ((district.project ["mayor", "name", "parts"]).project ["parts", "flag", "mayor"]).same
      (district.project ["parts", "mayor", "parts"]) = true ∧
    (district.project ["name", "flag", "parts"]).same (district.project ["parts", "name"]) = true := by
  have distinct : district.Distinct := by simp [district, Selector.Distinct, Selector.names]
  obtain ⟨answers, follows, parts, alike⟩ := Selector.project_keeps_meaning district distinct
  refine ⟨distinct, answers ["parts", "flag", "parts"] "parts", ?_, ?_, ?_⟩
  · exact follows ["mayor", "parts"] "parts" ["parts", "mayor", "deputy", "name"]
  · exact parts ["mayor", "name", "parts"] ["parts", "flag", "mayor"] ["parts", "mayor", "parts"]
      (by decide)
  · exact alike ["name", "flag", "parts"] ["parts", "name"] (by decide)

end EntityResolver.Districts
