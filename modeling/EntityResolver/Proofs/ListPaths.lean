import EntityResolver.Proofs.Run.Findings

/-!
# Ways into the response of a list

The steps of a list method lead from its response to the documents that are listed. Where they lead
is said by `ListStep.reach`, whatever the response is like, and `ListStep.Admits` says which
responses the steps can be taken in. Both are compositional, and a walk is exact: it comes to what
the steps reach, and does so just where they can be taken.
-/

set_option autoImplicit false

namespace EntityResolver

namespace ListStep

/-- The steps can be taken from a value, each of them wherever the ones before it lead. A key needs
an object that has it. Every member is taken of an object, of a list, or of a null, which has
none. -/
inductive Admits : List ListStep → Json → Prop where
  | arrived (value : Json) : Admits [] value
  | key {key : String} {rest : List ListStep} {members : List (String × Json)} {inner : Json}
      (found : OrderedMap.get? members key = some inner) (below : Admits rest inner) :
      Admits (.key key :: rest) (.object members)
  | members {rest : List ListStep} {members : List (String × Json)}
      (below : ∀ member ∈ members, Admits rest member.2) : Admits (.each :: rest) (.object members)
  | items {rest : List ListStep} {items : List Json} (below : ∀ item ∈ items, Admits rest item) :
      Admits (.each :: rest) (.array items)
  | null (rest : List ListStep) : Admits (.each :: rest) .null

variable {step : ListStep} {steps further rest : List ListStep} {value : Json}

/-- The first step can be taken, which decides what there is below the value, and the others can be
taken from there. -/
theorem Admits.next (admits : Admits (step :: rest) value) {inner : Json}
    (below : inner ∈ step.below value) : Admits rest inner := by
  cases admits with
  | key found admits =>
      obtain rfl : inner = _ := by simpa [ListStep.below, Json.member?, found] using below
      exact admits
  | members admits =>
      obtain ⟨member, inside, rfl⟩ := List.mem_map.mp below
      exact admits member inside
  | items admits => exact admits inner below
  | null => cases below

/-- How the other steps go on does not count for the first one. -/
theorem Admits.cons_of_below (admits : Admits (step :: rest) value)
    (below : ∀ inner ∈ step.below value, Admits further inner) :
    Admits (step :: further) value := by
  cases admits with
  | key found _ => exact .key found (below _ (by simp [ListStep.below, Json.member?, found]))
  | members _ => exact .members fun member inside => below _ (List.mem_map_of_mem inside)
  | items _ => exact .items below
  | null => exact .null _

theorem reach_append (steps further : List ListStep) (value : Json) :
    reach (steps ++ further) value = (reach steps value).flatMap (reach further) := by
  induction steps generalizing value with
  | nil => simp [reach]
  | cons step rest inductionHypothesis =>
      simp only [List.cons_append, reach, List.flatMap_assoc, funext inductionHypothesis]

/-- Steps and further steps can be taken if the further ones can be wherever the others lead. -/
theorem admits_append_iff :
    Admits (steps ++ further) value ↔
      Admits steps value ∧ ∀ inner ∈ reach steps value, Admits further inner := by
  induction steps generalizing value with
  | nil => simp [reach, Admits.arrived]
  | cons step rest inductionHypothesis =>
      simp only [List.cons_append, reach, List.mem_flatMap]
      constructor
      · intro admits
        have below {inner : Json} (inside : inner ∈ step.below value) :=
          inductionHypothesis.mp (admits.next inside)
        refine ⟨admits.cons_of_below fun inner inside => (below inside).1, fun inner found => ?_⟩
        obtain ⟨middle, inside, reached⟩ := found
        exact (below inside).2 inner reached
      · rintro ⟨admits, onwards⟩
        exact admits.cons_of_below fun middle inside => inductionHypothesis.mpr
          ⟨admits.next inside, fun inner reached => onwards inner ⟨middle, inside, reached⟩⟩

end ListStep

variable {path : String} {steps further : List ListStep} {value : Json} {items : List Json}

theorem walkAll_eq_ok_iff {way : Json → Except ResolveError (List Json)} {values : List Json} :
    (∃ items, walk.walkAll way values = .ok items) ↔
      ∀ value ∈ values, ∃ items, way value = .ok items := by
  induction values with
  | nil => simp [walk.walkAll]
  | cons value rest inductionHypothesis =>
      rw [List.forall_mem_cons, ← inductionHypothesis]
      simp only [walk.walkAll, bind_eq_ok_iff]
      constructor
      · rintro ⟨items, found, first, others, remaining, _⟩
        exact ⟨⟨found, first⟩, others, remaining⟩
      · rintro ⟨⟨found, first⟩, others, remaining⟩
        exact ⟨found ++ others, found, first, others, remaining, rfl⟩

/-- A walk comes to its end just where its steps can be taken. -/
theorem exists_walk_iff (path : String) :
    (∃ items, walk path steps value = .ok items) ↔ ListStep.Admits steps value := by
  induction steps generalizing value with
  | nil => exact ⟨fun _ => .arrived value, fun _ => ⟨[value], rfl⟩⟩
  | cons step rest inductionHypothesis =>
      cases step with
      | key key =>
          constructor
          · rintro ⟨items, walked⟩
            rw [walk] at walked
            split at walked
            · rename_i inner found
              cases value with
              | object members => exact .key found (inductionHypothesis.mp ⟨items, walked⟩)
              | null | bool | int | float | str | array => cases found
            · cases walked
          · rintro (_ | ⟨found, below⟩)
            simp only [walk, Json.member?, found]
            exact inductionHypothesis.mpr below
      | each =>
          cases value with
          | object members =>
              rw [walk, walkAll_eq_ok_iff, List.forall_mem_map]
              simp only [inductionHypothesis]
              refine ⟨.members, fun admits => ?_⟩
              cases admits with
              | members below => exact below
          | array items =>
              rw [walk, walkAll_eq_ok_iff]
              simp only [inductionHypothesis]
              refine ⟨.items, fun admits => ?_⟩
              cases admits with
              | items below => exact below
          | null => exact ⟨fun _ => .null rest, fun _ => ⟨[], rfl⟩⟩
          | bool | int | float | str =>
              constructor
              · rintro ⟨items, walked⟩
                cases walked
              · intro admits
                cases admits

theorem walk_eq_ok_iff :
    walk path steps value = .ok items ↔
      ListStep.Admits steps value ∧ items = ListStep.reach steps value := by
  constructor
  · intro walked
    exact ⟨(exists_walk_iff path).mp ⟨items, walked⟩, walk_eq_reach walked⟩
  · rintro ⟨admits, rfl⟩
    obtain ⟨items, walked⟩ := (exists_walk_iff path).mpr admits
    rw [walked, walk_eq_reach walked]

theorem walk_fails_iff :
    (∃ error, walk path steps value = .error error) ↔ ¬ ListStep.Admits steps value := by
  rw [← exists_walk_iff path]
  cases walk path steps value <;> simp

/-- Walks from some documents come to the parts of what the steps reach from them. -/
theorem forall₂_walk_iff {values : List Json} {parts : List (List Json)} :
    List.Forall₂ (fun value part => walk path steps value = .ok part) values parts ↔
      (∀ value ∈ values, ListStep.Admits steps value) ∧
        parts = values.map (ListStep.reach steps) := by
  simp only [walk_eq_ok_iff]
  induction values generalizing parts with
  | nil => simp
  | cons value rest inductionHypothesis =>
      rw [List.forall₂_cons_left_iff, List.forall_mem_cons, List.map_cons]
      constructor
      · rintro ⟨_, others, ⟨admits, rfl⟩, remaining, rfl⟩
        obtain ⟨all, rfl⟩ := inductionHypothesis.mp remaining
        exact ⟨⟨admits, all⟩, rfl⟩
      · rintro ⟨⟨admits, all⟩, rfl⟩
        exact ⟨_, _, ⟨admits, rfl⟩, inductionHypothesis.mpr ⟨all, rfl⟩, rfl⟩

/-- A walk by some steps and then by further ones comes, in order, to all that walks by the further
steps come to from the documents that the first ones lead to, and it fails just where the first
steps fail or the further ones fail from one of these documents. It succeeds just where each step
can be taken, and then comes to what the steps reach. -/
theorem walk_append (path : String) (steps further : List ListStep) (value : Json) :
    (∀ items, walk path (steps ++ further) value = .ok items ↔
      ∃ found, walk path steps value = .ok found ∧
        ∃ parts, List.Forall₂ (fun inner part => walk path further inner = .ok part) found parts ∧
          items = parts.flatten) ∧
    ((∃ error, walk path (steps ++ further) value = .error error) ↔
      (∃ error, walk path steps value = .error error) ∨
        ∃ found, walk path steps value = .ok found ∧
          ∃ inner ∈ found, ∃ error, walk path further inner = .error error) ∧
    ∀ items, walk path steps value = .ok items ↔
      ListStep.Admits steps value ∧ items = ListStep.reach steps value := by
  refine ⟨fun items => ?_, ?_, fun items => walk_eq_ok_iff⟩
  · simp only [forall₂_walk_iff]
    simp only [walk_eq_ok_iff, ListStep.admits_append_iff, ListStep.reach_append]
    constructor
    · rintro ⟨⟨admits, onwards⟩, rfl⟩
      exact ⟨_, ⟨admits, rfl⟩, _, ⟨onwards, rfl⟩, List.flatMap_def⟩
    · rintro ⟨_, ⟨admits, rfl⟩, _, ⟨onwards, rfl⟩, rfl⟩
      exact ⟨⟨admits, onwards⟩, List.flatMap_def.symm⟩
  · simp only [walk_fails_iff, walk_eq_ok_iff, ListStep.admits_append_iff]
    by_cases admits : ListStep.Admits steps value
    · simp [admits]
    · simp [admits]

/-- The null among the lists contributes nothing. -/
example :
    walk "services/courses/user" (ListStep.ofSegments ["course_editions", "*", "*"])
        (.object [("course_editions", .object [("2023Z", .array [.int 1, .int 2]),
          ("2024L", .null), ("2024Z", .array [.int 3])])]) =
      .ok [.int 1, .int 2, .int 3] := rfl

end EntityResolver
