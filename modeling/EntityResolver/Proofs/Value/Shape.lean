import EntityResolver.Value.Field
import Mathlib.Data.List.Forall2

/-!
Values of one shape, whose entities are related one by one.
-/

set_option autoImplicit false

namespace EntityResolver.FieldValue

variable {ε τ ρ : Type}

/-- The values have the same shape, and their entities are related in order. -/
inductive Rel (related : ε → τ → Prop) : FieldValue ε → FieldValue τ → Prop where
  | missing : Rel related .missing .missing
  | scalar (value : Scalar) : Rel related (.scalar value) (.scalar value)
  | entity {first : ε} {second : τ} (pair : related first second) :
      Rel related (.entity first) (.entity second)
  | optional {first : Option ε} {second : Option τ} (pair : Option.Rel related first second) :
      Rel related (.optional first) (.optional second)
  | list {first : List ε} {second : List τ} (pairs : List.Forall₂ related first second) :
      Rel related (.list first) (.list second)
  | map {first : List (String × ε)} {second : List (String × τ)}
      (pairs : List.Forall₂ (fun one other => one.1 = other.1 ∧ related one.2 other.2) first
        second) :
      Rel related (.map first) (.map second)

variable {related : ε → τ → Prop} {value : FieldValue ε} {other : FieldValue τ}

theorem Rel.entities (same : Rel related value other) :
    List.Forall₂ related value.entities other.entities := by
  cases same with
  | missing => exact .nil
  | scalar _ => exact .nil
  | entity pair => exact .cons pair .nil
  | optional pair =>
      cases pair with
      | some pair => exact .cons pair .nil
      | none => exact .nil
  | list pairs => exact pairs
  | map pairs =>
      refine List.forall₂_map_left_iff.mpr (List.forall₂_map_right_iff.mpr ?_)
      exact pairs.imp fun one other pair => pair.2

theorem exists_related {ones : List ε} {others : List τ} (pairs : List.Forall₂ related ones others)
    {one : ε} (member : one ∈ ones) : ∃ other ∈ others, related one other := by
  induction pairs with
  | nil => cases member
  | cons pair _ inductionHypothesis =>
      rcases List.mem_cons.mp member with rfl | inRest
      · exact ⟨_, List.mem_cons_self, pair⟩
      · obtain ⟨other, inOthers, found⟩ := inductionHypothesis inRest
        exact ⟨other, List.mem_cons_of_mem _ inOthers, found⟩

theorem Rel.exists_of_mem (same : Rel related value other) {one : τ}
    (member : one ∈ other.entities) : ∃ entity ∈ value.entities, related entity one := by
  have flipped : List.Forall₂ (flip related) other.entities value.entities := same.entities.flip
  exact exists_related flipped member

theorem optionRel_imp {wider : ε → τ → Prop} {first : Option ε} {second : Option τ}
    (pair : Option.Rel related first second)
    (widen : ∀ one other, related one other → wider one other) : Option.Rel wider first second := by
  cases pair with
  | some pair => exact .some (widen _ _ pair)
  | none => exact .none

theorem Rel.mono {wider : ε → τ → Prop} (same : Rel related value other)
    (widen : ∀ one ∈ value.entities, ∀ other, related one other → wider one other) :
    Rel wider value other := by
  have all {first : List ε} {second : List τ} (pairs : List.Forall₂ related first second)
      (widen : ∀ one ∈ first, ∀ other, related one other → wider one other) :
      List.Forall₂ wider first second := by
    induction pairs with
    | nil => exact .nil
    | cons pair _ inductionHypothesis =>
        exact .cons (widen _ (by simp) _ pair)
          (inductionHypothesis fun one member => widen one (by simp [member]))
  cases same with
  | missing => exact .missing
  | scalar _ => exact .scalar _
  | entity pair => exact .entity (widen _ (by simp [FieldValue.entities]) _ pair)
  | optional pair =>
      cases pair with
      | some pair =>
          exact .optional (.some (widen _ (by simp [FieldValue.entities]) _ pair))
      | none => exact .optional .none
  | list pairs => exact .list (all pairs widen)
  | map pairs =>
      refine .map ?_
      simp only [FieldValue.entities] at widen
      induction pairs with
      | nil => exact .nil
      | cons pair _ inductionHypothesis =>
          exact .cons ⟨pair.1, widen _ (by simp) _ pair.2⟩
            (inductionHypothesis fun one member => widen one (by simp [member]))

theorem exists_forall₂ {ones : List ε} (all : ∀ one ∈ ones, ∃ other, related one other) :
    ∃ others, List.Forall₂ related ones others := by
  induction ones with
  | nil => exact ⟨[], .nil⟩
  | cons one rest inductionHypothesis =>
      obtain ⟨other, pair⟩ := all one List.mem_cons_self
      obtain ⟨others, pairs⟩ := inductionHypothesis fun one member =>
        all one (List.mem_cons_of_mem _ member)
      exact ⟨other :: others, .cons pair pairs⟩

/-- Entities that are each related to something make a value that the whole value is related to. -/
theorem exists_rel (all : ∀ one ∈ value.entities, ∃ other, related one other) :
    ∃ other, Rel related value other := by
  cases value with
  | missing => exact ⟨_, .missing⟩
  | scalar scalar => exact ⟨_, .scalar scalar⟩
  | entity one =>
      obtain ⟨other, pair⟩ := all one (by simp [entities])
      exact ⟨_, .entity pair⟩
  | optional one? =>
      cases one? with
      | none => exact ⟨_, .optional .none⟩
      | some one =>
          obtain ⟨other, pair⟩ := all one (by simp [entities])
          exact ⟨_, .optional (.some pair)⟩
  | list ones =>
      obtain ⟨others, pairs⟩ := exists_forall₂ all
      exact ⟨_, .list pairs⟩
  | map ones =>
      simp only [entities] at all
      induction ones with
      | nil => exact ⟨_, .map .nil⟩
      | cons entry rest inductionHypothesis =>
          obtain ⟨other, pair⟩ := all entry.2 (by simp)
          obtain ⟨_, same⟩ := inductionHypothesis fun one member => all one (by simp [member])
          cases same with
          | map pairs => exact ⟨.map ((entry.1, other) :: _), .map (.cons ⟨rfl, pair⟩ pairs)⟩

theorem Rel.map_right {wider : ε → ρ → Prop} {change : τ → ρ} (same : Rel related value other)
    (widen : ∀ one other, related one other → wider one (change other)) :
    Rel wider value (other.mapEntities change) := by
  cases same with
  | missing => exact .missing
  | scalar _ => exact .scalar _
  | entity pair => exact .entity (widen _ _ pair)
  | optional pair =>
      cases pair with
      | none => exact .optional .none
      | some pair => exact .optional (.some (widen _ _ pair))
  | list pairs => exact .list (List.forall₂_map_right_iff.mpr (pairs.imp widen))
  | map pairs =>
      refine .map (List.forall₂_map_right_iff.mpr (pairs.imp fun one other pair => ?_))
      exact ⟨pair.1, widen _ _ pair.2⟩

theorem Rel.symm (same : Rel related value other) : Rel (flip related) other value := by
  cases same with
  | missing => exact .missing
  | scalar _ => exact .scalar _
  | entity pair => exact .entity pair
  | optional pair =>
      cases pair with
      | none => exact .optional .none
      | some pair => exact .optional (.some pair)
  | list pairs => exact .list pairs.flip
  | map pairs => exact .map (pairs.imp (fun _ _ pair => ⟨pair.1.symm, pair.2⟩)).flip

theorem Rel.mapEntities_eq {first : ε → ρ} {second : τ → ρ} (same : Rel related value other)
    (each : ∀ one other, related one other → first one = second other) :
    value.mapEntities first = other.mapEntities second := by
  have list {ones : List ε} {others : List τ} (pairs : List.Forall₂ related ones others) :
      ones.map first = others.map second := by
    induction pairs with
    | nil => rfl
    | cons pair _ inductionHypothesis => simp [each _ _ pair, inductionHypothesis]
  cases same with
  | missing => rfl
  | scalar _ => rfl
  | entity pair => simp [mapEntities, each _ _ pair]
  | optional pair =>
      cases pair with
      | none => rfl
      | some pair => simp [mapEntities, each _ _ pair]
  | list pairs => simp [mapEntities, list pairs]
  | map pairs =>
      simp only [mapEntities, FieldValue.map.injEq]
      induction pairs with
      | nil => rfl
      | cons pair _ inductionHypothesis => simp [pair.1, each _ _ pair.2, inductionHypothesis]

@[simp] theorem entities_mapEntities (value : FieldValue ε) (change : ε → τ) :
    (value.mapEntities change).entities = value.entities.map change := by
  cases value with
  | optional one? => cases one? <;> rfl
  | _ => simp [mapEntities, entities]

theorem mapEntities_mapEntities (value : FieldValue ε) (first : ε → τ) (second : τ → ρ) :
    (value.mapEntities first).mapEntities second = value.mapEntities fun one =>
      second (first one) := by
  cases value <;> simp [mapEntities, Function.comp_def]

theorem mapEntities_eq_self {change : ε → ε} (fixed : ∀ one ∈ value.entities, change one = one) :
    value.mapEntities change = value := by
  cases value with
  | missing | scalar _ => rfl
  | entity one => simp [mapEntities, fixed one (by simp [entities])]
  | optional one? =>
      cases one? with
      | none => rfl
      | some one => simp [mapEntities, fixed one (by simp [entities])]
  | list ones =>
      have same : ones.map change = ones.map id := List.map_congr_left fixed
      simpa [mapEntities] using same
  | map ones =>
      have same : ones.map (fun entry => (entry.1, change entry.2)) = ones.map id := by
        refine List.map_congr_left fun entry member => ?_
        rw [fixed entry.2 (List.mem_map_of_mem member)]
        rfl
      simpa [mapEntities] using same

theorem forall₂_of_mapM {visit : ε → Option τ} {ones : List ε} {others : List τ}
    (found : ones.mapM visit = some others) :
    List.Forall₂ (fun one other => visit one = some other) ones others := by
  induction ones generalizing others with
  | nil =>
      cases found
      exact .nil
  | cons one rest inductionHypothesis =>
      rw [List.mapM_cons] at found
      obtain ⟨other, visited, found⟩ := Option.bind_eq_some_iff.mp found
      obtain ⟨more, remaining, same⟩ := Option.bind_eq_some_iff.mp found
      cases same
      exact .cons visited (inductionHypothesis remaining)

theorem Rel.of_traverse {visit : ε → Option τ} {result : FieldValue τ}
    (found : value.traverseEntities visit = some result) :
    Rel (fun one other => visit one = some other) value result := by
  cases value with
  | missing => cases found; exact .missing
  | scalar scalar => cases found; exact .scalar scalar
  | entity one =>
      obtain ⟨other, visited, same⟩ := Option.bind_eq_some_iff.mp found
      cases same
      exact .entity visited
  | optional one? =>
      cases one? with
      | none => cases found; exact .optional .none
      | some one =>
          obtain ⟨other, visited, same⟩ := Option.bind_eq_some_iff.mp found
          cases same
          exact .optional (.some visited)
  | list ones =>
      obtain ⟨others, visited, same⟩ := Option.bind_eq_some_iff.mp found
      cases same
      exact .list (forall₂_of_mapM visited)
  | map ones =>
      obtain ⟨others, visited, same⟩ := Option.bind_eq_some_iff.mp found
      cases same
      refine .map ((forall₂_of_mapM visited).imp fun one other entry => ?_)
      obtain ⟨inner, found, same⟩ := Option.bind_eq_some_iff.mp entry
      cases same
      exact ⟨rfl, found⟩

theorem mapM_of_forall₂ {visit : ε → Option τ} {ones : List ε} {others : List τ}
    (pairs : List.Forall₂ (fun one other => visit one = some other) ones others) :
    ones.mapM visit = some others := by
  induction pairs with
  | nil => rfl
  | cons pair _ inductionHypothesis => simp [List.mapM_cons, pair, inductionHypothesis]

theorem Rel.traverse {visit : ε → Option τ} {result : FieldValue τ}
    (same : Rel (fun one other => visit one = some other) value result) :
    value.traverseEntities visit = some result := by
  cases same with
  | missing => rfl
  | scalar _ => rfl
  | entity pair => simp [traverseEntities, pair]
  | optional pair =>
      cases pair with
      | none => rfl
      | some pair => simp [traverseEntities, pair]
  | list pairs => simp [traverseEntities, mapM_of_forall₂ pairs]
  | map pairs =>
      simp only [traverseEntities]
      rw [mapM_of_forall₂ (pairs.imp fun one other pair => ?_)]
      · rfl
      · simp [pair.1, pair.2]

/-- Values are traversed one entity after the other. -/
theorem traverse_eq_some_iff {visit : ε → Option τ} {result : FieldValue τ} :
    value.traverseEntities visit = some result ↔
      Rel (fun one other => visit one = some other) value result :=
  ⟨Rel.of_traverse, Rel.traverse⟩

theorem mapM_eq_some_iff {visit : ε → Option τ} {ones : List ε} {others : List τ} :
    ones.mapM visit = some others ↔
      List.Forall₂ (fun one other => visit one = some other) ones others :=
  ⟨forall₂_of_mapM, mapM_of_forall₂⟩

theorem Rel.comp {further : τ → ρ → Prop} {last : FieldValue ρ} (first : Rel related value other)
    (second : Rel further other last) :
    Rel (fun one last => ∃ other, related one other ∧ further other last) value last := by
  have list {ones : List ε} {others : List τ} {lasts : List ρ}
      (first : List.Forall₂ related ones others) (second : List.Forall₂ further others lasts) :
      List.Forall₂ (fun one last => ∃ other, related one other ∧ further other last)
        ones lasts := by
    induction first generalizing lasts with
    | nil => cases second; exact .nil
    | cons pair _ inductionHypothesis =>
        cases second with
        | cons pairToo pairs => exact .cons ⟨_, pair, pairToo⟩ (inductionHypothesis pairs)
  cases first with
  | missing => cases second; exact .missing
  | scalar _ => cases second; exact .scalar _
  | entity pair =>
      cases second with
      | entity pairToo => exact .entity ⟨_, pair, pairToo⟩
  | optional pair =>
      cases second with
      | optional pairToo =>
          cases pair with
          | none => cases pairToo; exact .optional .none
          | some pair =>
              cases pairToo with
              | some pairToo => exact .optional (.some ⟨_, pair, pairToo⟩)
  | list pairs =>
      cases second with
      | list pairsToo => exact .list (list pairs pairsToo)
  | map pairs =>
      cases second with
      | @map _ lasts pairsToo =>
          refine .map ?_
          induction pairs generalizing lasts with
          | nil => cases pairsToo; exact .nil
          | cons pair _ inductionHypothesis =>
              cases pairsToo with
              | cons pairToo rest =>
                  exact .cons ⟨pair.1.trans pairToo.1, _, pair.2, pairToo.2⟩
                    (inductionHypothesis rest)

theorem Rel.map_left {wider : ρ → τ → Prop} {change : ε → ρ} (same : Rel related value other)
    (widen : ∀ one other, related one other → wider (change one) other) :
    Rel wider (value.mapEntities change) other :=
  (same.symm.map_right fun other one pair => widen one other pair).symm

end EntityResolver.FieldValue
