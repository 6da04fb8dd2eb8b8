import EntityResolver.Proofs.Evaluation.Basic
import EntityResolver.Proofs.Run.Steady

/-!
What plain pickers do to a run: they read keys of entities and spawn an entity for each of them.
-/

set_option autoImplicit false

namespace EntityResolver

theorem Picker.isDirect_of_isPlain {picker : Picker} (plain : picker.isPlain = true) :
    picker.isDirect = true := by
  cases picker with
  | scalar _ _ | reference _ | referenceList _ | referenceMap _ _ => rfl
  | inline _ _ | inlineList _ _ | nested _ _ _ _ _ _ _ => cases plain

theorem FieldPickers.areDirect_of_arePlain :
    ∀ {fields : FieldPickers}, fields.arePlain = true → fields.areDirect = true
  | .none, _ => rfl
  | .field _ _ _, plain => by
      obtain ⟨first, others⟩ := Bool.and_eq_true_iff.mp plain
      apply Bool.and_eq_true_iff.mpr
      exact ⟨Picker.isDirect_of_isPlain first, areDirect_of_arePlain others⟩

namespace Run

variable {context : RunContext} {before after : RunState} {sub : Selector}

def spawnKey (sub : Selector) (key : EntityKey) : Run Handle :=
  spawn key.1 key.2 sub [] false

theorem spawnAll_eq (cls : ClassId) (sub : Selector) (ids : List String) :
    spawnAll cls sub ids = (ids.map fun id => (cls, id)).mapM (spawnKey sub) := by
  induction ids with
  | nil => rfl
  | cons id rest inductionHypothesis =>
      rw [List.map_cons, List.mapM_cons, ← inductionHypothesis]
      rfl

theorem spawnMap_eq (cls : ClassId) (sub : Selector) {built : OrderedMap Handle}
    {entries : List (String × String)}
    (distinct : (OrderedMap.keys built ++ entries.map Prod.fst).Nodup) :
    spawnMap cls sub built entries = (do
      let more ← (entries.map fun (name, id) => (name, (cls, id))).mapM fun (name, key) => do
        return (name, ← spawnKey sub key)
      return built ++ more) := by
  induction entries generalizing built with
  | nil => simp [spawnMap]
  | cons entry rest inductionHypothesis =>
      obtain ⟨name, id⟩ := entry
      have fresh : name ∉ OrderedMap.keys built := by
        intro known
        exact (List.nodup_append.mp distinct).2.2 name known name (by simp) rfl
      have distinctRest (entity : Handle) :
          (OrderedMap.keys (built ++ [(name, entity)]) ++ rest.map Prod.fst).Nodup := by
        simpa [OrderedMap.keys] using distinct
      have step (entity : Handle) := inductionHypothesis (distinctRest entity)
      simp only [spawnMap, OrderedMap.set_of_not_mem fresh, step, List.map_cons, List.mapM_cons,
        spawnKey, bind_assoc, pure_bind, List.append_assoc, List.singleton_append]

theorem map_spawnMap (cls : ClassId) (sub : Selector) {members : OrderedMap Json}
    (distinct : members.Distinct) :
    (do return .map (← spawnMap cls sub [] (members.map fun (name, id) => (name, idText id)))) =
      FieldValue.traverseEntities (spawnKey sub)
        (.map (members.map fun (name, id) => (name, (cls, idText id)))) := by
  have names : (OrderedMap.keys ([] : OrderedMap Handle) ++
      (members.map fun (name, id) => (name, idText id)).map Prod.fst).Nodup := by
    simpa [OrderedMap.keys, OrderedMap.Distinct, Function.comp_def] using distinct
  rw [spawnMap_eq cls sub names]
  simp only [FieldValue.traverseEntities, List.map_map, List.nil_append, bind_pure]
  rfl

theorem yields_withKey_iff {path key : String} {field : Field} {response : Json}
    {value : FieldValue Handle} {load : Json → Run (FieldValue Handle)}
    {read : Json → Option (FieldValue EntityKey)}
    (each : ∀ stored, response.member? key = some stored →
      (Yields context (load stored) before value after ↔ ∃ keys, read stored = some keys ∧
        Yields context (keys.traverseEntities (spawnKey sub)) before value after)) :
    Yields context (withKey path field key response load) before value after ↔
      ∃ keys, readUnder field (response.member? key) read = some keys ∧
        Yields context (keys.traverseEntities (spawnKey sub)) before value after := by
  unfold withKey readUnder
  cases found : response.member? key with
  | some stored => exact each stored found
  | none =>
      simp only [missingKey]
      split
      · constructor
        · intro done
          exact ⟨.missing, rfl, done⟩
        · rintro ⟨keys, same, done⟩
          cases same
          exact done
      · simp

end Run

open Run

variable {context : RunContext} {before after : RunState} {sub : Selector}

/-- The objects under the keys of a response have distinct keys. -/
def Json.IsProper (response : Json) : Prop :=
  ∀ key inner, response.member? key = some (.object inner) → OrderedMap.Distinct inner

theorem IdSpec.load_elementary_iff {path key : String} {response : Json} {id? : Option String} :
    (IdSpec.elementary key).load path response = .ok id? ↔
      ∃ value, response.member? key = some value ∧
        id? = if value.isNull then none else some (idText value) := by
  simp only [IdSpec.load, IdSpec.lookUp]
  cases response.member? key with
  | none => simp [bind, Except.bind]
  | some value =>
      simp only [bind, Except.bind, pure, Except.pure, Except.ok.injEq, Option.some.injEq]
      constructor
      · rintro rfl
        exact ⟨value, rfl, rfl⟩
      · rintro ⟨_, rfl, rfl⟩
        rfl

theorem traverse_oneEntity_none (field : Field) (visit : EntityKey → Run Handle) :
    (oneEntity field none).traverseEntities visit = pure (oneEntity field none) := by
  unfold oneEntity
  cases field.kind <;> rfl

theorem traverse_oneEntity_some (field : Field) (visit : EntityKey → Run Handle)
    (key : EntityKey) : (oneEntity field (some key)).traverseEntities visit = (do
      return oneEntity field (some (← visit key))) := by
  unfold oneEntity
  cases field.kind <;> rfl

section Picking

variable {path key : String} {field : Field} {response : Json} {value : FieldValue Handle}

theorem Picker.yields_scalar_iff {rule : ScalarRule} :
    Yields context ((Picker.scalar rule key).load path field response sub) before value after ↔
      ∃ keys, (Picker.scalar rule key).read? context.lang field response = some keys ∧
        Yields context (keys.traverseEntities (spawnKey sub)) before value after := by
  refine yields_withKey_iff fun stored _ => ?_
  simp only [yields_bind_iff, yields_read_iff]
  cases outcome : rule.apply context.lang stored with
  | ok scalar =>
      constructor
      · rintro ⟨_, _, ⟨rfl, rfl⟩, done⟩
        rw [outcome] at done
        exact ⟨.scalar scalar, rfl, done⟩
      · rintro ⟨keys, same, done⟩
        cases same
        exact ⟨_, _, ⟨rfl, rfl⟩, by rw [outcome]; exact done⟩
  | error wanted =>
      constructor
      · rintro ⟨_, _, ⟨rfl, rfl⟩, done⟩
        rw [outcome] at done
        exact absurd done not_yields_throw
      · rintro ⟨keys, same, done⟩
        cases same

theorem Picker.yields_reference_iff :
    Yields context ((Picker.reference (.elementary key)).load path field response sub)
        before value after ↔
      ∃ keys, (Picker.reference (.elementary key)).read? context.lang field response = some keys ∧
        Yields context (keys.traverseEntities (spawnKey sub)) before value after := by
  simp only [Picker.load, yields_ofExcept_bind_iff, Field.target_eq_ok_iff,
    IdSpec.load_elementary_iff, Picker.read?, Option.bind_eq_bind, Option.bind_eq_some_iff,
    Option.pure_def, Option.some.injEq]
  constructor
  · rintro ⟨cls, target, id?, ⟨stored, found, rfl⟩, done⟩
    refine ⟨_, ⟨cls, target, stored, found, rfl⟩, ?_⟩
    by_cases isNull : stored.isNull
    · rw [if_pos isNull] at done ⊢
      rw [traverse_oneEntity_none]
      exact done
    · rw [if_neg isNull] at done ⊢
      rw [traverse_oneEntity_some]
      exact done
  · rintro ⟨_, ⟨cls, target, stored, found, rfl⟩, done⟩
    refine ⟨cls, target, _, ⟨stored, found, rfl⟩, ?_⟩
    by_cases isNull : stored.isNull
    · rw [if_pos isNull, traverse_oneEntity_none] at done
      rw [if_pos isNull]
      exact done
    · rw [if_neg isNull, traverse_oneEntity_some] at done
      rw [if_neg isNull]
      exact done

theorem Picker.yields_referenceList_iff :
    Yields context ((Picker.referenceList key).load path field response sub) before value after ↔
      ∃ keys, (Picker.referenceList key).read? context.lang field response = some keys ∧
        Yields context (keys.traverseEntities (spawnKey sub)) before value after := by
  refine yields_withKey_iff fun stored _ => ?_
  simp only [yields_ofExcept_bind_iff, Field.target_eq_ok_iff, spawnAll_eq, List.map_map,
    Option.bind_eq_bind, Option.bind_eq_some_iff]
  constructor
  · rintro ⟨cls, target, items, found, done⟩
    refine ⟨.list (items.map fun id => (cls, idText id)), ⟨cls, target, ?_⟩, done⟩
    cases stored with
    | null | array _ => cases found; rfl
    | bool _ | int _ | float _ | str _ | object _ => cases found
  · rintro ⟨keys, ⟨cls, target, read⟩, done⟩
    cases stored with
    | null | array _ =>
        cases read
        exact ⟨cls, target, _, rfl, done⟩
    | bool _ | int _ | float _ | str _ | object _ => cases read

theorem Picker.yields_referenceMap_iff (proper : response.IsProper) :
    Yields context ((Picker.referenceMap key false).load path field response sub)
        before value after ↔
      ∃ keys, (Picker.referenceMap key false).read? context.lang field response = some keys ∧
        Yields context (keys.traverseEntities (spawnKey sub)) before value after := by
  refine yields_withKey_iff fun stored known => ?_
  simp only [yields_ofExcept_bind_iff, Field.target_eq_ok_iff, Option.bind_eq_bind,
    Option.bind_eq_some_iff, Bool.false_eq_true, if_false]
  constructor
  · rintro ⟨cls, target, members, found, done⟩
    refine ⟨.map (members.map fun (name, id) => (name, (cls, idText id))), ⟨cls, target, ?_⟩, ?_⟩
    · cases stored with
      | null | object _ => cases found; rfl
      | bool _ | int _ | float _ | str _ | array _ => cases found
    · rw [← map_spawnMap]
      · exact done
      · cases stored with
        | null => cases found; exact .nil
        | object _ => cases found; exact proper _ _ known
        | bool _ | int _ | float _ | str _ | array _ => cases found
  · rintro ⟨keys, ⟨cls, target, read⟩, done⟩
    cases stored with
    | null =>
        cases read
        exact ⟨cls, target, [], rfl, done⟩
    | object members =>
        cases read
        refine ⟨cls, target, members, rfl, ?_⟩
        rw [← map_spawnMap cls sub (proper _ _ known)] at done
        exact done
    | bool _ | int _ | float _ | str _ | array _ => cases read

theorem Picker.yields_load_iff {picker : Picker} (plain : picker.isPlain = true)
    (proper : response.IsProper) :
    Yields context (picker.load path field response sub) before value after ↔
      ∃ keys, picker.read? context.lang field response = some keys ∧
        Yields context (keys.traverseEntities (spawnKey sub)) before value after := by
  cases picker with
  | scalar _ _ => exact yields_scalar_iff
  | reference id =>
      cases id with
      | elementary _ => exact yields_reference_iff
      | composite _ => cases plain
  | referenceList _ => exact yields_referenceList_iff
  | referenceMap _ flipped =>
      cases flipped with
      | false => exact yields_referenceMap_iff proper
      | true => cases plain
  | inline _ _ | inlineList _ _ | nested _ _ _ _ _ _ _ => cases plain

end Picking

end EntityResolver
