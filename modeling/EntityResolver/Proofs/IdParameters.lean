import EntityResolver.Catalog.Id
import EntityResolver.Proofs.Checked
import EntityResolver.Proofs.PackedId
import Mathlib.Data.List.Forall2

/-!
# Ids that are sent back

The id of an entity is read from a response and sent with a later call. A spec does both: it packs
the texts that stand under its keys, and it unpacks them into the parameters with the same names.
Whatever the texts hold, each key is sent with the text that it had in the response.
-/

set_option autoImplicit false

namespace EntityResolver.IdSpec

variable {path : String} {response : Json} {keys texts : List String} {params : Params}

/-- The texts are those of the values that a response has under the keys. -/
def Texts (response : Json) (keys texts : List String) : Prop :=
  List.Forall₂ (fun key text => ∃ value, response.member? key = some value ∧ text = idText value)
    keys texts

theorem lookUp_of_member {key : String} {value : Json}
    (found : response.member? key = some value) : lookUp path response key = .ok value := by
  rw [lookUp, found]

theorem exists_texts (present : ∀ key ∈ keys, (response.member? key).isSome = true) :
    ∃ texts, lookUpTexts path response keys = .ok texts ∧ Texts response keys texts := by
  induction keys with
  | nil => exact ⟨[], rfl, .nil⟩
  | cons key rest inductionHypothesis =>
      obtain ⟨value, found⟩ := Option.isSome_iff_exists.mp (present key List.mem_cons_self)
      obtain ⟨texts, read, held⟩ := inductionHypothesis fun key member =>
        present key (List.mem_cons_of_mem _ member)
      refine ⟨idText value :: texts, ?_, .cons ⟨value, found, rfl⟩ held⟩
      rw [lookUpTexts, lookUp_of_member found, ok_bind, read, ok_bind]
      rfl

theorem Texts.keys_zip (held : Texts response keys texts) :
    OrderedMap.keys (keys.zip texts) = keys :=
  List.map_fst_zip (Nat.le_of_eq held.length_eq)

/-- Stored under their keys, the texts are found there, also where a key is listed twice. -/
theorem Texts.get?_extend (held : Texts response keys texts) {key : String} (member : key ∈ keys) :
    ∃ value, response.member? key = some value ∧
      (params.extend (keys.zip texts)).get? key = some (idText value) := by
  have listed : key ∈ OrderedMap.keys (keys.zip texts) := held.keys_zip.symm ▸ member
  have texted (entry : String × String) (stored : entry ∈ keys.zip texts) :
      ∃ value, response.member? entry.1 = some value ∧ entry.2 = idText value :=
    List.forall₂_iff_zip.mp held |>.2 stored
  obtain ⟨⟨_, text⟩, stored, rfl⟩ := List.mem_map.mp listed
  obtain ⟨value, found, _⟩ := texted _ stored
  refine ⟨value, found, OrderedMap.get?_extend_of_mem listed fun entry stored same => ?_⟩
  obtain ⟨again, foundAgain, text⟩ := texted entry stored
  rw [same, found] at foundAgain
  cases foundAgain
  exact text

theorem Texts.get?_extend_of_not_mem (held : Texts response keys texts) {name : String}
    (other : name ∉ keys) :
    (params.extend (keys.zip texts)).get? name = params.get? name :=
  OrderedMap.get?_extend_of_not_mem (held.keys_zip.symm ▸ other)

/-- An id that was read from a response is sent back as it stood there: of any parameters, exactly
those named as the keys change, and each has the text of the value that the response holds. -/
theorem setParams_load {spec : IdSpec} (keyed : spec.keys ≠ [])
    (present : ∀ key ∈ spec.keys, (response.member? key).isSome = true)
    (known : ∀ key, spec = .elementary key → response.member? key ≠ some .null) :
    ∃ id, spec.load path response = .ok (some id) ∧
      ∀ params, ∃ sent, spec.setParams params id = .ok sent ∧
        (∀ key ∈ spec.keys, ∃ value, response.member? key = some value ∧
          sent.get? key = some (idText value)) ∧
        ∀ name, name ∉ spec.keys → sent.get? name = params.get? name := by
  cases spec with
  | elementary key =>
      obtain ⟨value, found⟩ := Option.isSome_iff_exists.mp (present key List.mem_cons_self)
      have filled : value.isNull = false := by
        cases value with
        | null => exact absurd found (known key rfl)
        | _ => rfl
      refine ⟨idText value, ?_, fun params => ⟨_, rfl, fun name member => ?_, fun name other => ?_⟩⟩
      · rw [load, lookUp_of_member found, ok_bind, filled]
        rfl
      · obtain rfl := List.mem_singleton.mp member
        exact ⟨value, found, by rw [OrderedMap.get?_set, if_pos rfl]⟩
      · rw [OrderedMap.get?_set, if_neg fun same => other (List.mem_singleton.mpr same.symm)]
  | composite keys =>
      obtain ⟨texts, read, held⟩ : ∃ texts, lookUpTexts path response keys = .ok texts ∧
        Texts response keys texts := exists_texts present
      have some_text : texts ≠ [] := by
        rintro rfl
        exact keyed (List.forall₂_nil_right_iff.mp held)
      have unpacked : unpackId (PackedId.pack texts) (some keys.length) = .ok texts := by
        rw [held.length_eq]
        exact PackedId.unpackId_pack some_text
      refine ⟨PackedId.pack texts, ?_, fun params => ⟨params.extend (keys.zip texts), ?_,
        fun key member => held.get?_extend member, fun name other =>
          held.get?_extend_of_not_mem other⟩⟩
      · rw [load, read, ok_bind]
        rfl
      · rw [setParams, unpacked, ok_bind]
        rfl

/-- A separator and an escape inside a part, and a null among several keys. -/
theorem setParams_load_escaped :
    let spec : IdSpec := .composite ["course_id", "term_id"]
    let response : Json := .object [("course_id", .str "a|b\\"), ("term_id", .null)]
    let sent : Params := [("term_id", "null"), ("format", "json"), ("course_id", "a|b\\")]
    (spec.keys ≠ [] ∧ (∀ key ∈ spec.keys, (response.member? key).isSome = true) ∧
      ∀ key, spec = .elementary key → response.member? key ≠ some .null) ∧
    spec.load "" response = .ok (some "a\\|b\\\\|null") ∧
    spec.setParams [("term_id", "d"), ("format", "json")] "a\\|b\\\\|null" = .ok sent ∧
    ∃ id, spec.load "" response = .ok (some id) ∧
      ∀ params, ∃ sent, spec.setParams params id = .ok sent ∧
        (∀ key ∈ spec.keys, ∃ value, response.member? key = some value ∧
          sent.get? key = some (idText value)) ∧
        ∀ name, name ∉ spec.keys → sent.get? name = params.get? name := by
  intro spec response sent
  have keyed : spec.keys ≠ [] := by decide
  have present : ∀ key ∈ spec.keys, (response.member? key).isSome = true := by decide
  have known : ∀ key, spec = .elementary key → response.member? key ≠ some .null := nofun
  have unpacked : unpackId "a\\|b\\\\|null" (some 2) = .ok ["a|b\\", "null"] := by cbv
  have sends :
      spec.setParams [("term_id", "d"), ("format", "json")] "a\\|b\\\\|null" = .ok sent := by
    dsimp only [spec, setParams]
    rw [List.length_cons, List.length_singleton, unpacked]
    rfl
  exact ⟨⟨keyed, present, known⟩, by cbv, sends, setParams_load keyed present known⟩

end EntityResolver.IdSpec
