import EntityResolver.Proofs.Catalog.Requests
import EntityResolver.Proofs.Run.Reading

/-!
# Fields whose keys are missing

A variant field need not be in every response. A value that stands under a key of its own is then
missing, and nothing is read. An entity that is known by keys of the response itself is different:
its id has to be there, and reading fails at the first key of the id, whether or not the field is
variant.
-/

set_option autoImplicit false

namespace EntityResolver

open Run

section Lacking

variable {path first : String} {others : List String} {field : Field} {response : Json}

theorem IdSpec.lookUp_of_lacking (lacks : response.member? first = none) :
    IdSpec.lookUp path response first = .error (.malformed path (.missingIdKey first)) := by
  rw [IdSpec.lookUp, lacks]

theorem IdSpec.load_of_absent {id : IdSpec} (reads : id.keys = first :: others)
    (lacks : response.member? first = none) :
    id.load path response = .error (.malformed path (.missingIdKey first)) := by
  cases id with
  | elementary key =>
      cases reads
      rw [IdSpec.load, IdSpec.lookUp_of_lacking lacks]
      rfl
  | composite keys =>
      obtain rfl : keys = first :: others := reads
      rw [IdSpec.load, IdSpec.lookUpTexts, IdSpec.lookUp_of_lacking lacks]
      rfl

theorem Run.withKey_of_lacking (lacks : response.member? first = none)
    (load : Json → Run (FieldValue Handle)) :
    withKey path field first response load =
      if field.isVariant then pure .missing
      else throw (.malformed path (.missingKey first field.name)) := by
  rw [withKey, lacks]
  dsimp only
  rw [missingKey]
  split <;> rfl

theorem Run.loadEntity_of_lacking {id : IdSpec} (reads : id.keys = first :: others)
    (lacks : response.member? first = none) (loadField : LoadField) (cls : ClassId)
    (selector : Selector) :
    loadEntity path id loadField cls response selector =
      throw (.malformed path (.missingIdKey first)) := by
  rw [loadEntity, IdSpec.load_of_absent reads lacks]
  rfl

theorem Picker.exists_target {picker : Picker} (fits : picker.fits field.kind = true)
    (identifies : picker.ownIdKeys ≠ []) (path : String) : ∃ cls, field.target path = .ok cls := by
  simp only [Field.target_eq_ok_iff]
  cases picker with
  | scalar _ _ | referenceList _ | referenceMap _ _ | inlineList _ _ | nested _ _ _ _ _ _ _ =>
      exact (identifies rfl).elim
  | reference id | inline id fields =>
      cases kind : field.kind with
      | entity cls | optionalEntity cls => exact ⟨cls, rfl⟩
      | scalar _ | entityList _ | entityMap _ =>
          rw [kind] at fits
          cases fits

/-- Where the response has none of the keys that a picker reads, a variant field is missing if its
value stands under a key, and fails if it is the keys of an id that are missing. A field that is not
variant fails in either case. Nothing else happens. -/
theorem Picker.load_of_lacking {picker : Picker} (fits : picker.fits field.kind = true)
    (reads : picker.ownKeys = first :: others)
    (lacks : ∀ key ∈ picker.ownKeys, response.member? key = none) (sub : Selector) :
    picker.load path field response sub =
      if picker.ownIdKeys = [] then
        if field.isVariant then pure .missing
        else throw (.malformed path (.missingKey first field.name))
      else throw (.malformed path (.missingIdKey first)) := by
  have absent : response.member? first = none := lacks first (by simp [reads])
  cases picker with
  | scalar rule key | referenceList key | referenceMap key flipped
  | nested shape key id fields hasSubfields lifts unique =>
      obtain rfl : key = first := (List.cons.inj reads).1
      exact withKey_of_lacking absent _
  | inlineList id fields => cases reads
  | reference id =>
      have identifies : (reference id).ownIdKeys = first :: others := reads
      have named : (reference id).ownIdKeys ≠ [] := by simp [identifies]
      obtain ⟨cls, refers⟩ := exists_target fits named path
      rw [if_neg named, Picker.load, refers, IdSpec.load_of_absent identifies absent]
      rfl
  | inline id fields =>
      have identifies : (inline id fields).ownIdKeys = first :: others := reads
      have named : (inline id fields).ownIdKeys ≠ [] := by simp [identifies]
      obtain ⟨cls, refers⟩ := exists_target fits named path
      rw [if_neg named, Picker.load, refers]
      change (loadEntity _ _ _ _ _ _ >>= _) = _
      rw [loadEntity_of_lacking identifies absent]
      rfl

end Lacking

namespace Tours

def tour : ClassId := ⟨0⟩

def guide : ClassId := ⟨1⟩

def leader : Field := ⟨"leader", tour, .optionalEntity guide, false, true⟩

def note : Field := ⟨"note", tour, .scalar .string, false, true⟩

def context : RunContext where
  catalog := Catalog.empty ⟨[]⟩
  remote := fun _ _ => .ok .null
  lang := .pl
  roundLimit := 0

def leaderPicker : Picker := .reference (.composite ["guide_id", "term"])

def notePicker : Picker := .scalar .byLang "note"

/-- A tour without a note that says nothing of its guide. -/
def response : Json := .object [("name", .str "Old town")]

/-- The guide is variant and the response has no key of it, and yet it is not missing. -/
theorem leader_not_missing :
    leaderPicker.fits leader.kind = true ∧ leader.isVariant = true ∧
    leaderPicker.ownKeys = ["guide_id", "term"] ∧
    (∀ key ∈ leaderPicker.ownKeys, response.member? key = none) ∧
    ¬ ∃ state, Yields context (leaderPicker.load "tours/tour" leader response .empty)
      { calls := [] } .missing state := by
  refine ⟨rfl, rfl, rfl, by decide, ?_⟩
  rintro ⟨state, done⟩
  cases done

/-- The note is missing. The guide is not, and the error names the first key of the id. -/
theorem load_of_lacking_tour :
    (leaderPicker.fits leader.kind = true ∧ leaderPicker.ownKeys = ["guide_id", "term"] ∧
      (∀ key ∈ leaderPicker.ownKeys, response.member? key = none) ∧
      notePicker.fits note.kind = true ∧ notePicker.ownKeys = ["note"] ∧
      ∀ key ∈ notePicker.ownKeys, response.member? key = none) ∧
    leaderPicker.load "tours/tour" leader response .empty =
      throw (.malformed "tours/tour" (.missingIdKey "guide_id")) ∧
    notePicker.load "tours/tour" note response .empty = pure .missing := by
  have leaderLacks : ∀ key ∈ leaderPicker.ownKeys, response.member? key = none := by decide
  have noteLacks : ∀ key ∈ notePicker.ownKeys, response.member? key = none := by decide
  exact ⟨⟨rfl, rfl, leaderLacks, rfl, rfl, noteLacks⟩,
    Picker.load_of_lacking rfl rfl leaderLacks .empty,
    Picker.load_of_lacking rfl rfl noteLacks .empty⟩

end Tours

end EntityResolver
