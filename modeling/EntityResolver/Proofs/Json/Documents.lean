import EntityResolver.Json.Basic
import Mathlib.Data.List.Basic

/-!
Documents inside documents.
-/

set_option autoImplicit false

namespace EntityResolver.Json

variable {item value inner : Json} {items : List Json} {members : List (String × Json)}
variable {response : Json} {key : String}

theorem mem_documents (document : Json) : document ∈ document.documents := by
  cases document <;> simp [documents]

theorem sublist_itemDocuments (listed : item ∈ items) :
    item.documents.Sublist (itemDocuments items) := by
  induction items with
  | nil => cases listed
  | cons first rest inductionHypothesis =>
      rcases List.mem_cons.mp listed with rfl | later
      · exact List.sublist_append_left _ _
      · exact (inductionHypothesis later).trans (List.sublist_append_right _ _)

theorem sublist_memberDocuments (found : OrderedMap.get? members key = some value) :
    value.documents.Sublist (memberDocuments members) := by
  induction members with
  | nil => cases found
  | cons member rest inductionHypothesis =>
      rw [OrderedMap.get?_cons] at found
      split at found
      · cases found
        exact List.sublist_append_left _ _
      · exact (inductionHypothesis found).trans (List.sublist_append_right _ _)

/-- The documents inside an item of a list are among those inside the list, which is one more. -/
theorem documents_item (listed : item ∈ items) :
    item.documents ⊆ (array items).documents ∧
      item.documents.length < (array items).documents.length :=
  have sublist := sublist_itemDocuments listed
  ⟨List.Subset.trans sublist.subset (List.subset_cons_self _ _),
    Nat.lt_succ_of_le sublist.length_le⟩

theorem documents_member (found : response.member? key = some value) :
    value.documents ⊆ response.documents ∧ value.documents.length < response.documents.length := by
  cases response with
  | object members =>
      have sublist := sublist_memberDocuments found
      exact ⟨List.Subset.trans sublist.subset (List.subset_cons_self _ _),
        Nat.lt_succ_of_le sublist.length_le⟩
  | _ => cases found

mutual

theorem documents_subset : (outer : Json) → inner ∈ outer.documents →
    inner.documents ⊆ outer.documents
  | .array items, inside => by
      rcases List.mem_cons.mp inside with rfl | inside
      · exact List.Subset.refl _
      · exact List.Subset.trans (itemDocuments_subset items inside) (List.subset_cons_self _ _)
  | .object members, inside => by
      rcases List.mem_cons.mp inside with rfl | inside
      · exact List.Subset.refl _
      · exact List.Subset.trans (memberDocuments_subset members inside) (List.subset_cons_self _ _)
  | .null, inside | .bool _, inside | .int _, inside | .float _, inside | .str _, inside => by
      cases List.mem_singleton.mp inside
      exact List.Subset.refl _

theorem itemDocuments_subset : (items : List Json) → inner ∈ itemDocuments items →
    inner.documents ⊆ itemDocuments items
  | item :: rest, inside => by
      rcases List.mem_append.mp inside with inside | inside
      · exact List.Subset.trans (documents_subset item inside) (List.subset_append_left _ _)
      · exact List.Subset.trans (itemDocuments_subset rest inside) (List.subset_append_right _ _)

theorem memberDocuments_subset : (members : List (String × Json)) →
    inner ∈ memberDocuments members → inner.documents ⊆ memberDocuments members
  | (_, value) :: rest, inside => by
      rcases List.mem_append.mp inside with inside | inside
      · exact List.Subset.trans (documents_subset value inside) (List.subset_append_left _ _)
      · exact List.Subset.trans (memberDocuments_subset rest inside) (List.subset_append_right _ _)

end

end EntityResolver.Json
