import EntityResolver.Json.Syntax
import EntityResolver.Proofs.Json.Sorted
import EntityResolver.Proofs.NearestDouble
import EntityResolver.Value.Scalar
import Mathlib.Data.List.Forall2

/-!
# Documents that pass through a run as they are

A raw value is a document that was read from a response. The document that shows it is the same one,
up to the integers that do not fit a signed word: each of them is shown as the nearest double.
-/

set_option autoImplicit false

namespace EntityResolver

/-- A document as it is when read: no integer is out of range, no double is infinite, and the
members of an object are sorted. -/
inductive Json.Regular (greatest : Int) : Json → Prop
  | null : Regular greatest .null
  | bool (flag : Bool) : Regular greatest (.bool flag)
  | int {value : Int} (low : Json.leastInt ≤ value) (high : value ≤ greatest) :
      Regular greatest (.int value)
  | float {value : Binary64} (finite : value.isFinite = true) : Regular greatest (.float value)
  | str (text : String) : Regular greatest (.str text)
  | array {items : List Json} (each : ∀ item ∈ items, Regular greatest item) :
      Regular greatest (.array items)
  | object {members : List (String × Json)} (ordered : Json.Ordered members)
      (each : ∀ member ∈ members, Regular greatest member.2) : Regular greatest (.object members)

/-- The documents are the same, up to integers beyond the signed words in the one that are their
nearest doubles in the other. -/
inductive Json.Narrows : Json → Json → Prop
  | null : Narrows .null .null
  | bool (flag : Bool) : Narrows (.bool flag) (.bool flag)
  | int {value : Int} (fits : value ≤ Json.greatestSigned) : Narrows (.int value) (.int value)
  | wide {value : Int} {double : Binary64} (wide : Json.greatestSigned < value)
      (nearest : double.IsNearest value) : Narrows (.int value) (.float double)
  | float (value : Binary64) : Narrows (.float value) (.float value)
  | str (text : String) : Narrows (.str text) (.str text)
  | array {items others : List Json} (each : List.Forall₂ Narrows items others) :
      Narrows (.array items) (.array others)
  | object {members others : List (String × Json)}
      (sameKeys : OrderedMap.keys others = OrderedMap.keys members)
      (each : List.Forall₂ Narrows (OrderedMap.values members) (OrderedMap.values others)) :
      Narrows (.object members) (.object others)

namespace Json

variable {document : Json} {greatest : Int}

theorem sorted_of_regular (regular : document.Regular greatest) : document.sorted = document := by
  induction regular with
  | null | bool _ | int _ _ | str _ => rfl
  | float finite => exact if_pos finite
  | array each inductionHypothesis =>
      rw [sorted, sortedItems_eq_map, List.map_congr_left inductionHypothesis, List.map_id']
  | @object members ordered each inductionHypothesis =>
      have same : sortedMembers members = members := by
        rw [sortedMembers_eq_map]
        refine (List.map_congr_left fun member listed => ?_).trans (List.map_id _)
        exact Prod.ext rfl (inductionHypothesis member listed)
      rw [sorted, same, ofMembers_of_ordered ordered]

theorem regular_ofMembers {members : List (String × Json)}
    (each : ∀ member ∈ members, member.2.Regular greatest) :
    (ofMembers members).Regular greatest := by
  refine .object (ordered_foldl_setMember (show Ordered [] from .nil) members) ?_
  have stored {sorted members : List (String × Json)}
      (old : ∀ member ∈ sorted, member.2.Regular greatest)
      (each : ∀ member ∈ members, member.2.Regular greatest) :
      ∀ member ∈ members.foldl (fun sorted member => setMember member.1 member.2 sorted) sorted,
        member.2.Regular greatest := by
    induction members generalizing sorted with
    | nil => exact old
    | cons member rest inductionHypothesis =>
        obtain ⟨first, others⟩ := List.forall_mem_cons.mp each
        refine inductionHypothesis (fun other listed => ?_) others
        rcases mem_setMember listed with rfl | kept
        · exact first
        · exact old other kept
  exact stored nofun each

namespace Syntax

theorem regular_of_numberValue? {negative whole : Bool} {numeral : Decimal.Numeral}
    (read : numberValue? negative numeral whole = some document) :
    document.Regular greatestInt := by
  unfold numberValue? at read
  dsimp only at read
  generalize (if negative = true then _ else _ : Int) = value at read
  split at read
  · rename_i inRange
    cases read
    simp only [Bool.and_eq_true, decide_eq_true_eq] at inRange
    exact .int inRange.1.2 inRange.2
  · split at read
    · rename_i finite
      cases read
      exact .float finite
    · cases read

mutual

theorem regular_of_value? {levels : Nat} {document : Json} :
    ∀ {written : Json.Syntax}, written.value? levels = some document →
      document.Regular greatestInt
  | .null, read => by cases read; exact .null
  | .bool flag, read => by cases read; exact .bool flag
  | .number _ _ _, read => regular_of_numberValue? read
  | .str _, read => by
      obtain ⟨text, _, rfl⟩ := Option.map_eq_some_iff.mp read
      exact .str text
  | .array items, read => by
      rw [value?] at read
      split at read
      · cases read
      · obtain ⟨values, readItems, rfl⟩ := Option.map_eq_some_iff.mp read
        exact .array (regular_of_valueItems? readItems)
  | .object members, read => by
      rw [value?] at read
      split at read
      · cases read
      · obtain ⟨values, readMembers, rfl⟩ := Option.map_eq_some_iff.mp read
        exact regular_ofMembers (regular_of_valueMembers? readMembers)

theorem regular_of_valueItems? {levels : Nat} {values : List Json} :
    ∀ {items : List Json.Syntax}, valueItems? levels items = some values →
      ∀ value ∈ values, value.Regular greatestInt
  | [], read => by cases read; exact nofun
  | item :: rest, read => by
      obtain ⟨value, readValue, continued⟩ := Option.bind_eq_some_iff.mp read
      obtain ⟨more, readRest, same⟩ := Option.bind_eq_some_iff.mp continued
      cases same
      exact List.forall_mem_cons.mpr
        ⟨regular_of_value? readValue, regular_of_valueItems? readRest⟩

theorem regular_of_valueMembers? {levels : Nat} {values : List (String × Json)} :
    ∀ {members : List (Option String × Json.Syntax)}, valueMembers? levels members = some values →
      ∀ member ∈ values, member.2.Regular greatestInt
  | [], read => by cases read; exact nofun
  | (key, item) :: rest, read => by
      obtain ⟨key, _, continued⟩ := Option.bind_eq_some_iff.mp read
      obtain ⟨value, readValue, continued⟩ := Option.bind_eq_some_iff.mp continued
      obtain ⟨more, readRest, same⟩ := Option.bind_eq_some_iff.mp continued
      cases same
      exact List.forall_mem_cons.mpr
        ⟨regular_of_value? readValue, regular_of_valueMembers? readRest⟩

end

end Syntax

theorem regular_of_parse? {levels : Nat} {text : String}
    (read : parse? levels text = some document) : document.Regular greatestInt := by
  obtain ⟨written, _, meant⟩ := Option.bind_eq_some_iff.mp read
  exact Syntax.regular_of_value? meant

end Json

namespace Scalar

variable {document : Json}

theorem ofItems_eq_map (items : List Json) : ofItems items = items.map ofJson := by
  induction items with
  | nil => rfl
  | cons item rest inductionHypothesis => rw [ofItems, inductionHypothesis, List.map_cons]

theorem ofMembers_eq_map (members : List (String × Json)) :
    ofMembers members = members.map fun (key, value) => (key, ofJson value) := by
  induction members with
  | nil => rfl
  | cons member rest inductionHypothesis => rw [ofMembers, inductionHypothesis, List.map_cons]

theorem documentItems_eq_map (items : List Scalar) :
    documentItems items = items.map Scalar.document := by
  induction items with
  | nil => rfl
  | cons item rest inductionHypothesis => rw [documentItems, inductionHypothesis, List.map_cons]

theorem documentMembers_eq_map (members : List (String × Scalar)) :
    documentMembers members = members.map fun (key, value) => (key, value.document) := by
  induction members with
  | nil => rfl
  | cons member rest inductionHypothesis => rw [documentMembers, inductionHypothesis, List.map_cons]

theorem document_ofJson_array (items : List Json) :
    (ofJson (.array items)).document = .array (items.map fun item => (ofJson item).document) := by
  rw [ofJson, document, ofItems_eq_map, documentItems_eq_map, List.map_map]
  rfl

theorem document_ofJson_object (members : List (String × Json)) :
    (ofJson (.object members)).document =
      .object (members.map fun member => (member.1, (ofJson member.2).document)) := by
  rw [ofJson, document, ofMembers_eq_map, documentMembers_eq_map, List.map_map]
  rfl

/-- An integer that does not fit a signed word has 64 binary digits. -/
theorem isNearest_of_wide {value : Int} (wide : Json.greatestSigned < value)
    (high : value ≤ Json.greatestInt) : (Binary64.ofInt value).IsNearest value := by
  obtain ⟨number, rfl⟩ := Int.eq_ofNat_of_zero_le (le_trans (by decide) wide.le)
  have least : 2 ^ (52 + 11) ≤ number := by
    have : ((2 ^ 63 : ℕ) : Int) - 1 < number := wide
    omega
  have greatest : number < 2 ^ (53 + 11) := by
    have : (number : Int) ≤ ((2 ^ 64 : ℕ) : Int) - 1 := high
    omega
  exact_mod_cast Binary64.isNearest_ofInt least greatest (by decide)

theorem narrows_document (read : document.Regular Json.greatestInt) :
    document.Narrows (ofJson document).document := by
  induction read with
  | null => exact .null
  | bool flag => exact .bool flag
  | int low high =>
      rw [ofJson]
      split
      · rename_i fits
        exact .int fits
      · rename_i wide
        exact .wide (not_le.mp wide) (isNearest_of_wide (not_le.mp wide) high)
  | float finite => exact .float _
  | str text => exact .str text
  | array each inductionHypothesis =>
      rw [document_ofJson_array]
      exact .array (List.forall₂_map_right_iff.mpr (List.forall₂_same.mpr inductionHypothesis))
  | object ordered each inductionHypothesis =>
      rw [document_ofJson_object]
      refine .object (List.map_map ..) ?_
      rw [OrderedMap.values, OrderedMap.values, List.map_map, List.forall₂_map_left_iff,
        List.forall₂_map_right_iff, List.forall₂_same]
      exact inductionHypothesis

theorem regular_document (read : document.Regular Json.greatestInt) :
    (ofJson document).document.Regular Json.greatestSigned := by
  induction read with
  | null => exact .null
  | bool flag => exact .bool flag
  | int low high =>
      rw [ofJson]
      split
      · rename_i fits
        exact .int low fits
      · rename_i wide
        exact .float (isNearest_of_wide (not_le.mp wide) high).finite
  | float finite => exact .float finite
  | str text => exact .str text
  | array each inductionHypothesis =>
      rw [document_ofJson_array]
      exact .array (List.forall_mem_map.mpr inductionHypothesis)
  | object ordered each inductionHypothesis =>
      rw [document_ofJson_object]
      refine .object ?_ (List.forall_mem_map.mpr inductionHypothesis)
      rwa [Json.Ordered, OrderedMap.keys, List.map_map]

theorem document_eq_of_signed (signed : document.Regular Json.greatestSigned) :
    (ofJson document).document = document := by
  induction signed with
  | null | bool _ | float _ | str _ => rfl
  | int low high => rw [ofJson, if_pos high, Scalar.document]
  | array each inductionHypothesis =>
      rw [document_ofJson_array, List.map_congr_left inductionHypothesis, List.map_id']
  | @object members ordered each inductionHypothesis =>
      have same : members.map (fun member => (member.1, (ofJson member.2).document)) = members := by
        refine (List.map_congr_left fun member listed => ?_).trans (List.map_id _)
        exact Prod.ext rfl (inductionHypothesis member listed)
      rw [document_ofJson_object, same]

/-- The document that shows a raw value is the one that was read, in which each integer beyond the
signed words has become the nearest double; storing the members once more changes nothing. -/
theorem document_ofJson (read : document.Regular Json.greatestInt) :
    document.Narrows (ofJson document).document ∧
      (ofJson document).document.sorted = (ofJson document).document ∧
      (document.Regular Json.greatestSigned → (ofJson document).document = document) :=
  ⟨narrows_document read, Json.sorted_of_regular (regular_document read), document_eq_of_signed⟩

/-- Integers at the ends of the signed and the unsigned words and in the middle between two doubles,
beside null, the negative zero and a whole double. -/
def boundaries : Json :=
  .object [("empty", .null),
    ("signed", .array [.int Json.leastInt, .int Json.greatestSigned]),
    ("whole", .object [("three", .float ⟨0x4008000000000000⟩), ("zero", .float (.zero true))]),
    ("wide", .array [.int (Json.greatestSigned + 1), .int (Json.greatestSigned + 1025),
      .int (Json.greatestSigned + 1026), .int Json.greatestInt])]

theorem regular_boundaries : boundaries.Regular Json.greatestInt := by
  refine .object (by unfold Json.Ordered; decide) ?_
  simp only [List.forall_mem_cons, List.not_mem_nil, IsEmpty.forall_iff, implies_true, and_true]
  refine ⟨.null, .array ?_, .object (by unfold Json.Ordered; decide) ?_, .array ?_⟩
  all_goals
    simp only [List.forall_mem_cons, List.not_mem_nil, IsEmpty.forall_iff, implies_true, and_true]
  · exact ⟨.int (by decide) (by decide), .int (by decide) (by decide)⟩
  · exact ⟨.float (by decide), .float (by decide)⟩
  · exact ⟨.int (by decide) (by decide), .int (by decide) (by decide),
      .int (by decide) (by decide), .int (by decide) (by decide)⟩

theorem document_ofJson_boundaries :
    boundaries.Regular Json.greatestInt ∧ boundaries.Narrows (ofJson boundaries).document ∧
      (ofJson boundaries).document.sorted =
        .object [("empty", .null),
          ("signed", .array [.int Json.leastInt, .int Json.greatestSigned]),
          ("whole",
            .object [("three", .float ⟨0x4008000000000000⟩), ("zero", .float (.zero true))]),
          ("wide", .array [.float ⟨0x43e0000000000000⟩, .float ⟨0x43e0000000000000⟩,
            .float ⟨0x43e0000000000001⟩, .float ⟨0x43f0000000000000⟩])] := by
  obtain ⟨narrows, sorted, _⟩ := document_ofJson regular_boundaries
  exact ⟨regular_boundaries, narrows, sorted.trans rfl⟩

end Scalar

end EntityResolver
