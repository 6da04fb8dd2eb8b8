import EntityResolver.Json.Basic
import Mathlib.Data.String.Basic

/-!
Documents whose members are sorted.

Of several members with one key the last one is kept, under that key and in its place among the
others, so that no key is left twice. A document that was read is sorted already.
-/

set_option autoImplicit false

namespace EntityResolver.Json

/-- The members stand in the order of their keys, and no key occurs twice. -/
def Ordered (members : List (String × Json)) : Prop :=
  (OrderedMap.keys members).Pairwise (· < ·)

variable {members sorted : List (String × Json)} {key other : String} {value : Json}

theorem sortedItems_eq_map (items : List Json) : sortedItems items = items.map Json.sorted := by
  induction items with
  | nil => rfl
  | cons item rest inductionHypothesis => rw [sortedItems, inductionHypothesis, List.map_cons]

theorem sortedMembers_eq_map (members : List (String × Json)) :
    sortedMembers members = members.map fun (key, value) => (key, value.sorted) := by
  induction members with
  | nil => rfl
  | cons member rest inductionHypothesis => rw [sortedMembers, inductionHypothesis, List.map_cons]

theorem get?_setMember (key : String) (value : Json) (members : List (String × Json))
    (other : String) :
    OrderedMap.get? (setMember key value members) other =
      if key = other then some value else OrderedMap.get? members other := by
  induction members with
  | nil => rfl
  | cons member rest inductionHypothesis =>
      obtain ⟨name, old⟩ := member
      rw [setMember]
      split
      · rename_i same
        subst same
        simp only [OrderedMap.get?_cons]
        split <;> rfl
      · split
        · rfl
        · rename_i differs _
          rw [OrderedMap.get?_cons, OrderedMap.get?_cons, inductionHypothesis]
          by_cases same : name = other
          · subst same
            rw [if_pos rfl, if_pos rfl, if_neg (Ne.symm differs)]
          · rw [if_neg same, if_neg same]

theorem mem_setMember {member : String × Json} (listed : member ∈ setMember key value members) :
    member = (key, value) ∨ member ∈ members := by
  induction members with
  | nil => exact .inl (List.mem_singleton.mp listed)
  | cons first rest inductionHypothesis =>
      obtain ⟨name, old⟩ := first
      rw [setMember] at listed
      split at listed
      · exact (List.mem_cons.mp listed).imp_right (List.mem_cons_of_mem _)
      · split at listed
        · exact List.mem_cons.mp listed
        · rcases List.mem_cons.mp listed with rfl | inRest
          · exact .inr List.mem_cons_self
          · exact (inductionHypothesis inRest).imp_right (List.mem_cons_of_mem _)

theorem mem_keys_setMember (listed : other ∈ OrderedMap.keys (setMember key value members)) :
    other = key ∨ other ∈ OrderedMap.keys members := by
  obtain ⟨member, stored, rfl⟩ := List.mem_map.mp listed
  rcases mem_setMember stored with rfl | kept
  · exact .inl rfl
  · exact .inr (List.mem_map_of_mem kept)

theorem Ordered.setMember (ordered : Ordered members) (key : String) (value : Json) :
    Ordered (setMember key value members) := by
  induction members with
  | nil => exact List.pairwise_singleton _ _
  | cons member rest inductionHypothesis =>
      obtain ⟨name, old⟩ := member
      obtain ⟨below, behind⟩ := List.pairwise_cons.mp ordered
      rw [Json.setMember]
      split
      · rename_i same
        subst same
        exact ordered
      · split
        · rename_i before
          refine List.pairwise_cons.mpr ⟨fun other listed => ?_, ordered⟩
          rcases List.mem_cons.mp listed with rfl | inRest
          · exact before
          · exact before.trans (below other inRest)
        · rename_i differs notBefore
          refine List.pairwise_cons.mpr ⟨fun other listed => ?_, inductionHypothesis behind⟩
          rcases mem_keys_setMember listed with rfl | inRest
          · exact lt_of_le_of_ne (not_lt.mp notBefore) differs
          · exact below other inRest

/-- A member whose key comes after all others goes to the end. -/
theorem setMember_of_lt (after : ∀ name ∈ OrderedMap.keys members, name < key) :
    setMember key value members = members ++ [(key, value)] := by
  induction members with
  | nil => rfl
  | cons member rest inductionHypothesis =>
      obtain ⟨name, old⟩ := member
      have before : name < key := after name List.mem_cons_self
      rw [setMember, if_neg before.ne, if_neg before.asymm,
        inductionHypothesis fun name listed => after name (List.mem_cons_of_mem _ listed)]
      rfl

theorem get?_foldl_setMember (distinct : OrderedMap.Distinct members) :
    OrderedMap.get? (members.foldl (fun sorted member => setMember member.1 member.2 sorted) sorted)
        key =
      (OrderedMap.get? members key).or (OrderedMap.get? sorted key) := by
  induction members generalizing sorted with
  | nil => rfl
  | cons member rest inductionHypothesis =>
      obtain ⟨name, stored⟩ := member
      obtain ⟨fresh, distinct⟩ := List.nodup_cons.mp distinct
      rw [List.foldl_cons, inductionHypothesis distinct, get?_setMember, OrderedMap.get?_cons]
      by_cases same : name = key
      · subst same
        have absent : OrderedMap.get? rest name = none := by
          rw [Option.eq_none_iff_forall_ne_some]
          exact fun other found => fresh (List.mem_map.mpr ⟨_, OrderedMap.mem_of_get? found, rfl⟩)
        simp [absent]
      · simp [same]

theorem exists_ofMembers (distinct : OrderedMap.Distinct members) :
    ∃ sorted, ofMembers members = .object sorted ∧
      ∀ key, OrderedMap.get? sorted key = OrderedMap.get? members key :=
  ⟨_, rfl, fun _ => (get?_foldl_setMember distinct).trans (Option.or_none ..)⟩

theorem ordered_foldl_setMember (ordered : Ordered sorted) (members : List (String × Json)) :
    Ordered (members.foldl (fun sorted member => setMember member.1 member.2 sorted) sorted) := by
  induction members generalizing sorted with
  | nil => exact ordered
  | cons member rest inductionHypothesis => exact inductionHypothesis (ordered.setMember _ _)

theorem ofMembers_of_ordered (ordered : Ordered members) : ofMembers members = .object members := by
  have stored {sorted members : List (String × Json)} (ordered : Ordered (sorted ++ members)) :
      members.foldl (fun sorted member => setMember member.1 member.2 sorted) sorted =
        sorted ++ members := by
    induction members generalizing sorted with
    | nil => exact (List.append_nil _).symm
    | cons member rest inductionHypothesis =>
        have apart := ordered
        rw [Ordered, OrderedMap.keys, List.map_append, List.pairwise_append] at apart
        have after : ∀ name ∈ OrderedMap.keys sorted, name < member.1 :=
          fun name listed => apart.2.2 name listed member.1 List.mem_cons_self
        rw [List.append_cons] at ordered ⊢
        rw [List.foldl_cons, setMember_of_lt after, inductionHypothesis ordered]
  exact congrArg Json.object (stored ordered)

end EntityResolver.Json
