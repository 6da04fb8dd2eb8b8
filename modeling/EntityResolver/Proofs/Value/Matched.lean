import EntityResolver.OrderedMap
import Mathlib.Data.List.Forall2

/-!
Maps with the same keys, whose values are related one by one.
-/

set_option autoImplicit false

namespace EntityResolver

/-- Related options are both empty, or hold related values. -/
theorem optionRel_cases {α β : Type} {related : α → β → Prop} {first : Option α} {second : Option β}
    (pair : Option.Rel related first second) : (first = none ∧ second = none) ∨
      ∃ one other, first = some one ∧ second = some other ∧ related one other := by
  cases pair with
  | none => exact .inl ⟨rfl, rfl⟩
  | some pair => exact .inr ⟨_, _, rfl, rfl, pair⟩

namespace OrderedMap

variable {α β : Type} {related : String → α → β → Prop} {ones : OrderedMap α}
    {others : OrderedMap β}
variable {key : String} {one : α} {other : β}

theorem isSome_get?_of_mem (member : (key, one) ∈ ones) :
    (OrderedMap.get? ones key).isSome = true := by
  induction ones with
  | nil => cases member
  | cons first rest inductionHypothesis =>
      obtain ⟨name, value⟩ := first
      rw [OrderedMap.get?_cons]
      split
      · rfl
      · rename_i differs
        rcases List.mem_cons.mp member with same | inRest
        · cases same
          exact absurd rfl differs
        · exact inductionHypothesis inRest

theorem isSome_get?_iff :
    (OrderedMap.get? ones key).isSome = true ↔ key ∈ OrderedMap.keys ones := by
  constructor
  · intro present
    obtain ⟨value, found⟩ := Option.isSome_iff_exists.mp present
    exact List.mem_map.mpr ⟨_, OrderedMap.mem_of_get? found, rfl⟩
  · intro listed
    obtain ⟨entry, member, rfl⟩ := List.mem_map.mp listed
    exact isSome_get?_of_mem member

/-- The maps have the same keys in order, and the values under each key are related. -/
def Matched (related : String → α → β → Prop) (ones : OrderedMap α)
    (others : OrderedMap β) : Prop :=
  List.Forall₂ (fun first second => second.1 = first.1 ∧ related first.1 first.2 second.2) ones others

theorem Matched.mono {wider : String → α → β → Prop} (matched : Matched related ones others)
    (widen : ∀ key one other, related key one other → wider key one other) :
    Matched wider ones others :=
  matched.imp fun _ _ pair => ⟨pair.1, widen _ _ _ pair.2⟩

theorem Matched.get? (matched : Matched related ones others) (key : String) :
    Option.Rel (related key) (OrderedMap.get? ones key) (OrderedMap.get? others key) := by
  induction matched with
  | nil => exact .none
  | @cons first second _ _ pair _ inductionHypothesis =>
      obtain ⟨name, value⟩ := first
      obtain ⟨nameToo, valueToo⟩ := second
      obtain ⟨rfl, found⟩ := pair
      simp only [OrderedMap.get?]
      split
      · rename_i same
        exact .some (same ▸ found)
      · exact inductionHypothesis

theorem Matched.contains_eq (matched : Matched related ones others) (key : String) :
    OrderedMap.contains others key = OrderedMap.contains ones key := by
  unfold OrderedMap.contains
  rcases optionRel_cases (matched.get? key) with ⟨here, there⟩ | ⟨_, _, here, there, _⟩
  all_goals
    rw [here, there]
    rfl

theorem Matched.set (matched : Matched related ones others) (pair : related key one other) :
    Matched related (OrderedMap.set ones key one) (OrderedMap.set others key other) := by
  induction matched with
  | nil => exact .cons ⟨rfl, pair⟩ .nil
  | @cons first second _ _ head tail inductionHypothesis =>
      obtain ⟨name, value⟩ := first
      obtain ⟨nameToo, valueToo⟩ := second
      obtain ⟨rfl, found⟩ := head
      simp only [OrderedMap.set]
      split
      · rename_i same
        exact .cons ⟨rfl, same ▸ pair⟩ tail
      · exact .cons ⟨rfl, found⟩ inductionHypothesis

theorem Matched.ofEntries (matched : Matched related ones others) :
    Matched related (OrderedMap.ofEntries ones) (OrderedMap.ofEntries others) := by
  have extended {built : OrderedMap α} {builtToo : OrderedMap β}
      (start : Matched related built builtToo) :
      Matched related (OrderedMap.extend built ones) (OrderedMap.extend builtToo others) := by
    induction matched generalizing built builtToo with
    | nil => exact start
    | @cons first second _ _ head _ inductionHypothesis =>
        obtain ⟨name, value⟩ := first
        obtain ⟨nameToo, valueToo⟩ := second
        obtain ⟨rfl, found⟩ := head
        exact inductionHypothesis (start.set found)
  exact extended .nil

end OrderedMap

end EntityResolver
