/-!
Maps with text keys that remember the order in which their keys first came.

A map is the list of its entries. Writing a key that is already there keeps its place and changes
its value; a new key goes to the end.
-/

set_option autoImplicit false

namespace EntityResolver

universe u v

/-- A map from texts, in order of first insertion. -/
abbrev OrderedMap (α : Type u) : Type u := List (String × α)

namespace OrderedMap

variable {α : Type u} {β : Type v}

def get? : OrderedMap α → String → Option α
  | [], _ => none
  | (name, value) :: rest, key => if name = key then some value else get? rest key

def contains (entries : OrderedMap α) (key : String) : Bool :=
  (get? entries key).isSome

/-- Stores a value: in the key's place if it has one, at the end otherwise. -/
def set : OrderedMap α → String → α → OrderedMap α
  | [], key, value => [(key, value)]
  | (name, old) :: rest, key, value =>
      if name = key then (name, value) :: rest else (name, old) :: set rest key value

/-- Removes a key and closes the gap. -/
def erase : OrderedMap α → String → OrderedMap α
  | [], _ => []
  | (name, value) :: rest, key => if name = key then rest else (name, value) :: erase rest key

def keys (entries : OrderedMap α) : List String :=
  entries.map Prod.fst

def values (entries : OrderedMap α) : List α :=
  entries.map Prod.snd

def extend (entries more : OrderedMap α) : OrderedMap α :=
  more.foldl (fun built entry => set built entry.1 entry.2) entries

/-- The map that results from storing the given entries in order. -/
def ofEntries (entries : List (String × α)) : OrderedMap α :=
  extend [] entries

/-- No key is stored twice. Every operation keeps this. -/
def Distinct (entries : OrderedMap α) : Prop :=
  (keys entries).Nodup

@[simp] theorem get?_nil (key : String) : get? ([] : OrderedMap α) key = none := rfl

theorem get?_cons (name key : String) (value : α) (rest : OrderedMap α) :
    get? ((name, value) :: rest) key = if name = key then some value else get? rest key := rfl

theorem get?_set (entries : OrderedMap α) (key other : String) (value : α) :
    get? (set entries key value) other =
      if key = other then some value else get? entries other := by
  induction entries with
  | nil => rfl
  | cons entry rest inductionHypothesis =>
      obtain ⟨name, old⟩ := entry
      by_cases same : name = key
      · subst same
        by_cases hit : name = other <;> simp [set, get?, hit]
      · by_cases hit : name = other
        · subst hit
          simp [set, get?, same, Ne.symm same]
        · simp [set, get?, same, hit, inductionHypothesis]

/-- What a map holds after a key is stored was there before or is what was stored. -/
theorem mem_set {entries : OrderedMap α} {key : String} {value : α} {entry : String × α}
    (member : entry ∈ set entries key value) : entry = (key, value) ∨ entry ∈ entries := by
  induction entries with
  | nil => exact .inl (by simpa [set] using member)
  | cons first rest inductionHypothesis =>
      obtain ⟨name, old⟩ := first
      simp only [set] at member
      split at member
      · rename_i same
        subst same
        rcases List.mem_cons.mp member with new | inRest
        · exact .inl new
        · exact .inr (by simp [inRest])
      · rcases List.mem_cons.mp member with kept | inRest
        · exact .inr (by simp [kept])
        · rcases inductionHypothesis inRest with new | old
          · exact .inl new
          · exact .inr (by simp [old])

theorem set_of_not_mem {entries : OrderedMap α} {key : String} (fresh : key ∉ keys entries)
    (value : α) : set entries key value = entries ++ [(key, value)] := by
  induction entries with
  | nil => rfl
  | cons first rest inductionHypothesis =>
      obtain ⟨name, old⟩ := first
      simp only [keys, List.map_cons, List.mem_cons, not_or] at fresh
      rw [set, if_neg fun same => fresh.1 same.symm, inductionHypothesis fresh.2]
      rfl

theorem mem_of_get? {entries : OrderedMap α} {key : String} {value : α}
    (found : get? entries key = some value) : (key, value) ∈ entries := by
  induction entries with
  | nil => cases found
  | cons first rest inductionHypothesis =>
      obtain ⟨name, stored⟩ := first
      rw [get?_cons] at found
      split at found
      · cases found
        simp_all
      · exact List.mem_cons_of_mem _ (inductionHypothesis found)

/-- In a map that stores no key twice, an entry is what is found under its key. -/
theorem get?_eq_some_iff {entries : OrderedMap α} {key : String} {value : α}
    (distinct : Distinct entries) : get? entries key = some value ↔ (key, value) ∈ entries := by
  refine ⟨mem_of_get?, fun member => ?_⟩
  induction entries with
  | nil => cases member
  | cons first rest inductionHypothesis =>
      obtain ⟨fresh, distinct⟩ := List.nodup_cons.mp distinct
      rw [get?_cons]
      rcases List.mem_cons.mp member with rfl | inRest
      · exact if_pos rfl
      · rw [if_neg fun same => fresh (List.mem_map.mpr ⟨_, inRest, same.symm⟩)]
        exact inductionHypothesis distinct inRest

theorem mem_extend {entries more : OrderedMap α} {entry : String × α}
    (member : entry ∈ extend entries more) : entry ∈ more ∨ entry ∈ entries := by
  induction more generalizing entries with
  | nil => exact .inr member
  | cons first rest inductionHypothesis =>
      rcases inductionHypothesis member with inRest | stored
      · exact .inl (List.mem_cons_of_mem _ inRest)
      · rcases mem_set stored with same | old
        · exact .inl (same ▸ List.mem_cons_self)
        · exact .inr old

theorem get?_extend_of_not_mem {entries more : OrderedMap α} {key : String}
    (absent : key ∉ keys more) : get? (extend entries more) key = get? entries key := by
  induction more generalizing entries with
  | nil => rfl
  | cons first rest inductionHypothesis =>
      simp only [keys, List.map_cons, List.mem_cons, not_or] at absent
      refine (inductionHypothesis absent.2).trans ?_
      rw [get?_set, if_neg (Ne.symm absent.1)]

theorem get?_extend_of_mem {entries more : OrderedMap α} {key : String} {value : α}
    (member : key ∈ keys more) (only : ∀ entry ∈ more, entry.1 = key → entry.2 = value) :
    get? (extend entries more) key = some value := by
  induction more generalizing entries with
  | nil => cases member
  | cons first rest inductionHypothesis =>
      by_cases later : key ∈ keys rest
      · exact inductionHypothesis later fun entry inRest =>
          only entry (List.mem_cons_of_mem _ inRest)
      · have here : first.1 = key := (List.mem_cons.mp member).resolve_right later |>.symm
        refine (get?_extend_of_not_mem later).trans ?_
        rw [get?_set, if_pos here, only first List.mem_cons_self here]

/-- The entries of a map are among those that it was built from. -/
theorem mem_ofEntries {entries : List (String × α)} {entry : String × α}
    (member : entry ∈ ofEntries entries) : entry ∈ entries :=
  (mem_extend member).resolve_right (List.not_mem_nil)

end OrderedMap

end EntityResolver
