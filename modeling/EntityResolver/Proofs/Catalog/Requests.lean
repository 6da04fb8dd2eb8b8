import EntityResolver.Proofs.Catalog.Pickers
import EntityResolver.Proofs.Selector.Asked

/-!
What pickers read of a response, and what they ask for.

Reading a field takes what is found along certain paths of keys. What is read of nested objects is
found below their key, or, where it is lifted, below the key that it is lifted from; a request asks
for these paths. Asking for an id drops what was asked for below its keys, so that all paths are
asked for only if nothing has to be found below a key of an id.
-/

set_option autoImplicit false

namespace EntityResolver

mutual

/-- The picker, and those inside it that read the same object as it does. -/
def Picker.sameObject : Picker → List Picker
  | .inline id fields => .inline id fields :: fields.sameObject
  | picker => [picker]

def FieldPickers.sameObject : FieldPickers → List Picker
  | .none => []
  | .field _ picker rest => picker.sameObject ++ rest.sameObject

end

namespace Picker

/-- The keys of an object that a picker reads, pickers inside it apart. -/
def ownKeys : Picker → List String
  | .scalar _ key | .referenceList key | .referenceMap key _ => [key]
  | .reference id | .inline id _ => id.keys
  | .inlineList _ _ => []
  | .nested _ key _ _ _ lifts _ => key :: lifts.map Prod.fst

/-- The keys among them that hold ids. -/
def ownIdKeys : Picker → List String
  | .reference id | .inline id _ => id.keys
  | _ => []

/-- The keys among them that hold nested objects. -/
def ownNestedKeys : Picker → List String
  | .nested _ key _ _ _ _ _ => [key]
  | _ => []

/-- The keys that hold ids in the object that the picker reads. -/
def idKeys (picker : Picker) : List String :=
  picker.sameObject.flatMap ownIdKeys

def nestedKeys (picker : Picker) : List String :=
  picker.sameObject.flatMap ownNestedKeys

end Picker

namespace FieldPickers

/-- The keys of an object that the pickers read, each as often as it is read. -/
def keys (fields : FieldPickers) : List String :=
  fields.sameObject.flatMap Picker.ownKeys

def idKeys (fields : FieldPickers) : List String :=
  fields.sameObject.flatMap Picker.ownIdKeys

def nestedKeys (fields : FieldPickers) : List String :=
  fields.sameObject.flatMap Picker.ownNestedKeys

end FieldPickers

mutual

/-- The keys whose values are lifted to a key below which something is read. -/
def Picker.liftSources : Picker → List String
  | .inline _ fields => fields.liftSources
  | .nested _ _ _ fields _ lifts _ =>
      (lifts.filter fun lift => lift.2 ∈ fields.nestedKeys ++ fields.liftSources).map Prod.fst
  | _ => []

def FieldPickers.liftSources : FieldPickers → List String
  | .none => []
  | .field _ picker rest => picker.liftSources ++ rest.liftSources

end

/-- The keys of an object below which something is read. -/
def Picker.carriers (picker : Picker) : List String :=
  picker.nestedKeys ++ picker.liftSources

def FieldPickers.carriers (fields : FieldPickers) : List String :=
  fields.nestedKeys ++ fields.liftSources

mutual

/-- Everything is read under keys that are asked for one by one. -/
def Picker.isKeyed : Picker → Bool
  | .inline _ fields => fields.areKeyed
  | .inlineList _ _ => false
  | .nested shape _ _ fields hasSubfields _ _ =>
      shape != .ancestors && hasSubfields && fields.areKeyed
  | _ => true

def FieldPickers.areKeyed : FieldPickers → Bool
  | .none => true
  | .field _ picker rest => picker.isKeyed && rest.areKeyed

end

/-- What is said of the keys of an id, of what is lifted and of the pickers, for one object. -/
abbrev ObjectProperty : Type := List String → List (String × String) → FieldPickers → Prop

def Picker.Nests (good : ObjectProperty) : Picker → Prop
  | .nested _ _ id fields _ lifts _ => good id.keys lifts fields
  | _ => True

def Picker.Throughout (good : ObjectProperty) (picker : Picker) : Prop :=
  ∀ inner ∈ picker.within, inner.Nests good

def FieldPickers.Throughout (good : ObjectProperty) (fields : FieldPickers) : Prop :=
  ∀ inner ∈ fields.within, inner.Nests good

theorem Picker.throughout_iff {good : ObjectProperty} {picker : Picker} :
    picker.Throughout good ↔ picker.Nests good ∧ picker.inside.Throughout good := by
  rw [Picker.Throughout, picker.within_eq, List.forall_mem_cons]
  rfl

theorem FieldPickers.throughout_field_iff {good : ObjectProperty} {name : String} {picker : Picker}
    {rest : FieldPickers} : (FieldPickers.field name picker rest).Throughout good ↔
      picker.Throughout good ∧ rest.Throughout good :=
  List.forall_mem_append

/-- The property holds of the object that the pickers read, and of all nested ones. -/
def FieldPickers.Everywhere (fields : FieldPickers) (good : ObjectProperty) : Prop :=
  good [] [] fields ∧ fields.Throughout good

/-- No key of nested objects is read for anything else. -/
def NestedApart : ObjectProperty :=
  fun ids _ fields => ∀ key ∈ fields.nestedKeys, (ids ++ fields.keys).count key = 1

/-- What is lifted to where more is read is no id, and only one value is lifted there. -/
def LiftedApart : ObjectProperty :=
  fun ids lifts fields => (∀ key ∈ fields.liftSources, key ∉ ids ++ fields.idKeys) ∧
    ∀ key ∈ fields.carriers, (lifts.map Prod.snd).count key ≤ 1

/-- Nothing is read below a key of an id, and only one value is lifted to where more is read. -/
def Separate : ObjectProperty :=
  fun ids lifts fields => (∀ key ∈ fields.carriers, key ∉ ids ++ fields.idKeys) ∧
    ∀ key ∈ fields.carriers, (lifts.map Prod.snd).count key ≤ 1

section

variable {good : ObjectProperty} [∀ ids lifts fields, Decidable (good ids lifts fields)]

instance : (picker : Picker) → Decidable (picker.Nests good)
  | .nested _ _ id fields _ lifts _ => inferInstanceAs (Decidable (good id.keys lifts fields))
  | .scalar _ _ | .reference _ | .referenceList _ | .referenceMap _ _ | .inline _ _
  | .inlineList _ _ => .isTrue trivial

instance (fields : FieldPickers) : Decidable (fields.Everywhere good) :=
  inferInstanceAs (Decidable (_ ∧ ∀ inner ∈ fields.within, _))

end

instance (ids : List String) (lifts : List (String × String)) (fields : FieldPickers) :
    Decidable (NestedApart ids lifts fields) :=
  inferInstanceAs (Decidable (∀ key ∈ fields.nestedKeys, _))

instance (ids : List String) (lifts : List (String × String)) (fields : FieldPickers) :
    Decidable (LiftedApart ids lifts fields) :=
  inferInstanceAs (Decidable ((∀ key ∈ fields.liftSources, _) ∧ ∀ key ∈ fields.carriers, _))

/-- Where a path inside nested objects starts outside them. -/
def outside (key : String) (lifts : List (String × String)) : List String → List String
  | [] => [key]
  | head :: path =>
      match lifts.find? fun lift => lift.2 == head with
      | some lift => lift.1 :: path
      | none => key :: head :: path

mutual

/-- To read a field selected with `sub` takes what the path leads to. -/
def Picker.Needs : Picker → Selector → List String → Prop
  | .scalar _ key, _, path | .referenceList key, _, path | .referenceMap key _, _, path =>
      path = [key]
  | .reference id, _, path => ∃ key ∈ id.keys, path = [key]
  | .inline id fields, sub, path =>
      (∃ entry ∈ sub.resolved, fields.FieldNeeds entry.1 entry.2 path) ∨
        ∃ key ∈ id.keys, path = [key]
  | .inlineList _ _, _, _ => False
  | .nested _ key id fields _ lifts _, sub, path =>
      path = [key] ∨ ∃ inner,
        ((∃ entry ∈ sub.resolved, fields.FieldNeeds entry.1 entry.2 inner) ∨
          ∃ key ∈ id.keys, inner = [key]) ∧ path = outside key lifts inner

/-- To read one field takes what the path leads to. -/
def FieldPickers.FieldNeeds : FieldPickers → String → Selector → List String → Prop
  | .none, _, _, _ => False
  | .field name picker rest, wanted, sub, path =>
      if name = wanted then picker.Needs sub path else rest.FieldNeeds wanted sub path

end

/-- To read the selected fields takes what the path leads to. -/
def FieldPickers.Needs (fields : FieldPickers) (selector : Selector) (path : List String) : Prop :=
  ∃ entry ∈ selector.resolved, fields.FieldNeeds entry.1 entry.2 path

section

variable {id : IdSpec} {fields rest : FieldPickers} {picker : Picker} {name key next : String}
  {path : List String} {sub selector : Selector} {keys : List String}

theorem FieldPickers.mem_carriers_field_iff :
    key ∈ (FieldPickers.field name picker rest).carriers ↔
      key ∈ picker.carriers ∨ key ∈ rest.carriers := by
  simp only [FieldPickers.carriers, Picker.carriers, FieldPickers.nestedKeys, Picker.nestedKeys,
    FieldPickers.sameObject, FieldPickers.liftSources, List.flatMap_append, List.mem_append]
  tauto

@[simp] theorem FieldPickers.idKeys_field :
    (FieldPickers.field name picker rest).idKeys = picker.idKeys ++ rest.idKeys := by
  simp [FieldPickers.idKeys, Picker.idKeys, FieldPickers.sameObject]

@[simp] theorem Picker.carriers_inline : (Picker.inline id fields).carriers = fields.carriers := by
  simp [Picker.carriers, FieldPickers.carriers, FieldPickers.nestedKeys, Picker.nestedKeys,
    Picker.sameObject, Picker.liftSources, Picker.ownNestedKeys]

@[simp] theorem Picker.idKeys_inline :
    (Picker.inline id fields).idKeys = id.keys ++ fields.idKeys := by
  simp [Picker.idKeys, FieldPickers.idKeys, Picker.sameObject, Picker.ownIdKeys]

mutual

theorem Picker.mem_carriers_of_needs : (picker : Picker) → {sub : Selector} → {key next : String} →
    {path : List String} → picker.Needs sub (key :: next :: path) → key ∈ picker.carriers
  | .scalar _ _, _, _, _, _, needs | .referenceList _, _, _, _, _, needs
  | .referenceMap _ _, _, _, _, _, needs => by cases needs
  | .reference _, _, _, _, _, needs => by
      obtain ⟨_, _, same⟩ := needs
      cases same
  | .inlineList _ _, _, _, _, _, needs => needs.elim
  | .inline id fields, _, _, _, _, needs => by
      rw [Picker.carriers_inline]
      rcases needs with ⟨entry, _, needs⟩ | ⟨_, _, same⟩
      · exact fields.mem_carriers_of_needs needs
      · cases same
  | .nested _ key _ fields _ lifts _, _, first, _, _, needs => by
      rcases needs with same | ⟨inner, needs, same⟩
      · cases same
      · cases inner with
        | nil => cases same
        | cons head inner =>
            cases found : lifts.find? fun lift => lift.2 == head with
            | none =>
                simp only [outside, found] at same
                cases same
                simp [Picker.carriers, Picker.nestedKeys, Picker.sameObject, Picker.ownNestedKeys]
            | some lift =>
                simp only [outside, found] at same
                cases same
                have named : lift.2 = head := by simpa using List.find?_some found
                have carried : head ∈ fields.carriers := by
                  rcases needs with ⟨entry, _, needs⟩ | ⟨_, _, same⟩
                  · exact fields.mem_carriers_of_needs needs
                  · cases same
                refine List.mem_append_right _ (List.mem_map.mpr ⟨lift, ?_, rfl⟩)
                refine List.mem_filter.mpr ⟨List.mem_of_find?_eq_some found, ?_⟩
                exact decide_eq_true (named.symm ▸ carried)

theorem FieldPickers.mem_carriers_of_needs : (fields : FieldPickers) → {name : String} →
    {sub : Selector} → {key next : String} → {path : List String} →
    fields.FieldNeeds name sub (key :: next :: path) → key ∈ fields.carriers
  | .none, _, _, _, _, _, needs => needs.elim
  | .field name picker rest, _, _, _, _, _, needs => by
      unfold FieldPickers.FieldNeeds at needs
      rw [FieldPickers.mem_carriers_field_iff]
      split at needs
      · exact .inl (picker.mem_carriers_of_needs needs)
      · exact .inr (rest.mem_carriers_of_needs needs)

end

theorem Picker.spares_of_needs (apart : ∀ key ∈ picker.carriers, key ∉ keys)
    (needs : picker.Needs sub path) : Selector.Spares keys path := by
  match path with
  | [] | [_] => trivial
  | key :: next :: path => exact apart key (picker.mem_carriers_of_needs needs)

theorem FieldPickers.spares_of_needs (apart : ∀ key ∈ fields.carriers, key ∉ keys)
    (needs : fields.FieldNeeds name sub path) : Selector.Spares keys path := by
  match path with
  | [] | [_] => trivial
  | key :: next :: path => exact apart key (fields.mem_carriers_of_needs needs)

/-- A step of a request asks for the paths that are needed, and keeps what was asked for before
except below the given keys. -/
structure Adds (keys : List String) (needs : List String → Prop) (step : Selector → Selector) :
    Prop where
  free {api : Selector} (free : api.RecursionFree) : (step api).RecursionFree
  keeps {api : Selector} {path : List String} (free : api.RecursionFree) (asks : api.Asks path)
    (spares : Selector.Spares keys path) : (step api).Asks path
  asks {api : Selector} {path : List String} (free : api.RecursionFree) (needed : needs path) :
    (step api).Asks path

namespace Adds

variable {needs more : List String → Prop} {step second : Selector → Selector}
  {wider : List String}

theorem mono (adds : Adds keys needs step) (inside : keys ⊆ wider)
    (fewer : ∀ path, more path → needs path) : Adds wider more step where
  free := adds.free
  keeps free asks spares := by
    refine adds.keeps free asks ?_
    rename_i path
    match path with
    | [] | [_] => trivial
    | key :: _ :: _ => exact fun member => spares (inside member)
  asks free needed := adds.asks free (fewer _ needed)

theorem none (keys : List String) : Adds keys (fun _ => False) fun api => api where
  free free := free
  keeps _ asks _ := asks
  asks _ := False.elim

/-- What the first step asks for is kept by the second one if it is not below its keys. -/
theorem andThen (adds : Adds keys needs step) (addsToo : Adds keys more second)
    (spared : ∀ path, needs path → Selector.Spares keys path) :
    Adds keys (fun path => needs path ∨ more path) fun api => second (step api) where
  free free := addsToo.free (adds.free free)
  keeps free asks spares := addsToo.keeps (adds.free free) (adds.keeps free asks spares) spares
  asks free needed := by
    rcases needed with needed | needed
    · exact addsToo.keeps (adds.free free) (adds.asks free needed) (spared _ needed)
    · exact addsToo.asks (adds.free free) needed

theorem addKey (freeSub : sub.RecursionFree) (keys : List String) :
    Adds keys (fun path => ∃ rest, path = key :: rest ∧ sub.Asks rest) fun api =>
      api.addKey key sub where
  free free := free.addKey freeSub
  keeps free asks _ := asks.addKey free freeSub
  asks free needed := by
    obtain ⟨rest, rfl, asks⟩ := needed
    exact Selector.asks_addKey asks free freeSub

theorem insertKey (key : String) :
    Adds [key] (fun path => path = [key]) fun api => api.insert key .empty where
  free free := free.insert trivial
  keeps _ asks spares := asks.insert_empty spares
  asks _ needed := by
    rw [needed]
    exact Selector.asks_insertEntry_iff.mpr (by simp [Selector.Asks])

theorem id_request (id : IdSpec) :
    Adds id.keys (fun path => ∃ key ∈ id.keys, path = [key]) id.request := by
  unfold IdSpec.request
  generalize id.keys = keys
  induction keys with
  | nil =>
      refine (Adds.none []).mono (List.Subset.refl _) fun path needed => ?_
      obtain ⟨_, member, _⟩ := needed
      cases member
  | cons key rest inductionHypothesis =>
      have first : Adds (key :: rest) (fun path => path = [key]) fun api => api.insert key .empty :=
        (insertKey key).mono (by simp) fun _ needed => needed
      have others : Adds (key :: rest) (fun path => ∃ other ∈ rest, path = [other]) _ :=
        inductionHypothesis.mono (List.subset_cons_self key rest) fun _ needed => needed
      refine (first.andThen others fun path single => ?_).mono (List.Subset.refl _) ?_
      · rw [single]
        trivial
      · rintro path ⟨other, member, rfl⟩
        rcases List.mem_cons.mp member with rfl | inRest
        · exact .inl rfl
        · exact .inr ⟨other, inRest, rfl⟩

end Adds

theorem Adds.requestFields {request : String → Selector → Selector → Selector}
    {needs : String → Selector → List String → Prop}
    (adds : ∀ name sub, sub.RecursionFree → Adds keys (needs name sub) (request name sub))
    (spared : ∀ name sub path, needs name sub path → Selector.Spares keys path)
    (free : selector.RecursionFree) :
    Adds keys (fun path => ∃ entry ∈ selector.resolved, needs entry.1 entry.2 path)
      (requestFields request selector) := by
  have nested : ∀ field ∈ selector.entries, ∃ sub, field.2 = .nested sub ∧ sub.RecursionFree :=
    fun _ member => free.of_mem_entries member
  unfold EntityResolver.requestFields Selector.resolved
  generalize selector.entries = entries at nested
  induction entries with
  | nil =>
      refine (Adds.none keys).mono (List.Subset.refl _) fun path needed => ?_
      obtain ⟨_, member, _⟩ := needed
      cases member
  | cons field rest inductionHypothesis =>
      obtain ⟨name, entry⟩ := field
      obtain ⟨sub, rfl, freeSub⟩ := nested (name, entry) List.mem_cons_self
      have others := inductionHypothesis fun field member =>
        nested field (List.mem_cons_of_mem _ member)
      refine ((adds name sub freeSub).andThen others fun path => spared name sub path).mono
        (List.Subset.refl _) ?_
      rintro path ⟨entry, member, needed⟩
      rcases List.mem_cons.mp member with rfl | inRest
      · exact .inl needed
      · exact .inr ⟨entry, inRest, needed⟩

theorem liftRequests_spec {lifts : List (String × String)} {api nested : Selector}
    (free : api.RecursionFree) (freeNested : nested.RecursionFree) :
    (liftRequests lifts api nested).1.RecursionFree ∧
      (liftRequests lifts api nested).2.RecursionFree ∧
      (∀ path, api.Asks path → (liftRequests lifts api nested).1.Asks path) ∧
      ∀ head path, nested.Asks (head :: path) →
        match lifts.find? fun lift => lift.2 == head with
        | some lift => (liftRequests lifts api nested).1.Asks (lift.1 :: path)
        | none => (liftRequests lifts api nested).2.Asks (head :: path) := by
  induction lifts generalizing api nested with
  | nil => exact ⟨free, freeNested, fun _ asks => asks, fun _ _ asks => asks⟩
  | cons lift rest inductionHypothesis =>
      obtain ⟨source, lifted⟩ := lift
      unfold liftRequests
      cases found : nested.entry? lifted with
      | none =>
          obtain ⟨freeOutside, freeInside, keeps, moves⟩ := inductionHypothesis free freeNested
          refine ⟨freeOutside, freeInside, keeps, fun head path asks => ?_⟩
          have differs : lifted ≠ head := by
            rintro rfl
            obtain ⟨_, foundToo, _⟩ := Selector.asks_cons_iff.mp asks
            cases found.symm.trans foundToo
          rw [List.find?_cons_of_neg (by simpa using differs)]
          exact moves head path asks
      | some entry =>
          obtain ⟨sub, rfl, freeSub⟩ := freeNested.of_found found
          obtain ⟨freeOutside, freeInside, keeps, moves⟩ :=
            inductionHypothesis (free.addKey freeSub) (freeNested.erase lifted)
          refine ⟨freeOutside, freeInside, fun path asks => keeps path (asks.addKey free freeSub),
            fun head path asks => ?_⟩
          by_cases same : lifted = head
          · subst same
            obtain ⟨_, foundToo, below⟩ := Selector.asks_cons_iff.mp asks
            cases found.symm.trans foundToo
            rw [List.find?_cons_of_pos (by simp)]
            exact keeps _ (Selector.asks_addKey below free freeSub)
          · rw [List.find?_cons_of_neg (by simpa using same)]
            exact moves head path (asks.erase same)

theorem Adds.entity
    (adds : ∀ name sub, sub.RecursionFree →
      Adds fields.idKeys (fields.FieldNeeds name sub) (fields.requestField name sub))
    (apart : ∀ key ∈ fields.carriers, key ∉ id.keys ++ fields.idKeys) (free : sub.RecursionFree) :
    Adds (id.keys ++ fields.idKeys)
      (fun path => (∃ entry ∈ sub.resolved, fields.FieldNeeds entry.1 entry.2 path) ∨
        ∃ key ∈ id.keys, path = [key])
      fun api => id.request (EntityResolver.requestFields fields.requestField sub api) := by
  have apartFields : ∀ key ∈ fields.carriers, key ∉ fields.idKeys :=
    fun key carried member => apart key carried (List.mem_append_right _ member)
  have inner := Adds.requestFields adds
    (fun name sub path => FieldPickers.spares_of_needs apartFields) free
  refine (inner.mono (List.subset_append_right _ _) fun _ needed => needed).andThen
    ((Adds.id_request id).mono (List.subset_append_left _ _) fun _ needed => needed) ?_
  rintro path ⟨entry, _, needed⟩
  exact FieldPickers.spares_of_needs apart needed

theorem Adds.nested {lifts : List (String × String)} {needs : List String → Prop}
    {entity : Selector → Selector} (adds : Adds keys needs entity) :
    Adds [] (fun path => path = [key] ∨ ∃ inner, needs inner ∧ path = outside key lifts inner)
      fun api => (liftRequests lifts api (entity .empty)).1.addKey key
        (liftRequests lifts api (entity .empty)).2 where
  free free := by
    have freeEntity := adds.free Selector.recursionFree_empty
    obtain ⟨freeOutside, freeInside, _⟩ := liftRequests_spec free freeEntity
    exact freeOutside.addKey freeInside
  keeps free asks _ := by
    have freeEntity := adds.free Selector.recursionFree_empty
    obtain ⟨freeOutside, freeInside, keeps, _⟩ := liftRequests_spec free freeEntity
    exact (keeps _ asks).addKey freeOutside freeInside
  asks free needed := by
    have freeEntity := adds.free Selector.recursionFree_empty
    obtain ⟨freeOutside, freeInside, _, moves⟩ := liftRequests_spec free freeEntity
    rcases needed with rfl | ⟨inner, needed, rfl⟩
    · exact Selector.asks_addKey trivial freeOutside freeInside
    · cases inner with
      | nil => exact Selector.asks_addKey trivial freeOutside freeInside
      | cons head path =>
          have moved := moves head path (adds.asks Selector.recursionFree_empty needed)
          cases found : lifts.find? fun lift => lift.2 == head with
          | none =>
              simp only [outside, found] at moved ⊢
              exact Selector.asks_addKey moved freeOutside freeInside
          | some lift =>
              simp only [outside, found] at moved ⊢
              exact moved.addKey freeOutside freeInside

mutual

theorem Picker.adds_request : (picker : Picker) → (sub : Selector) → picker.isKeyed = true →
    (∀ key ∈ picker.carriers, key ∉ picker.idKeys) → picker.Throughout Separate →
    sub.RecursionFree → Adds picker.idKeys (picker.Needs sub) (picker.request sub)
  | .scalar _ key, _, _, _, _, _ | .referenceList key, _, _, _, _, _
  | .referenceMap key _, _, _, _, _, _ =>
      (Adds.addKey Selector.recursionFree_empty []).mono (List.nil_subset _) fun path needed =>
        ⟨[], needed, trivial⟩
  | .reference id, _, _, _, _, _ =>
      (Adds.id_request id).mono (by simp [Picker.idKeys, Picker.sameObject, Picker.ownIdKeys])
        fun _ needed => needed
  | .inlineList _ _, _, keyed, _, _, _ => by cases keyed
  | .inline id fields, sub, keyed, apart, inside, free => by
      rw [Picker.carriers_inline, Picker.idKeys_inline] at apart
      rw [Picker.idKeys_inline]
      exact Adds.entity
        (fun name sub freeSub => fields.adds_requestField name sub keyed
          (fun key carried member => apart key carried (List.mem_append_right _ member))
          (Picker.throughout_iff.mp inside).2 freeSub) apart free
  | .nested shape key id fields hasSubfields lifts unique, sub, keyed, _, inside, free => by
      simp only [Picker.isKeyed, Bool.and_eq_true] at keyed
      obtain ⟨⟨_, rfl⟩, keyedFields⟩ := keyed
      obtain ⟨⟨apart, _⟩, insideFields⟩ := Picker.throughout_iff.mp inside
      have entity := Adds.entity
        (fun name sub freeSub => fields.adds_requestField name sub keyedFields
          (fun key carried member => apart key carried (List.mem_append_right _ member))
          insideFields freeSub) apart free
      exact entity.nested.mono (List.nil_subset _) fun _ needed => needed

theorem FieldPickers.adds_requestField : (fields : FieldPickers) → (name : String) →
    (sub : Selector) → fields.areKeyed = true → (∀ key ∈ fields.carriers, key ∉ fields.idKeys) →
    fields.Throughout Separate → sub.RecursionFree →
    Adds fields.idKeys (fields.FieldNeeds name sub) (fields.requestField name sub)
  | .none, _, _, _, _, _, _ => Adds.none _
  | .field name picker rest, wanted, sub, keyed, apart, inside, free => by
      simp only [FieldPickers.areKeyed, Bool.and_eq_true] at keyed
      rw [FieldPickers.throughout_field_iff] at inside
      rw [FieldPickers.idKeys_field] at apart ⊢
      by_cases same : name = wanted
      · have needs : (FieldPickers.field name picker rest).FieldNeeds wanted sub =
            picker.Needs sub := by
          funext path
          simp [FieldPickers.FieldNeeds, same]
        have request : (FieldPickers.field name picker rest).requestField wanted sub =
            picker.request sub := by
          funext api
          simp [FieldPickers.requestField, same]
        rw [needs, request]
        refine (picker.adds_request sub keyed.1 (fun key carried member => ?_) inside.1 free).mono
          (List.subset_append_left _ _) fun _ needed => needed
        exact apart key (FieldPickers.mem_carriers_field_iff.mpr (.inl carried))
          (List.mem_append_left _ member)
      · have needs : (FieldPickers.field name picker rest).FieldNeeds wanted sub =
            rest.FieldNeeds wanted sub := by
          funext path
          simp [FieldPickers.FieldNeeds, same]
        have request : (FieldPickers.field name picker rest).requestField wanted sub =
            rest.requestField wanted sub := by
          funext api
          simp [FieldPickers.requestField, same]
        rw [needs, request]
        refine (rest.adds_requestField wanted sub keyed.2 (fun key carried member => ?_) inside.2
          free).mono (List.subset_append_right _ _) fun _ needed => needed
        exact apart key (FieldPickers.mem_carriers_field_iff.mpr (.inr carried))
          (List.mem_append_right _ member)

end

theorem FieldPickers.asks_request (keyed : fields.areKeyed = true)
    (separate : fields.Everywhere Separate) (free : selector.RecursionFree)
    (needed : fields.Needs selector path) : (fields.request selector .empty).Asks path := by
  have apart : ∀ key ∈ fields.carriers, key ∉ fields.idKeys :=
    fun key carried member => separate.1.1 key carried (by simpa using member)
  have adds : Adds fields.idKeys (fields.Needs selector) (fields.request selector) :=
    Adds.requestFields
      (fun name sub freeSub => fields.adds_requestField name sub keyed apart separate.2 freeSub)
      (fun name sub path => FieldPickers.spares_of_needs apart) free
  exact adds.asks Selector.recursionFree_empty needed

theorem FieldPickers.throughout_mp {good other better : ObjectProperty}
    (implies : ∀ {ids lifts fields}, good ids lifts fields → other ids lifts fields →
      better ids lifts fields) (given : fields.Throughout good)
    (givenToo : fields.Throughout other) : fields.Throughout better := by
  intro inner member
  have here := given inner member
  have hereToo := givenToo inner member
  cases inner with
  | nested _ _ _ _ _ _ _ => exact implies here hereToo
  | _ => trivial

/-- A key that holds nested objects, or an id, is among those read, as often as it is so. -/
theorem FieldPickers.count_keys (fields : FieldPickers) (key : String) :
    fields.nestedKeys.count key + fields.idKeys.count key ≤ fields.keys.count key := by
  unfold FieldPickers.nestedKeys FieldPickers.idKeys FieldPickers.keys
  induction fields.sameObject with
  | nil => simp
  | cons picker rest inductionHypothesis =>
      have here : picker.ownNestedKeys.count key + picker.ownIdKeys.count key ≤
          picker.ownKeys.count key := by
        cases picker <;>
          simp [Picker.ownNestedKeys, Picker.ownIdKeys, Picker.ownKeys, List.count_cons]
      simp only [List.flatMap_cons, List.count_append]
      omega

theorem NestedApart.separate {ids : List String} {lifts : List (String × String)}
    (nested : NestedApart ids lifts fields) (lifted : LiftedApart ids lifts fields) :
    Separate ids lifts fields := by
  refine ⟨fun key carried member => ?_, lifted.2⟩
  rcases List.mem_append.mp carried with isNested | isSource
  · have once := nested key isNested
    have counted := fields.count_keys key
    have present := List.count_pos_iff.mpr isNested
    rw [List.count_append] at once
    rcases List.mem_append.mp member with isId | isId
    · have more := List.count_pos_iff.mpr isId
      omega
    · have more := List.count_pos_iff.mpr isId
      omega
  · exact lifted.1 key isSource member

theorem FieldPickers.separate_everywhere (nested : fields.Everywhere NestedApart)
    (lifted : fields.Everywhere LiftedApart) : fields.Everywhere Separate :=
  ⟨nested.1.separate lifted.1,
    FieldPickers.throughout_mp NestedApart.separate nested.2 lifted.2⟩

end

end EntityResolver
