import EntityResolver.Proofs.Coverage
import EntityResolver.Proofs.Run.Candidates
import EntityResolver.Proofs.Selector.Overlays
import EntityResolver.Run.Candidacy

/-!
What a request asks for does not depend on the order of the fields, as long as no field drops what
another one asks for.

Asking for an id puts its keys anew and drops what was asked for below them; all else only adds to
the request. For fields none of which drops what another one asks for, the paths of keys that a
request asks for are those of its fields, one by one, and equal selectors ask for the same paths.
-/

set_option autoImplicit false

namespace EntityResolver

mutual

/-- The keys below which a request for the picker may drop what was asked for. -/
def Picker.clearedKeys : Picker → List String
  | .reference id => id.keys
  | .inline id fields | .inlineList id fields => id.keys ++ fields.clearedKeys
  | _ => []

def FieldPickers.clearedKeys : FieldPickers → List String
  | .none => []
  | .field _ picker rest => picker.clearedKeys ++ rest.clearedKeys

end

mutual

/-- The keys below which a request for the picker may ask for more. -/
def Picker.deepKeys : Picker → List String
  | .inline id fields | .inlineList id fields =>
      fields.deepKeys.filter fun key => key ∉ id.keys
  | .nested _ key id fields hasSubfields lifts _ =>
      (if hasSubfields then [key] else []) ++
        (lifts.filter fun lift => lift.2 ∈ fields.deepKeys ∧ lift.2 ∉ id.keys).map Prod.fst
  | _ => []

def FieldPickers.deepKeys : FieldPickers → List String
  | .none => []
  | .field _ picker rest => picker.deepKeys ++ rest.deepKeys

end

/-- Neither picker drops what a request for the other one asks for. -/
def Picker.Apart (first second : Picker) : Prop :=
  (∀ key ∈ first.clearedKeys, key ∉ second.deepKeys) ∧
    ∀ key ∈ second.clearedKeys, key ∉ first.deepKeys

/-- At every object, no field drops what another field asks for. -/
def FieldPickers.Independent (fields : FieldPickers) : Prop :=
  ∀ object ∈ fields :: fields.within.map Picker.inside, object.toList.Pairwise Picker.Apart

instance (first second : Picker) : Decidable (first.Apart second) :=
  inferInstanceAs (Decidable ((∀ key ∈ first.clearedKeys, _) ∧ ∀ key ∈ second.clearedKeys, _))

instance (fields : FieldPickers) : Decidable fields.Independent :=
  inferInstanceAs (Decidable (∀ object ∈ fields :: fields.within.map Picker.inside, _))

namespace FieldPickers

variable {fields : FieldPickers} {name other key : String} {picker : Picker}

/-- The keys below which a request for the field may drop what was asked for. -/
def clearedAt (fields : FieldPickers) (name : String) : List String :=
  ((fields.find? name).map Picker.clearedKeys).getD []

/-- The keys below which a request for the field may ask for more. -/
def deepAt (fields : FieldPickers) (name : String) : List String :=
  ((fields.find? name).map Picker.deepKeys).getD []

section Field

variable (rest : FieldPickers) (sub : Selector)

theorem field_here (same : other = name) :
    (FieldPickers.field other picker rest).requestField name sub = picker.request sub ∧
      (FieldPickers.field other picker rest).clearedAt name = picker.clearedKeys ∧
      (FieldPickers.field other picker rest).deepAt name = picker.deepKeys := by
  refine ⟨funext fun api => ?_, ?_, ?_⟩
  · simp [requestField, same]
  · simp [clearedAt, find?, same]
  · simp [deepAt, find?, same]

theorem field_behind (differs : other ≠ name) :
    (FieldPickers.field other picker rest).requestField name sub = rest.requestField name sub ∧
      (FieldPickers.field other picker rest).clearedAt name = rest.clearedAt name ∧
      (FieldPickers.field other picker rest).deepAt name = rest.deepAt name := by
  refine ⟨funext fun api => ?_, ?_, ?_⟩
  · simp [requestField, differs]
  · simp [clearedAt, find?, differs]
  · simp [deepAt, find?, differs]

end Field

theorem clearedKeys_eq (fields : FieldPickers) :
    fields.clearedKeys = fields.toList.flatMap Picker.clearedKeys := by
  induction fields using FieldPickers.names.induct with
  | case1 => rfl
  | case2 _ picker rest inductionHypothesis =>
      exact congrArg (picker.clearedKeys ++ ·) inductionHypothesis

theorem deepKeys_eq (fields : FieldPickers) :
    fields.deepKeys = fields.toList.flatMap Picker.deepKeys := by
  induction fields using FieldPickers.names.induct with
  | case1 => rfl
  | case2 _ picker rest inductionHypothesis =>
      exact congrArg (picker.deepKeys ++ ·) inductionHypothesis

theorem exists_of_mem_clearedAt (cleared : key ∈ fields.clearedAt name) :
    ∃ picker ∈ fields.toList, key ∈ picker.clearedKeys := by
  unfold clearedAt at cleared
  cases found : fields.find? name with
  | none => simp [found] at cleared
  | some picker => exact ⟨picker, mem_toList found, by simpa [found] using cleared⟩

theorem exists_of_mem_deepAt (deep : key ∈ fields.deepAt name) :
    ∃ picker ∈ fields.toList, key ∈ picker.deepKeys := by
  unfold deepAt at deep
  cases found : fields.find? name with
  | none => simp [found] at deep
  | some picker => exact ⟨picker, mem_toList found, by simpa [found] using deep⟩

theorem clearedAt_subset (fields : FieldPickers) (name : String) :
    fields.clearedAt name ⊆ fields.clearedKeys := by
  rw [fields.clearedKeys_eq]
  exact fun _ cleared => List.mem_flatMap.mpr (exists_of_mem_clearedAt cleared)

theorem deepAt_subset (fields : FieldPickers) (name : String) :
    fields.deepAt name ⊆ fields.deepKeys := by
  rw [fields.deepKeys_eq]
  exact fun _ deep => List.mem_flatMap.mpr (exists_of_mem_deepAt deep)

theorem independent_field_iff {rest : FieldPickers} :
    (FieldPickers.field name picker rest).Independent ↔
      picker.inside.Independent ∧ rest.Independent ∧
        ∀ other ∈ rest.toList, picker.Apart other := by
  simp only [Independent, toList, within, picker.within_eq, List.map_append, List.map_cons,
    List.cons_append, List.forall_mem_cons, List.forall_mem_append, List.pairwise_cons]
  tauto

theorem not_mem_clearedAt (independent : fields.Independent) (differs : name ≠ other)
    (deep : key ∈ fields.deepAt name) : key ∉ fields.clearedAt other := by
  induction fields using FieldPickers.names.induct with
  | case1 => cases deep
  | case2 first picker rest inductionHypothesis =>
      obtain ⟨_, behind, apart⟩ := independent_field_iff.mp independent
      intro cleared
      by_cases here : first = name
      · rw [(field_here rest .empty here).2.2] at deep
        rw [(field_behind rest .empty fun there => differs (here.symm.trans there)).2.1] at cleared
        obtain ⟨_, member, cleared⟩ := exists_of_mem_clearedAt cleared
        exact (apart _ member).2 key cleared deep
      · rw [(field_behind rest .empty here).2.2] at deep
        by_cases there : first = other
        · rw [(field_here rest .empty there).2.1] at cleared
          obtain ⟨_, member, deep⟩ := exists_of_mem_deepAt deep
          exact (apart _ member).1 key cleared deep
        · rw [(field_behind rest .empty there).2.1] at cleared
          exact inductionHypothesis behind deep cleared

end FieldPickers

section Lifts

variable {lifts : List (String × String)} {api other nested inner : Selector} {key : String}
  {path : List String}

theorem liftRequests_tree (tree : api.IsTree) (treeNested : nested.IsTree) :
    (liftRequests lifts api nested).1.IsTree ∧ (liftRequests lifts api nested).2.IsTree := by
  induction lifts generalizing api nested with
  | nil => exact ⟨tree, treeNested⟩
  | cons lift rest inductionHypothesis =>
      unfold liftRequests
      cases found : nested.entry? lift.2 with
      | none => exact inductionHypothesis tree treeNested
      | some entry =>
          obtain ⟨sub, rfl, treeSub⟩ := treeNested.exists_of_found found
          exact inductionHypothesis (tree.addKey _ treeSub) (treeNested.erase lift.2)

/-- What is lifted is put to what was asked for, and what stays inside does not depend on that. -/
theorem asks_liftRequests_iff (lifts : List (String × String)) (path : List String)
    (tree : api.IsTree) (treeNested : nested.IsTree) :
    ((liftRequests lifts api nested).1.Asks path ↔
      api.Asks path ∨ (liftRequests lifts .empty nested).1.Asks path) ∧
      (liftRequests lifts api nested).2 = (liftRequests lifts .empty nested).2 := by
  induction lifts generalizing api nested with
  | nil =>
      refine ⟨?_, rfl⟩
      simp only [liftRequests, Selector.asks_empty_iff]
      cases path <;> simp [Selector.Asks]
  | cons lift rest inductionHypothesis =>
      unfold liftRequests
      cases found : nested.entry? lift.2 with
      | none => exact inductionHypothesis tree treeNested
      | some entry =>
          obtain ⟨sub, rfl, treeSub⟩ := treeNested.exists_of_found found
          have treeErased := treeNested.erase lift.2
          obtain ⟨asks, same⟩ := inductionHypothesis (tree.addKey lift.1 treeSub) treeErased
          obtain ⟨asksToo, sameToo⟩ := inductionHypothesis
            (Selector.isTree_empty.addKey lift.1 treeSub) treeErased
          refine ⟨?_, same.trans sameToo.symm⟩
          simp only [Selector.Entry.detached]
          rw [asks, asksToo, Selector.asks_addKey_iff tree.free treeSub,
            Selector.asks_addKey_iff Selector.recursionFree_empty treeSub, Selector.asks_empty_iff]
          cases path with
          | nil => simp [Selector.Asks]
          | cons head path => simp only [reduceCtorEq, false_or, or_assoc]

theorem exists_lift_of_asks (treeNested : nested.IsTree)
    (asks : (liftRequests lifts .empty nested).1.Asks (key :: path)) :
    ∃ lift ∈ lifts, lift.1 = key ∧ nested.Asks (lift.2 :: path) := by
  induction lifts generalizing nested with
  | nil => cases asks.1
  | cons lift rest inductionHypothesis =>
      unfold liftRequests at asks
      cases found : nested.entry? lift.2 with
      | none =>
          rw [found] at asks
          obtain ⟨other, member, same, inside⟩ := inductionHypothesis treeNested asks
          exact ⟨other, List.mem_cons_of_mem _ member, same, inside⟩
      | some entry =>
          obtain ⟨sub, rfl, treeSub⟩ := treeNested.exists_of_found found
          rw [found] at asks
          have treeErased := treeNested.erase lift.2
          have treeOutside := Selector.isTree_empty.addKey lift.1 treeSub
          rcases (asks_liftRequests_iff rest _ treeOutside treeErased).1.mp asks with asks | asks
          · rw [Selector.asks_addKey_iff Selector.recursionFree_empty treeSub] at asks
            rcases asks with asks | ⟨_, same, below⟩
            · cases asks.1
            · cases same
              exact ⟨lift, List.mem_cons_self, rfl, Selector.asks_cons_iff.mpr ⟨_, found, below⟩⟩
          · obtain ⟨other, member, same, inside⟩ := inductionHypothesis treeErased asks
            exact ⟨other, List.mem_cons_of_mem _ member, same,
              ((Selector.asks_erase_iff treeNested.distinct).mp inside).2⟩

theorem agrees_liftRequests (lifts : List (String × String)) (tree : api.IsTree)
    (treeToo : other.IsTree) (treeNested : nested.IsTree) (treeInner : inner.IsTree)
    (agrees : api.Agrees other) (agreesToo : nested.Agrees inner) :
    (liftRequests lifts api nested).1.Agrees (liftRequests lifts other inner).1 ∧
      (liftRequests lifts api nested).2.Agrees (liftRequests lifts other inner).2 := by
  induction lifts generalizing api other nested inner with
  | nil => exact ⟨agrees, agreesToo⟩
  | cons lift rest inductionHypothesis =>
      have below (path : List String) := agreesToo (lift.2 :: path)
      simp only [Selector.asks_cons_iff] at below
      have erased : (nested.erase lift.2).Agrees (inner.erase lift.2) := by
        intro path
        cases path with
        | nil => simp [Selector.Asks]
        | cons key path =>
            rw [Selector.asks_erase_iff treeNested.distinct,
              Selector.asks_erase_iff treeInner.distinct, agreesToo]
      unfold liftRequests
      cases found : nested.entry? lift.2 with
      | none =>
          cases foundToo : inner.entry? lift.2 with
          | none => exact inductionHypothesis tree treeToo treeNested treeInner agrees agreesToo
          | some entry =>
              have some := (below []).mpr ⟨entry, foundToo, trivial⟩
              simp [found] at some
      | some entry =>
          cases foundToo : inner.entry? lift.2 with
          | none =>
              have some := (below []).mp ⟨entry, found, trivial⟩
              simp [foundToo] at some
          | some entryToo =>
              obtain ⟨sub, rfl, treeSub⟩ := treeNested.exists_of_found found
              obtain ⟨subToo, rfl, treeSubToo⟩ := treeInner.exists_of_found foundToo
              refine inductionHypothesis (tree.addKey _ treeSub) (treeToo.addKey _ treeSubToo)
                (treeNested.erase _) (treeInner.erase _) (fun path => ?_) erased
              have within (path : List String) : sub.Asks path ↔ subToo.Asks path := by
                simpa [found, foundToo, Selector.Entry.detached] using below path
              simp only [Selector.Entry.detached]
              rw [Selector.asks_addKey_iff tree.free treeSub,
                Selector.asks_addKey_iff treeToo.free treeSubToo, agrees]
              simp only [within]

end Lifts

section Pickers

variable {id : IdSpec} {fields : FieldPickers} {sub other : Selector} {name key next : String}
  {path : List String}

def requestEntity (id : IdSpec) (fields : FieldPickers) (sub api : Selector) : Selector :=
  id.request (requestFields fields.requestField sub api)

theorem overlays_requestEntity (id : IdSpec)
    (overlays : ∀ name sub, sub.IsTree →
      ∃ cleared ⊆ fields.clearedAt name, Overlays cleared (fields.requestField name sub))
    (tree : sub.IsTree) :
    ∃ cleared ⊆ id.keys ++ fields.clearedKeys, Overlays cleared (requestEntity id fields sub) := by
  obtain ⟨cleared, bounded, inner⟩ := Overlays.requestFields overlays tree
  refine ⟨cleared ++ id.keys, List.append_subset.mpr ⟨fun key member => ?_, ?_⟩,
    inner.andThen (.id_request id)⟩
  · obtain ⟨entry, _, dropped⟩ := List.mem_flatMap.mp (bounded member)
    exact List.mem_append_right _ (fields.clearedAt_subset entry.1 dropped)
  · exact List.subset_append_left _ _

/-- The request for nested objects, with what is asked for inside them. -/
def requestNested (key : String) (hasSubfields : Bool) (lifts : List (String × String))
    (nested api : Selector) : Selector :=
  (liftRequests lifts api nested).1.addKey key
    (if hasSubfields then (liftRequests lifts api nested).2 else .empty)

section Nested

variable {lifts : List (String × String)} {nested inner api : Selector} {hasSubfields : Bool}

theorem tree_inside (treeApi : api.IsTree) (tree : nested.IsTree) :
    Selector.IsTree (if hasSubfields then (liftRequests lifts api nested).2 else .empty) := by
  split
  · exact (liftRequests_tree treeApi tree).2
  · exact Selector.isTree_empty

theorem asks_requestNested_iff (treeApi : api.IsTree) (tree : nested.IsTree) :
    (requestNested key hasSubfields lifts nested api).Asks path ↔
      (liftRequests lifts api nested).1.Asks path ∨ ∃ rest, path = key :: rest ∧
        (if hasSubfields then (liftRequests lifts api nested).2 else .empty).Asks rest :=
  Selector.asks_addKey_iff (liftRequests_tree treeApi tree).1.free (tree_inside treeApi tree)

theorem overlays_requestNested (key : String) (hasSubfields : Bool)
    (lifts : List (String × String)) (tree : nested.IsTree) :
    Overlays [] (requestNested key hasSubfields lifts nested) where
  tree treeApi := (liftRequests_tree treeApi tree).1.addKey key (tree_inside treeApi tree)
  asks_iff treeApi path := by
    obtain ⟨asks, same⟩ := asks_liftRequests_iff lifts path treeApi tree
    rw [asks_requestNested_iff treeApi tree,
      asks_requestNested_iff Selector.isTree_empty tree, same, asks]
    simp only [Selector.spares_nil, and_true, or_assoc]

theorem mem_of_asks_requestNested (tree : nested.IsTree)
    (asks : (requestNested key hasSubfields lifts nested .empty).Asks (name :: next :: path)) :
    (hasSubfields = true ∧ name = key) ∨
      ∃ lift ∈ lifts, lift.1 = name ∧ nested.Asks (lift.2 :: next :: path) := by
  rcases (asks_requestNested_iff Selector.isTree_empty tree).mp asks with asks | ⟨_, same, asks⟩
  · exact .inr (exists_lift_of_asks tree asks)
  · cases same
    cases hasSubfields with
    | true => exact .inl ⟨rfl, rfl⟩
    | false => cases asks.1

theorem agrees_requestNested (tree : nested.IsTree) (treeInner : inner.IsTree)
    (agrees : nested.Agrees inner) :
    (requestNested key hasSubfields lifts nested .empty).Agrees
      (requestNested key hasSubfields lifts inner .empty) := by
  obtain ⟨outside, inside⟩ := agrees_liftRequests lifts Selector.isTree_empty
    Selector.isTree_empty tree treeInner (fun _ => Iff.rfl) agrees
  intro path
  rw [asks_requestNested_iff Selector.isTree_empty tree,
    asks_requestNested_iff Selector.isTree_empty treeInner, outside]
  refine or_congr_right (exists_congr fun rest => and_congr_right fun _ => ?_)
  split
  · exact inside rest
  · exact Iff.rfl

end Nested

mutual

/-- A request for a picker drops nothing but what goes on below certain keys. -/
theorem Picker.overlays_request : (picker : Picker) → {sub : Selector} → sub.IsTree →
    ∃ cleared ⊆ picker.clearedKeys, Overlays cleared (picker.request sub)
  | .scalar _ key, _, _ | .referenceList key, _, _ | .referenceMap key _, _, _ =>
      ⟨[], List.nil_subset _, .addKey key Selector.isTree_empty⟩
  | .reference id, _, _ => ⟨id.keys, List.Subset.refl _, .id_request id⟩
  | .inline id fields, sub, tree | .inlineList id fields, sub, tree =>
      overlays_requestEntity id (fun name _ => fields.overlays_requestField name) tree
  | .nested _ key id fields hasSubfields lifts _, sub, tree => by
      obtain ⟨_, _, entity⟩ := overlays_requestEntity id
        (fun name _ => fields.overlays_requestField name) tree
      exact ⟨[], List.nil_subset _,
        overlays_requestNested key hasSubfields lifts (entity.tree Selector.isTree_empty)⟩

theorem FieldPickers.overlays_requestField : (fields : FieldPickers) → (name : String) →
    {sub : Selector} → sub.IsTree →
    ∃ cleared ⊆ fields.clearedAt name, Overlays cleared (fields.requestField name sub)
  | .none, _, _, _ => ⟨[], List.nil_subset _, .same⟩
  | .field other picker rest, name, sub, tree => by
      by_cases same : other = name
      · obtain ⟨request, keys, _⟩ := FieldPickers.field_here rest sub same
        rw [request, keys]
        exact picker.overlays_request tree
      · obtain ⟨request, keys, _⟩ := FieldPickers.field_behind rest sub same
        rw [request, keys]
        exact rest.overlays_requestField name tree

end

theorem tree_requestEntity (tree : sub.IsTree) : (requestEntity id fields sub .empty).IsTree := by
  obtain ⟨_, _, entity⟩ := overlays_requestEntity id
    (fun name _ => fields.overlays_requestField name) tree
  exact entity.tree Selector.isTree_empty

theorem asks_requestEntity_iff (tree : sub.IsTree) :
    (requestEntity id fields sub .empty).Asks path ↔
      (requestFields fields.requestField sub .empty).Asks path ∧ Selector.Spares id.keys path ∨
        (id.request .empty).Asks path := by
  obtain ⟨_, _, inner⟩ := Overlays.requestFields
    (fun name _ => fields.overlays_requestField name) tree
  exact (Overlays.id_request id).asks_iff (inner.tree Selector.isTree_empty) path

theorem not_asks_id_request : ¬ (id.request .empty).Asks (key :: next :: path) := by
  have kept (keys : List String) {api : Selector}
      (asks : (keys.foldl (fun api key => api.insert key .empty) api).Asks (key :: next :: path)) :
      api.Asks (key :: next :: path) := by
    induction keys generalizing api with
    | nil => exact asks
    | cons first rest inductionHypothesis =>
        rcases Selector.asks_insert_empty_iff.mp (inductionHypothesis asks) with ⟨asks, _⟩ | same
        · exact asks
        · cases same
  exact fun asks => nomatch Selector.asks_empty_iff.mp (kept id.keys asks)

theorem mem_deepKeys_of_requestEntity
    (deep : ∀ {name sub}, sub.IsTree →
      (fields.requestField name sub .empty).Asks (key :: next :: path) → key ∈ fields.deepAt name)
    (tree : sub.IsTree) (asks : (requestEntity id fields sub .empty).Asks (key :: next :: path)) :
    key ∈ fields.deepKeys ∧ key ∉ id.keys := by
  rcases (asks_requestEntity_iff tree).mp asks with ⟨asks, spares⟩ | asks
  · refine ⟨?_, spares⟩
    rcases exists_of_asks_requestFields (fun name _ => fields.overlays_requestField name) tree asks
      with same | ⟨entry, member, asks⟩
    · cases same
    · exact fields.deepAt_subset entry.1 (deep (tree.of_resolved member) asks)
  · exact (not_asks_id_request asks).elim

mutual

theorem Picker.mem_deepKeys : (picker : Picker) → {sub : Selector} → sub.IsTree →
    {key next : String} → {path : List String} →
    (picker.request sub .empty).Asks (key :: next :: path) → key ∈ picker.deepKeys
  | .scalar _ own, _, _, _, _, _, asks | .referenceList own, _, _, _, _, _, asks
  | .referenceMap own _, _, _, _, _, _, asks => by
      rcases (Selector.asks_addKey_iff Selector.recursionFree_empty Selector.isTree_empty).mp asks
        with asks | ⟨_, same, asks⟩
      · cases asks.1
      · cases same
        cases asks.1
  | .reference id, _, _, _, _, _, asks => (not_asks_id_request asks).elim
  | .inline id fields, sub, tree, _, _, _, asks
  | .inlineList id fields, sub, tree, _, _, _, asks => by
      obtain ⟨deep, noId⟩ :=
        mem_deepKeys_of_requestEntity (fun tree asks => fields.mem_deepAt _ tree asks) tree asks
      exact List.mem_filter.mpr ⟨deep, decide_eq_true noId⟩
  | .nested _ own id fields hasSubfields lifts _, sub, tree, _, _, _, asks => by
      rcases mem_of_asks_requestNested (tree_requestEntity tree) asks
        with ⟨rfl, rfl⟩ | ⟨lift, member, rfl, inside⟩
      · exact List.mem_append_left _ List.mem_cons_self
      · have deep := mem_deepKeys_of_requestEntity
          (fun tree asks => fields.mem_deepAt _ tree asks) tree inside
        exact List.mem_append_right _ (List.mem_map_of_mem
          (List.mem_filter.mpr ⟨member, decide_eq_true deep⟩))

theorem FieldPickers.mem_deepAt : (fields : FieldPickers) → (name : String) → {sub : Selector} →
    sub.IsTree → {key next : String} → {path : List String} →
    (fields.requestField name sub .empty).Asks (key :: next :: path) → key ∈ fields.deepAt name
  | .none, _, _, _, _, _, _, asks => by cases asks.1
  | .field other picker rest, name, sub, tree, _, _, _, asks => by
      by_cases same : other = name
      · obtain ⟨request, _, keys⟩ := FieldPickers.field_here rest sub same
        rw [request] at asks
        rw [keys]
        exact picker.mem_deepKeys tree asks
      · obtain ⟨request, _, keys⟩ := FieldPickers.field_behind rest sub same
        rw [request] at asks
        rw [keys]
        exact rest.mem_deepAt name tree asks

end

theorem spares_clearedAt (independent : fields.Independent) (differs : name ≠ key)
    (tree : sub.IsTree) (asks : (fields.requestField name sub .empty).Asks path) :
    Selector.Spares (fields.clearedAt key) path := by
  match path with
  | [] | [_] => trivial
  | _ :: _ :: _ =>
      exact FieldPickers.not_mem_clearedAt independent differs (fields.mem_deepAt name tree asks)

/-- All fields of an entity are asked for, whatever their order. -/
theorem asks_requestFields_iff (independent : fields.Independent) (tree : sub.IsTree) :
    (requestFields fields.requestField sub .empty).Asks path ↔ path = [] ∨
      ∃ entry ∈ sub.resolved, (fields.requestField entry.1 entry.2 .empty).Asks path := by
  have overlays := fun name sub => @fields.overlays_requestField name sub
  refine ⟨exists_of_asks_requestFields overlays tree, ?_⟩
  rintro (rfl | ⟨entry, member, asks⟩)
  · trivial
  · exact asks_requestFields overlays (fun _ _ _ _ => spares_clearedAt independent) tree member asks

theorem agrees_requestFields (independent : fields.Independent)
    (agrees : ∀ {name sub other}, sub.IsTree → other.IsTree → sub.same other = true →
      (fields.requestField name sub .empty).Agrees (fields.requestField name other .empty))
    (tree : sub.IsTree) (treeToo : other.IsTree) (same : sub.same other = true) :
    (requestFields fields.requestField sub .empty).Agrees
      (requestFields fields.requestField other .empty) := by
  have half {first second : Selector} (tree : first.IsTree) (treeToo : second.IsTree)
      (same : first.same second = true) (path : List String)
      (asks : (requestFields fields.requestField first .empty).Asks path) :
      (requestFields fields.requestField second .empty).Asks path := by
    rw [asks_requestFields_iff independent tree] at asks
    rw [asks_requestFields_iff independent treeToo]
    refine asks.imp_right fun ⟨entry, member, asks⟩ => ?_
    obtain ⟨inner, memberToo, alike⟩ :=
      Selector.exists_resolved_of_same tree.distinct treeToo.distinct same member
    exact ⟨(entry.1, inner), memberToo,
      (agrees (tree.of_resolved member) (treeToo.of_resolved memberToo) alike path).mp asks⟩
  exact fun path => ⟨half tree treeToo same path,
    half treeToo tree (Selector.same_symm tree.distinct treeToo.distinct same) path⟩

theorem agrees_requestEntity
    (agrees : (requestFields fields.requestField sub .empty).Agrees
      (requestFields fields.requestField other .empty))
    (tree : sub.IsTree) (treeToo : other.IsTree) :
    (requestEntity id fields sub .empty).Agrees (requestEntity id fields other .empty) := by
  intro path
  rw [asks_requestEntity_iff tree, asks_requestEntity_iff treeToo, agrees]

mutual

theorem Picker.agrees_request : (picker : Picker) → {sub other : Selector} →
    picker.inside.Independent → sub.IsTree → other.IsTree → sub.same other = true →
    (picker.request sub .empty).Agrees (picker.request other .empty)
  | .scalar _ _, _, _, _, _, _, _ | .reference _, _, _, _, _, _, _
  | .referenceList _, _, _, _, _, _, _ | .referenceMap _ _, _, _, _, _, _, _ => fun _ => Iff.rfl
  | .inline _ fields, _, _, independent, tree, treeToo, same
  | .inlineList _ fields, _, _, independent, tree, treeToo, same =>
      agrees_requestEntity (agrees_requestFields independent
        (fields.agrees_requestField _ independent) tree treeToo same) tree treeToo
  | .nested _ _ _ fields _ _ _, _, _, independent, tree, treeToo, same =>
      agrees_requestNested (tree_requestEntity tree) (tree_requestEntity treeToo)
        (agrees_requestEntity (agrees_requestFields independent
          (fields.agrees_requestField _ independent) tree treeToo same) tree treeToo)

theorem FieldPickers.agrees_requestField : (fields : FieldPickers) → (name : String) →
    {sub other : Selector} → fields.Independent → sub.IsTree → other.IsTree →
    sub.same other = true →
    (fields.requestField name sub .empty).Agrees (fields.requestField name other .empty)
  | .none, _, _, _, _, _, _, _ => fun _ => Iff.rfl
  | .field first picker rest, name, _, _, independent, tree, treeToo, same => by
      obtain ⟨here, behind, _⟩ := FieldPickers.independent_field_iff.mp independent
      by_cases own : first = name
      · rw [(FieldPickers.field_here _ _ own).1, (FieldPickers.field_here _ _ own).1]
        exact picker.agrees_request here tree treeToo same
      · rw [(FieldPickers.field_behind _ _ own).1, (FieldPickers.field_behind _ _ own).1]
        exact rest.agrees_requestField name behind tree treeToo same

end

theorem tree_request (tree : sub.IsTree) : (fields.request sub .empty).IsTree := by
  obtain ⟨_, _, request⟩ := Overlays.requestFields
    (fun name _ => fields.overlays_requestField name) tree
  exact request.tree Selector.isTree_empty

theorem same_request (independent : fields.Independent) (tree : sub.IsTree)
    (treeToo : other.IsTree) (same : sub.same other = true) :
    (fields.request sub .empty).same (fields.request other .empty) = true :=
  Selector.same_of_agrees (tree_request tree) (tree_request treeToo)
    (agrees_requestFields independent (fields.agrees_requestField _ independent) tree treeToo same)

/-- A request does not depend on the order of the selected fields: equal selectors lead to equal
requests, and so do the targets that are fetched together, each with what it lacks. -/
theorem FieldPickers.request_congr (independent : fields.Independent) :
    (∀ first second : Selector, first.IsTree → second.IsTree → first.same second = true →
      (fields.request first .empty).same (fields.request second .empty) = true) ∧
    ∀ first second : Target, first.WellFormed → second.WellFormed →
      first.selector.RecursionFree → second.selector.RecursionFree →
      first.isAlike second = true → ∀ supplied,
        (fields.request (first.selector.project (first.openAmong supplied)) .empty).same
          (fields.request (second.selector.project (second.openAmong supplied)) .empty) = true := by
  refine ⟨fun _ _ => same_request independent, fun first second valid validToo free freeToo alike
    supplied => ?_⟩
  have tree : first.selector.IsTree := ⟨free, valid.distinct⟩
  have treeToo : second.selector.IsTree := ⟨freeToo, validToo.distinct⟩
  have lacking := (Target.perm_of_isAlike valid alike).filter fun name => supplied.contains name
  refine same_request independent (tree.project _) (treeToo.project _) ?_
  exact Selector.same_project tree treeToo (Target.same_of_isAlike alike) lacking
    (Target.nodup_openAmong valid supplied) (Target.openAmong_subset_names valid supplied)

end Pickers

namespace Courses

def reordered : Selector :=
  .nested "term" (.nested "name" .empty .empty)
    (.nested "groups"
      (.nested "lecturer" (.nested "name" .empty .empty) (.nested "course" .empty .empty)) .empty)

def wanted (id : String) (selector : Selector) : Target :=
  ⟨⟨0⟩, ⟨0⟩, id, selector, selector.names, true⟩

theorem isTree_selectors : selector.IsTree ∧ reordered.IsTree := by
  refine ⟨⟨?_, ?_⟩, ⟨?_, ?_⟩⟩
  all_goals simp [selector, reordered, Selector.RecursionFree, Selector.Distinct, Selector.names]

/-- The request for courses does not depend on the order of fields. -/
theorem request_reordered :
    (pickers.Independent ∧ (wanted "C1" selector).isAlike (wanted "C2" reordered) = true) ∧
    (pickers.request selector .empty).same (pickers.request reordered .empty) = true ∧
    (pickers.request (selector.project ["groups"]) .empty).same
      (pickers.request (reordered.project ["groups"]) .empty) = true := by
  have independent : pickers.Independent := by decide +kernel
  have same : selector.same reordered = true := by decide +kernel
  have alike : (wanted "C1" selector).isAlike (wanted "C2" reordered) = true := by decide +kernel
  obtain ⟨tree, treeToo⟩ := isTree_selectors
  obtain ⟨requests, batches⟩ := FieldPickers.request_congr independent
  have valid : (wanted "C1" selector).WellFormed :=
    ⟨tree.distinct, tree.distinct.nodup, List.Subset.refl _⟩
  have validToo : (wanted "C2" reordered).WellFormed :=
    ⟨treeToo.distinct, treeToo.distinct.nodup, List.Subset.refl _⟩
  exact ⟨⟨independent, alike⟩, requests selector reordered tree treeToo same,
    batches _ _ valid validToo tree.free treeToo.free alike ["groups"]⟩

/-- That the coordinator is an id drops what was asked for of the lecturer before, but not after. -/
theorem request_order_matters :
    Schema.ofDecls decls = .ok schema ∧ coordinated.check schema "courses/course" ⟨0⟩ = .ok () ∧
    (lecturers (.nested "coordinator" .empty .empty)).IsTree ∧
    (Selector.nested "coordinator" .empty (lecturers .empty)).IsTree ∧
    (lecturers (.nested "coordinator" .empty .empty)).same
      (.nested "coordinator" .empty (lecturers .empty)) = true ∧
    (coordinated.request (lecturers (.nested "coordinator" .empty .empty)) .empty).render =
      "coordinator|groups[number]" ∧
    (coordinated.request (.nested "coordinator" .empty (lecturers .empty)) .empty).render =
      "coordinator[name|id]|groups[number]" ∧
    (coordinated.request (lecturers (.nested "coordinator" .empty .empty)) .empty).same
      (coordinated.request (.nested "coordinator" .empty (lecturers .empty)) .empty) = false := by
  refine ⟨by decide +kernel, by decide +kernel, ⟨?_, ?_⟩, ⟨?_, ?_⟩, by decide +kernel,
    by decide +kernel, by decide +kernel, by decide +kernel⟩
  all_goals simp [lecturers, Selector.RecursionFree, Selector.Distinct, Selector.names]

end Courses

end EntityResolver
