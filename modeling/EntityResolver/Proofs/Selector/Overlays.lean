import EntityResolver.Proofs.Selector.Union

/-!
Steps by which a request grows.

A step asks for certain paths of keys whatever was asked for before. Of that it keeps all, but for
what goes on below the keys that it puts anew. Of several steps each is therefore answered for by
itself, as long as none drops what another one asks for.
-/

set_option autoImplicit false

namespace EntityResolver

namespace Selector

variable {first second path : List String}

theorem spares_append_iff :
    Spares (first ++ second) path ↔ Spares first path ∧ Spares second path := by
  match path with
  | [] | [_] => simp [Spares]
  | key :: _ :: _ => simp [Spares]

@[simp] theorem spares_nil : Spares [] path := by
  match path with
  | [] | [_] => trivial
  | key :: _ :: _ => simp [Spares]

@[simp] theorem asks_empty_iff : Selector.empty.Asks path ↔ path = [] := by
  cases path <;> simp [Asks, names]

end Selector

/-- The step asks for what it asks for by itself, and of what was asked for before it drops what
goes on below the given keys. -/
structure Overlays (cleared : List String) (step : Selector → Selector) : Prop where
  tree {api : Selector} (tree : api.IsTree) : (step api).IsTree
  asks_iff {api : Selector} (tree : api.IsTree) (path : List String) :
    (step api).Asks path ↔ api.Asks path ∧ Selector.Spares cleared path ∨ (step .empty).Asks path

namespace Overlays

variable {step second : Selector → Selector} {cleared clearedToo : List String} {sub : Selector}
  {key : String} {path : List String}

theorem same : Overlays [] fun api => api where
  tree tree := tree
  asks_iff _ path := by
    rw [Selector.asks_empty_iff]
    cases path <;> simp [Selector.Asks]

theorem andThen (overlays : Overlays cleared step) (overlaysToo : Overlays clearedToo second) :
    Overlays (cleared ++ clearedToo) fun api => second (step api) where
  tree tree := overlaysToo.tree (overlays.tree tree)
  asks_iff tree path := by
    rw [overlaysToo.asks_iff (overlays.tree tree),
      overlaysToo.asks_iff (overlays.tree Selector.isTree_empty), overlays.asks_iff tree,
      Selector.spares_append_iff]
    tauto

theorem addKey (key : String) (tree : sub.IsTree) : Overlays [] fun api => api.addKey key sub where
  tree treeToo := treeToo.addKey key tree
  asks_iff treeToo path := by
    rw [Selector.asks_addKey_iff treeToo.free tree,
      Selector.asks_addKey_iff Selector.recursionFree_empty tree, Selector.asks_empty_iff]
    cases path <;> simp [Selector.Asks]

theorem insertKey (key : String) : Overlays [key] fun api => api.insert key .empty where
  tree tree := tree.insert Selector.isTree_empty
  asks_iff tree path := by
    rw [Selector.asks_insert_empty_iff, Selector.asks_insert_empty_iff, Selector.asks_empty_iff]
    match path with
    | [] | [_] | _ :: _ :: _ => simp [Selector.Asks, Selector.Spares]

theorem id_request (id : IdSpec) : Overlays id.keys id.request := by
  unfold IdSpec.request
  generalize id.keys = keys
  induction keys with
  | nil => exact same
  | cons key rest inductionHypothesis => exact (insertKey key).andThen inductionHypothesis

end Overlays

section Fold

variable {α : Type} {request : α → Selector → Selector} {entries : List α}
  {clearedBy : α → List String} {path : List String}

theorem Overlays.foldl
    (overlays : ∀ entry ∈ entries, ∃ cleared ⊆ clearedBy entry, Overlays cleared (request entry)) :
    ∃ cleared ⊆ entries.flatMap clearedBy,
      Overlays cleared fun api => entries.foldl (fun api entry => request entry api) api := by
  induction entries with
  | nil => exact ⟨[], List.Subset.refl _, .same⟩
  | cons entry rest inductionHypothesis =>
      obtain ⟨cleared, inside, here⟩ := overlays entry List.mem_cons_self
      obtain ⟨clearedRest, insideRest, there⟩ :=
        inductionHypothesis fun other member => overlays other (List.mem_cons_of_mem _ member)
      refine ⟨cleared ++ clearedRest, ?_, here.andThen there⟩
      rw [List.flatMap_cons]
      exact List.append_subset.mpr ⟨List.Subset.trans inside (List.subset_append_left _ _),
        List.Subset.trans insideRest (List.subset_append_right _ _)⟩

theorem exists_of_asks_foldl
    (overlays : ∀ entry ∈ entries, ∃ cleared ⊆ clearedBy entry, Overlays cleared (request entry))
    (asks : (entries.foldl (fun api entry => request entry api) .empty).Asks path) :
    path = [] ∨ ∃ entry ∈ entries, (request entry .empty).Asks path := by
  induction entries with
  | nil => exact .inl (Selector.asks_empty_iff.mp asks)
  | cons entry rest inductionHypothesis =>
      have overlaysRest : ∀ other ∈ rest, ∃ cleared ⊆ clearedBy other,
          Overlays cleared (request other) :=
        fun other member => overlays other (List.mem_cons_of_mem _ member)
      obtain ⟨_, _, here⟩ := overlays entry List.mem_cons_self
      obtain ⟨_, _, there⟩ := Overlays.foldl overlaysRest
      rcases (there.asks_iff (here.tree Selector.isTree_empty) path).mp asks with ⟨asks, _⟩ | asks
      · exact .inr ⟨entry, List.mem_cons_self, asks⟩
      · exact (inductionHypothesis overlaysRest asks).imp_right fun ⟨other, member, asks⟩ =>
          ⟨other, List.mem_cons_of_mem _ member, asks⟩

/-- What a single step asks for is asked for, if no later step drops it. -/
theorem asks_foldl
    (overlays : ∀ entry ∈ entries, ∃ cleared ⊆ clearedBy entry, Overlays cleared (request entry))
    (apart : entries.Pairwise fun first second =>
      ∀ path, (request first .empty).Asks path → Selector.Spares (clearedBy second) path)
    {entry : α} (member : entry ∈ entries) (asks : (request entry .empty).Asks path) :
    (entries.foldl (fun api entry => request entry api) .empty).Asks path := by
  induction entries with
  | nil => cases member
  | cons first rest inductionHypothesis =>
      have overlaysRest : ∀ other ∈ rest, ∃ cleared ⊆ clearedBy other,
          Overlays cleared (request other) :=
        fun other member => overlays other (List.mem_cons_of_mem _ member)
      obtain ⟨spared, apartRest⟩ := List.pairwise_cons.mp apart
      obtain ⟨_, _, here⟩ := overlays first List.mem_cons_self
      obtain ⟨cleared, inside, there⟩ := Overlays.foldl overlaysRest
      refine (there.asks_iff (here.tree Selector.isTree_empty) path).mpr ?_
      rcases List.mem_cons.mp member with rfl | inRest
      · refine .inl ⟨asks, ?_⟩
        match path with
        | [] | [_] => trivial
        | key :: next :: path =>
            intro dropped
            obtain ⟨other, inRest, droppedBy⟩ := List.mem_flatMap.mp (inside dropped)
            exact spared other inRest _ asks droppedBy
      · exact .inr (inductionHypothesis overlaysRest apartRest inRest)

end Fold

section Fields

variable {request : String → Selector → Selector → Selector} {clearedBy : String → List String}
  {selector : Selector} {path : List String}

theorem requestFields_eq_foldl (free : selector.RecursionFree) (api : Selector) :
    requestFields request selector api =
      selector.resolved.foldl (fun api entry => request entry.1 entry.2 api) api := by
  rw [requestFields, Selector.resolved, List.foldl_map]
  apply List.foldl_ext
  rintro api ⟨name, entry⟩ member
  obtain ⟨sub, same, _⟩ := free.of_mem_entries member
  cases same
  rfl

theorem Overlays.requestFields
    (overlays : ∀ name sub, sub.IsTree →
      ∃ cleared ⊆ clearedBy name, Overlays cleared (request name sub))
    (tree : selector.IsTree) :
    ∃ cleared ⊆ selector.resolved.flatMap fun entry => clearedBy entry.1,
      Overlays cleared (requestFields request selector) := by
  obtain ⟨cleared, inside, folded⟩ := Overlays.foldl
    (fun (entry : String × Selector) member => overlays entry.1 entry.2 (tree.of_resolved member))
  refine ⟨cleared, inside, ?_⟩
  have same : EntityResolver.requestFields request selector = _ :=
    funext (requestFields_eq_foldl tree.free)
  exact same ▸ folded

theorem exists_of_asks_requestFields
    (overlays : ∀ name sub, sub.IsTree →
      ∃ cleared ⊆ clearedBy name, Overlays cleared (request name sub))
    (tree : selector.IsTree) (asks : (requestFields request selector .empty).Asks path) :
    path = [] ∨ ∃ entry ∈ selector.resolved, (request entry.1 entry.2 .empty).Asks path := by
  rw [requestFields_eq_foldl tree.free] at asks
  exact exists_of_asks_foldl
    (fun entry member => overlays entry.1 entry.2 (tree.of_resolved member)) asks

theorem asks_requestFields
    (overlays : ∀ name sub, sub.IsTree →
      ∃ cleared ⊆ clearedBy name, Overlays cleared (request name sub))
    (apart : ∀ name other sub path, name ≠ other → sub.IsTree →
      (request name sub .empty).Asks path → Selector.Spares (clearedBy other) path)
    (tree : selector.IsTree) {entry : String × Selector} (member : entry ∈ selector.resolved)
    (asks : (request entry.1 entry.2 .empty).Asks path) :
    (requestFields request selector .empty).Asks path := by
  rw [requestFields_eq_foldl tree.free]
  have each (entry : String × Selector) (member : entry ∈ selector.resolved) :=
    overlays entry.1 entry.2 (tree.of_resolved member)
  refine asks_foldl each ?_ member asks
  have names : selector.resolved.Pairwise fun first second => first.1 ≠ second.1 :=
    List.pairwise_map.mp (Selector.map_fst_resolved selector ▸ tree.distinct.nodup)
  refine names.imp_of_mem fun member _ differs path => ?_
  exact apart _ _ _ path differs (tree.of_resolved member)

end Fields

end EntityResolver
