import EntityResolver.Proofs.Coverage
import EntityResolver.Proofs.Run.Members

/-!
# Nested lists

The items of a list can hold lists of their own under the same key, and so on. Asked for all the way
down, they become a tree of entities that mirrors the tree of items. An item that shows its own
list, an empty one say, leaves nothing of the field to be fetched; an item that shows none leaves it
open.
-/

set_option autoImplicit false

namespace EntityResolver

namespace Run

open RunState

variable {context : RunContext} {origin before after final : RunState} {plan : ListPlan}
variable {fields : FieldPickers} {around item : Json}
variable {rows : List (String × Json)} {entities : List Handle}

/-- The entities mirror rows of items, in order. An item that has the key of the list holds the
items of its own list below it, and its entity refers to theirs by the field. For an item without
the key the field of the entity is still wanted. -/
inductive Mirrors (context : RunContext) (plan : ListPlan) (before after : RunState) :
    Json → List (String × Json) → List Handle → Prop where
  | nil {around : Json} : Mirrors context plan before after around [] []
  | bare {around item : Json} {id : String} {entity : Handle} {held : FieldValues}
      {rows : List (String × Json)} {entities : List Handle}
      (record : after.record? entity = some ⟨plan.cls, some id, held⟩)
      (lacks : item.member? plan.key = none)
      (unread : held.get? plan.field.name = none)
      (wanted : before.Wants after entity plan.field.name)
      (others : Mirrors context plan before after around rows entities) :
      Mirrors context plan before after around ((id, item) :: rows) (entity :: entities)
  | inner {around item : Json} {id : String} {entity : Handle} {held : FieldValues}
      {items : List Json} {below rows : List (String × Json)} {children entities : List Handle}
      (record : after.record? entity = some ⟨plan.cls, some id, held⟩)
      (carries : (item.member? plan.key).isSome = true)
      (listed : item.itemsUnder plan.path plan.key = .ok items)
      (counted : plan.rowsOf (liftInto plan.lifts around item) items = .ok below)
      (read : held.get? plan.field.name = some (.list children))
      (settled : ¬ before.Wants after entity plan.field.name)
      (inside : Mirrors context plan before after (liftInto plan.lifts around item) below children)
      (others : Mirrors context plan before after around rows entities) :
      Mirrors context plan before after around ((id, item) :: rows) (entity :: entities)

def MirrorsUnder (context : RunContext) (plan : ListPlan) (before after : RunState) (around : Json)
    (entities : List Handle) : Prop :=
  ∃ items rows, around.itemsUnder plan.path plan.key = .ok items ∧
    plan.rowsOf around items = .ok rows ∧ Mirrors context plan before after around rows entities

section Reading

variable {below : Json → Run (List Handle)} {values : FieldValues}

theorem adding_readItem (adding : ∀ item, Adding (below item)) (around item : Json) :
    Adding (plan.readItem (fields.loadField plan.path) below around item) := by
  refine closed_adding.bind (closed_adding.fields Scope.reads_everything _ _ _) fun values => ?_
  split
  · exact closed_adding.bind (adding _) fun _ => closed_adding.pure _
  · exact closed_adding.pure _

/-- The values of an item are those that its pickers supply, and with them its own list if it shows
one. -/
theorem readItem_cases (recursive : plan.sub.isRecursive plan.field.name = true)
    (apart : ∀ lift ∈ plan.lifts, lift.2 ≠ plan.key)
    (done : Yields context (plan.readItem (fields.loadField plan.path) below around item) before
      values after) :
    ∃ loaded middle, Yields context
        (fields.load plan.path plan.cls (liftInto plan.lifts around item) plan.sub) before loaded
        middle ∧
      ((item.member? plan.key = none ∧ values = loaded ∧ after = middle) ∨
        ∃ children, (item.member? plan.key).isSome = true ∧
          Yields context (below (liftInto plan.lifts around item)) middle children after ∧
          values = loaded.set plan.field.name (.list children)) := by
  obtain ⟨loaded, middle, loads, done⟩ := yields_bind_iff.mp done
  refine ⟨loaded, middle, loads, ?_⟩
  rw [recursive, Bool.true_and, member?_liftInto apart] at done
  split at done
  · rename_i carries
    simp only [yields_bind_iff, yields_pure_iff] at done
    obtain ⟨children, _, reads, rfl, rfl⟩ := done
    exact .inr ⟨children, carries, reads, rfl⟩
  · rename_i lacks
    obtain ⟨rfl, rfl⟩ := yields_pure_iff.mp done
    exact .inl ⟨Option.not_isSome_iff_eq_none.mp lacks, rfl, rfl⟩

def MirrorsBelow (context : RunContext) (plan : ListPlan) (origin final : RunState)
    (below : Json → Run (List Handle)) : Prop :=
  ∀ {around before children after}, Yields context (below around) before children after →
    origin.Adds before → after.Adds final →
      MirrorsUnder context plan origin final around children

theorem mirrors_of_mapM (recursive : plan.sub.isRecursive plan.field.name = true)
    (unsupplied : fields.find? plan.field.name = none)
    (apart : ∀ lift ∈ plan.lifts, lift.2 ≠ plan.key)
    (adding : ∀ item, Adding (below item)) (mirrors : MirrorsBelow context plan origin final below)
    (first : origin.Adds before) (last : after.Adds final)
    (done : Yields context (rows.mapM (enroll plan.cls plan.sub
      (plan.readItem (fields.loadField plan.path) below around))) before entities after) :
    Mirrors context plan origin final around rows entities := by
  have selected : plan.field.name ∈ plan.sub.names :=
    Selector.mem_names_of_found (by simpa [Selector.isRecursive] using recursive)
  have addingItem (item : Json) :
      Adding (plan.readItem (fields.loadField plan.path) below around item) :=
    adding_readItem adding around item
  induction rows generalizing before entities with
  | nil =>
      rw [List.mapM_nil] at done
      obtain ⟨rfl, rfl⟩ := yields_pure_iff.mp done
      exact .nil
  | cons row rest inductionHypothesis =>
      obtain ⟨id, item⟩ := row
      rw [List.mapM_cons] at done
      simp only [yields_bind_iff, yields_pure_iff] at done
      obtain ⟨entity, middle, enrolls, others, _, remaining, rfl, rfl⟩ := done
      obtain ⟨values, read, reads, spawns⟩ := yields_bind_iff.mp enrolls
      have begins := addingItem item reads
      obtain ⟨adds, entered, _⟩ := entered_of_spawn spawns
      have ends := (enrolled_of_mapM addingItem remaining).1.trans last
      have inFinal := entered.frame (first.trans begins) adds ends
      have behind := inductionHypothesis (first.trans (begins.trans adds)) remaining
      obtain ⟨held, record, stored⟩ := inFinal.record
      obtain ⟨loaded, mid, loads, cases⟩ := readItem_cases recursive apart reads
      rcases cases with ⟨lacks, rfl, rfl⟩ | ⟨children, carries, inside, rfl⟩
      · have absent := (get?_load_eq_none_iff loads selected).mpr unsupplied
        refine .bare record lacks ?_ ((inFinal.wanted _).mpr ⟨selected, absent⟩) behind
        rw [stored, if_pos selected, absent]
      · have begun := closed_adding.fields Scope.reads_everything _ _ _ loads
        obtain ⟨items, below, listed, counted, mirrored⟩ :=
          mirrors inside (first.trans begun) (adds.trans ends)
        have under : item.itemsUnder plan.path plan.key = .ok items := by
          rwa [Json.itemsUnder, member?_liftInto apart] at listed
        refine .inner record carries under counted ?_ (fun wanted => ?_) mirrored behind
        · rw [stored, if_pos selected, OrderedMap.get?_set, if_pos rfl]
        · have absent := ((inFinal.wanted _).mp wanted).2
          rw [OrderedMap.get?_set, if_pos rfl] at absent
          cases absent

/-- However deep lists are nested, their entities mirror them. -/
theorem mirrors_of_loadList {depth : Nat}
    (recursive : plan.sub.isRecursive plan.field.name = true)
    (unsupplied : fields.find? plan.field.name = none)
    (apart : ∀ lift ∈ plan.lifts, lift.2 ≠ plan.key) :
    MirrorsBelow context plan origin final (loadList plan (fields.loadField plan.path) depth) := by
  induction depth with
  | zero => exact fun done => absurd done not_yields_throw
  | succ depth inductionHypothesis =>
      intro around before children after done first last
      rw [loadList] at done
      split at done
      · rename_i absent
        obtain ⟨rfl, rfl⟩ := yields_pure_iff.mp done
        exact ⟨[], [], by rw [Json.itemsUnder, absent], ListPlan.rowsOf_nil around, .nil⟩
      · rename_i value found
        obtain ⟨items, listed, done⟩ := yields_ofExcept_bind_iff.mp done
        obtain ⟨rows, identified, enrolls⟩ := mapM_of_loadItems done
        rw [ListPlan.unseen_nil] at enrolls
        have adding (item : Json) : Adding (loadList plan (fields.loadField plan.path) depth item) :=
          closed_adding.loadList (closed_adding.each Scope.reads_everything plan.path)
            (fun done => absurd done not_yields_throw) depth item
        refine ⟨items, plan.counted rows, ?_, ?_, ?_⟩
        · rwa [Json.itemsUnder, found]
        · rw [ListPlan.rowsOf, identified]
          rfl
        · exact mirrors_of_mapM recursive unsupplied apart adding inductionHypothesis first last
            enrolls

end Reading

end Run

open Run RunState

section Trees

variable {context : RunContext} {before after : RunState} {path key : String} {id : IdSpec}
variable {fields : FieldPickers} {hasSubfields unique : Bool} {lifts : List (String × String)}
variable {field : Field} {cls : ClassId} {response : Json} {sub : Selector}
variable {value : FieldValue Handle}

/-- A list that is asked for all the way down becomes a tree of entities. Followed through the
field, they have the ids of the items that count, on each level and in order. -/
theorem Picker.mirrors_of_load (refers : field.kind.target? = some cls)
    (recursive : sub.isRecursive field.name = true) (unsupplied : fields.find? field.name = none)
    (apart : ∀ lift ∈ lifts, lift.2 ≠ key)
    (done : Yields context
      ((Picker.nested .list key id fields hasSubfields lifts unique).load path field response sub)
      before value after) :
    ∃ items rows, response.itemsUnder path key = .ok items ∧
      ListPlan.rowsOf { path, key, id, lifts, unique, field, cls, sub } response items = .ok rows ∧
      before.Adds after ∧ ((response.member? key).isSome = true → value = .list value.entities) ∧
      Mirrors context { path, key, id, lifts, unique, field, cls, sub } before after response rows
        value.entities := by
  have adds := closed_adding.picker path _ field response sub trivial done
  rcases cases_of_nested done with ⟨absent, rfl, rfl⟩ | ⟨stored, other, found, known, done⟩
  · refine ⟨[], [], ?_, ListPlan.rowsOf_nil response, adds, by simp [absent], .nil⟩
    rw [Json.itemsUnder, absent]
  · cases refers.symm.trans known
    obtain ⟨entities, _, loads, done⟩ := yields_bind_iff.mp done
    obtain ⟨rfl, rfl⟩ := yields_pure_iff.mp done
    obtain ⟨items, rows, listed, counted, mirrors⟩ :
        MirrorsUnder context { path, key, id, lifts, unique, field, cls, sub } before after response
          entities :=
      mirrors_of_loadList recursive unsupplied apart loads (.refl before) (.refl after)
    exact ⟨items, rows, listed, counted, adds, fun _ => rfl, mirrors⟩

end Trees

namespace Subnodes

def cls : ClassId := ⟨0⟩

def subnodes : Field := ⟨"subnodes", cls, .entityList cls, false, false⟩

/-- A node shows its subnodes with it, or leaves them out. -/
def nodeClass : EntityClass :=
  { id := cls
    name := "Node"
    fields := [⟨"course", cls, .scalar .string, false, false⟩, subnodes]
    searchItem := none
    foundField := none
    defaultSelector := .empty }

def context : RunContext where
  catalog := Catalog.empty ⟨[nodeClass]⟩
  remote := fun _ _ => .ok .null
  lang := .pl
  roundLimit := 0

/-- Each node takes over the course of the node around it. -/
def lifts : List (String × String) := [("course", "course")]

def fields : FieldPickers := .field "course" (.scalar .raw "course") .none

def picker : Picker :=
  .nested .list "subnodes" (.elementary "node_id") fields true lifts true

def tree : Selector := .recursive "subnodes" (.nested "course" .empty .empty)

def node (id : Json) : Json := .object [("node_id", id)]

def nodeWith (id subnodes : Json) : Json := .object [("node_id", id), ("subnodes", subnodes)]

/-- The first node with three subnodes, one of them without an id and one shown twice; the node once
more; and a node that shows that it has none. -/
def items : List Json :=
  [nodeWith (.int 1) (.array [node (.int 3), node .null, nodeWith (.int 3) (.array [])]),
    node (.int 1), nodeWith (.int 2) .null]

def response : Json := .object [("course", .str "Logic"), ("subnodes", .array items)]

/-- Duplicates are told by list, and only the subnodes of the innermost node are left to
be fetched. -/
theorem mirrors_nodes :
    subnodes.kind.target? = some cls ∧ tree.isRecursive subnodes.name = true ∧
    fields.find? subnodes.name = none ∧ (∀ lift ∈ lifts, lift.2 ≠ "subnodes") ∧
    ∃ state, Yields context (picker.load "exams/node" subnodes response tree) { calls := [] }
        (.list [⟨1⟩, ⟨2⟩]) state ∧
      Mirrors context ⟨"exams/node", "subnodes", .elementary "node_id", lifts, true, subnodes, cls,
          tree⟩
        { calls := [] } state response
        [("1", nodeWith (.int 1) (.array [node (.int 3), node .null, nodeWith (.int 3) (.array [])])),
          ("2", nodeWith (.int 2) .null)]
        [⟨1⟩, ⟨2⟩] := by
  have apart : ∀ lift ∈ lifts, lift.2 ≠ "subnodes" := by decide
  have done : Yields context (picker.load "exams/node" subnodes response tree) { calls := [] }
      (.list [⟨1⟩, ⟨2⟩]) _ := rfl
  obtain ⟨_, _, listed, counted, _, _, mirrors⟩ := Picker.mirrors_of_load rfl rfl rfl apart done
  cases listed
  cases counted
  exact ⟨rfl, rfl, rfl, apart, _, done, mirrors⟩

end Subnodes

end EntityResolver
