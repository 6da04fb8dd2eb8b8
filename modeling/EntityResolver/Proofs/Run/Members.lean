import EntityResolver.Proofs.Run.Adding
import EntityResolver.Proofs.Run.Findings

/-!
Rows of entities that are read out of a response.

A collection of a response has members, and those that have an id make rows: each is read and its
entity is spawned, one after the other. Reading a collection comes to nothing but that, so members
that are left out leave no trace.
-/

set_option autoImplicit false

namespace EntityResolver

section Rows

variable {α : Type} {idOf : α → Except ResolveError (Option String)} {member : α} {rest : List α}
variable {rows : List (String × α)}

def identify (idOf : α → Except ResolveError (Option String)) (members : List α) :
    Except ResolveError (List (String × α)) :=
  members.filterMapM fun member => do return (← idOf member).map fun id => (id, member)

def firstOfEach (rows : List (String × α)) : List (String × α) :=
  rows.eraseDupsBy fun row other => row.1 == other.1

theorem identify_cons (member : α) (rest : List α) :
    identify idOf (member :: rest) = (do
      let id? ← idOf member
      let others ← identify idOf rest
      return (id?.map fun id => (id, member)).toList ++ others) := by
  unfold identify
  rw [List.filterMapM_cons, bind_assoc]
  refine bind_congr fun id? => ?_
  cases id? with
  | none => simp
  | some id => simp

theorem identify_cons_iff :
    identify idOf (member :: rest) = .ok rows ↔ ∃ id? others, idOf member = .ok id? ∧
      identify idOf rest = .ok others ∧
      rows = (id?.map fun id => (id, member)).toList ++ others := by
  rw [identify_cons]
  simp only [bind_eq_ok_iff, pure, Except.pure, Except.ok.injEq]
  constructor
  · rintro ⟨id?, named, others, identified, rfl⟩
    exact ⟨id?, others, named, identified, rfl⟩
  · rintro ⟨id?, others, named, identified, rfl⟩
    exact ⟨id?, named, others, identified, rfl⟩

/-- The ids of all members can be read, and the rows have those that are not null. -/
theorem exists_ids_of_identify {members : List α}
    (identified : identify idOf members = .ok rows) :
    ∃ ids, members.mapM idOf = .ok ids ∧ ids.reduceOption = rows.map Prod.fst := by
  simp only [mapM_eq_ok_iff]
  induction members generalizing rows with
  | nil =>
      cases identified
      exact ⟨[], .nil, rfl⟩
  | cons member rest inductionHypothesis =>
      obtain ⟨id?, others, named, remaining, rfl⟩ := identify_cons_iff.mp identified
      obtain ⟨ids, read, present⟩ := inductionHypothesis remaining
      refine ⟨id? :: ids, .cons named read, ?_⟩
      cases id? with
      | none => exact present
      | some id => rw [List.reduceOption_cons_of_some, present]; rfl

theorem firstOfEach_cons (row : String × α) (rows : List (String × α)) :
    firstOfEach (row :: rows) = row :: firstOfEach (rows.filter fun other => other.1 != row.1) := by
  rw [firstOfEach, List.eraseDupsBy_cons]
  congr 2
  refine List.filter_congr fun other _ => ?_
  rw [bne]
  cases other.1 == row.1 <;> rfl

end Rows

def Json.itemsUnder (response : Json) (path key : String) : Except ResolveError (List Json) :=
  match response.member? key with
  | none => .ok []
  | some value => Run.itemsOf path key value

namespace Run

open RunState

section Values

variable {context : RunContext} {before after : RunState} {fields : FieldPickers}
variable {path name : String} {cls : ClassId} {response : Json}

theorem isSome_of_loadField {sub : Selector} {value? : Option (FieldValue Handle)}
    (done : Yields context (fields.loadField path cls response name sub) before value? after) :
    value?.isSome = (fields.find? name).isSome := by
  induction fields using FieldPickers.names.induct with
  | case1 =>
      obtain ⟨rfl, _⟩ := yields_pure_iff.mp done
      rfl
  | case2 other picker rest inductionHypothesis =>
      simp only [FieldPickers.loadField] at done
      simp only [FieldPickers.find?]
      split
      · rename_i here
        simp only [here, if_true, yields_bind_iff, yields_schema_iff] at done
        obtain ⟨_, _, ⟨rfl, rfl⟩, done⟩ := done
        split at done
        · exact absurd done not_yields_throw
        · simp only [yields_bind_iff, yields_pure_iff] at done
          obtain ⟨value, _, _, rfl, _⟩ := done
          rfl
      · rename_i there
        rw [if_neg there] at done
        exact inductionHypothesis done

theorem isSome_get?_load_iff {selector : Selector} {values : FieldValues}
    (done : Yields context (fields.load path cls response selector) before values after) :
    (values.get? name).isSome = true ↔
      name ∈ selector.names ∧ (fields.find? name).isSome = true := by
  rw [← Selector.map_fst_resolved]
  unfold FieldPickers.load loadValues at done
  generalize selector.resolved = wanted at done ⊢
  induction wanted generalizing before values with
  | nil =>
      obtain ⟨rfl, rfl⟩ := yields_pure_iff.mp done
      simp
  | cons entry rest inductionHypothesis =>
      obtain ⟨other, below⟩ := entry
      simp only [loadSelected, yields_bind_iff, yields_pure_iff] at done
      obtain ⟨value?, middle, first, others, _, remaining, rfl, rfl⟩ := done
      have here := isSome_of_loadField first
      have there := inductionHypothesis remaining
      rw [List.map_cons, List.mem_cons]
      by_cases same : other = name
      · subst same
        cases value? with
        | none => simp_all
        | some value => simpa [OrderedMap.get?_cons] using here
      · cases value? with
        | none => simpa [Ne.symm same] using there
        | some value => simpa [OrderedMap.get?_cons, same, Ne.symm same] using there

theorem get?_load_eq_none_iff {selector : Selector} {values : FieldValues}
    (done : Yields context (fields.load path cls response selector) before values after)
    (selected : name ∈ selector.names) :
    values.get? name = none ↔ fields.find? name = none := by
  rw [← Option.not_isSome_iff_eq_none, ← Option.not_isSome_iff_eq_none, isSome_get?_load_iff done]
  simp [selected]

end Values

variable {context : RunContext} {origin before after final : RunState} {cls : ClassId}
variable {sub : Selector} {read : Json → Run FieldValues} {row : String × Json}
variable {rows : List (String × Json)} {entity : Handle} {entities : List Handle}

def enroll (cls : ClassId) (sub : Selector) (read : Json → Run FieldValues)
    (row : String × Json) : Run Handle := do
  spawn cls row.1 sub (← read row.2) false

/-- The entity came in for a row: it has the id of the row, and the values that were read for it. -/
def Enrolled (context : RunContext) (cls : ClassId) (sub : Selector) (read : Json → Run FieldValues)
    (before after : RunState) (row : String × Json) (entity : Handle) : Prop :=
  ∃ earlier values later, before.Adds earlier ∧ Yields context (read row.2) earlier values later ∧
    later.Adds after ∧ before.Entered after cls row.1 sub values entity

def CameWithin (context : RunContext) (read : Json → Run FieldValues) (rows : List (String × Json))
    (before after : RunState) (entity : Handle) : Prop :=
  ∃ row ∈ rows, ∃ earlier values later, before.Adds earlier ∧
    Yields context (read row.2) earlier values later ∧ later.Adds after ∧ earlier.Came later entity

theorem Enrolled.frame (first : origin.Adds before) (within : before.Adds after)
    (last : after.Adds final) (enrolled : Enrolled context cls sub read before after row entity) :
    Enrolled context cls sub read origin final row entity := by
  obtain ⟨earlier, values, later, begins, reads, ends, entered⟩ := enrolled
  exact ⟨earlier, values, later, first.trans begins, reads, ends.trans last,
    entered.frame first within last⟩

theorem CameWithin.frame (first : origin.Adds before) (last : after.Adds final)
    (within : CameWithin context read rows before after entity) :
    CameWithin context read rows origin final entity := by
  obtain ⟨row, member, earlier, values, later, begins, reads, ends, came⟩ := within
  exact ⟨row, member, earlier, values, later, first.trans begins, reads, ends.trans last, came⟩

theorem CameWithin.came (within : CameWithin context read rows before after entity) :
    before.Came after entity := by
  obtain ⟨row, member, earlier, values, later, begins, reads, ends, came⟩ := within
  exact ⟨begins.size.trans came.1, came.2.trans_le ends.size⟩

/-- Enrolling a row brings its entity in last, after what came in while its values were read. -/
theorem enrolled_of_enroll (adding : ∀ item, Adding (read item))
    (done : Yields context (enroll cls sub read row) before entity after) :
    before.Adds after ∧ Enrolled context cls sub read before after row entity ∧
      ∀ other, before.Came after other →
        other = entity ∨ CameWithin context read [row] before after other := by
  obtain ⟨values, later, reads, spawns⟩ := yields_bind_iff.mp done
  have begins := adding row.2 reads
  obtain ⟨ends, entered, size⟩ := entered_of_spawn spawns
  refine ⟨begins.trans ends, ?_, fun other came => ?_⟩
  · exact ⟨before, values, later, .refl _, reads, ends, entered.frame begins ends (.refl _)⟩
  · rcases (begins.came_iff ends).mp came with early | ⟨lower, upper⟩
    · exact .inr ⟨row, by simp, before, values, later, .refl _, reads, ends, early⟩
    · have least := entered.came
      have most := entered.inside
      have same : other.index = entity.index := by omega
      cases other
      cases entity
      exact .inl (congrArg Handle.mk same)

/-- Enrolling rows brings in one entity for each of them, in order, and besides these only what came
in while values of the rows were read. -/
theorem enrolled_of_mapM (adding : ∀ item, Adding (read item))
    (done : Yields context (rows.mapM (enroll cls sub read)) before entities after) :
    before.Adds after ∧ List.Forall₂ (Enrolled context cls sub read before after) rows entities ∧
      entities.Nodup ∧ ∀ other, before.Came after other →
        other ∈ entities ∨ CameWithin context read rows before after other := by
  induction rows generalizing before entities with
  | nil =>
      rw [List.mapM_nil] at done
      obtain ⟨rfl, rfl⟩ := yields_pure_iff.mp done
      refine ⟨.refl _, .nil, .nil, fun other came => ?_⟩
      exact absurd came.2 (Nat.not_lt.mpr came.1)
  | cons row rest inductionHypothesis =>
      rw [List.mapM_cons] at done
      simp only [yields_bind_iff, yields_pure_iff] at done
      obtain ⟨entity, middle, first, others, _, remaining, rfl, rfl⟩ := done
      obtain ⟨begins, enrolled, exact⟩ := enrolled_of_enroll adding first
      obtain ⟨ends, all, nodup, exactRest⟩ := inductionHypothesis remaining
      have later (other : Handle) (member : other ∈ others) :
          middle.arena.size ≤ other.index := by
        obtain ⟨_, _, _, _, _, _, _, _, entered⟩ := FieldValue.exists_related all.flip member
        exact entered.came
      refine ⟨begins.trans ends, .cons (enrolled.frame (.refl _) begins ends) ?_, ?_, ?_⟩
      · exact all.imp fun _ _ one => one.frame begins ends (.refl _)
      · refine List.nodup_cons.mpr ⟨fun again => ?_, nodup⟩
        obtain ⟨_, _, _, _, _, _, entered⟩ := enrolled
        exact Nat.lt_irrefl _ (entered.inside.trans_le (later entity again))
      · intro other came
        have inFirst (within : CameWithin context read [row] before middle other) :
            CameWithin context read (row :: rest) before after other := by
          obtain ⟨_, member, found⟩ := within.frame (.refl _) ends
          exact ⟨row, List.mem_cons_self, List.mem_singleton.mp member ▸ found⟩
        have inRest (within : CameWithin context read rest middle after other) :
            CameWithin context read (row :: rest) before after other := by
          obtain ⟨one, member, found⟩ := within.frame begins (.refl _)
          exact ⟨one, List.mem_cons_of_mem _ member, found⟩
        rcases (begins.came_iff ends).mp came with early | late
        · rcases exact other early with rfl | within
          · exact .inl List.mem_cons_self
          · exact .inr (inFirst within)
        · rcases exactRest other late with member | within
          · exact .inl (List.mem_cons_of_mem _ member)
          · exact .inr (inRest within)

section Loops

variable {path : String} {id : IdSpec} {loadField : LoadField} {look : Json → Json}

def idUnlessNull (idOf : Json → Except ResolveError (Option String)) (item : Json) :
    Except ResolveError (Option String) :=
  if item.isNull then .ok none else idOf item

theorem enroll_of_loadPresent {item : Json} {entity? : Option Handle}
    (done : Yields context
      (loadPresent (fun item => loadEntity path id loadField cls (look item) sub) item) before
      entity? after) :
    ∃ id?, idUnlessNull (fun item => id.load path (look item)) item = .ok id? ∧
      ((id? = none ∧ entity? = none ∧ after = before) ∨
        ∃ id entity, id? = some id ∧ entity? = some entity ∧
          Yields context (enroll cls sub (fun item => loadValues loadField cls (look item) sub)
            (id, item)) before entity after) := by
  unfold loadPresent at done
  unfold idUnlessNull
  split at done
  · rename_i isNull
    obtain ⟨rfl, rfl⟩ := yields_pure_iff.mp done
    exact ⟨none, if_pos isNull, .inl ⟨rfl, rfl, rfl⟩⟩
  · rename_i isThere
    obtain ⟨id?, named, done⟩ := yields_ofExcept_bind_iff.mp done
    refine ⟨id?, (if_neg isThere).trans named, ?_⟩
    cases id? with
    | none =>
        obtain ⟨rfl, rfl⟩ := yields_pure_iff.mp done
        exact .inl ⟨rfl, rfl, rfl⟩
    | some id =>
        simp only [yields_bind_iff, yields_pure_iff] at done
        obtain ⟨values, middle, reads, entity, _, spawns, rfl, rfl⟩ := done
        exact .inr ⟨id, entity, rfl, rfl, yields_bind_iff.mpr ⟨values, middle, reads, spawns⟩⟩

theorem yields_mapM_cons {α β : Type} {step : α → Run β} {one : α} {rest : List α} {other : β}
    {others : List β} {middle : RunState} (first : Yields context (step one) before other middle)
    (remaining : Yields context (rest.mapM step) middle others after) :
    Yields context ((one :: rest).mapM step) before (other :: others) after := by
  rw [List.mapM_cons]
  simp only [yields_bind_iff, yields_pure_iff]
  exact ⟨other, middle, first, others, after, remaining, rfl, rfl⟩

theorem mapM_of_loadEntities {items : List Json}
    (done : Yields context
      (loadEntities (fun item => loadEntity path id loadField cls (look item) sub) items) before
      entities after) :
    ∃ rows, identify (idUnlessNull fun item => id.load path (look item)) items = .ok rows ∧
      Yields context (rows.mapM
        (enroll cls sub fun item => loadValues loadField cls (look item) sub)) before entities
        after := by
  induction items generalizing before entities with
  | nil => exact ⟨[], rfl, done⟩
  | cons item rest inductionHypothesis =>
      rw [loadEntities_cons] at done
      simp only [yields_bind_iff, yields_pure_iff] at done
      obtain ⟨entity?, middle, first, others, _, remaining, rfl, rfl⟩ := done
      obtain ⟨id?, named, present⟩ := enroll_of_loadPresent first
      obtain ⟨rows, identified, enrolls⟩ := inductionHypothesis remaining
      refine ⟨_, identify_cons_iff.mpr ⟨id?, rows, named, identified, rfl⟩, ?_⟩
      rcases present with ⟨rfl, rfl, rfl⟩ | ⟨id, entity, rfl, rfl, enrollsFirst⟩
      · exact enrolls
      · exact yields_mapM_cons enrollsFirst enrolls

def keyed (rows : List (String × (String × Json))) : List (String × (String × Json)) :=
  rows.map fun (id, key, item) => (key, id, item)

theorem mapM_of_loadMembers {members : List (String × Json)} {found : List (String × Handle)}
    (done : Yields context
      (loadMembers (fun item => loadEntity path id loadField cls (look item) sub) members) before
      found after) :
    ∃ rows, identify (fun member =>
        idUnlessNull (fun item => id.load path (look item)) member.2) members = .ok rows ∧
      Yields context ((keyed rows).mapM fun (key, row) => do
        return (key, ← enroll cls sub (fun item => loadValues loadField cls (look item) sub) row))
        before found after := by
  induction members generalizing before found with
  | nil => exact ⟨[], rfl, done⟩
  | cons member rest inductionHypothesis =>
      obtain ⟨key, item⟩ := member
      rw [loadMembers_cons] at done
      simp only [yields_bind_iff, yields_pure_iff] at done
      obtain ⟨entity?, middle, first, others, _, remaining, rfl, rfl⟩ := done
      obtain ⟨id?, named, present⟩ := enroll_of_loadPresent first
      obtain ⟨rows, identified, enrolls⟩ := inductionHypothesis remaining
      refine ⟨_, identify_cons_iff.mpr ⟨id?, rows, named, identified, rfl⟩, ?_⟩
      rcases present with ⟨rfl, rfl, rfl⟩ | ⟨id, entity, rfl, rfl, enrollsFirst⟩
      · exact enrolls
      · refine yields_mapM_cons (yields_bind_iff.mpr ⟨entity, middle, enrollsFirst, ?_⟩) enrolls
        exact yields_pure_iff.mpr ⟨rfl, rfl⟩

end Loops

namespace ListPlan

def idOf (plan : ListPlan) (around item : Json) : Except ResolveError (Option String) :=
  plan.id.load plan.path (liftInto plan.lifts around item)

def counted (plan : ListPlan) (rows : List (String × Json)) : List (String × Json) :=
  if plan.unique then firstOfEach rows else rows

def rowsOf (plan : ListPlan) (around : Json) (items : List Json) :
    Except ResolveError (List (String × Json)) :=
  (identify (plan.idOf around) items).map plan.counted

/-- Reads the values of an item, with the entities of its own list if the field is recursive. -/
def readItem (plan : ListPlan) (loadField : LoadField) (below : Json → Run (List Handle))
    (around item : Json) : Run FieldValues := do
  let item := liftInto plan.lifts around item
  let values ← loadValues loadField plan.cls item plan.sub
  if plan.sub.isRecursive plan.field.name && (item.member? plan.key).isSome then do
    let children ← below item
    return values.set plan.field.name (.list children)
  else return values

def unseen (plan : ListPlan) (seen : List String) (rows : List (String × Json)) :
    List (String × Json) :=
  if plan.unique then rows.filter fun row => !seen.contains row.1 else rows

variable {plan : ListPlan} {seen : List String} {row : String × Json}

theorem counted_nil : plan.counted [] = [] := by
  unfold counted
  split <;> rfl

theorem rowsOf_nil (around : Json) : plan.rowsOf around [] = .ok [] :=
  congrArg Except.ok counted_nil

theorem unseen_nil (rows : List (String × Json)) : plan.unseen [] rows = rows := by
  unfold unseen
  split
  · exact List.filter_eq_self.mpr fun _ _ => rfl
  · rfl

theorem unseen_cons_of_seen (known : (plan.unique && seen.contains row.1) = true)
    (rows : List (String × Json)) : plan.unseen seen (row :: rows) = plan.unseen seen rows := by
  obtain ⟨isUnique, isSeen⟩ := Bool.and_eq_true_iff.mp known
  rw [unseen, unseen, if_pos isUnique, if_pos isUnique,
    List.filter_cons_of_neg (by rw [isSeen]; exact Bool.false_ne_true)]

theorem counted_unseen_cons (fresh : (plan.unique && seen.contains row.1) = false)
    (rows : List (String × Json)) :
    plan.counted (plan.unseen seen (row :: rows)) =
      row :: plan.counted (plan.unseen (row.1 :: seen) rows) := by
  unfold counted unseen
  cases isUnique : plan.unique with
  | false => rfl
  | true =>
      rw [isUnique, Bool.true_and] at fresh
      simp only [if_true]
      rw [List.filter_cons_of_pos (by rw [fresh]; rfl), firstOfEach_cons, List.filter_filter]
      congr 2
      refine List.filter_congr fun other _ => ?_
      rw [List.contains_cons, Bool.not_or, bne]

end ListPlan

variable {plan : ListPlan} {loadField : LoadField} {below : Json → Run (List Handle)}
variable {around : Json}

theorem loadItems_cons_of_fresh {id : String} {seen : List String} {item : Json}
    (named : plan.idOf around item = .ok (some id))
    (fresh : (plan.unique && seen.contains id) = false)
    (rest : List Json) :
    loadItems plan loadField below around seen (item :: rest) = (do
      let entity ← enroll plan.cls plan.sub (plan.readItem loadField below around) (id, item)
      let entities ← loadItems plan loadField below around (id :: seen) rest
      return entity :: entities) := by
  unfold ListPlan.idOf at named
  simp only [loadItems, named, ofExcept, pure_bind, fresh, enroll, ListPlan.readItem, bind_assoc]
  refine bind_congr fun values => ?_
  split
  · simp only [bind_assoc, pure_bind]
  · simp only [pure_bind]

theorem mapM_of_loadItems {seen : List String} {items : List Json}
    (done : Yields context (loadItems plan loadField below around seen items) before entities
      after) :
    ∃ rows, identify (plan.idOf around) items = .ok rows ∧
      Yields context ((plan.counted (plan.unseen seen rows)).mapM
        (enroll plan.cls plan.sub (plan.readItem loadField below around))) before entities after := by
  induction items generalizing before entities seen with
  | nil =>
      have none : plan.unseen seen [] = [] := by
        unfold ListPlan.unseen
        split <;> rfl
      refine ⟨[], rfl, ?_⟩
      rw [none, ListPlan.counted_nil]
      exact done
  | cons item rest inductionHypothesis =>
      obtain ⟨id?, named, reads⟩ := yields_ofExcept_bind_iff.mp done
      have identified {rows : List (String × Json)}
          (remaining : identify (plan.idOf around) rest = .ok rows) :
          identify (plan.idOf around) (item :: rest) =
            .ok ((id?.map fun id => (id, item)).toList ++ rows) :=
        identify_cons_iff.mpr ⟨id?, rows, named, remaining, rfl⟩
      cases id? with
      | none =>
          obtain ⟨rows, remaining, enrolls⟩ := inductionHypothesis reads
          exact ⟨rows, identified remaining, enrolls⟩
      | some id =>
          cases fresh : plan.unique && seen.contains id with
          | true =>
              simp only [fresh, if_true] at reads
              obtain ⟨rows, remaining, enrolls⟩ := inductionHypothesis reads
              refine ⟨(id, item) :: rows, identified remaining, ?_⟩
              rwa [ListPlan.unseen_cons_of_seen fresh]
          | false =>
              rw [loadItems_cons_of_fresh named fresh] at done
              simp only [yields_bind_iff, yields_pure_iff] at done
              obtain ⟨entity, middle, first, others, _, remaining, rfl, rfl⟩ := done
              obtain ⟨rows, remaining, enrolls⟩ := inductionHypothesis remaining
              refine ⟨(id, item) :: rows, identified remaining, ?_⟩
              rw [ListPlan.counted_unseen_cons fresh]
              exact yields_mapM_cons first enrolls

section Keys

variable {path key : String} {field : Field} {response : Json} {value : FieldValue Handle}

/-- A field whose key the response lacks is missing, and nothing is read for it. -/
theorem cases_of_withKey {load : Json → Run (FieldValue Handle)}
    (done : Yields context (withKey path field key response load) before value after) :
    (response.member? key = none ∧ value = .missing ∧ after = before) ∨
      ∃ stored, response.member? key = some stored ∧
        Yields context (load stored) before value after := by
  unfold withKey at done
  cases found : response.member? key with
  | none =>
      rw [found] at done
      obtain ⟨known, rfl⟩ := yields_ofExcept_iff.mp done
      unfold missingKey at known
      split at known
      · exact .inl ⟨rfl, (Except.ok.inj known).symm, rfl⟩
      · cases known
  | some stored =>
      rw [found] at done
      exact .inr ⟨stored, rfl, done⟩

/-- Nested entities are read from what is under their key, for the class that the field
refers to. -/
theorem cases_of_nested {shape : NestedShape} {id : IdSpec} {fields : FieldPickers}
    {hasSubfields unique : Bool} {lifts : List (String × String)}
    (done : Yields context
      ((Picker.nested shape key id fields hasSubfields lifts unique).load path field response sub)
      before value after) :
    (response.member? key = none ∧ value = .missing ∧ after = before) ∨
      ∃ stored cls, response.member? key = some stored ∧ field.kind.target? = some cls ∧
        Yields context (loadNested shape { path, key, id, lifts, unique, field, cls, sub }
          (fields.loadField path) response stored) before value after := by
  rw [Picker.load] at done
  rcases cases_of_withKey done with absent | ⟨stored, found, done⟩
  · exact .inl absent
  · obtain ⟨cls, known, done⟩ := yields_ofExcept_bind_iff.mp done
    exact .inr ⟨stored, cls, found, Field.target_eq_ok_iff.mp known, done⟩

end Keys

end Run

end EntityResolver
