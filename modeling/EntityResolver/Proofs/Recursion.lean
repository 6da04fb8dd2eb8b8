import EntityResolver.Proofs.Database
import EntityResolver.Proofs.Termination
import Mathlib.SetTheory.Ordinal.Rank

/-!
# Runs with recursion over a finite database

A recursive field is wanted again of every entity that it refers to, and nothing remembers where it
has been read before. So a run follows references for as long as they go on: it comes to an end if
no recursive fields lead from an entity back to itself, and need not otherwise.
-/

set_option autoImplicit false

namespace EntityResolver

namespace Run

variable {context : RunContext} {database : Database} {target : Target} {getter : Getter}

/-- A field that is recursive on the level leads from an entity to another one: reading it out of a
record of the entity leaves fields of the other one wanted, and the same as on the level. -/
def Leads (context : RunContext) (database : Database) (level : Selector)
    (entity other : EntityKey) : Prop :=
  ∃ getter ∈ context.catalog.gettersOf entity.1, ∃ record, database.Shows entity record ∧
    ∃ name sub, level.isRecursive name = true ∧ sub.Distinct ∧ sub.same level = true ∧
      ∃ target, Spawns context (getter.fields.loadField getter.path getter.cls record name sub)
        target ∧ target.selector = sub ∧ (target.cls, target.id) = other

theorem leads_of_same {level other : Selector} (distinct : level.Distinct)
    (distinctToo : other.Distinct) (same : level.same other = true) {first second : EntityKey}
    (leads : Leads context database level first second) :
    Leads context database other first second := by
  obtain ⟨getter, offers, record, shown, name, sub, recursive, distinctSub, sameSub, found⟩ := leads
  have entry : level.entry? name = some .recursive := by
    simpa [Selector.isRecursive] using recursive
  obtain ⟨theirs, foundToo, alike⟩ := ((Selector.same_iff distinct).mp same).2 name _ entry
  cases theirs with
  | nested inner => exact alike.elim
  | recursive =>
      exact ⟨getter, offers, record, shown, name, sub, by simp [Selector.isRecursive, foundToo],
        distinctSub, Selector.same_trans distinctSub distinct distinctToo sameSub same, found⟩

theorem leads_congr {level other : Selector} (distinct : level.Distinct)
    (distinctToo : other.Distinct) (same : level.same other = true) :
    Leads context database level = Leads context database other := by
  funext first second
  exact propext ⟨leads_of_same distinct distinctToo same,
    leads_of_same distinctToo distinct (Selector.same_symm distinct distinctToo same)⟩

/-- Over a finite database, what does not lead back comes to an end. -/
theorem wellFounded_leads (finite : database.Finite) {level : Selector}
    (acyclic : ∀ entity, ¬ Relation.TransGen (Leads context database level) entity entity) :
    WellFounded (flip (Leads context database level)) := by
  obtain ⟨known, inKnown⟩ := finite
  let inside (first second : { entity // entity ∈ known }) : Prop :=
    Leads context database level second.1 first.1
  have wellFounded : WellFounded inside := by
    have transitive : IsTrans _ (Relation.TransGen inside) :=
      ⟨fun _ _ _ => Relation.TransGen.trans⟩
    have irreflexive : Std.Irrefl (Relation.TransGen inside) := by
      refine ⟨fun entity circle => acyclic entity.1 ?_⟩
      exact Relation.TransGen.lift Subtype.val (fun _ _ step => step) _ _
        (Relation.transGen_swap.mp circle)
    exact Subrelation.wf (fun step => Relation.TransGen.single step)
      (Finite.wellFounded_of_trans_of_irrefl (Relation.TransGen inside))
  have leaf {entity : EntityKey} (unknown : entity ∉ known) :
      Acc (flip (Leads context database level)) entity := by
    refine .intro entity fun other leads => ?_
    obtain ⟨_, _, record, shown, _⟩ := leads
    exact absurd (inKnown entity record shown) unknown
  have reached (entity : { entity // entity ∈ known }) :
      Acc (flip (Leads context database level)) entity.1 := by
    induction entity using wellFounded.induction with
    | _ entity inductionHypothesis =>
        refine .intro entity.1 fun other leads => ?_
        by_cases isKnown : other ∈ known
        · exact inductionHypothesis ⟨other, isKnown⟩ leads
        · exact leaf isKnown
  refine ⟨fun entity => ?_⟩
  by_cases isKnown : entity ∈ known
  · exact reached ⟨entity, isKnown⟩
  · exact leaf isKnown

open Classical in
/-- How far steps lead from an entity, if they come to an end. -/
noncomputable def reach (leads : EntityKey → EntityKey → Prop) (entity : EntityKey) : Ordinal.{0} :=
  if wellFounded : WellFounded (flip leads) then (wellFounded.apply entity).rank else 0

theorem reach_lt {leads : EntityKey → EntityKey → Prop} (wellFounded : WellFounded (flip leads))
    {first second : EntityKey} (step : leads first second) :
    reach leads second < reach leads first := by
  unfold reach
  rw [dif_pos wellFounded, dif_pos wellFounded]
  exact Acc.rank_lt_of_rel (wellFounded.apply first) step

variable {demands : List Demand}

/-- The target is wanted with what is a level of a demanded selector, up to order. -/
def IsDemanded (demands : List Demand) (target : Target) : Prop :=
  ∃ demand ∈ demands, ∃ level, Selector.IsLevel level demand.selector ∧
    target.selector.same level = true

theorem isMet_of_spawns {fields : FieldPickers} {path : String} {cls : ClassId} {record : Json}
    {name : String} {sub : Selector} (distinct : sub.Distinct)
    (spawns : Spawns context (fields.loadField path cls record name sub) target) :
    target.WellFormed ∧ Selector.IsMet sub target.selector := by
  obtain ⟨before, value?, after, new, done, split, member⟩ := spawns
  let discipline := queueing context before.spawned.length
    (fun _ selector => selector.Distinct ∧ Selector.IsMet sub selector) (fun admitted => admitted.1)
    fun admitted member _ => ⟨admitted.1.of_mem_resolved member, admitted.2.next member⟩
  have started : discipline.invariant before := by simp [discipline, queueing]
  have reads : discipline.Reads (fields.loadField path) :=
    Discipline.loadField path fields (.inr trivial)
  have found := ((reads record (fun _ _ => ⟨distinct, .here⟩) started).yields done).1.valid
  have inside : target ∈ after.spawned.drop before.spawned.length := by simp [split, member]
  exact ⟨(found target inside).1, (found target inside).2.2⟩

/-- Recursive fields that lead nowhere back, on any level of what is demanded. -/
def NeverBack (context : RunContext) (database : Database) (demands : List Demand) : Prop :=
  ∀ demand ∈ demands, ∀ level, Selector.IsLevel level demand.selector →
    ∀ entity, ¬ Relation.TransGen (Leads context database level) entity entity

/-- The recursive fields of a level of a demanded selector come to an end. -/
theorem wellFounded_of_neverBack (finite : database.Finite)
    (distinct : ∀ demand ∈ demands, demand.selector.Distinct)
    (neverBack : NeverBack context database demands) (valid : target.WellFormed)
    (demanded : IsDemanded demands target) :
    WellFounded (flip (Leads context database target.selector)) := by
  obtain ⟨demand, member, level, inside, same⟩ := demanded
  rw [leads_congr valid.distinct (inside.distinct (distinct demand member)) same]
  exact wellFounded_leads finite (neverBack demand member level inside)

theorem isDemanded_of_isMet {first : Target} {name : String} {sub other : Selector}
    (distinct : ∀ demand ∈ demands, demand.selector.Distinct) (valid : first.WellFormed)
    (demanded : IsDemanded demands first) (member : (name, other) ∈ first.selector.resolved)
    (distinctSub : sub.Distinct) (same : sub.same other = true)
    (met : Selector.IsMet sub target.selector) : IsDemanded demands target := by
  obtain ⟨demand, inDemands, level, inside, sameLevel⟩ := demanded
  have distinctLevel := inside.distinct (distinct demand inDemands)
  obtain ⟨theirs, inLevel, sameTheirs⟩ :=
    Selector.exists_resolved_of_same valid.distinct distinctLevel sameLevel member
  have insideTheirs := inside.of_mem_resolved distinctLevel inLevel
  have sameSub := Selector.same_trans distinctSub (valid.distinct.of_mem_resolved member)
    (distinctLevel.of_mem_resolved inLevel) same sameTheirs
  exact ⟨demand, inDemands,
    met.exists_level distinctSub (distinct demand inDemands) insideTheirs sameSub⟩

/-- The rank of a target: the height of its selector, and on one level how far the recursive fields
lead from its entity. -/
noncomputable def reachRank (context : RunContext) (database : Database) (target : Target) :
    ℕ ×ₗ Ordinal.{0} :=
  toLex (target.selector.height,
    reach (Leads context database target.selector) (target.cls, target.id))

theorem reachRank_lt {first old : Target} {record : Json} {name : String} {sub other : Selector}
    (offers : getter ∈ context.catalog.gettersOf old.cls)
    (shown : database.Shows (old.cls, old.id) record)
    (validFirst : first.WellFormed) (validOld : old.WellFormed)
    (alike : old.selector.same first.selector = true)
    (wellFounded : WellFounded (flip (Leads context database first.selector)))
    (member : (name, other) ∈ first.selector.resolved) (distinctSub : sub.Distinct)
    (same : sub.same other = true)
    (spawns : Spawns context (getter.fields.loadField getter.path getter.cls record name sub)
      target) :
    reachRank context database target < reachRank context database old := by
  obtain ⟨valid, met⟩ := isMet_of_spawns distinctSub spawns
  have heights := Selector.height_eq_of_same validOld.distinct validFirst.distinct alike
  have heightSub := Selector.height_eq_of_same distinctSub
    (validFirst.distinct.of_mem_resolved member) same
  have lower (less : target.selector.height < first.selector.height) :
      reachRank context database target < reachRank context database old :=
    Prod.Lex.toLex_lt_toLex.mpr (.inl (heights ▸ less))
  rcases met.height_lt_or_eq distinctSub with less | sameSub
  · rcases Selector.height_lt_or_isRecursive validFirst.distinct member with lessToo | ⟨_, rfl⟩
    · exact lower (by omega)
    · exact lower (by omega)
  · rcases Selector.height_lt_or_isRecursive validFirst.distinct member with
      lessToo | ⟨recursive, rfl⟩
    · exact lower (by rw [sameSub]; omega)
    · have step : Leads context database first.selector (old.cls, old.id)
          (target.cls, target.id) :=
        ⟨getter, offers, record, shown, name, sub, recursive, distinctSub, same, target, spawns,
          sameSub, rfl⟩
      refine Prod.Lex.toLex_lt_toLex.mpr (.inr ⟨by rw [sameSub, heightSub, heights], ?_⟩)
      rw [leads_congr valid.distinct validFirst.distinct (sameSub ▸ same),
        leads_congr validOld.distinct validFirst.distinct alike]
      exact reach_lt wellFounded step

noncomputable def reachRanking (finite : database.Finite) (answers : database.Answers context)
    (distinct : ∀ demand ∈ demands, demand.selector.Distinct)
    (neverBack : NeverBack context database demands) : Ranking context (ℕ ×ₗ Ordinal.{0}) where
  fits target := target.WellFormed ∧ IsDemanded demands target
  rank := reachRank context database
  wellFormed fits := fits.1
  continues continues fits := by
    refine ⟨⟨fits.1.continues continues, ?_⟩, ?_⟩
    · rw [IsDemanded, continues.selector]
      exact fits.2
    · rw [reachRank, continues.selector, continues.cls, continues.id]
      rfl
  fetches := by
    intro cls pool getter candidacy before results fetched fits offers offered none done target
      member
    obtain ⟨first, serves⟩ :=
      Getter.candidacy_serves (fun target member => (fits target member).1.1) offered
    obtain ⟨validFirst, demanded⟩ := (fits first serves.first_mem).1
    obtain ⟨inGetters, sameClass⟩ : getter ∈ context.catalog.getters ∧ getter.cls = cls := by
      simpa [Catalog.gettersOf] using offers
    rcases fromRecords_fetch (answers getter inGetters) done target member with old |
      ⟨id, asked, record, shown, name, sub, selected, spawns⟩
    · rw [none] at old
      cases old
    · obtain ⟨other, inFirst, same⟩ :=
        serves.exists_resolved validFirst validFirst (Target.isAlike_refl validFirst) selected
      have distinctSub := (serves.distinct validFirst).of_mem_resolved selected
      obtain ⟨valid, met⟩ := isMet_of_spawns distinctSub spawns
      obtain ⟨index, chosen, old, found, rfl⟩ := serves.asked id asked
      obtain ⟨_, foundToo, alike, _⟩ := serves.chosen index chosen
      cases found.symm.trans foundToo
      obtain ⟨⟨validOld, _⟩, rfl⟩ := fits old (List.mem_of_getElem? found)
      refine ⟨⟨valid, isDemanded_of_isMet distinct validFirst demanded inFirst distinctSub same met⟩,
        index, chosen, old, found, ?_⟩
      exact reachRank_lt offers (sameClass ▸ shown) validFirst validOld
        (Target.same_of_isAlike alike)
        (wellFounded_of_neverBack finite distinct neverBack validFirst demanded) inFirst distinctSub
        same spawns

/-- Over a finite database a run comes to an end if no recursive fields lead from an entity back to
it, and no list of a response is fed by what is lifted in a circle. -/
theorem terminates_of_neverBack (context : RunContext) (database : Database)
    (demands : List Demand) (finite : database.Finite) (answers : database.Answers context)
    (distinct : ∀ demand ∈ demands, demand.selector.Distinct)
    (neverBack : NeverBack context database demands)
    (unfed : ∀ picker ∈ context.catalog.pickers ++ demands.flatMap Demand.pickers,
      picker.Unfed) : Terminates context demands := by
  let ranking := reachRanking finite answers distinct neverBack
  let demanded (_ : ClassId) (selector : Selector) : Prop := selector.Distinct ∧
    ∃ demand ∈ demands, ∃ level, Selector.IsLevel level demand.selector ∧
      selector.same level = true
  have below {cls inner : ClassId} {selector : Selector} {name : String} {sub : Selector}
      (admitted : demanded cls selector) (member : (name, sub) ∈ selector.resolved)
      (_ : context.catalog.schema.Refers cls name inner) : demanded inner sub := by
    obtain ⟨distinctSelector, demand, inDemands, level, inside, same⟩ := admitted
    refine ⟨distinctSelector.of_mem_resolved member, demand, inDemands, ?_⟩
    exact Selector.IsMet.exists_level (.next .here member) distinctSelector
      (distinct demand inDemands) inside same
  have admitted : ∀ demand ∈ demands, ∀ cls, demand.Begins context.catalog cls →
      demanded cls demand.selector := fun demand member _ _ =>
    ⟨distinct demand member, demand, member, demand.selector, .outermost,
      Selector.same_refl (distinct demand member)⟩
  have waits {earlier : List Call} {ready : RunState}
      (begun : Yields context (do Demand.placeAll demands; prepare) { calls := earlier } () ready) :
      Waits ranking.fits ready := by
    have waits : Waits (fun target => target.WellFormed ∧ demanded target.cls target.selector)
        ready := waits_of_begun (fun admitted => admitted.1) below admitted begun
    exact ⟨waits.none, waits.classed, fun target member =>
      ⟨(waits.fits target member).1, (waits.fits target member).2.2⟩⟩
  refine ranking.terminates (beginsIn_of_unfed unfed) waits fun _ offers _ =>
    reads_of_unfed fun picker inside => unfed picker (List.mem_append_left _ ?_)
  exact context.catalog.getter_pickers_subset (List.mem_filter.mp offers).1 inside

end Run

namespace Units

open Run

/-- The records that the remote of the units knows. -/
def database (parents : OrderedMap Json) : Database where
  Shows entity shown := entity.1 = cls ∧
    ∃ parent, OrderedMap.get? parents entity.2 = some parent ∧ shown = record parent

theorem finite_database (parents : OrderedMap Json) : (database parents).Finite := by
  refine ⟨parents.map fun entry => (cls, entry.1), ?_⟩
  rintro ⟨_, id⟩ _ ⟨rfl, parent, found, rfl⟩
  exact List.mem_map.mpr ⟨(id, parent), OrderedMap.mem_of_get? found, rfl⟩

theorem answers_database (parents : OrderedMap Json) :
    (database parents).Answers (context parents) := by
  intro known member
  cases List.mem_singleton.mp member
  intro id level params earlier response sent replied
  have shown : response = (OrderedMap.get? parents id).elim .null record := by
    cases sent
    cases replied
    rfl
  rw [shown]
  cases found : OrderedMap.get? parents id with
  | none => exact .inl rfl
  | some parent => exact .inr ⟨rfl, parent, found, rfl⟩

def ancestors : Selector := .nested "parent" (.recursive "parent" .empty) .empty

theorem parse_ancestors : Selector.parse schema unitClass "parent*" = .ok ancestors := by
  decide +kernel

def lineage (id : String) : List Demand := [.entity cls id ancestors [] true]

theorem id_of_spawns {parents : OrderedMap Json} {parent : Json} {name : String} {sub : Selector}
    {target : Target}
    (spawns : Spawns (context parents)
      (getter.pickers.loadField getter.path cls (record parent) name sub) target) :
    parent.isNull = false ∧ target.id = idText parent := by
  obtain ⟨before, value?, after, new, done, split, member⟩ := spawns
  have known : (context parents).catalog.schema.field? cls "parent" =
      some ⟨"parent", cls, .optionalEntity cls, false, false⟩ := rfl
  have read : (IdSpec.elementary "parent_id").load "units/unit" (record parent) =
      .ok (if parent.isNull then none else some (idText parent)) := rfl
  simp only [getter, FieldPickers.loadField] at done
  split at done
  · rename_i same
    subst same
    simp only [yields_bind_iff, yields_schema_iff] at done
    obtain ⟨_, begun, ⟨rfl, rfl⟩, done⟩ := done
    simp only [known, yields_bind_iff, yields_pure_iff] at done
    obtain ⟨value, _, loaded, rfl, rfl⟩ := done
    simp only [Picker.load, yields_bind_iff, yields_ofExcept_iff] at loaded
    obtain ⟨_, _, ⟨_, rfl⟩, id?, _, ⟨stored, rfl⟩, loaded⟩ := loaded
    cases isNull : parent.isNull with
    | true =>
        rw [read, isNull] at stored
        cases stored
        obtain ⟨rfl, rfl⟩ := yields_pure_iff.mp loaded
        rw [List.self_eq_append_right.mp split] at member
        cases member
    | false =>
        rw [read, isNull] at stored
        cases stored
        simp only [Bool.false_eq_true, if_false, yields_bind_iff, yields_spawn_nil_iff,
          yields_pure_iff] at loaded
        obtain ⟨_, _, ⟨rfl, rfl⟩, rfl, rfl⟩ := loaded
        have only := List.append_cancel_left split
        rw [← only] at member
        cases List.mem_singleton.mp (List.mem_of_mem_filter member)
        exact ⟨rfl, rfl⟩
  · obtain ⟨rfl, rfl⟩ := yields_pure_iff.mp done
    rw [List.self_eq_append_right.mp split] at member
    cases member

theorem id_of_leads {parents : OrderedMap Json} {level : Selector} {first second : EntityKey}
    (leads : Leads (context parents) (database parents) level first second) :
    ∃ parent, OrderedMap.get? parents first.2 = some parent ∧ parent.isNull = false ∧
      second.2 = idText parent := by
  obtain ⟨known, offers, _, ⟨_, parent, found, rfl⟩, _, _, _, _, _, target, spawns, _, rfl⟩ := leads
  cases List.mem_singleton.mp (List.mem_of_mem_filter offers)
  obtain ⟨present, same⟩ := id_of_spawns spawns
  exact ⟨parent, found, present, same⟩

/-- A unit with a parent that has none itself. -/
def line : OrderedMap Json := [("1", .null), ("2", .str "1")]

theorem neverBack_line : NeverBack (context line) (database line) (lineage "2") := by
  have ends {level : Selector} {first second : EntityKey}
      (leads : Leads (context line) (database line) level first second) :
      first.2 = "2" ∧ second.2 = "1" := by
    obtain ⟨parent, found, present, same⟩ := id_of_leads leads
    simp only [line, OrderedMap.get?] at found
    split at found
    · cases found
      cases present
    · split at found
      · rename_i named
        cases found
        exact ⟨named.symm, same⟩
      · cases found
  intro demand _ level _ entity circle
  obtain ⟨_, first, _⟩ := Relation.TransGen.head'_iff.mp circle
  obtain ⟨_, _, last⟩ := Relation.TransGen.tail'_iff.mp circle
  exact absurd ((ends first).1.symm.trans (ends last).2) (by decide)

/-- All ancestors of a unit are found where the units are in line. -/
theorem terminates_line : Terminates (context line) (lineage "2") :=
  terminates_of_neverBack _ (database line) _ (finite_database line) (answers_database line)
    (fun demand member => by
      cases List.mem_singleton.mp member
      simp [Demand.selector, ancestors, Selector.Distinct, Selector.names])
    neverBack_line
    (fun picker member => by
      cases List.mem_singleton.mp member
      trivial)

/-- A unit that is its own parent. -/
def circle : OrderedMap Json := [("1", .str "1")]

/-- What a unit of the circle is wanted with behind its first parent. -/
def endless : Selector := .recursive "parent" .empty

def wish (entity : Handle) (level : Selector) (isWeak : Bool) : Target :=
  ⟨entity, cls, "1", level, ["parent"], isWeak⟩

/-- The only thing wanted is the parent of the unit. -/
def Stuck (state : RunState) : Prop :=
  state.spawned = [] ∧ ∃ entity isWeak level, (level = ancestors ∨ level = endless) ∧
    state.pools = [(cls, [wish entity level isWeak])]

section Stuck

variable {level : Selector} {before : RunState}

theorem best_of_level (known : level = ancestors ∨ level = endless) (entity : Handle)
    (isWeak : Bool) :
    bestCandidacy? [wish entity level isWeak] ((context circle).catalog.gettersOf cls) =
      some (.single getter, ⟨[0], ["1"], level, 1⟩) := by
  rcases known with rfl | rfl <;> rfl

theorem fetch_of_level (known : level = ancestors ∨ level = endless) (state : RunState) :
    ∃ fetched parent,
      Yields (context circle) (getter.fetchAll level ["1"]) state
        [("1", .found [("parent", .optional (some parent))])] fetched ∧
      fetched.pools = state.pools ∧ fetched.spawned = state.spawned ++
        [wish parent endless false] := by
  rcases known with rfl | rfl
  all_goals exact ⟨(called state ⟨getter.path, _⟩).wished
    ⟨⟨state.arena.size⟩, cls, "1", endless, false⟩, ⟨state.arena.size⟩, rfl, rfl, rfl⟩

theorem settle_of_level (known : level = ancestors ∨ level = endless) (entity parent : Handle)
    (isWeak : Bool) (state : RunState) :
    ∃ after, Yields (context circle)
      (settleChosen getter.path level.names [("1", .found [("parent", .optional (some parent))])]
        [0] 0 [wish entity level isWeak]) state [(wish entity level isWeak).without "parent"] after ∧
      state.Quiet after := by
  rcases known with rfl | rfl
  all_goals exact ⟨_, rfl, (RunState.quiet_kept _ _ _ _ _).trans
    (RunState.quiet_stored _ _ _ _ _)⟩

/-- The cache does not serve a field that is selected with fields below it. -/
theorem sweep_endless (entity : Handle) (state : RunState) :
    Yields (context circle) (sweepPools [(cls, [wish entity endless false])]) state
      [(cls, [wish entity endless false])] state :=
  rfl

theorem round_of_stuck (stuck : Stuck before) :
    ∃ after, Yields (context circle) round before () after ∧ Stuck after := by
  obtain ⟨none, entity, isWeak, level, known, pools⟩ := stuck
  obtain ⟨fetched, parent, fetches, fetchedPools, fetchedSpawned⟩ :=
    fetch_of_level known { before.counted with pools := [] }
  obtain ⟨_, settles, arena, events, cache, stats, rfl⟩ :=
    settle_of_level known entity parent isWeak fetched
  let settled := (wish entity level isWeak).without "parent"
  let last : RunState :=
    { fetched with arena := arena, events := events, cache := cache, stats := stats }
  let served : RunState := { last with pools := last.pools ++ prune [(cls, [settled])] }
  have service : Service (context circle) before.counted served :=
    { cls := cls
      pool := [wish entity level isWeak]
      others := []
      getter := .single getter
      candidacy := ⟨[0], ["1"], level, 1⟩
      results := [("1", .found [("parent", .optional (some parent))])]
      fetched := fetched
      settled := [settled]
      last := last
      first := pools
      best := best_of_level known entity isWeak
      fetches := fetches
      settles := settles
      ends := rfl }
  have spawned : served.spawned = [wish parent endless false] := by
    change fetched.spawned = _
    rw [fetchedSpawned]
    simp [none, RunState.counted]
  have servedPools : served.pools = [] := by
    change fetched.pools ++ _ = _
    rw [fetchedPools]
    rfl
  have filled : served.filled.pools = [(cls, [wish parent endless false])] := by
    rw [RunState.filled, spawned, servedPools]
    rfl
  have swept := sweep_endless parent served.filled
  rw [← filled] at swept
  refine ⟨_, yields_round service swept, rfl, parent, false, endless, .inr rfl, ?_⟩
  rw [filled]
  rfl

theorem rounds_of_stuck (stuck : Stuck before) (limit : Nat) :
    ∃ after, Yields (context circle) (rounds limit) before false after := by
  induction limit generalizing before with
  | zero =>
      obtain ⟨_, _, _, _, _, pools⟩ := stuck
      refine ⟨before, ?_⟩
      simp only [rounds, yields_bind_iff, yields_get_iff, yields_pure_iff]
      exact ⟨before, before, ⟨rfl, rfl⟩, by simp [pools], rfl⟩
  | succ limit inductionHypothesis =>
      obtain ⟨middle, first, stuckToo⟩ := round_of_stuck stuck
      obtain ⟨after, rest⟩ := inductionHypothesis stuckToo
      obtain ⟨_, _, _, _, _, pools⟩ := stuck
      refine ⟨after, ?_⟩
      rw [Yields, rounds_succ (by simp [pools])]
      exact yields_bind_iff.mpr ⟨_, _, first, rest⟩

end Stuck

theorem stuck_of_begun : ∃ ready,
    Yields (context circle) (do Demand.placeAll (lineage "1"); prepare) {} () ready ∧
      Stuck ready :=
  ⟨_, rfl, rfl, ⟨0⟩, true, ancestors, .inl rfl, rfl⟩

theorem runWithin_circle (limit : Nat) : ∃ after,
    Demand.runWithin limit (lineage "1") (context circle) {} =
      .error (.tooManyRounds limit) after := by
  obtain ⟨ready, begun, stuck⟩ := stuck_of_begun
  obtain ⟨after, ends⟩ := rounds_of_stuck stuck limit
  exact ⟨after, by rw [runWithin_of_begun limit begun, conclude, ends.bind]; rfl⟩

/-- Over a finite database, a selector that is read from a text can make a run go on without end: it
is given up whatever the limit. -/
theorem endless_circle :
    Schema.ofDecls decls = .ok schema ∧
    Catalog.ofRegistrations schema [.getter (.single getter)] = .ok (context circle).catalog ∧
    Selector.parse schema unitClass "parent*" = .ok ancestors ∧
    (database circle).Finite ∧ (database circle).Answers (context circle) ∧
    (∀ limit, ∃ after,
      Demand.runWithin limit [.entity cls "1" ancestors [] true] (context circle) { calls := [] } =
        .error (.tooManyRounds limit) after) ∧
    ¬ Terminates (context circle) [.entity cls "1" ancestors [] true] := by
  obtain ⟨schemaAccepted, catalogAccepted⟩ := accepted circle
  refine ⟨schemaAccepted, catalogAccepted, parse_ancestors, finite_database circle,
    answers_database circle, runWithin_circle, ?_⟩
  intro terminates
  obtain ⟨enough, outcome, stable, _⟩ := terminates []
  obtain ⟨_, first⟩ := runWithin_circle enough
  obtain ⟨_, second⟩ := runWithin_circle (enough + 1)
  have same := (stable enough (Nat.le_refl _)).symm.trans first
  rw [lineage, stable (enough + 1) (by omega), same] at second
  cases second

end Units

end EntityResolver
