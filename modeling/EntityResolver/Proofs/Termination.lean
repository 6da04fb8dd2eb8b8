import EntityResolver.Proofs.Run.Ending
import EntityResolver.Schema.Build
import EntityResolver.Selector.Parser

/-!
# Runs without recursion come to an end

Whatever the remote answers, what a fetch spawns is wanted with a selector from inside the one that
is fetched with. Without recursion the height of selectors falls on the way inside.
-/

set_option autoImplicit false

namespace EntityResolver

namespace Run

variable {context : RunContext} {demands : List Demand}

/-- Whatever calls were made earlier, the run ends after finitely many rounds: with enough of them
its outcome is always the same. In particular it is not given up, since the error of a run that is
given up tells its limit. Neither does it fail for lists that reading would never come to the end
of. -/
def Terminates (context : RunContext) (demands : List Demand) : Prop :=
  ∀ earlier : List Call, ∃ enough outcome,
    (∀ limit, enough ≤ limit →
      Demand.runWithin limit demands context { calls := earlier } = outcome) ∧
    ∀ error after, outcome = .error error after → error.isEndless = false

theorem terminates_of_roundsEnd
    (notEndless : ∀ {earlier} limit,
      ¬ Endless context (Demand.runWithin limit demands) { calls := earlier })
    (roundsEnd : ∀ {earlier ready},
      Yields context (do Demand.placeAll demands; prepare) { calls := earlier } () ready →
        RoundsEnd context ready) : Terminates context demands := by
  intro earlier
  have ends (limit : Nat) {error : ResolveError} {after : RunState}
      (failed : Demand.runWithin limit demands context { calls := earlier } = .error error after) :
      error.isEndless = false :=
    Bool.eq_false_iff.mpr fun isEndless => notEndless limit ⟨error, ⟨after, failed⟩, isEndless⟩
  suffices stable : ∃ enough, ∀ limit, enough ≤ limit →
      Demand.runWithin limit demands context { calls := earlier } =
        Demand.runWithin enough demands context { calls := earlier } by
    obtain ⟨enough, stable⟩ := stable
    exact ⟨enough, _, stable, fun _ _ failed => ends enough failed⟩
  cases begun : (do Demand.placeAll demands; prepare : Run Unit) context { calls := earlier } with
  | error error failed =>
      refine ⟨0, fun limit _ => ?_⟩
      rw [runWithin_eq, runWithin_eq, bind_of_error begun, bind_of_error begun]
  | ok _ ready =>
      obtain ⟨enough, final, stable⟩ := roundsEnd begun
      refine ⟨enough, fun limit more => ?_⟩
      rw [runWithin_of_begun limit begun, runWithin_of_begun enough begun]
      exact conclude_congr (stable limit more) final

theorem Ranking.terminates {ρ : Type*} [Preorder ρ] [WellFoundedLT ρ] (ranking : Ranking context ρ)
    (begins : BeginsIn (endingScope context) context demands)
    (waits : ∀ {earlier ready},
      Yields context (do Demand.placeAll demands; prepare) { calls := earlier } () ready →
        Waits ranking.fits ready)
    (reads : ∀ {cls pool getter candidacy}, (∀ target ∈ pool, ranking.fits target) →
      getter ∈ context.catalog.gettersOf cls → getter.candidacy? pool = some candidacy →
        (endingScope context).Reads getter.pickers candidacy.selector) :
    Terminates context demands :=
  terminates_of_roundsEnd (not_endless_of_run begins ranking.persists waits reads)
    fun begun => ranking.roundsEnd (waits begun)

/-- Without recursion, what a fetch spawns is wanted with a selector of lower height. -/
def heightRanking (context : RunContext) : Ranking context Nat where
  fits target := target.WellFormed ∧ target.selector.RecursionFree
  rank target := target.selector.height
  wellFormed fits := fits.1
  continues continues fits :=
    ⟨⟨fits.1.continues continues, continues.selector ▸ fits.2⟩, by rw [continues.selector]⟩
  fetches := by
    intro cls pool getter candidacy before results fetched fits _ offered none done target member
    obtain ⟨first, serves⟩ :=
      Getter.candidacy_serves (fun target member => (fits target member).1.1) offered
    obtain ⟨valid, free⟩ := (fits first serves.first_mem).1
    let lower (_ : ClassId) (selector : Selector) : Prop :=
      selector.Distinct ∧ selector.RecursionFree ∧ selector.height < first.selector.height
    let discipline := queueing context 0 lower (fun admitted => admitted.1)
      fun admitted member _ =>
        have inside := admitted.2.1.of_mem_resolved admitted.1 member
        ⟨admitted.1.of_mem_resolved member, inside.1, inside.2.trans admitted.2.2⟩
    have below : discipline.AdmitsBelow getter.cls candidacy.selector := by
      refine admitsBelow_of_serves serves valid fun {name sub other _} inFirst distinct same _ => ?_
      obtain ⟨freeOther, less⟩ := free.of_mem_resolved valid.distinct inFirst
      have distinctOther := valid.distinct.of_mem_resolved inFirst
      exact ⟨distinct,
        freeOther.of_same distinctOther distinct (Selector.same_symm distinct distinctOther same),
        Selector.height_eq_of_same distinct distinctOther same ▸ less⟩
    have started : discipline.invariant before := by
      simp [discipline, queueing, none]
    have fetched := (discipline.fetch (.inr trivial) candidacy below started).yields done
    obtain ⟨wellFormed, _, freeToo, less⟩ := fetched.1.valid target member
    obtain ⟨index, chosen, found⟩ := serves.chosenFirst
    exact ⟨⟨wellFormed, freeToo⟩, index, chosen, first, found, less⟩

/-- Without recursion a run comes to an end whatever the remote answers. -/
theorem terminates_of_recursionFree (context : RunContext) (demands : List Demand)
    (selectors : ∀ demand ∈ demands,
      demand.selector.Distinct ∧ demand.selector.RecursionFree) :
    Terminates context demands := by
  let plain (_ : ClassId) (selector : Selector) : Prop :=
    selector.Distinct ∧ selector.RecursionFree
  have below {cls inner : ClassId} {selector : Selector} {name : String} {sub : Selector}
      (admitted : plain cls selector) (member : (name, sub) ∈ selector.resolved)
      (_ : context.catalog.schema.Refers cls name inner) : plain inner sub :=
    ⟨admitted.1.of_mem_resolved member, (admitted.2.of_mem_resolved admitted.1 member).1⟩
  have waits {earlier : List Call} {ready : RunState}
      (begun : Yields context (do Demand.placeAll demands; prepare) { calls := earlier } () ready) :
      Waits (heightRanking context).fits ready := by
    have waits : Waits (fun target => target.WellFormed ∧ plain target.cls target.selector) ready :=
      waits_of_begun (fun admitted => admitted.1) below
        (fun demand member _ _ => selectors demand member) begun
    exact ⟨waits.none, waits.classed, fun target member =>
      ⟨(waits.fits target member).1, (waits.fits target member).2.2⟩⟩
  refine (heightRanking context).terminates (beginsIn_of_recursionFree selectors) waits
    fun fits _ offered => ?_
  obtain ⟨first, serves⟩ :=
    Getter.candidacy_serves (fun target member => (fits target member).1) offered
  obtain ⟨valid, free⟩ := fits first serves.first_mem
  intro name sub selected _ _
  have distinct := (serves.distinct valid).of_mem_resolved selected
  obtain ⟨other, inFirst, same⟩ :=
    serves.exists_resolved valid valid (Target.isAlike_refl valid) selected
  have distinctOther := valid.distinct.of_mem_resolved inFirst
  exact .inr ⟨distinct, (free.of_mem_resolved valid.distinct inFirst).1.of_same distinctOther
    distinct (Selector.same_symm distinct distinctOther same)⟩

end Run

namespace Units

def cls : ClassId := ⟨0⟩

/-- One class of units, of which nothing is known but the parent of each. -/
def decls : List ClassDecl :=
  [{ name := "Unit", fields := [{ name := "parent", kind := .optionalEntity "Unit" }] }]

def unitClass : EntityClass :=
  { id := cls
    name := "Unit"
    fields := [⟨"parent", cls, .optionalEntity cls, false, false⟩]
    searchItem := none
    foundField := none
    defaultSelector := .empty }

def schema : Schema := ⟨[unitClass]⟩

def getter : SingleGetter :=
  { path := "units/unit"
    cls := cls
    id := .elementary "unit_id"
    pickers := .field "parent" (.reference (.elementary "parent_id")) .none
    sendsFields := false }

def record (parent : Json) : Json := .object [("parent_id", parent)]

/-- Knows the parents of some units, null for a unit without parent. -/
def remote (parents : OrderedMap Json) : Remote := fun _ call =>
  .ok (((OrderedMap.get? call.params "unit_id").bind parents.get?).elim .null record)

def context (parents : OrderedMap Json) : RunContext where
  catalog := { Catalog.empty schema with getters := [.single getter] }
  remote := remote parents
  lang := .pl
  roundLimit := 0

theorem accepted (parents : OrderedMap Json) : Schema.ofDecls decls = .ok schema ∧
    Catalog.ofRegistrations schema [.getter (.single getter)] = .ok (context parents).catalog :=
  ⟨rfl, rfl⟩

def twice : Selector := .nested "parent" (.nested "parent" .empty .empty) .empty

/-- The parent of the parent is found even of a unit that is its own parent. -/
theorem terminates_twice :
    Run.Terminates (context [("1", .str "1")]) [.entity cls "1" twice [] true] :=
  Run.terminates_of_recursionFree _ _ fun demand member => by
    cases List.mem_singleton.mp member
    simp [Demand.selector, twice, Selector.Distinct, Selector.RecursionFree, Selector.names]

end Units

end EntityResolver
