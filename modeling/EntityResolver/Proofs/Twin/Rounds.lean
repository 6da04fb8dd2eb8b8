import EntityResolver.Proofs.Run.Candidates
import EntityResolver.Proofs.Twin.Fetching

/-!
Rounds of two runs side by side.

Which getter is called, for which targets and with which fields, depends on the targets that wait,
and these are the same in both runs; what the cache serves is told by entities and fields. So the
runs stay at the same point to their end.
-/

set_option autoImplicit false

namespace EntityResolver.Run.Pairing

variable {context : RunContext} {other : Lang} {pairing : Pairing context other}
variable {before : RunState × RunState} {state twin : RunState} {target : Target}
variable {path : String} {names : List String} {results resultsToo : FetchResults}
variable {values valuesToo : FieldValues}

theorem joins_resolveFetched (valid : pairing.Paired before)
    (known : Hosts before.1.arena target.cls target.entity)
    (carries : pairing.Carries before.1.arena target.cls names values valuesToo) :
    pairing.Joins before (resolveFetched path values names target)
      (resolveFetched path valuesToo names target) fun one two _ =>
        one = two ∧ target.Continues one := by
  induction names generalizing before target with
  | nil => exact joins_pure valid ⟨rfl, .refl _⟩
  | cons name rest inductionHypothesis =>
      have carriesRest : pairing.Carries before.1.arena target.cls rest values valuesToo :=
        ⟨carries.brings, fun name member => carries.full name (List.mem_cons_of_mem _ member)⟩
      simp only [resolveFetched]
      split
      · rcases optionRel_cases (carries.brings.get? name) with
          ⟨here, there⟩ | ⟨value, valueToo, here, there, suits⟩
        · rw [here, there]
          rcases carries.full name List.mem_cons_self with given | permits
          · rw [here] at given
            cases given
          · exact joins_throw valid (permits _)
        · rw [here, there]
          apply (joins_resolveAndCache valid known suits).bind
          rintro _ _ middle reached ⟨rfl, rfl⟩
          have knownThere : Hosts middle.1.arena (target.without name).cls
              (target.without name).entity := reached.later _ _ known
          have carriesThere : pairing.Carries middle.1.arena (target.without name).cls rest values
              valuesToo := carriesRest.mono reached.later
          apply (inductionHypothesis reached.valid knownThere carriesThere).mono
          rintro one _ after ⟨rfl, continues⟩
          exact ⟨rfl, (target.continues_without name).trans continues⟩
      · exact inductionHypothesis valid known carriesRest

theorem joins_giveUp (valid : pairing.Paired before) :
    pairing.Joins before (giveUp target) (giveUp target) fun one two _ =>
      one = two ∧ target.Continues one := by
  cases isWeak : target.isWeak with
  | true =>
      obtain ⟨state, twin⟩ := before
      exact joins_of_yields (yields_giveUp_iff.mpr ⟨isWeak, rfl, rfl⟩)
        (yields_giveUp_iff.mpr ⟨isWeak, rfl, rfl⟩) (valid.forgotten target)
        ⟨rfl, rfl, rfl, rfl, rfl, List.nil_sublist _⟩
  | false =>
      unfold giveUp
      rw [if_neg (by simp [isWeak])]
      apply joins_className_bind
      exact joins_throw valid (pairing.permitted not_false)

theorem joins_settle (valid : pairing.Paired before)
    (known : Hosts before.1.arena target.cls target.entity)
    (delivers : pairing.Delivers before.1.arena target.cls names results resultsToo) :
    pairing.Joins before (settle path names results target) (settle path names resultsToo target)
      fun one two _ => one = two ∧ target.Continues one := by
  unfold settle
  rcases optionRel_cases (delivers.get? target.id) with ⟨here, there⟩ | ⟨_, _, here, there, same⟩
  · rw [here, there]
    exact joins_giveUp valid
  · rw [here, there]
    cases same with
    | found carries => exact joins_resolveFetched valid known carries
    | absent => exact joins_giveUp valid

theorem joins_settleChosen {cls : ClassId} {chosen : List Nat} {position : Nat} {pool : List Target}
    (valid : pairing.Paired before)
    (fine : ∀ target ∈ pool, pairing.Fine before.1.arena target ∧ target.cls = cls)
    (delivers : pairing.Delivers before.1.arena cls names results resultsToo) :
    pairing.Joins before (settleChosen path names results chosen position pool)
      (settleChosen path names resultsToo chosen position pool) fun one two _ =>
        one = two ∧ List.Forall₂ Target.Continues pool one := by
  induction pool generalizing before position with
  | nil => exact joins_pure valid ⟨rfl, .nil⟩
  | cons target rest inductionHypothesis =>
      obtain ⟨own, ofClass⟩ := fine target List.mem_cons_self
      rw [settleChosen_cons, settleChosen_cons]
      have first : pairing.Joins before (settleAt path names results chosen position target)
          (settleAt path names resultsToo chosen position target) fun one two _ =>
            one = two ∧ target.Continues one := by
        unfold settleAt
        split
        · exact joins_settle valid own.known (ofClass ▸ delivers)
        · exact joins_pure valid ⟨rfl, .refl _⟩
      apply first.bind
      rintro settled _ middle reached ⟨rfl, continues⟩
      have fineRest : ∀ target ∈ rest, pairing.Fine middle.1.arena target ∧ target.cls = cls := by
        intro target member
        obtain ⟨fineThere, ofClass⟩ := fine target (List.mem_cons_of_mem _ member)
        exact ⟨fineThere.mono reached.later, ofClass⟩
      apply (inductionHypothesis reached.valid fineRest (delivers.mono reached.later)).bind
      rintro others _ after second ⟨rfl, all⟩
      exact joins_pure second.valid ⟨rfl, .cons continues all⟩

theorem cached_alike (valid : pairing.Paired (state, twin)) (cls : ClassId) (id name : String) :
    Option.Rel (pairing.Alike cls name) (state.cached? cls id name) (twin.cached? cls id name) := by
  have entries : List.Forall₂ pairing.SameEntry state.cache twin.cache := valid.cache
  unfold RunState.cached?
  generalize state.cache = here at entries ⊢
  generalize twin.cache = there at entries ⊢
  induction entries with
  | nil => exact .none
  | @cons entry entryToo _ _ same _ inductionHypothesis =>
      simp only [List.find?_cons, same.cls, same.id, same.field]
      split
      · rename_i matching
        simp only [Bool.and_eq_true, beq_iff_eq] at matching
        obtain ⟨⟨rfl, _⟩, rfl⟩ := matching
        exact .some same.alike
      · exact inductionHypothesis

theorem servable_matched (valid : pairing.Paired (state, twin)) (target : Target) :
    OrderedMap.Matched (pairing.Alike target.cls) (servable state target) (servable twin target) := by
  unfold servable
  induction target.unresolved with
  | nil => exact .nil
  | cons name rest inductionHypothesis =>
      simp only [List.filterMap_cons]
      by_cases plain : (target.selector.subselector? name).all Selector.isEmpty = true
      · simp only [if_pos plain]
        rcases optionRel_cases (cached_alike valid target.cls target.id name) with
          ⟨here, there⟩ | ⟨_, _, here, there, alike⟩
        · rw [here, there]
          exact inductionHypothesis
        · rw [here, there]
          exact .cons ⟨rfl, alike⟩ inductionHypothesis
      · simp only [if_neg plain]
        exact inductionHypothesis

theorem joins_mapM {α β : Type} (good : RunState × RunState → α → β → Prop) {visit : α → Run β}
    (keeps : ∀ {before after one two}, pairing.Reaches before after → good before one two →
      good after one two)
    (each : ∀ {before} one, pairing.Paired before →
      pairing.Joins before (visit one) (visit one) fun found twin after =>
        found = twin ∧ good after one found)
    (ones : List α) (valid : pairing.Paired before) :
    pairing.Joins before (ones.mapM visit) (ones.mapM visit) fun found twin after =>
      found = twin ∧ List.Forall₂ (good after) ones found := by
  induction ones generalizing before with
  | nil =>
      simp only [List.mapM_nil]
      exact joins_pure valid ⟨rfl, .nil⟩
  | cons one rest inductionHypothesis =>
      simp only [List.mapM_cons]
      apply (each one valid).bind
      rintro found _ middle first ⟨rfl, own⟩
      apply (inductionHypothesis first.valid).bind
      rintro others _ after second ⟨rfl, all⟩
      exact joins_pure second.valid ⟨rfl, .cons (keeps second own) all⟩

theorem joins_traverse {ε τ : Type} (good : RunState × RunState → ε → τ → Prop) {visit : ε → Run τ}
    (keeps : ∀ {before after one two}, pairing.Reaches before after → good before one two →
      good after one two)
    (each : ∀ {before} one, pairing.Paired before →
      pairing.Joins before (visit one) (visit one) fun found twin after =>
        found = twin ∧ good after one found)
    (value : FieldValue ε) (valid : pairing.Paired before) :
    pairing.Joins before (value.traverseEntities visit) (value.traverseEntities visit)
      fun found twin after => found = twin ∧ value.Rel (good after) found := by
  cases value with
  | missing => exact joins_pure valid ⟨rfl, .missing⟩
  | scalar scalar => exact joins_pure valid ⟨rfl, .scalar scalar⟩
  | entity one =>
      apply (each one valid).bind
      rintro found _ after reached ⟨rfl, own⟩
      exact joins_pure reached.valid ⟨rfl, .entity own⟩
  | optional one? =>
      cases one? with
      | none => exact joins_pure valid ⟨rfl, .optional .none⟩
      | some one =>
          apply (each one valid).bind
          rintro found _ after reached ⟨rfl, own⟩
          exact joins_pure reached.valid ⟨rfl, .optional (.some own)⟩
  | list ones =>
      apply (joins_mapM good keeps each ones valid).bind
      rintro found _ after reached ⟨rfl, all⟩
      exact joins_pure reached.valid ⟨rfl, .list all⟩
  | map ones =>
      have eachEntry {before : RunState × RunState} (one : String × ε)
          (valid : pairing.Paired before) :
          pairing.Joins before (do return (one.1, ← visit one.2)) (do return (one.1, ← visit one.2))
            fun found twin after => found = twin ∧ one.1 = found.1 ∧ good after one.2 found.2 := by
        apply (each one.2 valid).bind
        rintro found _ after reached ⟨rfl, own⟩
        exact joins_pure reached.valid ⟨rfl, rfl, own⟩
      have keepsEntry {before after : RunState × RunState} {one : String × ε} {found : String × τ}
          (reached : pairing.Reaches before after)
          (pair : one.1 = found.1 ∧ good before one.2 found.2) :
          one.1 = found.1 ∧ good after one.2 found.2 :=
        ⟨pair.1, keeps reached pair.2⟩
      apply (joins_mapM (fun after one found => one.1 = found.1 ∧ good after one.2 found.2) keepsEntry
        eachEntry ones valid).bind
      rintro found _ after reached ⟨rfl, all⟩
      exact joins_pure reached.valid ⟨rfl, .map all⟩

theorem joins_revive {cls referenced : ClassId} {name : String}
    {kept keptToo : FieldValue String} (valid : pairing.Paired before)
    (alike : pairing.Alike cls name kept keptToo)
    (links : kept.shape.entities ≠ [] → pairing.links cls name referenced) :
    pairing.Joins before
      (kept.traverseEntities fun id => alloc referenced (some id) [])
      (keptToo.traverseEntities fun id => alloc referenced (some id) []) fun one two after =>
        pairing.Suits after.1.arena cls name one two := by
  cases alike with
  | apart apart => exact joins_pure valid ⟨.apart apart, fun _ member => by cases member⟩
  | same holds =>
      have each {before : RunState × RunState} (id : String) (valid : pairing.Paired before) :
          pairing.Joins before (alloc referenced (some id) []) (alloc referenced (some id) [])
            fun found twin after => found = twin ∧ Hosts after.1.arena referenced found :=
        joins_alloc valid .nil
      apply (joins_traverse (fun after _ found => Hosts after.1.arena referenced found)
        (fun reached known => reached.later _ _ known) each kept valid).mono
      rintro value _ after ⟨rfl, same⟩
      apply suits_of_holds (by rwa [same.shape_eq])
      intro entity member
      obtain ⟨id, inKept, known⟩ := same.exists_of_mem member
      refine ⟨referenced, links ?_, known⟩
      rw [FieldValue.shape, FieldValue.entities_mapEntities]
      exact List.ne_nil_of_mem (List.mem_map_of_mem inKept)

theorem joins_resolve_cache {value valueToo : FieldValue Handle} {name : String}
    (valid : pairing.Paired before) (known : Hosts before.1.arena target.cls target.entity)
    (suits : pairing.Suits before.1.arena target.cls name value valueToo) :
    pairing.Joins before (resolve .cache target name value) (resolve .cache target name valueToo)
      fun one two _ => one = two ∧ one = target.without name := by
  obtain ⟨state, twin⟩ := before
  exact joins_of_yields (yields_resolve_iff.mpr ⟨rfl, rfl⟩) (yields_resolve_iff.mpr ⟨rfl, rfl⟩)
    (valid.stored .cache known suits) ⟨rfl, rfl⟩

theorem joins_countHit (valid : pairing.Paired before) :
    pairing.Joins before
      (modify fun state => { state with
        stats := { state.stats with cacheHits := state.stats.cacheHits + 1 } })
      (modify fun state => { state with
        stats := { state.stats with cacheHits := state.stats.cacheHits + 1 } })
      fun _ _ _ => True := by
  obtain ⟨state, twin⟩ := before
  obtain ⟨arena, cache, events, rfl⟩ := valid.exists_eq
  exact joins_modify (valid.framed state.calls
    { state.stats with cacheHits := state.stats.cacheHits + 1 } state.outputs state.origins) trivial

theorem joins_resolveCached {served servedToo : List (String × FieldValue String)}
    (valid : pairing.Paired before) (known : Hosts before.1.arena target.cls target.entity)
    (matched : OrderedMap.Matched (pairing.Alike target.cls) served servedToo) :
    pairing.Joins before (resolveCached served target) (resolveCached servedToo target)
      fun one two _ => one = two ∧ target.Continues one := by
  induction served generalizing before target servedToo with
  | nil =>
      cases matched
      exact joins_pure valid ⟨rfl, .refl _⟩
  | cons entry rest inductionHypothesis =>
      obtain _ | ⟨pair, matchedRest⟩ := matched
      rename_i entryToo restToo
      obtain ⟨name, kept⟩ := entry
      obtain ⟨nameToo, keptToo⟩ := entryToo
      obtain ⟨rfl, alike⟩ := pair
      simp only [resolveCached]
      apply joins_schema_bind
      split
      · exact inductionHypothesis valid known matchedRest
      · rename_i field found
        have links (nonempty : kept.shape.entities ≠ []) :
            pairing.links target.cls nameToo (field.kind.target?.getD target.cls) := by
          apply pairing.revives found ?_ nonempty
          cases alike with
          | same holds => exact holds
          | apart _ => exact absurd rfl nonempty
        apply (joins_revive valid alike links).bind
        intro value valueToo revived first suits
        apply (joins_resolve_cache first.valid (first.later _ _ known) suits).bind
        rintro _ _ stored second ⟨rfl, rfl⟩
        apply (joins_countHit second.valid).bind
        rintro _ _ middle third -
        have knownMiddle : Hosts middle.1.arena (target.without nameToo).cls
            (target.without nameToo).entity :=
          third.later _ _ (second.later _ _ (first.later _ _ known))
        apply (inductionHypothesis third.valid knownMiddle matchedRest).mono
        rintro one _ after ⟨rfl, continues⟩
        exact ⟨rfl, (target.continues_without nameToo).trans continues⟩

theorem joins_sweepPool {pool : List Target} (valid : pairing.Paired before)
    (fine : ∀ target ∈ pool, pairing.Fine before.1.arena target) :
    pairing.Joins before (sweepPool pool) (sweepPool pool) fun one two _ =>
      one = two ∧ List.Forall₂ Target.Continues pool one := by
  induction pool generalizing before with
  | nil => exact joins_pure valid ⟨rfl, .nil⟩
  | cons target rest inductionHypothesis =>
      obtain ⟨state, twin⟩ := before
      unfold sweepPool
      apply joins_get_bind
      have own := fine target List.mem_cons_self
      apply (joins_resolveCached valid own.known (servable_matched valid target)).bind
      rintro swept _ middle first ⟨rfl, continues⟩
      apply (inductionHypothesis first.valid fun other member =>
        (fine other (List.mem_cons_of_mem _ member)).mono first.later).bind
      rintro others _ after second ⟨rfl, all⟩
      exact joins_pure second.valid ⟨rfl, .cons continues all⟩

theorem joins_sweepPools {pools : List (ClassId × List Target)} (valid : pairing.Paired before)
    (fine : ∀ target ∈ pools.flatMap Prod.snd, pairing.Fine before.1.arena target) :
    pairing.Joins before (sweepPools pools) (sweepPools pools) fun one two _ =>
      one = two ∧ List.Forall₂ (fun old new =>
        new.1 = old.1 ∧ List.Forall₂ Target.Continues old.2 new.2) pools one := by
  induction pools generalizing before with
  | nil => exact joins_pure valid ⟨rfl, .nil⟩
  | cons entry rest inductionHypothesis =>
      obtain ⟨cls, pool⟩ := entry
      rw [List.flatMap_cons] at fine
      unfold sweepPools
      apply (joins_sweepPool valid fun target member =>
        fine target (List.mem_append_left _ member)).bind
      rintro swept _ middle first ⟨rfl, continue_⟩
      apply (inductionHypothesis first.valid fun target member =>
        (fine target (List.mem_append_right _ member)).mono first.later).bind
      rintro others _ after second ⟨rfl, all⟩
      exact joins_pure second.valid ⟨rfl, .cons ⟨rfl, continue_⟩ all⟩

/-- A getter that is called for a pool is asked for fields of its class, and supplies them. -/
theorem joins_fetch_best {cls : ClassId} {pool : List Target} {getter : Getter}
    {candidacy : Candidacy}
    (best : bestCandidacy? pool (context.catalog.gettersOf cls) = some (getter, candidacy))
    (fine : ∀ target ∈ pool, pairing.Fine before.1.arena target ∧ target.cls = cls)
    (valid : pairing.Paired before) :
    pairing.Joins before (getter.fetch candidacy) (getter.fetch candidacy) fun one two after =>
      pairing.Delivers after.1.arena cls candidacy.selector.names one two := by
  obtain ⟨inGetters, offered⟩ := mem_of_bestCandidacy best
  obtain ⟨inCatalog, ofClass⟩ := List.mem_filter.mp inGetters
  obtain rfl : getter.cls = cls := by simpa using ofClass
  obtain ⟨first, serves⟩ := Getter.candidacy_serves
    (fun target member => (fine target member).1.wellFormed) offered
  obtain ⟨fineFirst, sameClass⟩ := fine first serves.first_mem
  apply joins_fetch inCatalog ?_ ?_ valid
  · rw [serves.selector]
    exact pairing.projects _ (sameClass ▸ fineFirst.admitted)
  · exact serves.names_subset_supplied fineFirst.wellFormed

/-- The first pool is taken out while it is served. -/
theorem joins_takeFirst {cls : ClassId} {pool : List Target} {others : List (ClassId × List Target)}
    (valid : pairing.Paired before) (first : before.1.pools = (cls, pool) :: others) :
    pairing.Joins before (modify fun state => { state with pools := others })
      (modify fun state => { state with pools := others }) fun _ _ _ => True := by
  obtain ⟨state, twin⟩ := before
  obtain ⟨arena, cache, events, rfl⟩ := valid.exists_eq
  have classed : RunState.Classed state.pools := valid.classed
  rw [first] at classed
  apply joins_change
  apply valid.waiting others state.spawned
  · exact fun target member => valid.fine target (mem_waiting_others first member)
  · exact fun cls pool member => classed cls pool (List.mem_cons_of_mem _ member)

/-- What is left of the pool that was served goes behind the others. -/
theorem joins_requeue {cls : ClassId} {pool settled : List Target} (valid : pairing.Paired before)
    (fine : ∀ target ∈ pool, pairing.Fine before.1.arena target ∧ target.cls = cls)
    (continues : List.Forall₂ Target.Continues pool settled) :
    pairing.Joins before
      (modify fun state => { state with pools := state.pools ++ prune [(cls, settled)] })
      (modify fun state => { state with pools := state.pools ++ prune [(cls, settled)] })
      fun _ _ _ => True := by
  obtain ⟨state, twin⟩ := before
  obtain ⟨arena, cache, events, rfl⟩ := valid.exists_eq
  apply joins_change
  apply valid.waiting (state.pools ++ prune [(cls, settled)]) state.spawned
  · intro target member
    rcases mem_waiting_settled continues member with waited | ⟨old, inPool, continued⟩
    · exact valid.fine target waited
    · exact (fine old inPool).1.continues continued
  · exact classed_settled valid.classed continues fun target member => (fine target member).2

theorem joins_serveFirst (valid : pairing.Paired before) :
    pairing.Joins before serveFirst serveFirst fun _ _ _ => True := by
  obtain ⟨state, twin⟩ := before
  have samePools : twin.pools = state.pools := valid.pools_eq
  unfold serveFirst
  apply joins_get_bind
  simp only [samePools]
  cases pools : state.pools with
  | nil => exact joins_pure valid trivial
  | cons entry others =>
      obtain ⟨cls, pool⟩ := entry
      apply (joins_takeFirst valid pools).bind
      rintro _ _ middle taken -
      have fine : ∀ target ∈ pool, pairing.Fine middle.1.arena target ∧ target.cls = cls := by
        intro target member
        exact ⟨(valid.fine target (mem_waiting_first pools member)).mono taken.later,
          valid.classed cls pool (pools ▸ List.mem_cons_self) target member⟩
      apply joins_read_bind
      simp only [RunContext.inLang]
      cases best : bestCandidacy? pool (context.catalog.gettersOf cls) with
      | none =>
          apply joins_className_bind
          exact joins_throw taken.valid (pairing.permitted not_false)
      | some chosen =>
          obtain ⟨getter, candidacy⟩ := chosen
          apply (joins_fetch_best best fine taken.valid).bind
          intro results resultsToo fetched second delivers
          have fineFetched : ∀ target ∈ pool,
              pairing.Fine fetched.1.arena target ∧ target.cls = cls := fun target member =>
            ⟨(fine target member).1.mono second.later, (fine target member).2⟩
          apply (joins_settleChosen second.valid fineFetched delivers).bind
          rintro settled _ last third ⟨rfl, continues⟩
          exact joins_requeue third.valid (fun target member =>
            ⟨(fineFetched target member).1.mono third.later, (fine target member).2⟩) continues

theorem joins_poolSpawned (valid : pairing.Paired before) :
    pairing.Joins before poolSpawned poolSpawned fun _ _ _ => True := by
  obtain ⟨state, twin⟩ := before
  obtain ⟨arena, cache, events, rfl⟩ := valid.exists_eq
  exact joins_change (valid.waiting state.filled.pools []
    (fun target member => valid.fine target (mem_waiting_filled member))
    (classed_filled valid.classed))

theorem joins_sweep (valid : pairing.Paired before) :
    pairing.Joins before sweep sweep fun _ _ _ => True := by
  obtain ⟨state, twin⟩ := before
  obtain ⟨arena, cache, events, rfl⟩ := valid.exists_eq
  unfold sweep
  apply joins_get_bind
  have fine : ∀ target ∈ state.pools.flatMap Prod.snd, pairing.Fine state.arena target :=
    fun target member => valid.fine target (List.mem_append_left _ member)
  apply (joins_sweepPools valid fine).andYields.bind
  rintro swept _ after reached ⟨⟨rfl, continues⟩, done⟩
  obtain ⟨ended, endedToo⟩ := after
  obtain ⟨arena, cache, events, rfl⟩ := reached.valid.exists_eq
  apply joins_change
  apply reached.valid.waiting (prune swept) ended.spawned
  · intro target member
    obtain ⟨old, waited, continued⟩ := mem_waiting_swept done member
    exact ((valid.fine old waited).mono reached.later).continues continued
  · exact classed_prune (classed_sweepPools continues valid.classed)

theorem joins_round (valid : pairing.Paired before) :
    pairing.Joins before round round fun _ _ _ => True := by
  obtain ⟨state, twin⟩ := before
  obtain ⟨arena, cache, events, rfl⟩ := valid.exists_eq
  have counted := valid.framed state.calls { state.stats with rounds := state.stats.rounds + 1 }
    state.outputs state.origins
  unfold round
  apply (joins_change counted).bind
  rintro _ _ begun first -
  apply (joins_serveFirst first.valid).bind
  rintro _ _ served second -
  apply (joins_poolSpawned second.valid).bind
  rintro _ _ filled third -
  exact joins_sweep third.valid

theorem joins_rounds (limit : Nat) (valid : pairing.Paired before) :
    pairing.Joins before (rounds limit) (rounds limit) fun one two _ => one = two := by
  induction limit generalizing before with
  | zero =>
      obtain ⟨state, twin⟩ := before
      obtain ⟨arena, cache, events, rfl⟩ := valid.exists_eq
      unfold rounds
      apply joins_get_bind
      exact joins_pure valid rfl
  | succ limit inductionHypothesis =>
      obtain ⟨state, twin⟩ := before
      obtain ⟨arena, cache, events, rfl⟩ := valid.exists_eq
      unfold rounds
      apply joins_get_bind
      simp only
      split
      · exact joins_pure valid rfl
      · apply (joins_round valid).bind
        exact fun _ _ middle reached _ => inductionHypothesis reached.valid

theorem joins_setOutput {slot : Nat} {entities : List Handle} (valid : pairing.Paired before) :
    pairing.Joins before (setOutput slot entities) (setOutput slot entities) fun _ _ _ => True := by
  obtain ⟨state, twin⟩ := before
  obtain ⟨arena, cache, events, rfl⟩ := valid.exists_eq
  exact joins_modify (valid.framed state.calls state.stats
    (state.outputs.modify slot fun _ => entities) state.origins) trivial

theorem joins_satisfy {prerequisite : Prerequisite} (admitted : pairing.AdmitsBegun prerequisite)
    (valid : pairing.Paired before) :
    pairing.Joins before (satisfy prerequisite) (satisfy prerequisite) fun _ _ _ => True := by
  cases prerequisite with
  | list cls domain selector slot =>
      apply joins_read_bind
      simp only [RunContext.inLang]
      split
      · apply joins_className_bind
        exact joins_throw valid (pairing.permitted not_false)
      · rename_i method found
        obtain rfl : method.cls = cls := by
          have matching := List.find?_some found
          simp only [Bool.and_eq_true, beq_iff_eq] at matching
          exact matching.1
        apply (finds_list_execute (List.mem_of_find?_eq_some found) admitted valid).bind
        rintro entities _ after executed ⟨rfl, _⟩
        exact joins_setOutput executed.valid
  | search cls query selector slot =>
      obtain ⟨sameLang, selects⟩ := admitted
      apply joins_read_bind
      simp only [RunContext.inLang]
      split
      · apply joins_className_bind
        exact joins_throw valid (pairing.permitted not_false)
      · rename_i method found
        apply (joins_search_execute (List.mem_of_find?_eq_some found) sameLang
          (fun item field opened => selects method item field found opened) query valid).bind
        rintro entities _ after executed rfl
        exact joins_setOutput executed.valid

theorem joins_satisfyAll {prerequisites : List Prerequisite}
    (admitted : ∀ prerequisite ∈ prerequisites, pairing.AdmitsBegun prerequisite)
    (valid : pairing.Paired before) :
    pairing.Joins before (satisfyAll prerequisites) (satisfyAll prerequisites)
      fun _ _ _ => True := by
  induction prerequisites generalizing before with
  | nil => exact joins_pure valid trivial
  | cons prerequisite rest inductionHypothesis =>
      unfold satisfyAll
      apply (joins_satisfy (admitted _ List.mem_cons_self) valid).bind
      rintro _ _ middle reached -
      exact inductionHypothesis (fun other member => admitted other (List.mem_cons_of_mem _ member))
        reached.valid

theorem joins_prepare (valid : pairing.Paired before) :
    pairing.Joins before prepare prepare fun _ _ _ => True := by
  obtain ⟨state, twin⟩ := before
  obtain ⟨arena, cache, events, rfl⟩ := valid.exists_eq
  unfold prepare
  apply joins_get_bind
  simp only
  have emptied := valid.awaiting [] nofun
  apply (joins_change emptied).bind
  rintro _ _ begun first -
  apply (joins_satisfyAll valid.awaits first.valid).bind
  rintro _ _ satisfied second -
  exact joins_poolSpawned second.valid

/-- Runs that begin at the same point end at the same point, at the same cost. -/
theorem joins_executeWithin (limit : Nat) (valid : pairing.Paired before) :
    pairing.Joins before (executeWithin limit) (executeWithin limit) fun one two _ =>
      one = two := by
  unfold executeWithin
  apply (joins_prepare valid).bind
  rintro _ _ ready first -
  apply (joins_rounds limit first.valid).bind
  rintro isDone _ ended second rfl
  cases isDone with
  | false => exact joins_throw second.valid (pairing.permitted not_false)
  | true =>
      obtain ⟨state, twin⟩ := ended
      obtain ⟨arena, cache, events, rfl⟩ := second.valid.exists_eq
      apply (joins_change second.valid.cleared).bind
      rintro _ _ after third -
      apply joins_get_bind
      exact joins_pure third.valid third.valid.stats_eq.symm

end EntityResolver.Run.Pairing
