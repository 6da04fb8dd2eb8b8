import EntityResolver.Proofs.Twin.Demands
import EntityResolver.Proofs.Value.Muted

/-!
Requests to a session in two languages.

Trees are told from states that are at the same point, so they differ in scalars that are apart and
in nothing else.
-/

set_option autoImplicit false

namespace EntityResolver

def Session.inLang (session : Session) (lang : Lang) : Session :=
  { session with lang := lang }

/-- Both requests leave the same behind, and they fail in the same way or have results that look the
same. -/
def Agree {α β : Type} (look : α → β) :
    EStateM.Result ResolveError SessionState α → EStateM.Result ResolveError SessionState α → Prop
  | .ok one after, .ok two afterToo => look two = look one ∧ afterToo = after
  | .error one after, .error two afterToo => two = one ∧ afterToo = after
  | _, _ => False

theorem Agree.bind {α β γ δ : Type} {look : α → γ} {lookToo : β → δ} {step stepToo : Request α}
    {next nextToo : α → Request β} {state : SessionState}
    (first : Agree look (step state) (stepToo state))
    (rest : ∀ one two after, look two = look one →
      Agree lookToo (next one after) (nextToo two after)) :
    Agree lookToo ((step >>= next) state) ((stepToo >>= nextToo) state) := by
  change Agree lookToo (EStateM.bind step next state) (EStateM.bind stepToo nextToo state)
  unfold EStateM.bind
  generalize step state = outcome at first ⊢
  generalize stepToo state = outcomeToo at first ⊢
  cases outcome <;> cases outcomeToo
  · obtain ⟨same, rfl⟩ := first
    exact rest _ _ _ same
  · exact first.elim
  · exact first.elim
  · exact first

/-- What is worked out before a request is the same in both languages. -/
theorem agree_ofExcept_bind {α β δ : Type} {look : β → δ} {outcome : Except ResolveError α}
    {next nextToo : α → Request β} {state : SessionState}
    (rest : ∀ value, outcome = .ok value → Agree look (next value state) (nextToo value state)) :
    Agree look ((ofExcept outcome >>= next) state) ((ofExcept outcome >>= nextToo) state) := by
  cases outcome with
  | ok value => exact rest value rfl
  | error error => exact ⟨rfl, rfl⟩

namespace Run.Pairing

variable {context : RunContext} {other : Lang} {pairing : Pairing context other}
variable {before : RunState × RunState} {state twin : RunState} {α β γ : Type}
variable {mute : List (ClassId × String)}

theorem mutedFields_eq {arena : Array EntityRecord} {cls : ClassId} {values valuesToo : FieldValues}
    {change changeToo : Handle → Entity} (brings : pairing.Brings arena cls values valuesToo)
    (covers : ∀ {cls name one two}, pairing.apart cls name one two → (cls, name) ∈ mute)
    (same : ∀ entity, (changeToo entity).muted mute = (change entity).muted mute) :
    Entity.mutedFields mute cls
        (valuesToo.map fun (name, value) => (name, value.mapEntities changeToo)) =
      Entity.mutedFields mute cls
        (values.map fun (name, value) => (name, value.mapEntities change)) := by
  induction brings with
  | nil => rfl
  | @cons entry entryToo _ _ pair _ inductionHypothesis =>
      obtain ⟨name, value⟩ := entry
      obtain ⟨nameToo, valueToo⟩ := entryToo
      obtain ⟨rfl, suits⟩ := pair
      simp only [List.map_cons, Entity.mutedFields, inductionHypothesis]
      have alike := suits.alike
      cases alike with
      | same _ => rw [Entity.mutedValue_mapEntities cls _ value same]
      | apart apart => simp [FieldValue.mapEntities, Entity.mutedValue, covers apart]

theorem Paired.muted_tree (valid : pairing.Paired (state, twin))
    (covers : ∀ {cls name one two}, pairing.apart cls name one two → (cls, name) ∈ mute)
    (schema : Schema) (depth : Nat) (entity : Handle) :
    (twin.tree schema depth entity).muted mute = (state.tree schema depth entity).muted mute := by
  induction depth generalizing entity with
  | zero =>
      unfold RunState.tree RunState.record?
      rcases optionRel_cases (valid.arena entity.index) with
        ⟨here, there⟩ | ⟨record, recordToo, here, there, same⟩
      · rw [here, there]
      · rw [here, there]
        simp only [same.cls, same.id]
  | succ depth inductionHypothesis =>
      unfold RunState.tree RunState.record?
      rcases optionRel_cases (valid.arena entity.index) with
        ⟨here, there⟩ | ⟨record, recordToo, here, there, same⟩
      · rw [here, there]
      · rw [here, there]
        simp only [Entity.muted, same.cls, same.id,
          mutedFields_eq same.values covers inductionHypothesis]

theorem joins_tree
    (covers : ∀ {cls name one two}, pairing.apart cls name one two → (cls, name) ∈ mute)
    (entity : Handle) (valid : pairing.Paired before) :
    pairing.Joins before (Session.tree entity) (Session.tree entity) fun one two _ =>
      two.muted mute = one.muted mute := by
  obtain ⟨state, twin⟩ := before
  unfold Session.tree
  apply joins_get_bind
  apply joins_schema_bind
  apply joins_pure valid
  unfold RunState.materialize
  rw [valid.size_eq]
  exact valid.muted_tree covers _ _ entity

theorem joins_trees
    (covers : ∀ {cls name one two}, pairing.apart cls name one two → (cls, name) ∈ mute)
    (entities : List Handle) (valid : pairing.Paired before) :
    pairing.Joins before (Session.trees entities) (Session.trees entities) fun ones twos _ =>
      Entity.mutedList mute twos = Entity.mutedList mute ones := by
  induction entities generalizing before with
  | nil => exact joins_pure valid rfl
  | cons entity rest inductionHypothesis =>
      apply (joins_tree covers entity valid).bind
      intro one two _ first same
      apply (inductionHypothesis first.valid).bind
      intro ones twos _ second sameRest
      exact joins_pure second.valid (by rw [Entity.mutedList, Entity.mutedList, same, sameRest])

theorem joins_presentTrees
    (covers : ∀ {cls name one two}, pairing.apart cls name one two → (cls, name) ∈ mute)
    (entities : List (String × Handle)) (valid : pairing.Paired before) :
    pairing.Joins before (Session.presentTrees entities) (Session.presentTrees entities)
      fun ones twos _ => Entity.mutedMap mute twos = Entity.mutedMap mute ones := by
  induction entities generalizing before with
  | nil => exact joins_pure valid rfl
  | cons entry rest inductionHypothesis =>
      obtain ⟨id, entity⟩ := entry
      apply (joins_tree covers entity valid).bind
      intro one two _ first same
      apply (inductionHypothesis first.valid).bind
      intro ones twos _ second sameRest
      apply joins_pure second.valid
      rw [Entity.isPresent_of_muted same]
      split
      · rw [Entity.mutedMap, Entity.mutedMap, same, sameRest]
      · exact sameRest

theorem joins_outputTrees
    (covers : ∀ {cls name one two}, pairing.apart cls name one two → (cls, name) ∈ mute)
    (slot : Nat) (valid : pairing.Paired before) :
    pairing.Joins before (Session.outputTrees slot) (Session.outputTrees slot) fun ones twos _ =>
      Entity.mutedList mute twos = Entity.mutedList mute ones := by
  have taken : pairing.Joins before (takeOutput slot) (takeOutput slot) fun one two _ =>
      one = two := by
    obtain ⟨state, twin⟩ := before
    obtain ⟨arena, cache, events, rfl⟩ := valid.exists_eq
    unfold takeOutput
    apply joins_get_bind
    have emptied := valid.framed state.calls state.stats
      (state.outputs.modify slot fun _ => []) state.origins
    apply (joins_change emptied).bind
    exact fun _ _ _ reached _ => joins_pure reached.valid rfl
  apply taken.bind
  rintro entities _ _ reached rfl
  exact joins_trees covers entities reached.valid

theorem joins_spawnRoots {cls : ClassId} {selector : Selector}
    (admitted : pairing.admits cls selector) (ids : List String) (valid : pairing.Paired before) :
    pairing.Joins before (Session.spawnRoots cls selector ids) (Session.spawnRoots cls selector ids)
      fun one two _ => one = two := by
  induction ids generalizing before with
  | nil => exact joins_pure valid rfl
  | cons id rest inductionHypothesis =>
      apply (joins_spawn valid admitted .nil).bind
      rintro entity _ _ first ⟨rfl, _⟩
      apply (inductionHypothesis first.valid).bind
      rintro entities _ _ second rfl
      exact joins_pure second.valid rfl

theorem agree_run {session : Session} {pairing : Pairing session.context other} {want : Run α}
    {finish : α → Run β} {look : β → γ} (state : SessionState)
    (begins : ∀ {before}, pairing.Paired before → pairing.Joins before want want fun one two _ =>
      one = two)
    (ends : ∀ {after} wanted, pairing.Paired after →
      pairing.Joins after (finish wanted) (finish wanted) fun one two _ => look two = look one) :
    Agree look (session.run want finish state) ((session.inLang other).run want finish state) := by
  have start := pairing.paired_start state.calls
  have joins : pairing.Joins ({ calls := state.calls }, { calls := state.calls })
      (Session.steps want finish) (Session.steps want finish) fun one two _ =>
        look two = look one := by
    unfold Session.steps
    apply joins_read_bind
    apply joins_stepsWithin _ (begins start)
    · exact fun _ found => found
    · rintro _ one _ valid rfl
      exact ends one valid
  have sameContext : (session.inLang other).context = session.context.inLang other := rfl
  unfold Session.run ReaderT.run
  rw [sameContext]
  unfold Joins at joins
  split at joins
  · rename_i one after two afterToo here there
    obtain ⟨arena, cache, events, same⟩ := joins.1.valid.exists_eq
    rw [here, there]
    exact ⟨joins.2, by rw [same]⟩
  · rename_i one after two afterToo here there
    obtain ⟨rfl, _, reached⟩ := joins
    obtain ⟨arena, cache, events, same⟩ := reached.valid.exists_eq
    rw [here, there]
    exact ⟨rfl, by rw [same]⟩
  · exact joins.elim

section

variable {session : Session} {pairing : Pairing session.context other} {cls : ClassId}
variable {selector : Selector}

theorem agree_getWith
    (covers : ∀ {cls name one two}, pairing.apart cls name one two → (cls, name) ∈ mute)
    (admitted : pairing.admits cls selector) (id : String) (state : SessionState) :
    Agree (Entity.muted mute) (session.getWith cls id selector state)
      ((session.inLang other).getWith cls id selector state) := by
  have found : Agree (Entity.muted mute)
      (session.run (spawn cls id selector [] true) Session.tree state)
      ((session.inLang other).run (spawn cls id selector [] true) Session.tree state) := by
    apply agree_run state
    · exact fun valid => (joins_spawn valid admitted .nil).mono fun _ _ _ spawned => spawned.1
    · exact fun entity valid => joins_tree covers entity valid
  unfold Session.getWith
  apply found.bind
  intro one two after same
  rw [Entity.isPresent_of_muted same]
  have sameClass := congrArg Entity.className same
  rw [Entity.muted_className, Entity.muted_className] at sameClass
  split
  · exact ⟨same, rfl⟩
  · exact ⟨by rw [sameClass], rfl⟩

theorem agree_getManyWith
    (covers : ∀ {cls name one two}, pairing.apart cls name one two → (cls, name) ∈ mute)
    (admitted : pairing.admits cls selector) (ids : List String) (state : SessionState) :
    Agree (Entity.mutedMap mute) (session.getManyWith cls ids selector state)
      ((session.inLang other).getManyWith cls ids selector state) := by
  apply agree_run state
  · exact fun valid => joins_spawnRoots admitted _ valid
  · exact fun entities valid => joins_presentTrees covers entities valid

theorem agree_listWith
    (covers : ∀ {cls name one two}, pairing.apart cls name one two → (cls, name) ∈ mute)
    (admitted : pairing.admits cls selector) (domain : String) (state : SessionState) :
    Agree (Entity.mutedList mute) (session.listWith cls domain selector state)
      ((session.inLang other).listWith cls domain selector state) := by
  apply agree_run state
  · exact fun valid => joins_want (.list cls domain selector) (fun _ => admitted) valid
  · exact fun slot valid => joins_outputTrees covers slot valid

theorem agree_currentUser
    (covers : ∀ {cls name one two}, pairing.apart cls name one two → (cls, name) ∈ mute)
    {fields : Option String}
    (admitted : ∀ cls selector, session.classSelector cls fields = .ok selector →
      pairing.admits cls selector) (state : SessionState) :
    Agree (Entity.muted mute) (session.currentUser fields state)
      ((session.inLang other).currentUser fields state) := by
  unfold Session.currentUser
  cases offered : session.catalog.currentUser with
  | none =>
      have offeredToo : (session.inLang other).catalog.currentUser = none := offered
      rw [offeredToo]
      exact ⟨rfl, rfl⟩
  | some method =>
      have offeredToo : (session.inLang other).catalog.currentUser = some method := offered
      rw [offeredToo]
      apply agree_ofExcept_bind
      intro selector selected
      apply agree_run state
      · exact fun valid => (finds_currentUser_load offered (admitted _ _ selected) valid).mono
          fun _ _ _ found => found.1
      · exact fun entity valid => joins_tree covers entity valid

end

end Run.Pairing

end EntityResolver
