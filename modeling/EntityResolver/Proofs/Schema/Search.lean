import EntityResolver.Proofs.Schema.Expansion

/-!
The search for default selectors, which remembers those that it found.

While the default fields of some classes are being followed, exactly these classes are marked, and
what is remembered is what following default fields anew would give. So every visit comes to what
`expandDefaults` comes to, and the search leaves behind the default selectors of all classes.
-/

set_option autoImplicit false

namespace EntityResolver

variable {schema : Schema} {id : ClassId} {path : List ClassId} {fuel : Nat} {selector : Selector}

namespace DefaultSearch

variable {search after : DefaultSearch}

/-- The search is one of a schema, while it follows the default fields of the classes on the path. -/
structure Agrees (schema : Schema) (path : List ClassId) (search : DefaultSearch) : Prop where
  length_done : search.done.length = schema.classes.length
  length_inProgress : search.inProgress.length = schema.classes.length
  follows_iff {id : ClassId} {cls : EntityClass} (known : schema.class? id = some cls) :
    search.follows id = true ↔ id ∈ path
  sound {id : ClassId} {selector : Selector} (found : search.selector? id = some selector) :
    defaultsOf schema id = .ok selector

def Within (search after : DefaultSearch) : Prop :=
  ∀ id selector, search.selector? id = some selector → after.selector? id = some selector

theorem Within.refl (search : DefaultSearch) : search.Within search :=
  fun _ _ found => found

theorem Within.trans {middle : DefaultSearch} (first : search.Within middle)
    (second : middle.Within after) : search.Within after :=
  fun id selector found => second id selector (first id selector found)

theorem agrees_start (schema : Schema) : (start schema.classes.length).Agrees schema [] where
  length_done := List.length_replicate
  length_inProgress := List.length_replicate
  follows_iff known := by
    have inside := (List.getElem?_eq_some_iff.mp known).1
    simp [follows, start, inside]
  sound found := by
    simp [selector?, start, List.getElem?_replicate, Option.join_eq_some_iff] at found

theorem eq_of_index_eq {id other : ClassId} (same : id.index = other.index) : id = other := by
  cases id
  cases other
  exact congrArg ClassId.mk same

theorem Agrees.follow (agrees : search.Agrees schema path) (id : ClassId) :
    (search.follow id).Agrees schema (id :: path) where
  length_done := agrees.length_done
  length_inProgress := by simp [DefaultSearch.follow, agrees.length_inProgress]
  sound found := agrees.sound found
  follows_iff {other _} known := by
    have inside := (List.getElem?_eq_some_iff.mp known).1
    unfold follows DefaultSearch.follow
    rw [List.getElem?_set, agrees.length_inProgress, List.mem_cons]
    by_cases same : id.index = other.index
    · simp [same, inside, (eq_of_index_eq same).symm]
    · rw [if_neg same]
      have others : other ≠ id := fun equal => same (congrArg ClassId.index equal.symm)
      simpa [others, follows] using agrees.follows_iff known

theorem selector?_settle (search : DefaultSearch) (id other : ClassId) (selector : Selector) :
    (search.settle id selector).selector? other =
      if id = other then if id.index < search.done.length then some selector else none
      else search.selector? other := by
  unfold DefaultSearch.settle selector?
  rw [List.getElem?_set]
  by_cases same : id = other
  · subst same
    rw [if_pos rfl, if_pos rfl]
    split <;> rfl
  · rw [if_neg same, if_neg fun equal => same (eq_of_index_eq equal)]

theorem Agrees.settle (agrees : search.Agrees schema (id :: path)) (fresh : id ∉ path)
    (found : defaultsOf schema id = .ok selector) :
    (search.settle id selector).Agrees schema path where
  length_done := by simp [DefaultSearch.settle, agrees.length_done]
  length_inProgress := by simp [DefaultSearch.settle, agrees.length_inProgress]
  sound {other _} remembered := by
    rw [selector?_settle] at remembered
    split at remembered
    · rename_i same
      subst same
      split at remembered
      · cases remembered
        exact found
      · cases remembered
    · exact agrees.sound remembered
  follows_iff {other _} known := by
    unfold follows DefaultSearch.settle
    rw [List.getElem?_set]
    by_cases same : id.index = other.index
    · rw [if_pos same, ← eq_of_index_eq same]
      split <;> simp [fresh]
    · rw [if_neg same]
      have others : other ≠ id := fun equal => same (congrArg ClassId.index equal.symm)
      simpa [others, follows] using agrees.follows_iff known

theorem Agrees.remembers_settle {cls : EntityClass} (agrees : search.Agrees schema path)
    (known : schema.class? id = some cls) (selector : Selector) :
    (search.settle id selector).selector? id = some selector := by
  rw [selector?_settle, if_pos rfl, agrees.length_done, if_pos]
  exact (List.getElem?_eq_some_iff.mp known).1

theorem Within.settle (within : search.Within after) (unsettled : search.selector? id = none)
    (selector : Selector) : search.Within (after.settle id selector) := by
  intro other sub found
  rw [selector?_settle, if_neg]
  · exact within other sub found
  · rintro rfl
    cases unsettled.symm.trans found

theorem Agrees.follows_iff_mem (agrees : search.Agrees schema path)
    (way : schema.IsWay (id :: path)) : search.follows id = true ↔ id ∈ path := by
  cases known : schema.class? id with
  | some cls => exact agrees.follows_iff known
  | none =>
      have outside := List.getElem?_eq_none_iff.mp known
      rw [← agrees.length_inProgress] at outside
      refine iff_of_false (by simp [follows, outside]) fun member => ?_
      obtain ⟨cls, knownToo⟩ := way.exists_class member
      cases known.symm.trans knownToo

/-- From where the search agrees, a step comes to what is expected, and the search still agrees. -/
def Follows {α : Type} (schema : Schema) (path : List ClassId) (step : SearchDefaults α)
    (expected : Except SchemaError α) : Prop :=
  ∀ search : DefaultSearch, search.Agrees schema path →
    match expected with
    | .ok value =>
        ∃ after, step.run search = .ok (value, after) ∧ after.Agrees schema path ∧
          search.Within after
    | .error error => step.run search = .error error

section Steps

variable {α β : Type} {step : SearchDefaults α} {expected : Except SchemaError α}

theorem follows_pure (value : α) : Follows schema path (pure value) (.ok value) :=
  fun search agrees => ⟨search, rfl, agrees, .refl search⟩

theorem Follows.bind {next : α → SearchDefaults β} {nextToo : α → Except SchemaError β}
    (first : Follows schema path step expected)
    (second : ∀ value, Follows schema path (next value) (nextToo value)) :
    Follows schema path (step >>= next) (expected >>= nextToo) := by
  intro search agrees
  have here := first search agrees
  cases expected with
  | error error =>
      change StateT.run (step >>= next) search = .error error
      rw [StateT.run_bind, here]
      rfl
  | ok value =>
      obtain ⟨middle, ran, agreesThere, within⟩ := here
      have there := second value middle agreesThere
      rw [StateT.run_bind, ran, ok_bind, ok_bind]
      cases outcome : nextToo value with
      | error error =>
          rw [outcome] at there
          exact there
      | ok result =>
          rw [outcome] at there
          obtain ⟨after, ranThere, agreesAfter, withinThere⟩ := there
          exact ⟨after, ranThere, agreesAfter, within.trans withinThere⟩

theorem follows_selectDefaults {visit : ClassId → SearchDefaults Selector}
    {visitToo : ClassId → Except SchemaError Selector} {fields : List Field}
    (visits : ∀ field ∈ fields, field.isDefault = true → ∀ target,
      field.kind.target? = some target → Follows schema path (visit target) (visitToo target)) :
    Follows schema path (selectDefaults visit fields) (selectDefaults visitToo fields) := by
  induction fields with
  | nil => exact follows_pure Selector.empty
  | cons field rest inductionHypothesis =>
      have others := inductionHypothesis fun other member =>
        visits other (List.mem_cons_of_mem field member)
      cases isDefault : field.isDefault with
      | false =>
          rw [selectDefaults_skip isDefault, selectDefaults_skip isDefault]
          exact others
      | true =>
          rw [selectDefaults, selectDefaults, if_pos isDefault, if_pos isDefault]
          refine .bind ?_ fun sub => others.bind fun _ => follows_pure _
          unfold Field.visitTarget
          cases refers : field.kind.target? with
          | none => exact follows_pure Selector.empty
          | some target => exact visits field List.mem_cons_self isDefault target refers

end Steps

theorem run_visitDefaults_of_fresh (unsettled : search.selector? id = none)
    (fresh : search.follows id = false) :
    (visitDefaults schema (fuel + 1) id).run search =
      (selectDefaults (visitDefaults schema fuel) (schema.fieldsOf id)).run (search.follow id) >>=
        fun (selector, after) => .ok (selector, after.settle id selector) := by
  simp only [visitDefaults, StateT.run_bind, StateT.run_get, pure_bind, unsettled, fresh,
    Bool.false_eq_true, if_false, StateT.run_set]
  rfl

/-- The visit comes to what following default fields anew does, and the selector is remembered. -/
def Visits (schema : Schema) (path : List ClassId) (fuel : Nat) (id : ClassId) : Prop :=
  ∀ search : DefaultSearch, search.Agrees schema path →
    match expandDefaults schema fuel path id with
    | .ok selector =>
        ∃ after, (visitDefaults schema fuel id).run search = .ok (selector, after) ∧
          after.Agrees schema path ∧ search.Within after ∧
          ∀ cls, schema.class? id = some cls → after.selector? id = some selector
    | .error error => (visitDefaults schema fuel id).run search = .error error

theorem Visits.follows (visits : Visits schema path fuel id) :
    Follows schema path (visitDefaults schema fuel id) (expandDefaults schema fuel path id) := by
  intro search agrees
  have visited := visits search agrees
  cases outcome : expandDefaults schema fuel path id with
  | error error =>
      rw [outcome] at visited
      exact visited
  | ok selector =>
      rw [outcome] at visited
      obtain ⟨after, ran, agreesAfter, within, _⟩ := visited
      exact ⟨after, ran, agreesAfter, within⟩

theorem run_visitDefaults_of_remembered (remembered : search.selector? id = some selector) :
    (visitDefaults schema (fuel + 1) id).run search = .ok (selector, search) := by
  simp only [visitDefaults, StateT.run_bind, StateT.run_get, pure_bind, remembered]
  rfl

theorem run_visitDefaults_of_followed (unsettled : search.selector? id = none)
    (followed : search.follows id = true) :
    (visitDefaults schema (fuel + 1) id).run search =
      .error (.defaultCycle (schema.className id)) := by
  simp only [visitDefaults, StateT.run_bind, StateT.run_get, pure_bind, unsettled, followed,
    if_true]
  rfl

theorem visits_of_way (way : schema.IsWay (id :: path)) (nodup : path.Nodup)
    (enough : schema.classes.length < fuel + path.length) : Visits schema path fuel id := by
  induction fuel generalizing id path with
  | zero =>
      have short := way.length_le nodup
      omega
  | succ fuel inductionHypothesis =>
      intro search agrees
      cases remembered : search.selector? id with
      | some selector =>
          rw [Schema.expandDefaults_of_ok (agrees.sound remembered) way nodup enough]
          exact ⟨search, run_visitDefaults_of_remembered remembered, agrees, .refl search,
            fun _ _ => remembered⟩
      | none =>
          by_cases again : id ∈ path
          · rw [expandDefaults, if_pos again]
            exact run_visitDefaults_of_followed remembered ((agrees.follows_iff_mem way).mpr again)
          · have unmarked : search.follows id = false := by
              simpa using mt (agrees.follows_iff_mem way).mp again
            have expanded : expandDefaults schema (fuel + 1) path id =
                selectDefaults (expandDefaults schema fuel (id :: path)) (schema.fieldsOf id) := by
              rw [expandDefaults, if_neg again]
            have inside : Follows schema (id :: path)
                (selectDefaults (visitDefaults schema fuel) (schema.fieldsOf id))
                (expandDefaults schema (fuel + 1) path id) := by
              rw [expanded]
              refine follows_selectDefaults fun field member isDefault target refers => ?_
              have further : schema.IsWay (target :: id :: path) :=
                List.isChain_cons_cons.mpr ⟨Schema.expands_of_mem member isDefault refers, way⟩
              exact (inductionHypothesis further (List.nodup_cons.mpr ⟨again, nodup⟩)
                (by simp; omega)).follows
            have selected := inside (search.follow id) (agrees.follow id)
            rw [run_visitDefaults_of_fresh remembered unmarked]
            cases outcome : expandDefaults schema (fuel + 1) path id with
            | error error =>
                rw [outcome] at selected
                change _ = _ at selected
                rw [selected]
                rfl
            | ok selector =>
                have found : defaultsOf schema id = .ok selector :=
                  Schema.expandDefaults_of_ok outcome (.singleton id) List.nodup_nil (by simp)
                rw [outcome] at selected
                obtain ⟨after, ran, agreesAfter, within⟩ := selected
                rw [ran]
                exact ⟨after.settle id selector, rfl, agreesAfter.settle again found,
                  Within.settle within remembered selector,
                  fun _ known => agreesAfter.remembers_settle known selector⟩

theorem run_visits {classes : List EntityClass}
    (listed : ∀ cls ∈ classes, schema.class? cls.id = some cls)
    (agrees : search.Agrees schema []) :
    match classes.mapM fun cls => defaultsOf schema cls.id with
    | .ok selectors =>
        ∃ after,
          (classes.mapM fun cls => visitDefaults schema (schema.classes.length + 1) cls.id).run
              search = .ok (selectors, after) ∧
            after.Agrees schema [] ∧ search.Within after ∧
            ∀ cls ∈ classes, ∃ selector, after.selector? cls.id = some selector
    | .error error =>
        (classes.mapM fun cls => visitDefaults schema (schema.classes.length + 1) cls.id).run
          search = .error error := by
  induction classes generalizing search with
  | nil => exact ⟨search, rfl, agrees, .refl search, nofun⟩
  | cons cls rest inductionHypothesis =>
      have way : schema.IsWay [cls.id] := .singleton cls.id
      have visited := visits_of_way way List.nodup_nil
        (Nat.lt_succ_self schema.classes.length) search agrees
      simp only [List.mapM_cons, StateT.run_bind]
      cases outcome : defaultsOf schema cls.id with
      | error error =>
          rw [show expandDefaults schema _ [] cls.id = _ from outcome] at visited
          change _ = _ at visited
          rw [visited]
          rfl
      | ok selector =>
          rw [show expandDefaults schema _ [] cls.id = _ from outcome] at visited
          obtain ⟨middle, ran, agreesThere, within, settled⟩ := visited
          have others := inductionHypothesis
            (fun other member => listed other (List.mem_cons_of_mem cls member)) agreesThere
          rw [ran, ok_bind, ok_bind]
          cases outcomeThere : rest.mapM fun cls => defaultsOf schema cls.id with
          | error error =>
              rw [outcomeThere] at others
              change _ = _ at others
              simp only [others]
              rfl
          | ok selectors =>
              rw [outcomeThere] at others
              obtain ⟨after, ranThere, agreesAfter, withinThere, settledThere⟩ := others
              simp only [ranThere]
              refine ⟨after, rfl, agreesAfter, within.trans withinThere, ?_⟩
              rintro other (_ | ⟨_, member⟩)
              · exact ⟨selector, withinThere _ _
                  (settled cls (listed cls List.mem_cons_self))⟩
              · exact settledThere other member

end DefaultSearch

/-- The search finds the default selector of each class as following default fields anew does; and
where it fails, it fails as that does. -/
theorem computeDefaults_eq
    (placed : ∀ (index : Nat) (cls : EntityClass), schema.classes[index]? = some cls →
      cls.id = ⟨index⟩) :
    computeDefaults schema = schema.classes.mapM fun cls => defaultsOf schema cls.id := by
  have listed : ∀ cls ∈ schema.classes, schema.class? cls.id = some cls := by
    intro cls member
    obtain ⟨index, found⟩ := List.mem_iff_getElem?.mp member
    rw [placed index cls found]
    exact found
  have visited := DefaultSearch.run_visits listed (DefaultSearch.agrees_start schema)
  unfold computeDefaults
  extract_lets count visits
  cases outcome : schema.classes.mapM fun cls => defaultsOf schema cls.id with
  | error error =>
      rw [outcome] at visited
      exact bind_eq_error_iff.mpr (.inl visited)
  | ok selectors =>
      rw [outcome] at visited
      obtain ⟨after, ran, agrees, _, settled⟩ := visited
      refine bind_eq_ok_iff.mpr ⟨(selectors, after), ran, congrArg Except.ok ?_⟩
      have expanded := mapM_eq_ok_iff.mp outcome
      refine List.ext_getElem (by simp [agrees.length_done, expanded.length_eq])
        fun index inside insideToo => ?_
      have insideClasses : index < schema.classes.length := by
        simpa [agrees.length_done] using inside
      have found := List.getElem?_eq_getElem insideClasses
      obtain ⟨selector, remembered⟩ := settled _ (List.getElem_mem insideClasses)
      have here := expanded.get insideClasses insideToo
      simp only [List.get_eq_getElem] at here
      rw [agrees.sound remembered] at here
      rw [placed index _ found, DefaultSearch.selector?, Option.join_eq_some_iff] at remembered
      rw [List.getElem_map, ← Except.ok.inj here,
        Option.some.inj ((List.getElem?_eq_getElem _).symm.trans remembered)]
      rfl

theorem computeDefaults_error {error : SchemaError}
    (placed : ∀ (index : Nat) (cls : EntityClass), schema.classes[index]? = some cls →
      cls.id = ⟨index⟩)
    (failed : computeDefaults schema = .error error) :
    ∃ cls, error = .defaultCycle (schema.className cls) ∧
      Relation.TransGen schema.Expands cls cls := by
  rw [computeDefaults_eq placed] at failed
  obtain ⟨cls, _, here⟩ := exists_of_mapM_eq_error failed
  exact Schema.defaultsOf_error here

end EntityResolver
