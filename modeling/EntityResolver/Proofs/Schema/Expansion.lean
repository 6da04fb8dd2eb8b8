import EntityResolver.Proofs.Checked
import EntityResolver.Schema.Build
import Mathlib.Data.List.Nodup
import Mathlib.Data.List.Perm.Subperm
import Mathlib.Logic.Relation

/-!
Default fields followed without a memory.

The default selector of a class can be worked out by following default fields from class to class,
each time anew. That fails only where they lead back to a class on the way, and the class that it
names is such a class: the way cannot use up its fuel, since no class stands on it twice. Where it
succeeds, it succeeds on every way, with the same selector.
-/

set_option autoImplicit false

namespace EntityResolver

/-- The default selector of a class. `path` holds the classes on the way to it: a class that is on
its own way has default fields in a circle. -/
def expandDefaults (schema : Schema) : Nat → List ClassId → ClassId → Except SchemaError Selector
  | 0, _, id => .error (.defaultCycle (schema.className id))
  | fuel + 1, path, id =>
      if id ∈ path then .error (.defaultCycle (schema.className id))
      else selectDefaults (expandDefaults schema fuel (id :: path)) (schema.fieldsOf id)

def defaultsOf (schema : Schema) (id : ClassId) : Except SchemaError Selector :=
  expandDefaults schema (schema.classes.length + 1) [] id

section Defaults

variable {visit visitToo : ClassId → Except SchemaError Selector} {fields rest : List Field}
  {field : Field} {selector other : Selector}

theorem selectDefaults_cons_eq_ok_iff (isDefault : field.isDefault = true) :
    selectDefaults visit (field :: rest) = .ok selector ↔
      ∃ sub others, field.visitTarget visit = .ok sub ∧ selectDefaults visit rest = .ok others ∧
        selector = .nested field.name sub others := by
  rw [selectDefaults, if_pos isDefault, bind_eq_ok_iff]
  constructor
  · rintro ⟨sub, visited, continued⟩
    obtain ⟨others, doneThere, same⟩ := bind_eq_ok_iff.mp continued
    cases same
    exact ⟨sub, others, visited, doneThere, rfl⟩
  · rintro ⟨sub, others, visited, doneThere, rfl⟩
    exact ⟨sub, visited, bind_eq_ok_iff.mpr ⟨others, doneThere, rfl⟩⟩

theorem selectDefaults_skip {m : Type → Type} [Monad m] {visit : ClassId → m Selector}
    (isDefault : field.isDefault = false) :
    selectDefaults visit (field :: rest) = selectDefaults visit rest := by
  rw [selectDefaults, isDefault]
  rfl

/-- The visit of a field gives what another one gives for its class, if it has one. -/
theorem Field.visitTarget_imp {sub : Selector}
    (agree : ∀ target, field.kind.target? = some target → ∀ sub, visit target = .ok sub →
      visitToo target = .ok sub)
    (visited : field.visitTarget visit = .ok sub) : field.visitTarget visitToo = .ok sub := by
  unfold Field.visitTarget at visited ⊢
  cases refers : field.kind.target? with
  | none =>
      rw [refers] at visited
      exact visited
  | some target =>
      rw [refers] at visited
      exact agree target refers sub visited

theorem selectDefaults_imp
    (agree : ∀ field ∈ fields, field.isDefault = true → ∀ target,
      field.kind.target? = some target → ∀ sub, visit target = .ok sub → visitToo target = .ok sub)
    (done : selectDefaults visit fields = .ok selector) :
    selectDefaults visitToo fields = .ok selector := by
  induction fields generalizing selector with
  | nil => exact done
  | cons field rest inductionHypothesis =>
      have agreeThere := fun other member => agree other (List.mem_cons_of_mem field member)
      cases isDefault : field.isDefault with
      | false =>
          rw [selectDefaults_skip isDefault] at done ⊢
          exact inductionHypothesis agreeThere done
      | true =>
          obtain ⟨sub, others, visited, doneThere, rfl⟩ :=
            (selectDefaults_cons_eq_ok_iff isDefault).mp done
          exact (selectDefaults_cons_eq_ok_iff isDefault).mpr ⟨sub, others,
            Field.visitTarget_imp (agree field List.mem_cons_self isDefault) visited,
            inductionHypothesis agreeThere doneThere, rfl⟩

theorem exists_of_selectDefaults {target : ClassId}
    (done : selectDefaults visit fields = .ok selector) (member : field ∈ fields)
    (isDefault : field.isDefault = true) (refers : field.kind.target? = some target) :
    ∃ sub, visit target = .ok sub ∧ sizeOf sub < sizeOf selector := by
  induction fields generalizing selector with
  | nil => cases member
  | cons first rest inductionHypothesis =>
      rcases List.mem_cons.mp member with rfl | further
      · obtain ⟨sub, others, visited, _, rfl⟩ :=
          (selectDefaults_cons_eq_ok_iff isDefault).mp done
        unfold Field.visitTarget at visited
        rw [refers] at visited
        exact ⟨sub, visited, by simp only [Selector.nested.sizeOf_spec]; omega⟩
      · cases firstDefault : first.isDefault with
        | false =>
            rw [selectDefaults_skip firstDefault] at done
            exact inductionHypothesis done further
        | true =>
            obtain ⟨_, others, _, doneThere, rfl⟩ :=
              (selectDefaults_cons_eq_ok_iff firstDefault).mp done
            obtain ⟨sub, visited, smaller⟩ := inductionHypothesis doneThere further
            exact ⟨sub, visited, by simp only [Selector.nested.sizeOf_spec]; omega⟩

theorem selectDefaults_unique
    (agree : ∀ target sub subToo, visit target = .ok sub → visitToo target = .ok subToo →
      sub = subToo)
    (done : selectDefaults visit fields = .ok selector)
    (doneToo : selectDefaults visitToo fields = .ok other) : selector = other := by
  have followed : selectDefaults visitToo fields = .ok selector := by
    refine selectDefaults_imp (fun field member isDefault target refers sub visited => ?_) done
    obtain ⟨subToo, visitedToo, _⟩ := exists_of_selectDefaults doneToo member isDefault refers
    rw [agree target sub subToo visited visitedToo]
    exact visitedToo
  exact Except.ok.inj (followed.symm.trans doneToo)

theorem selectDefaults_error {error : SchemaError}
    (failed : selectDefaults visit fields = .error error) :
    ∃ field ∈ fields, field.isDefault = true ∧
      ∃ target, field.kind.target? = some target ∧ visit target = .error error := by
  induction fields with
  | nil => cases failed
  | cons field rest inductionHypothesis =>
      have further (failedThere : selectDefaults visit rest = .error error) :
          ∃ other ∈ field :: rest, other.isDefault = true ∧
            ∃ target, other.kind.target? = some target ∧ visit target = .error error := by
        obtain ⟨other, member, found⟩ := inductionHypothesis failedThere
        exact ⟨other, List.mem_cons_of_mem _ member, found⟩
      cases isDefault : field.isDefault with
      | false =>
          rw [selectDefaults_skip isDefault] at failed
          exact further failed
      | true =>
          rw [selectDefaults, if_pos isDefault] at failed
          rcases bind_eq_error_iff.mp failed with here | ⟨sub, _, continued⟩
          · unfold Field.visitTarget at here
            cases refers : field.kind.target? with
            | none =>
                rw [refers] at here
                cases here
            | some target =>
                rw [refers] at here
                exact ⟨field, List.mem_cons_self, isDefault, target, refers, here⟩
          · rcases bind_eq_error_iff.mp continued with there | ⟨others, _, done⟩
            · exact further there
            · cases done

end Defaults

namespace Schema

variable {schema : Schema} {id : ClassId} {path pathToo : List ClassId} {fuel fuelToo : Nat}
  {selector other : Selector} {error : SchemaError}

theorem fieldsOf_of_class? {cls : EntityClass} (known : schema.class? id = some cls) :
    schema.fieldsOf id = cls.fields := by
  rw [fieldsOf, known]
  rfl

theorem exists_class_of_mem_fieldsOf {field : Field} (member : field ∈ schema.fieldsOf id) :
    ∃ cls, schema.class? id = some cls ∧ field ∈ cls.fields := by
  unfold fieldsOf at member
  cases known : schema.class? id with
  | none => simp [known] at member
  | some cls => exact ⟨cls, rfl, by simpa [known] using member⟩

def Expands (schema : Schema) (one other : ClassId) : Prop :=
  ∃ cls, schema.class? one = some cls ∧
    ∃ field ∈ cls.fields, field.isDefault = true ∧ field.kind.target? = some other

/-- The classes of a way, the last one first, each expand to the one behind them. -/
def IsWay (schema : Schema) (path : List ClassId) : Prop :=
  path.IsChain fun below above => schema.Expands above below

theorem IsWay.expands_of_mem (way : schema.IsWay (id :: path)) (again : id ∈ path) :
    Relation.TransGen schema.Expands id id := by
  have reaches : (id :: path).IsChain fun below above =>
      Relation.TransGen schema.Expands above below :=
    way.imp fun _ _ expands => .single expands
  have transitive : IsTrans ClassId fun below above =>
      Relation.TransGen schema.Expands above below :=
    ⟨fun _ _ _ one other => other.trans one⟩
  exact List.rel_of_pairwise_cons reaches.pairwise again

theorem IsWay.exists_class (way : schema.IsWay (id :: path)) {above : ClassId}
    (member : above ∈ path) : ∃ cls, schema.class? above = some cls := by
  induction path generalizing id with
  | nil => cases member
  | cons next rest inductionHypothesis =>
      obtain ⟨⟨cls, known, _⟩, behind⟩ := List.isChain_cons_cons.mp way
      rcases List.mem_cons.mp member with rfl | further
      · exact ⟨cls, known⟩
      · exact inductionHypothesis behind further

/-- No class stands on a way twice, so it is not longer than the schema. -/
theorem IsWay.length_le (way : schema.IsWay (id :: path)) (nodup : path.Nodup) :
    path.length ≤ schema.classes.length := by
  have positions : (path.map ClassId.index).Nodup :=
    nodup.map fun one other same => by cases one; cases other; exact congrArg ClassId.mk same
  have inside : path.map ClassId.index ⊆ List.range schema.classes.length := by
    intro position member
    obtain ⟨above, listed, rfl⟩ := List.mem_map.mp member
    obtain ⟨cls, known⟩ := way.exists_class listed
    exact List.mem_range.mpr (List.getElem?_eq_some_iff.mp known).1
  simpa using (positions.subperm inside).length_le

theorem expands_of_mem {field : Field} {target : ClassId} (member : field ∈ schema.fieldsOf id)
    (isDefault : field.isDefault = true) (refers : field.kind.target? = some target) :
    schema.Expands id target := by
  obtain ⟨cls, known, declared⟩ := exists_class_of_mem_fieldsOf member
  exact ⟨cls, known, field, declared, isDefault, refers⟩

theorem expandDefaults_eq_ok (done : expandDefaults schema fuel path id = .ok selector) :
    ∃ less, id ∉ path ∧
      selectDefaults (expandDefaults schema less (id :: path)) (schema.fieldsOf id) =
        .ok selector := by
  cases fuel with
  | zero => cases done
  | succ fuel =>
      unfold expandDefaults at done
      split at done
      · cases done
      · exact ⟨fuel, ‹_›, done⟩

/-- The default selector of a class does not depend on the way to it. -/
theorem expandDefaults_unique (done : expandDefaults schema fuel path id = .ok selector)
    (doneToo : expandDefaults schema fuelToo pathToo id = .ok other) : selector = other := by
  induction fuel generalizing fuelToo path pathToo id selector other with
  | zero => cases done
  | succ fuel inductionHypothesis =>
      obtain ⟨less, _, selectedToo⟩ := expandDefaults_eq_ok doneToo
      unfold expandDefaults at done
      split at done
      · cases done
      · exact selectDefaults_unique
          (fun target sub subToo visited visitedToo => inductionHypothesis visited visitedToo)
          done selectedToo

/-- The class that a failure names leads back to itself by default fields. -/
theorem expandDefaults_error (way : schema.IsWay (id :: path)) (nodup : path.Nodup)
    (enough : schema.classes.length < fuel + path.length)
    (failed : expandDefaults schema fuel path id = .error error) :
    ∃ cls, error = .defaultCycle (schema.className cls) ∧
      Relation.TransGen schema.Expands cls cls := by
  induction fuel generalizing id path with
  | zero =>
      have short := way.length_le nodup
      omega
  | succ fuel inductionHypothesis =>
      unfold expandDefaults at failed
      split at failed
      · rename_i again
        cases failed
        exact ⟨id, rfl, way.expands_of_mem again⟩
      · rename_i fresh
        obtain ⟨field, member, isDefault, target, refers, visited⟩ := selectDefaults_error failed
        exact inductionHypothesis
          (List.isChain_cons_cons.mpr ⟨expands_of_mem member isDefault refers, way⟩)
          (List.nodup_cons.mpr ⟨fresh, nodup⟩) (by simp; omega) visited

theorem defaultsOf_error (failed : defaultsOf schema id = .error error) :
    ∃ cls, error = .defaultCycle (schema.className cls) ∧
      Relation.TransGen schema.Expands cls cls :=
  expandDefaults_error (.singleton id) List.nodup_nil (by simp) failed

theorem exists_of_expands {target : ClassId}
    (done : expandDefaults schema fuel path id = .ok selector)
    (expands : schema.Expands id target) :
    ∃ less further sub, expandDefaults schema less further target = .ok sub ∧
      sizeOf sub < sizeOf selector := by
  obtain ⟨less, _, selected⟩ := expandDefaults_eq_ok done
  obtain ⟨cls, known, field, declared, isDefault, refers⟩ := expands
  rw [fieldsOf_of_class? known] at selected
  obtain ⟨sub, visited, smaller⟩ := exists_of_selectDefaults selected declared isDefault refers
  exact ⟨less, id :: path, sub, visited, smaller⟩

/-- A class with a default selector has no default fields that lead back to it. -/
theorem expands_irrefl_of_ok (done : expandDefaults schema fuel path id = .ok selector) :
    ¬ Relation.TransGen schema.Expands id id := by
  have reached {target : ClassId} (expands : Relation.TransGen schema.Expands id target) :
      ∃ less further sub, expandDefaults schema less further target = .ok sub ∧
        sizeOf sub < sizeOf selector := by
    induction expands with
    | single expands => exact exists_of_expands done expands
    | tail _ expands inductionHypothesis =>
        obtain ⟨_, _, sub, doneThere, smaller⟩ := inductionHypothesis
        obtain ⟨less, further, part, doneFurther, smallerYet⟩ :=
          exists_of_expands doneThere expands
        exact ⟨less, further, part, doneFurther, Nat.lt_trans smallerYet smaller⟩
  intro circle
  obtain ⟨_, _, sub, doneAgain, smaller⟩ := reached circle
  rw [expandDefaults_unique doneAgain done] at smaller
  exact Nat.lt_irrefl _ smaller

theorem expandDefaults_of_ok (done : expandDefaults schema fuel path id = .ok selector)
    (way : schema.IsWay (id :: pathToo)) (nodup : pathToo.Nodup)
    (enough : schema.classes.length < fuelToo + pathToo.length) :
    expandDefaults schema fuelToo pathToo id = .ok selector := by
  induction fuel generalizing fuelToo path pathToo id selector with
  | zero => cases done
  | succ fuel inductionHypothesis =>
      have fresh : id ∉ pathToo := fun again =>
        expands_irrefl_of_ok done (way.expands_of_mem again)
      unfold expandDefaults at done
      split at done
      · cases done
      · cases fuelToo with
        | zero =>
            have short := way.length_le nodup
            omega
        | succ fuelToo =>
            unfold expandDefaults
            rw [if_neg fresh]
            refine selectDefaults_imp (fun field member isDefault target refers sub visited =>
              inductionHypothesis visited
                (List.isChain_cons_cons.mpr ⟨expands_of_mem member isDefault refers, way⟩)
                (List.nodup_cons.mpr ⟨fresh, nodup⟩) (by simp; omega)) done

end Schema

end EntityResolver
