import EntityResolver.Proofs.Catalog.Registered
import EntityResolver.Proofs.Run.Places
import EntityResolver.Proofs.Run.Requests
import EntityResolver.Proofs.Selector.Homing
import EntityResolver.Usos.Catalog

/-!
# Fields that the catalog does not supply

Getting an entity of the USOS API fails for want of a method only where the catalog has a gap: the
type of the grades of an exam is asked for, or what the grade of an exam grade counts for. All other
fields of classes that have a getter can be resolved, whatever the remote answers.
-/

set_option autoImplicit false

namespace EntityResolver

open Run

namespace Session

variable {session : Session} {cls : ClassId} {id className : String} {selector : Selector}
variable {names : List String} {earlier after : SessionState}

theorem misses_of_getWith (distinct : selector.Distinct)
    (failed : session.getWith cls id selector earlier =
      .error (.noApplicableMethod className names) after) :
    ∃ lacking, className = session.catalog.schema.className lacking ∧ names ≠ [] ∧
      ∀ name ∈ names, session.catalog.Misses cls selector lacking name := by
  have places : Demand.placeAll [.entity cls id selector [] true] =
      (do let _ ← spawn cls id selector [] true) := by
    simp only [Demand.placeAll, Demand.place, bind_assoc, pure_bind]
  have quiet (entity : Handle) (state : RunState) : Succeeds session.context (tree entity) state :=
    ⟨_, _, yields_tree_iff.mpr ⟨rfl, rfl⟩⟩
  change (session.run (spawn cls id selector [] true) tree >>= _) earlier = _ at failed
  simp only [bind, EStateM.bind] at failed
  split at failed
  · rename_i entity ended found
    split at failed <;> cases failed
  · rename_i error ended outcome
    cases failed
    exact misses_of_fails distinct (fails_of_run_eq_error places quiet outcome)

end Session

namespace Usos

def passes (outcome : Except ResolveError Catalog) (check : Catalog → Bool) : Bool :=
  match outcome with
  | .ok built => check built
  | .error _ => false

theorem check_of_passes {outcome : Except ResolveError Catalog} {check : Catalog → Bool}
    {built : Catalog} (passing : passes outcome check = true) (served : outcome = .ok built) :
    check built = true := by
  subst served
  exact passing

def countings : List String :=
  ["passes", "decimal_value", "order_key"]

/-- The selector asks for the type of the grades of the exam itself, or for what the grade of an
exam grade counts for. -/
def AsksInVain (schema : Schema) (root : ClassId) (selector : Selector) : Prop :=
  (schema.className root = "Exam" ∧ "grade_type" ∈ selector.names) ∨
    ∃ outer sub, schema.className outer = "ExamGrade" ∧
      schema.Selects root selector outer "grade" sub ∧ ∃ name ∈ sub.names, name ∈ countings

variable {built : Catalog}

/-- The gaps of the catalog, and that no star leads out of a class of it. -/
theorem survey_catalog (served : catalog = .ok built) :
    (∀ gap ∈ built.rootGaps, gap = ("Exam", "grade_type")) ∧
    (∀ gap ∈ built.innerGaps, gap.1 = ("ExamGrade", "grade") ∧ gap.2.2 ∈ countings) ∧
    built.schema.repeatsAtHome = true := by
  have checked : passes catalog (fun built =>
      built.rootGaps.all (fun gap => gap == ("Exam", "grade_type")) &&
        (built.innerGaps.all (fun gap =>
          gap.1 == ("ExamGrade", "grade") && countings.contains gap.2.2) &&
        built.schema.repeatsAtHome)) = true := by
    decide +kernel
  simpa only [Bool.and_eq_true, List.all_eq_true, beq_iff_eq, List.contains_iff_mem] using
    check_of_passes checked served

theorem wellFormed_catalog (served : catalog = .ok built) : built.schema.WellFormed := by
  simp only [catalog, bind_eq_ok_iff, liftError_eq_ok_iff] at served
  obtain ⟨schema, declared, methods, _, accepted⟩ := served
  rw [(Catalog.checked_of_ofRegistrations accepted).1]
  rw [Usos.schema, Schema.ofDecls] at declared
  exact Schema.wellFormed_of_ofDeclsNaming declared

/-- Getting an entity of a class with a getter never fails for want of a method, unless the selector
asks for what the catalog does not supply. -/
theorem get_supplied {session : Session} (served : catalog = .ok session.catalog)
    {cls id : String} {fields : Option String} {root : ClassId} {selector : Selector}
    (selected : session.selector cls fields = .ok (root, selector))
    (fetchable : session.catalog.gettersOf root ≠ [])
    (supplied : ¬ AsksInVain session.catalog.schema root selector) (earlier : SessionState)
    (className : String) (names : List String) (after : SessionState) :
    session.get cls id fields earlier ≠ .error (.noApplicableMethod className names) after := by
  intro failed
  have wellFormed := wellFormed_catalog served
  obtain ⟨found, _, picked⟩ := bind_eq_ok_iff.mp selected
  obtain ⟨level, chosen, same⟩ := bind_eq_ok_iff.mp picked
  cases same
  obtain ⟨distinct, _⟩ := session.rooted_of_classSelector wellFormed chosen
  obtain ⟨rootGaps, innerGaps, checked⟩ := survey_catalog served
  have home := Schema.repeatsAtHome_sound wellFormed checked
  have typed := session.typed_of_classSelector wellFormed home chosen
  have gets : session.get cls id fields earlier = session.getWith root id selector earlier := by
    rw [Session.get, selected]
    rfl
  obtain ⟨lacking, _, nonempty, misses⟩ := Session.misses_of_getWith distinct (gets ▸ failed)
  obtain ⟨name, member⟩ := List.exists_mem_of_ne_nil _ nonempty
  refine supplied ?_
  rcases (misses name member).gap distinct typed fetchable with
    ⟨isSelected, gap⟩ | ⟨outer, field, sub, selects, isSelected, gap⟩
  · obtain ⟨isExam, rfl⟩ := Prod.mk.inj (rootGaps _ gap)
    exact .inl ⟨isExam, isSelected⟩
  · obtain ⟨place, counts⟩ := innerGaps _ gap
    obtain ⟨isExamGrade, rfl⟩ := Prod.mk.inj place
    exact .inr ⟨outer, sub, isExamGrade, selects, name, isSelected, counts⟩

def builtFrom (outcome : Except ResolveError Catalog) : Catalog :=
  match outcome with
  | .ok built => built
  | .error _ => .empty ⟨[]⟩

theorem eq_ok_builtFrom {outcome : Except ResolveError Catalog}
    (passing : passes outcome (fun _ => true) = true) : outcome = .ok (builtFrom outcome) := by
  cases outcome with
  | ok built => rfl
  | error error => cases passing

def examClass : ClassId := ⟨8⟩

def examGradeClass : ClassId := ⟨10⟩

def graded : Session where
  catalog := builtFrom catalog
  remote := fun _ _ =>
    .ok (.object [("grade_type_id", .str "standard"), ("value_symbol", .str "5")])

theorem serves_graded : catalog = .ok graded.catalog := by
  have built : passes catalog (fun _ => true) = true := by decide +kernel
  simp only [graded]
  exact eq_ok_builtFrom built

def endsWanting (outcome : EStateM.Result ResolveError SessionState Entity) (className : String)
    (names : List String) : Bool :=
  match outcome with
  | .error error _ => error = .noApplicableMethod className names
  | .ok _ _ => false

theorem eq_error_of_endsWanting {outcome : EStateM.Result ResolveError SessionState Entity}
    {className : String} {names : List String} (ends : endsWanting outcome className names = true) :
    ∃ after, outcome = .error (.noApplicableMethod className names) after := by
  cases outcome with
  | ok entity after => cases ends
  | error error after =>
      obtain rfl := of_decide_eq_true ends
      exact ⟨after, rfl⟩

/-- No call gives the type of the grades of an exam, and none tells whether a grade passes. -/
theorem get_unsupplied :
    catalog = .ok graded.catalog ∧
    graded.selector "Exam" (some "grade_type") =
      .ok (examClass, .single "grade_type" (.single "name" .empty)) ∧
    graded.catalog.gettersOf examClass ≠ [] ∧
    (∃ after, graded.get "Exam" "1" (some "grade_type") {} =
      .error (.noApplicableMethod "Exam" ["grade_type"]) after) ∧
    graded.selector "ExamGrade" (some "grade[passes]") =
      .ok (examGradeClass, .single "grade" (.single "passes" .empty)) ∧
    graded.catalog.gettersOf examGradeClass ≠ [] ∧
    ∃ after, graded.get "ExamGrade" "1|1" (some "grade[passes]") {} =
      .error (.noApplicableMethod "Grade" ["passes"]) after := by
  have facts : graded.selector "Exam" (some "grade_type") =
        .ok (examClass, .single "grade_type" (.single "name" .empty)) ∧
      (graded.catalog.gettersOf examClass).isEmpty = false ∧
      endsWanting (graded.get "Exam" "1" (some "grade_type") {}) "Exam" ["grade_type"] = true ∧
      graded.selector "ExamGrade" (some "grade[passes]") =
        .ok (examGradeClass, .single "grade" (.single "passes" .empty)) ∧
      (graded.catalog.gettersOf examGradeClass).isEmpty = false ∧
      endsWanting (graded.get "ExamGrade" "1|1" (some "grade[passes]") {}) "Grade" ["passes"] =
        true := by
    decide +kernel
  obtain ⟨ofExam, hasGetters, fails, ofGrade, hasGettersToo, failsToo⟩ := facts
  exact ⟨serves_graded, ofExam, List.isEmpty_eq_false_iff.mp hasGetters,
    eq_error_of_endsWanting fails, ofGrade, List.isEmpty_eq_false_iff.mp hasGettersToo,
    eq_error_of_endsWanting failsToo⟩

/-- The symbol of the grade is found in the record of the exam grade. -/
theorem get_supplied_symbol :
    (catalog = .ok graded.catalog ∧
      graded.selector "ExamGrade" (some "grade[symbol]") =
        .ok (examGradeClass, .single "grade" (.single "symbol" .empty)) ∧
      graded.catalog.gettersOf examGradeClass ≠ [] ∧
      ¬ AsksInVain graded.catalog.schema examGradeClass
        (.single "grade" (.single "symbol" .empty))) ∧
    ∀ className names after, graded.get "ExamGrade" "1|1" (some "grade[symbol]") {} ≠
      .error (.noApplicableMethod className names) after := by
  have facts : graded.selector "ExamGrade" (some "grade[symbol]") =
        .ok (examGradeClass, .single "grade" (.single "symbol" .empty)) ∧
      (graded.catalog.gettersOf examGradeClass).isEmpty = false ∧
      graded.catalog.schema.className examGradeClass ≠ "Exam" := by
    decide +kernel
  obtain ⟨selected, hasGetters, notExam⟩ := facts
  have fetchable := List.isEmpty_eq_false_iff.mp hasGetters
  have supplied : ¬ AsksInVain graded.catalog.schema examGradeClass
      (.single "grade" (.single "symbol" .empty)) := by
    rintro (⟨isExam, _⟩ | ⟨outer, sub, _, selects, name, inNames, counts⟩)
    · exact notExam isExam
    · obtain ⟨level, deeper, within, inLevel, same⟩ := selects.within
      cases within with
      | here =>
          cases List.mem_singleton.mp inLevel
          obtain ⟨below, inSub⟩ := Selector.exists_mem_resolved inNames
          have distinct : (Selector.single "symbol" .empty).Distinct := by
            simp [Selector.single, Selector.Distinct, Selector.names]
          obtain ⟨_, inDeeper, _⟩ :=
            Selector.exists_resolved_of_same selects.distinct distinct same inSub
          cases List.mem_singleton.mp inDeeper
          revert counts
          decide
      | next selected refers inside =>
          cases List.mem_singleton.mp selected
          cases inside with
          | here =>
              have sameName := congrArg Prod.fst (List.mem_singleton.mp inLevel)
              simp at sameName
          | next selected _ inside =>
              cases List.mem_singleton.mp selected
              cases inside with
              | here => cases inLevel
              | next selected _ _ => cases selected
  exact ⟨⟨serves_graded, selected, fetchable, supplied⟩,
    get_supplied serves_graded selected fetchable supplied {}⟩

end Usos

end EntityResolver
