import EntityResolver.Proofs.Selector.Formed
import EntityResolver.Session

/-!
Which fields of a selector are recursive.

What is read from a text is recursive only by its stars, and a star makes a field recursive in what
is selected below it, under its own name.
-/

set_option autoImplicit false

namespace EntityResolver

namespace Selector

/-- No field but the one named `around?` is recursive, and below a field no other than that one. -/
def Rooted : Option String → Selector → Prop
  | _, .empty => True
  | around?, .nested name sub rest => Rooted (some name) sub ∧ Rooted around? rest
  | around?, .recursive name rest => around? = some name ∧ Rooted around? rest

/-- What is said about a field may stand inside `around?`. -/
def Entry.Rooted (around? : Option String) (name : String) : Entry → Prop
  | .nested sub => Selector.Rooted (some name) sub
  | .recursive => around? = some name

variable {schema : Schema} {cls : EntityClass} {field : Field} {selector sub within : Selector}
  {name : String} {entry : Entry} {around? : Option String} {star text : List Char}
  {row : List (String × Selector)}

theorem Rooted.weaken (rooted : Rooted none selector) (around? : Option String) :
    Rooted around? selector := by
  induction selector with
  | empty => trivial
  | nested name sub rest _ inductionHypothesis => exact ⟨rooted.1, inductionHypothesis rooted.2⟩
  | recursive name rest _ => cases rooted.1

theorem entrywise_rooted (around? : Option String) :
    Entrywise (Entry.Rooted around?) (Rooted around?) where
  empty := trivial
  nested _ _ _ := Iff.rfl
  recursive _ _ := Iff.rfl

theorem rooted_ofRow (rooted : ∀ field ∈ row, Rooted (some field.1) field.2) :
    Rooted around? (ofRow row) := by
  induction row using List.reverseRecOn with
  | nil => trivial
  | append_singleton row field inductionHypothesis =>
      rw [ofRow_append_singleton]
      have before := inductionHypothesis fun field member =>
        rooted field (List.mem_append_left _ member)
      exact (entrywise_rooted around?).insertEntry before (rooted field (by simp))

theorem rooted_defaultRow {fields : List Field}
    (inside : ∀ field ∈ fields, field.isDefault = true →
      Rooted none (schema.defaultSubselector field)) :
    Rooted none (schema.defaultRow fields) := by
  induction fields with
  | nil => trivial
  | cons field rest inductionHypothesis =>
      have others := inductionHypothesis fun field member =>
        inside field (List.mem_cons_of_mem _ member)
      unfold Schema.defaultRow
      split
      · rename_i isDefault
        exact ⟨(inside field List.mem_cons_self isDefault).weaken _, others⟩
      · exact others

theorem rooted_defaultSelector (wellFormed : schema.WellFormed) (id : ClassId) :
    Rooted none (schema.defaultSelector id) := by
  -- the induction is on the size of the selector: what a class refers to by default is smaller
  obtain ⟨size, bound⟩ : ∃ size, sizeOf (schema.defaultSelector id) < size :=
    ⟨_, Nat.lt_succ_self _⟩
  induction size generalizing id with
  | zero => exact (Nat.not_lt_zero _ bound).elim
  | succ size inductionHypothesis =>
      cases known : schema.class? id with
      | none => simp [Schema.defaultSelector, known, Rooted]
      | some cls =>
          have selected : schema.defaultSelector id = schema.defaultRow cls.fields := by
            simp [Schema.defaultSelector, known, wellFormed.defaults known]
          rw [selected] at bound ⊢
          refine rooted_defaultRow fun field declared isDefault => ?_
          have smaller := sizeOf_defaultSubselector_lt schema declared isDefault
          cases refers : field.kind.target? with
          | none => simp [Schema.defaultSubselector, refers, Rooted]
          | some target =>
              have below : schema.defaultSubselector field = schema.defaultSelector target := by
                simp [Schema.defaultSubselector, refers]
              rw [below] at smaller ⊢
              exact inductionHypothesis target (by omega)

theorem rooted_defaultSubselector (wellFormed : schema.WellFormed) (field : Field) :
    Rooted none (schema.defaultSubselector field) := by
  unfold Schema.defaultSubselector
  split
  · exact rooted_defaultSelector wellFormed _
  · trivial

theorem Marked.rooted (marked : Marked schema field within star sub)
    (rooted : Rooted none within) : Rooted (some field.name) sub := by
  cases marked with
  | plain => exact rooted.weaken _
  | starred _ _ => exact (entrywise_rooted _).insertEntry (rooted.weaken _) rfl

mutual

theorem rooted_of_written (wellFormed : schema.WellFormed) {cls : EntityClass} {text : List Char}
    {selector : Selector} : Written schema cls text selector → Rooted none selector
  | .all _ => by
      refine rooted_ofRow fun entry member => ?_
      obtain ⟨field, _, rfl⟩ := List.mem_map.mp member
      exact (rooted_defaultSubselector wellFormed field).weaken _
  | .fields written => rooted_ofRow (rooted_of_rowWritten wellFormed written)

theorem rooted_of_rowWritten (wellFormed : schema.WellFormed) {cls : EntityClass} {text : List Char}
    {row : List (String × Selector)} :
    RowWritten schema cls text row → ∀ field ∈ row, Rooted (some field.1) field.2
  | .last written => by
      rintro _ (_ | ⟨_, ⟨⟩⟩)
      exact rooted_of_fieldWritten wellFormed written
  | .more written others => by
      rintro entry (_ | ⟨_, member⟩)
      · exact rooted_of_fieldWritten wellFormed written
      · exact rooted_of_rowWritten wellFormed others entry member

theorem rooted_of_fieldWritten (wellFormed : schema.WellFormed) {cls : EntityClass}
    {text : List Char} {name : String} {sub : Selector} :
    FieldWritten schema cls text name sub → Rooted (some name) sub
  | .bare _ _ marked => marked.rooted (rooted_defaultSubselector wellFormed _)
  | .bracketed _ _ _ inside marked => marked.rooted (rooted_of_written wellFormed inside)

end

theorem rooted_of_parse (wellFormed : schema.WellFormed) {text : String}
    (done : parse schema cls text = .ok selector) : Rooted none selector := by
  rcases written_of_parse done with ⟨_, rfl⟩ | written
  · trivial
  · exact rooted_of_written wellFormed written

end Selector

/-- What is selected for a class says each name once, and is recursive only by its stars. -/
theorem Session.rooted_of_classSelector {session : Session} {cls : ClassId} {selector : Selector}
    {fields : Option String}
    (wellFormed : session.catalog.schema.WellFormed)
    (selected : session.classSelector cls fields = .ok selector) :
    selector.Distinct ∧ selector.Rooted none := by
  cases fields with
  | none =>
      cases selected
      refine ⟨?_, Selector.rooted_defaultSelector wellFormed cls⟩
      cases known : session.catalog.schema.class? cls with
      | none => simp [Schema.defaultSelector, known, Selector.Distinct]
      | some found =>
          simpa [Schema.defaultSelector, known] using
            (Selector.formed_defaultSelector wellFormed known).1
  | some text =>
      simp only [Session.classSelector] at selected
      split at selected
      · rename_i found known
        have done := liftError_eq_ok_iff.mp selected
        exact ⟨(Selector.formed_of_parse wellFormed known done).1,
          Selector.rooted_of_parse wellFormed done⟩
      · cases selected
        exact ⟨trivial, trivial⟩

end EntityResolver
