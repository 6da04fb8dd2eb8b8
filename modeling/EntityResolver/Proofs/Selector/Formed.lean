import EntityResolver.Proofs.Schema.Build
import EntityResolver.Proofs.Selector.Grammar

/-!
Selectors that fit a class, as all those do that are read from texts.

The fields are fields of the class, and what is selected below a field fits the class that it refers
to. Nothing is selected below a field only where nothing is selected by default.
-/

set_option autoImplicit false

namespace EntityResolver.Selector

def Formed (schema : Schema) : EntityClass → Selector → Prop
  | _, .empty => True
  | cls, .nested name sub rest =>
      (∃ field, cls.field? name = some field ∧
        (sub = .empty → schema.defaultSubselector field = .empty) ∧
        (sub ≠ .empty → ∃ target, field.kind.target?.bind schema.class? = some target ∧
          Formed schema target sub)) ∧
      Formed schema cls rest
  | cls, .recursive name rest => (∃ field, cls.field? name = some field) ∧ Formed schema cls rest

/-- What is said about a field fits the class. -/
def Entry.Formed (schema : Schema) (cls : EntityClass) (name : String) : Entry → Prop
  | .nested sub => ∃ field, cls.field? name = some field ∧
      (sub = .empty → schema.defaultSubselector field = .empty) ∧
      (sub ≠ .empty → ∃ target, field.kind.target?.bind schema.class? = some target ∧
        Selector.Formed schema target sub)
  | .recursive => ∃ field, cls.field? name = some field

variable {schema : Schema} {cls : EntityClass} {field : Field} {selector sub : Selector}
  {name : String} {entry : Entry} {row : List (String × Selector)} {text : List Char}
  {target : EntityClass} {star : List Char} {within : Selector}

theorem entrywise_formed (schema : Schema) (cls : EntityClass) :
    Entrywise (Entry.Formed schema cls) (Formed schema cls) where
  empty := trivial
  nested _ _ _ := Iff.rfl
  recursive _ _ := Iff.rfl

theorem EntityClass.field?_of_mem (distinct : (cls.fields.map Field.name).Nodup)
    (declared : field ∈ cls.fields) : cls.field? field.name = some field := by
  cases found : cls.field? field.name with
  | none =>
      have missed := List.find?_eq_none.mp found field declared
      simp at missed
  | some other =>
      have same := EntityClass.name_of_field? found
      exact congrArg some
        (List.inj_on_of_nodup_map distinct (List.mem_of_find?_eq_some found) declared same)

theorem names_defaultRow (schema : Schema) (fields : List Field) :
    (schema.defaultRow fields).names = (fields.filter Field.isDefault).map Field.name := by
  induction fields with
  | nil => rfl
  | cons field rest inductionHypothesis =>
      cases isDefault : field.isDefault with
      | false => simpa [Schema.defaultRow, isDefault] using inductionHypothesis
      | true => simpa [Schema.defaultRow, isDefault, names] using inductionHypothesis

theorem sizeOf_defaultSubselector_lt (schema : Schema) {fields : List Field}
    (member : field ∈ fields)
    (isDefault : field.isDefault = true) :
    sizeOf (schema.defaultSubselector field) < sizeOf (schema.defaultRow fields) := by
  induction fields with
  | nil => cases member
  | cons first rest inductionHypothesis =>
      unfold Schema.defaultRow
      rcases List.mem_cons.mp member with rfl | inRest
      · rw [if_pos isDefault, nested.sizeOf_spec]
        omega
      · have smaller := inductionHypothesis inRest
        split
        · rw [nested.sizeOf_spec]
          omega
        · exact smaller

/-- Default fields make a selector that fits if the classes they refer to have such selectors. -/
theorem formed_defaultRow {fields : List Field} (distinct : (fields.map Field.name).Nodup)
    (known : ∀ field ∈ fields, cls.field? field.name = some field)
    (inside : ∀ field ∈ fields, field.isDefault = true →
      (schema.defaultSubselector field).Distinct ∧ (schema.defaultSubselector field ≠ .empty →
        ∃ target, field.kind.target?.bind schema.class? = some target ∧
          Formed schema target (schema.defaultSubselector field))) :
    (schema.defaultRow fields).Distinct ∧ Formed schema cls (schema.defaultRow fields) := by
  induction fields with
  | nil => exact ⟨trivial, trivial⟩
  | cons field rest inductionHypothesis =>
      obtain ⟨fresh, distinctThere⟩ := List.nodup_cons.mp distinct
      obtain ⟨distinctRest, formedRest⟩ := inductionHypothesis distinctThere
        (fun other member => known other (List.mem_cons_of_mem _ member))
        (fun other member => inside other (List.mem_cons_of_mem _ member))
      unfold Schema.defaultRow
      split
      · rename_i isDefault
        obtain ⟨distinctInside, fits⟩ := inside field List.mem_cons_self isDefault
        refine ⟨⟨?_, distinctInside, distinctRest⟩,
          ⟨field, known field List.mem_cons_self, id, fits⟩,
          formedRest⟩
        rw [names_defaultRow]
        exact fun again => fresh ((List.filter_sublist.map _).subset again)
      · exact ⟨distinctRest, formedRest⟩

/-- What is selected below a field by default fits if the default selector of its class does. -/
theorem formed_defaultSubselector (wellFormed : schema.WellFormed) {id : ClassId}
    (known : schema.class? id = some cls) (declared : field ∈ cls.fields)
    (inside : ∀ referred id, schema.class? id = some referred →
      schema.defaultSubselector field = referred.defaultSelector →
      referred.defaultSelector.Distinct ∧ Formed schema referred referred.defaultSelector) :
    (schema.defaultSubselector field).Distinct ∧ (schema.defaultSubselector field ≠ .empty →
      ∃ target, field.kind.target?.bind schema.class? = some target ∧
        Formed schema target (schema.defaultSubselector field)) := by
  cases refers : field.kind.target? with
  | none => simp [Schema.defaultSubselector, refers, Distinct]
  | some target =>
      obtain ⟨referred, knownTarget⟩ := wellFormed.closed known declared refers
      have selected : schema.defaultSubselector field = referred.defaultSelector := by
        simp [Schema.defaultSubselector, refers, Schema.defaultSelector, knownTarget]
      obtain ⟨distinct, formed⟩ := inside referred target knownTarget selected
      rw [selected]
      exact ⟨distinct, fun _ => ⟨referred, knownTarget, formed⟩⟩

theorem formed_defaultSelector (wellFormed : schema.WellFormed) {id : ClassId}
    (known : schema.class? id = some cls) :
    cls.defaultSelector.Distinct ∧ Formed schema cls cls.defaultSelector := by
  -- the induction is on the size of the selector: what a class refers to by default is smaller
  obtain ⟨size, bound⟩ : ∃ size, sizeOf cls.defaultSelector < size := ⟨_, Nat.lt_succ_self _⟩
  induction size generalizing id cls with
  | zero => exact (Nat.not_lt_zero _ bound).elim
  | succ size inductionHypothesis =>
      have distinct := wellFormed.distinct known
      rw [wellFormed.defaults known] at bound ⊢
      refine formed_defaultRow distinct (fun field => EntityClass.field?_of_mem distinct) ?_
      intro field declared isDefault
      refine formed_defaultSubselector wellFormed known declared
        fun referred target knownTarget selected => inductionHypothesis knownTarget ?_
      have smaller := sizeOf_defaultSubselector_lt schema declared isDefault
      rw [selected] at smaller
      omega

/-- Every field of the row has a name once, inside, and fits the class. -/
def RowFormed (schema : Schema) (cls : EntityClass) (row : List (String × Selector)) : Prop :=
  ∀ field ∈ row, field.2.Distinct ∧ Entry.Formed schema cls field.1 (.nested field.2)

theorem formed_ofRow (formed : RowFormed schema cls row) :
    (ofRow row).Distinct ∧ Formed schema cls (ofRow row) := by
  induction row using List.reverseRecOn with
  | nil => exact ⟨trivial, trivial⟩
  | append_singleton row field inductionHypothesis =>
      obtain ⟨name, sub⟩ := field
      obtain ⟨distinct, formedThere⟩ :=
        inductionHypothesis fun field member => formed field (List.mem_append_left _ member)
      obtain ⟨inside, fits⟩ := formed (name, sub) (by simp)
      rw [ofRow_append_singleton]
      exact ⟨distinct.insertEntry inside,
        (entrywise_formed schema cls).insertEntry formedThere fits⟩

theorem formed_default (wellFormed : schema.WellFormed) {id : ClassId}
    (known : schema.class? id = some cls) (declared : field ∈ cls.fields) :
    (schema.defaultSubselector field).Distinct ∧ (schema.defaultSubselector field ≠ .empty →
      ∃ target, field.kind.target?.bind schema.class? = some target ∧
        Formed schema target (schema.defaultSubselector field)) :=
  formed_defaultSubselector wellFormed known declared
    fun _ _ knownTarget _ => formed_defaultSelector wellFormed knownTarget

theorem Marked.formed (marked : Marked schema field within star sub)
    (found : cls.field? field.name = some field) (distinct : within.Distinct)
    (unselected : within = .empty → schema.defaultSubselector field = .empty)
    (fits : within ≠ .empty → ∃ target, field.kind.target?.bind schema.class? = some target ∧
      Formed schema target within) :
    sub.Distinct ∧ Entry.Formed schema cls field.name (.nested sub) := by
  cases marked with
  | plain => exact ⟨distinct, field, found, unselected, fits⟩
  | @starred target refers again =>
      obtain ⟨below, foundBelow⟩ := Option.isSome_iff_exists.mp again
      obtain ⟨referred, knownTarget, declared⟩ := Option.bind_eq_some_iff.mp foundBelow
      have formed : Formed schema referred within := by
        by_cases isEmpty : within = .empty
        · rw [isEmpty]
          trivial
        · obtain ⟨other, sameTarget, formed⟩ := fits isEmpty
          rw [refers, Option.bind_some, knownTarget] at sameTarget
          cases sameTarget
          exact formed
      have entry :
          Selector.entry? (within.insertRecursive field.name) field.name = some .recursive := by
        rw [insertRecursive, entry?_insertEntry, if_pos rfl]
      refine ⟨distinct.insertEntry trivial, field, found, fun isEmpty => ?_, fun _ => ?_⟩
      · rw [isEmpty] at entry
        cases entry
      · refine ⟨referred, by rw [refers, Option.bind_some, knownTarget], ?_⟩
        exact (entrywise_formed schema referred).insertEntry formed ⟨below, declared⟩

theorem ofRow_ne_empty (nonempty : row ≠ []) : ofRow row ≠ .empty := by
  cases row with
  | nil => exact (nonempty rfl).elim
  | cons field rest => exact Selector.noConfusion

/-- Nothing is selected only by all fields of a class that has none. -/
theorem Written.fields_eq_nil (written : Written schema cls text selector)
    (isEmpty : selector = .empty) : cls.fields = [] := by
  cases written with
  | all =>
      by_contra nonempty
      exact ofRow_ne_empty (by simpa using nonempty) isEmpty
  | fields written =>
      refine (ofRow_ne_empty ?_ isEmpty).elim
      cases written <;> simp

mutual

theorem formed_of_written (wellFormed : schema.WellFormed) {id : ClassId} {cls : EntityClass}
    {text : List Char} {selector : Selector} (known : schema.class? id = some cls) :
    Written schema cls text selector → selector.Distinct ∧ Formed schema cls selector
  | .all _ => by
      refine formed_ofRow fun entry member => ?_
      obtain ⟨field, declared, rfl⟩ := List.mem_map.mp member
      have found := EntityClass.field?_of_mem (wellFormed.distinct known) declared
      obtain ⟨distinct, fits⟩ := formed_default wellFormed known declared
      exact ⟨distinct, field, found, fun isEmpty => isEmpty, fits⟩
  | .fields written => formed_ofRow (formed_of_rowWritten wellFormed known written)

theorem formed_of_rowWritten (wellFormed : schema.WellFormed) {id : ClassId} {cls : EntityClass}
    {text : List Char} {row : List (String × Selector)} (known : schema.class? id = some cls) :
    RowWritten schema cls text row → RowFormed schema cls row
  | .last written => by
      rintro _ (_ | ⟨_, ⟨⟩⟩)
      exact formed_of_fieldWritten wellFormed known written
  | .more written others => by
      rintro entry (_ | ⟨_, member⟩)
      · exact formed_of_fieldWritten wellFormed known written
      · exact formed_of_rowWritten wellFormed known others entry member

theorem formed_of_fieldWritten (wellFormed : schema.WellFormed) {id : ClassId} {cls : EntityClass}
    {text : List Char} {name : String} {sub : Selector} (known : schema.class? id = some cls) :
    FieldWritten schema cls text name sub →
      sub.Distinct ∧ Entry.Formed schema cls name (.nested sub)
  | .bare _ found marked => by
      obtain ⟨distinct, fits⟩ :=
        formed_default wellFormed known (List.mem_of_find?_eq_some found)
      exact marked.formed found distinct (fun isEmpty => isEmpty) fits
  | .bracketed _ found refers inside marked => by
      obtain ⟨target, refersTo, knownTarget⟩ := Option.bind_eq_some_iff.mp refers
      obtain ⟨distinct, formed⟩ := formed_of_written wellFormed knownTarget inside
      refine marked.formed found distinct (fun isEmpty => ?_) fun _ => ⟨_, refers, formed⟩
      have fields := inside.fields_eq_nil isEmpty
      simp [Schema.defaultSubselector, refersTo, Schema.defaultSelector, knownTarget,
        wellFormed.defaults knownTarget, fields, Schema.defaultRow]

end

theorem formed_of_parse (wellFormed : schema.WellFormed) {id : ClassId} {text : String}
    (known : schema.class? id = some cls)
    (done : parse schema cls text = .ok selector) :
    selector.Distinct ∧ Formed schema cls selector := by
  rcases written_of_parse done with ⟨_, rfl⟩ | written
  · exact ⟨trivial, trivial⟩
  · exact formed_of_written wellFormed known written

end EntityResolver.Selector
