import EntityResolver.Proofs.Selector.Formed
import EntityResolver.Selector.Printer

/-!
Printed selectors are texts of the grammar.

A field is printed without brackets where nothing is selected below it. Read again it takes what is
selected there by default, which in a selector that fits its class is nothing as well.
-/

set_option autoImplicit false

namespace EntityResolver.Selector

variable {schema : Schema} {cls : EntityClass} {selector sub rest : Selector} {name : String}

theorem renderChars_last (name : String) (sub : Selector) :
    (nested name sub .empty).renderChars = renderField name sub.renderChars := by
  simp [renderChars, renderFields, List.intercalate]

theorem renderChars_more (free : rest.RecursionFree) (more : rest ≠ .empty) :
    (nested name sub rest).renderChars =
      renderField name sub.renderChars ++ '|' :: rest.renderChars := by
  cases rest with
  | empty => exact (more rfl).elim
  | nested other inner rest => simp [renderChars, renderFields, List.intercalate]
  | recursive other rest => exact free.elim

theorem FieldWritten.ne_nil {text : List Char} (written : FieldWritten schema cls text name sub) :
    text ≠ [] := by
  cases written with
  | bare identifier _ _ | bracketed identifier _ _ _ _ =>
      obtain ⟨c, rest, spelled, _⟩ := identifier
      simp [spelled]

theorem RowWritten.ne_nil {text : List Char} {row : List (String × Selector)}
    (written : RowWritten schema cls text row) : text ≠ [] := by
  cases written with
  | last written => exact written.ne_nil
  | more written _ => simp

theorem Formed.rowWritten
    (identifiers : ∀ cls ∈ schema.classes, ∀ field ∈ cls.fields, IsIdentifier field.name.toList)
    (known : cls ∈ schema.classes) (formed : Formed schema cls selector)
    (distinct : selector.Distinct) (free : selector.RecursionFree) (nonempty : selector ≠ .empty) :
    RowWritten schema cls selector.renderChars selector.row := by
  induction selector generalizing cls with
  | empty => exact (nonempty rfl).elim
  | recursive name rest _ => exact free.elim
  | nested name sub rest below behind =>
      obtain ⟨⟨field, found, unselected, fits⟩, formedRest⟩ := formed
      have printed : FieldWritten schema cls (renderField name sub.renderChars) name sub := by
        obtain rfl := EntityClass.name_of_field? found
        have identifier := identifiers cls known field (List.mem_of_find?_eq_some found)
        by_cases unselects : sub = .empty
        · subst unselects
          have marked : Marked schema field (schema.defaultSubselector field) [] .empty := by
            rw [unselected rfl]
            exact .plain
          simpa [renderField, renderChars, renderFields, List.intercalate] using
            FieldWritten.bare identifier found marked
        · obtain ⟨target, refers, formedInside⟩ := fits unselects
          obtain ⟨id, _, knownTarget⟩ := Option.bind_eq_some_iff.mp refers
          have inside := below (List.mem_of_getElem? knownTarget) formedInside distinct.2.1 free.1
            unselects
          have written := Written.fields inside
          rw [ofRow_row distinct.2.1 free.1] at written
          simpa [renderField, inside.ne_nil] using
            FieldWritten.bracketed identifier found refers written .plain
      by_cases last : rest = .empty
      · subst last
        rw [renderChars_last]
        exact .last printed
      · rw [renderChars_more free.2 last]
        exact .more printed (behind known formedRest distinct.2.2 free.2 last)

/-- What is printed of a selector that fits its class stands for the selector. -/
theorem Formed.written
    (identifiers : ∀ cls ∈ schema.classes, ∀ field ∈ cls.fields, IsIdentifier field.name.toList)
    (known : cls ∈ schema.classes) (formed : Formed schema cls selector)
    (distinct : selector.Distinct) (free : selector.RecursionFree) (nonempty : selector ≠ .empty) :
    Written schema cls selector.renderChars selector := by
  have written := Written.fields (formed.rowWritten identifiers known distinct free nonempty)
  rwa [ofRow_row distinct free] at written

end EntityResolver.Selector
