import EntityResolver.Proofs.Selector.Printed

/-!
# The text of a selector

The texts that are selectors for a class are those of the grammar, with the meaning that is built
up along with it, and the empty text. A selector that was read from a text and is not recursive is
printed as a text that it is read from again: nothing is printed in brackets only where nothing is
selected by default.
-/

set_option autoImplicit false

namespace EntityResolver.Selector

/-- A text is read as a selector if it is empty or stands for it in the grammar, and in no other
case. -/
theorem parse_eq_ok_iff (schema : Schema) (cls : EntityClass) (text : String)
    (selector : Selector) :
    parse schema cls text = .ok selector ↔
      text = "" ∧ selector = .empty ∨ Written schema cls text.toList selector := by
  constructor
  · exact written_of_parse
  · rintro (⟨rfl, rfl⟩ | written)
    · exact parse_empty schema cls
    · exact parse_of_written written

/-- Without recursion a selector that was read is read again from its own text. -/
theorem parse_render {naming : String → String} {declared : List ClassDecl} {schema : Schema}
    {cls : EntityClass} {text : String} {selector : Selector}
    (built : Schema.ofDeclsNaming naming declared = .ok schema)
    (identifiers : ∀ cls ∈ schema.classes, ∀ field ∈ cls.fields, IsIdentifier field.name.toList)
    (known : cls ∈ schema.classes) (done : parse schema cls text = .ok selector)
    (free : selector.RecursionFree) : parse schema cls selector.render = .ok selector := by
  obtain ⟨position, found⟩ := List.getElem?_of_mem known
  have wellFormed := Schema.wellFormed_of_ofDeclsNaming built
  obtain ⟨distinct, formed⟩ :=
    formed_of_parse wellFormed (show schema.class? ⟨position⟩ = some cls from found) done
  by_cases isEmpty : selector = .empty
  · subst isEmpty
    exact parse_empty schema cls
  · apply parse_of_written
    rw [render, String.toList_ofList]
    exact formed.written identifiers known distinct free isEmpty

end EntityResolver.Selector

namespace EntityResolver.Lectures

/-- Courses with their lecturers. By default a course is described by its name, and a lecturer by
name and title. -/
def decls : List ClassDecl :=
  [{ name := "Course",
     fields := [
       { name := "id", kind := .scalar .string },
       { name := "name", kind := .scalar .string, isDefault := true },
       { name := "lecturers", kind := .entityList "User" }] },
   { name := "User",
     fields := [
       { name := "name", kind := .scalar .string, isDefault := true },
       { name := "title", kind := .scalar .string, isDefault := true }] }]

def course : EntityClass :=
  { id := ⟨0⟩
    name := "Course"
    fields := [
      ⟨"id", ⟨0⟩, .scalar .string, false, false⟩,
      ⟨"name", ⟨0⟩, .scalar .string, true, false⟩,
      ⟨"lecturers", ⟨0⟩, .entityList ⟨1⟩, false, false⟩]
    searchItem := none
    foundField := none
    defaultSelector := .nested "name" .empty .empty }

def user : EntityClass :=
  { id := ⟨1⟩
    name := "User"
    fields := [
      ⟨"name", ⟨1⟩, .scalar .string, true, false⟩,
      ⟨"title", ⟨1⟩, .scalar .string, true, false⟩]
    searchItem := none
    foundField := none
    defaultSelector := .nested "name" .empty (.nested "title" .empty .empty) }

def schema : Schema := ⟨[course, user]⟩

def titled : Selector :=
  .nested "lecturers" (.nested "title" .empty (.nested "name" .empty .empty))
    (.nested "id" .empty .empty)

/-- The field named first keeps its place, with the brackets that are written last. -/
theorem parse_render_titled :
    (Schema.ofDecls decls = .ok schema ∧
      Selector.parse schema course "lecturers|id|lecturers[title|name]" = .ok titled) ∧
    Selector.parse schema course titled.render = .ok titled := by
  have built : Schema.ofDecls decls = .ok schema := by decide +kernel
  have done : Selector.parse schema course "lecturers|id|lecturers[title|name]" = .ok titled := by
    decide +kernel
  refine ⟨⟨built, done⟩,
    Selector.parse_render built (by decide +kernel) (by decide +kernel) done ?_⟩
  simp [titled, Selector.RecursionFree]

end EntityResolver.Lectures
