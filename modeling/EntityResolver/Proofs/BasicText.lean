import EntityResolver.Proofs.Selector.BasicForm

/-!
# Selectors in the basic form

Calls carry their selectors as texts of the basic form. The texts that are read are those of the
grammar, as what they stand for there. What is printed of a selector is such a text, and stands for
what remains of the selector without its recursive fields. That is all there is to lose: a selector
that was read in the basic form is read again from its own text.
-/

set_option autoImplicit false

namespace EntityResolver.Selector

/-- From what is printed of a selector the rest of it without recursive fields is read, in the same
order on every level; and what is read of any text is what the grammar makes of it, and is read
again from its own text. -/
theorem parseBasic_render :
    (∀ selector : Selector, selector.Distinct → selector.Spellable → selector.unrolled ≠ .empty →
      parseBasic selector.render = .ok selector.unrolled ∧
        selector.render = selector.unrolled.render ∧
        selector.unrolled.unrolled = selector.unrolled ∧ selector.unrolled.RecursionFree) ∧
    (∀ (text : String) (selector : Selector),
      parseBasic text = .ok selector ↔ Basic text.toList selector) ∧
    ∀ (text : String) (selector : Selector),
      parseBasic text = .ok selector → parseBasic selector.render = .ok selector := by
  refine ⟨fun selector distinct spellable nonempty => ?_,
    fun text selector => ⟨basic_of_parseBasic, parseBasic_of_basic⟩, fun text selector done => ?_⟩
  · have free := unrolled_recursionFree selector
    have basic := (isPlain_unrolled distinct spellable).basic nonempty
    rw [render_unrolled] at basic
    exact ⟨parseBasic_of_basic basic, (render_unrolled selector).symm, free.unrolled_eq, free⟩
  · obtain ⟨plain, nonempty⟩ := (basic_of_parseBasic done).isPlain
    exact parseBasic_of_basic (plain.basic nonempty)

end EntityResolver.Selector

namespace EntityResolver.Chapters

/-- The chapters on all levels, each with its title and the book it is in. -/
def book : Selector :=
  .nested "title" .empty
    (.nested "chapters"
      (.recursive "chapters" (.nested "book" (.recursive "chapters" .empty)
        (.nested "title" .empty .empty)))
      (.recursive "sequel" .empty))

def titles : Selector :=
  .nested "chapters" (.nested "title" .empty .empty) (.nested "title" .empty .empty)

/-- Nothing remains below `book`, which is printed without brackets. -/
theorem parseBasic_render_book :
    (book.Distinct ∧ book.Spellable ∧ book.unrolled ≠ .empty ∧
      book.render = "title|chapters[book|title]" ∧
      Selector.parseBasic "chapters|title|chapters[title]" = .ok titles) ∧
    (Selector.parseBasic book.render = .ok book.unrolled ∧
      book.render = book.unrolled.render ∧ book.unrolled.unrolled = book.unrolled ∧
      book.unrolled.RecursionFree) ∧
    Selector.parseBasic titles.render = .ok titles := by
  have distinct : book.Distinct := by simp [book, Selector.Distinct, Selector.names]
  have spellable : book.Spellable := by
    simp only [book, Selector.Spellable]
    decide
  have nonempty : book.unrolled ≠ .empty := by decide
  have done : Selector.parseBasic "chapters|title|chapters[title]" = .ok titles := by
    decide +kernel
  exact ⟨⟨distinct, spellable, nonempty, by decide +kernel, done⟩,
    Selector.parseBasic_render.1 book distinct spellable nonempty,
    Selector.parseBasic_render.2.2 _ titles done⟩

end EntityResolver.Chapters
