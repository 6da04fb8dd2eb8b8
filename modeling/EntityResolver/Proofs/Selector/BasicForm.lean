import EntityResolver.Proofs.Selector.Asked
import EntityResolver.Proofs.Selector.Printed

/-!
The basic form of the text of a selector, as a grammar.

    selector := field ('|' field)*
    field    := name ['[' selector ']']

It knows neither classes nor stars, so the text alone says what is selected. As in the full form a
name that is repeated on a level keeps its first place and gets what stands behind it last.

What can be said in the basic form are selectors without recursive fields, whose names are
identifiers. Printing drops recursive fields, so what is printed of any other selector says what
remains of it without them.
-/

set_option autoImplicit false

namespace EntityResolver.Selector

mutual

inductive BasicRow : List Char → List (String × Selector) → Prop where
  | last {text : List Char} {name : String} {sub : Selector} (written : BasicField text name sub) :
      BasicRow text [(name, sub)]
  | more {text behind : List Char} {name : String} {sub : Selector}
      {row : List (String × Selector)} (written : BasicField text name sub)
      (others : BasicRow behind row) : BasicRow (text ++ '|' :: behind) ((name, sub) :: row)

inductive BasicField : List Char → String → Selector → Prop where
  | bare {name : String} (identifier : IsIdentifier name.toList) :
      BasicField name.toList name .empty
  | bracketed {name : String} {text : List Char} {row : List (String × Selector)}
      (identifier : IsIdentifier name.toList) (inside : BasicRow text row) :
      BasicField (name.toList ++ '[' :: (text ++ [']'])) name (ofRow row)

end

def Basic (text : List Char) (selector : Selector) : Prop :=
  ∃ row, BasicRow text row ∧ selector = ofRow row

/-- On every level the names are identifiers. -/
def Spellable : Selector → Prop
  | .empty => True
  | .nested name sub rest => IsIdentifier name.toList ∧ sub.Spellable ∧ rest.Spellable
  | .recursive name rest => IsIdentifier name.toList ∧ rest.Spellable

/-- The selector can be told in full by its names and brackets. -/
structure IsPlain (selector : Selector) : Prop where
  distinct : selector.Distinct
  free : selector.RecursionFree
  spellable : selector.Spellable

variable {selector sub rest : Selector} {name : String} {row : List (String × Selector)}
  {text behind : List Char} {fuel : Nat} {tokens : List Token}

theorem unrolled_recursionFree (selector : Selector) : selector.unrolled.RecursionFree := by
  induction selector with
  | empty => trivial
  | nested name sub rest below behind => exact ⟨below, behind⟩
  | recursive name rest behind => exact behind

theorem RecursionFree.unrolled_eq (free : selector.RecursionFree) :
    selector.unrolled = selector := by
  induction selector with
  | empty => rfl
  | nested name sub rest below behind => rw [unrolled, below free.1, behind free.2]
  | recursive name rest _ => exact free.elim

theorem names_unrolled_sublist (selector : Selector) :
    selector.unrolled.names.Sublist selector.names := by
  induction selector with
  | empty => exact List.Sublist.slnil
  | nested name sub rest _ behind => exact behind.cons_cons name
  | recursive name rest behind => exact behind.cons name

theorem Distinct.unrolled (distinct : selector.Distinct) : selector.unrolled.Distinct := by
  induction selector with
  | empty => trivial
  | nested name sub rest below behind =>
      have fresh : name ∉ rest.unrolled.names := fun listed =>
        distinct.1 ((names_unrolled_sublist rest).subset listed)
      exact ⟨fresh, below distinct.2.1, behind distinct.2.2⟩
  | recursive name rest behind => exact behind distinct.2

theorem Spellable.unrolled (spellable : selector.Spellable) : selector.unrolled.Spellable := by
  induction selector with
  | empty => trivial
  | nested name sub rest below behind =>
      exact ⟨spellable.1, below spellable.2.1, behind spellable.2.2⟩
  | recursive name rest behind => exact behind spellable.2

/-- What is left without recursive fields can be told in full. -/
theorem isPlain_unrolled (distinct : selector.Distinct) (spellable : selector.Spellable) :
    selector.unrolled.IsPlain :=
  ⟨distinct.unrolled, unrolled_recursionFree selector, spellable.unrolled⟩

theorem renderFields_unrolled (selector : Selector) :
    selector.unrolled.renderFields = selector.renderFields := by
  induction selector with
  | empty => rfl
  | nested name sub rest below behind => rw [unrolled, renderFields, below, behind, ← renderFields]
  | recursive name rest behind => exact behind

/-- Recursive fields leave no trace in a text. -/
theorem render_unrolled (selector : Selector) : selector.unrolled.render = selector.render := by
  rw [render, render, renderChars, renderChars, renderFields_unrolled]

theorem isPlain_empty : empty.IsPlain := ⟨trivial, trivial, trivial⟩

theorem entrywise_spellable :
    Entrywise (fun name entry => IsIdentifier name.toList ∧ entry.detached.Spellable)
      Spellable where
  empty := trivial
  nested name sub rest := by simp [Spellable, Entry.detached, and_assoc]
  recursive name rest := by simp [Spellable, Entry.detached]

theorem IsPlain.insert (plain : selector.IsPlain) (identifier : IsIdentifier name.toList)
    (inside : sub.IsPlain) : (selector.insert name sub).IsPlain where
  distinct := plain.distinct.insertEntry inside.distinct
  free := plain.free.insert inside.free
  spellable := entrywise_spellable.insertEntry plain.spellable ⟨identifier, inside.spellable⟩

theorem isPlain_ofRow
    (plain : ∀ field ∈ row, IsIdentifier field.1.toList ∧ field.2.IsPlain) :
    (ofRow row).IsPlain := by
  induction row using List.reverseRecOn with
  | nil => exact isPlain_empty
  | append_singleton row field inductionHypothesis =>
      obtain ⟨identifier, inside⟩ := plain field (by simp)
      rw [ofRow_append_singleton]
      exact (inductionHypothesis fun other member =>
        plain other (List.mem_append_left _ member)).insert identifier inside

mutual

theorem BasicRow.isPlain {text : List Char} {row : List (String × Selector)} :
    BasicRow text row → ∀ field ∈ row, IsIdentifier field.1.toList ∧ field.2.IsPlain
  | .last written => by
      rintro _ (_ | ⟨_, ⟨⟩⟩)
      exact written.isPlain
  | .more written others => by
      rintro field (_ | ⟨_, member⟩)
      · exact written.isPlain
      · exact others.isPlain field member

theorem BasicField.isPlain {text : List Char} {name : String} {sub : Selector} :
    BasicField text name sub → IsIdentifier name.toList ∧ sub.IsPlain
  | .bare identifier => ⟨identifier, isPlain_empty⟩
  | .bracketed identifier inside => ⟨identifier, isPlain_ofRow inside.isPlain⟩

end

theorem BasicRow.ne_nil (written : BasicRow text row) : row ≠ [] := by
  cases written <;> simp

/-- A text of the basic form selects something, and tells it in full. -/
theorem Basic.isPlain (basic : Basic text selector) : selector.IsPlain ∧ selector ≠ .empty := by
  obtain ⟨row, written, rfl⟩ := basic
  exact ⟨isPlain_ofRow written.isPlain, ofRow_ne_empty written.ne_nil⟩

theorem IsPlain.of_sub (plain : (nested name sub rest).IsPlain) : sub.IsPlain :=
  ⟨plain.distinct.2.1, plain.free.1, plain.spellable.2.1⟩

theorem IsPlain.of_rest (plain : (nested name sub rest).IsPlain) : rest.IsPlain :=
  ⟨plain.distinct.2.2, plain.free.2, plain.spellable.2.2⟩

theorem BasicField.text_ne_nil (written : BasicField text name sub) : text ≠ [] := by
  cases written with
  | bare identifier | bracketed identifier _ =>
      obtain ⟨c, rest, spelled, _⟩ := identifier
      simp [spelled]

theorem BasicRow.text_ne_nil (written : BasicRow text row) : text ≠ [] := by
  cases written with
  | last written => exact written.text_ne_nil
  | more written _ => simp

theorem IsPlain.basicRow (plain : selector.IsPlain) (nonempty : selector ≠ .empty) :
    BasicRow selector.renderChars selector.row := by
  induction selector with
  | empty => exact (nonempty rfl).elim
  | recursive name rest _ => exact plain.free.elim
  | nested name sub rest below behind =>
      have identifier := plain.spellable.1
      have printed : BasicField (renderField name sub.renderChars) name sub := by
        by_cases unselects : sub = .empty
        · subst unselects
          exact .bare identifier
        · have inside := below plain.of_sub unselects
          have written := BasicField.bracketed identifier inside
          rw [ofRow_row plain.of_sub.distinct plain.of_sub.free] at written
          simpa [renderField, inside.text_ne_nil] using written
      by_cases last : rest = .empty
      · subst last
        rw [renderChars_last]
        exact .last printed
      · rw [renderChars_more plain.free.2 last]
        exact .more printed (behind plain.of_rest last)

/-- What is printed of a selector without recursive fields stands for it. -/
theorem IsPlain.basic (plain : selector.IsPlain) (nonempty : selector ≠ .empty) :
    Basic selector.render.toList selector := by
  rw [render, String.toList_ofList]
  exact ⟨selector.row, plain.basicRow nonempty, (ofRow_row plain.distinct plain.free).symm⟩

/-- What is selected below a name, by the brackets behind it if there are any. -/
def readBasicInside (fuel : Nat) : List Token → Except Fault (Selector × List Token)
  | .opening :: rest => do
      let (sub, rest) ← readBasic fuel .empty rest
      let rest ← expectClosing rest
      return (sub, rest)
  | tokens => .ok (.empty, tokens)

/-- Goes on with the fields behind a bar, or ends the row. -/
def readBasicMore (fuel : Nat) (selector : Selector) :
    List Token → Except Fault (Selector × List Token)
  | .pipe :: rest => readBasic fuel selector rest
  | rest => .ok (selector, rest)

theorem readBasic_name (before : Selector) (behind : List Token) :
    readBasic (fuel + 1) before (.name name :: behind) =
      readBasicInside fuel behind >>= fun (sub, rest) =>
        readBasicMore fuel (before.insert name sub) rest := by
  cases behind with
  | nil => rfl
  | cons token behind =>
      cases token with
      | opening =>
          change (readBasic fuel .empty behind >>= _) =
            (readBasic fuel .empty behind >>= _) >>= _
          rw [bind_assoc]
          refine congrArg _ (funext fun (sub, rest) => ?_)
          dsimp only
          cases expectClosing rest with
          | error fault => rfl
          | ok after =>
              change (match after with | .pipe :: _ => _ | _ => _) = readBasicMore fuel _ after
              unfold readBasicMore
              split <;> rfl
      | closing | pipe | star | name _ => rfl

theorem readBasicInside_opening {inside rest : List Token}
    (read : readBasic fuel .empty inside = .ok (sub, .closing :: rest)) :
    readBasicInside fuel (.opening :: inside) = .ok (sub, rest) := by
  rw [readBasicInside, read]
  rfl

/-- What the reader takes of the tokens is a row of fields, which it stores behind those before. -/
theorem basicRow_of_readBasic (fuel : Nat) {tokens rest : List Token} {before selector : Selector}
    (proper : ∀ token ∈ tokens, token.IsProper)
    (done : readBasic fuel before tokens = .ok (selector, rest)) :
    ∃ used row, tokens = used ++ rest ∧ BasicRow (spell used) row ∧
      selector = before.insertRow row := by
  induction fuel generalizing tokens rest before selector with
  | zero => cases done
  | succ fuel inductionHypothesis =>
      obtain ⟨⟨name, behind⟩, named, _⟩ := bind_eq_ok_iff.mp done
      obtain rfl := expectName_eq_ok_iff.mp named
      have identifier : IsIdentifier name.toList := proper (.name name) List.mem_cons_self
      rw [readBasic_name] at done
      obtain ⟨⟨sub, more⟩, read, continued⟩ := bind_eq_ok_iff.mp done
      obtain ⟨inside, rfl, written⟩ : ∃ inside, behind = inside ++ more ∧
          BasicField (spell (.name name :: inside)) name sub := by
        unfold readBasicInside at read
        split at read
        · obtain ⟨⟨found, after⟩, read, closed⟩ := bind_eq_ok_iff.mp read
          obtain ⟨rest, closing, same⟩ := bind_eq_ok_iff.mp closed
          obtain rfl := expectClosing_eq_ok_iff.mp closing
          cases same
          obtain ⟨used, row, rfl, written, rfl⟩ := inductionHypothesis
            (fun token member => proper token (by simp [member])) read
          refine ⟨.opening :: (used ++ [.closing]), by simp, ?_⟩
          rw [insertRow_eq_ofRow]
          simpa [Token.spelling] using BasicField.bracketed identifier written
        · cases read
          exact ⟨[], rfl, by simpa [Token.spelling] using BasicField.bare identifier⟩
      dsimp only at continued
      unfold readBasicMore at continued
      split at continued
      · obtain ⟨others, row, rfl, writtenToo, rfl⟩ := inductionHypothesis
          (fun token member => proper token (by simp [member])) continued
        refine ⟨.name name :: inside ++ .pipe :: others, (name, sub) :: row, by simp, ?_, rfl⟩
        rw [spell_append, spell_cons .pipe]
        exact .more written writtenToo
      · cases continued
        exact ⟨.name name :: inside, [(name, sub)], rfl, .last written, rfl⟩

/-- The text is read as the fields of the row, whatever was read before. -/
def BasicRowReads (text : List Char) (row : List (String × Selector)) : Prop :=
  ∃ name tokens, Tokenizes text (.name name :: tokens) ∧
    ∀ before : Selector,
      Reads (fun fuel tokens => readBasic fuel before tokens) 0 [.closing] (.name name :: tokens)
        (before.insertRow row)

def BasicFieldReads (text : List Char) (name : String) (sub : Selector) : Prop :=
  ∃ tokens, Tokenizes text (.name name :: tokens) ∧
    Reads readBasicInside 0 [.closing, .pipe] tokens sub

theorem basicFieldReads_bare (identifier : IsIdentifier name.toList) :
    BasicFieldReads name.toList name .empty := by
  refine ⟨[], tokenizes_name identifier, fun fuel rest _ ends => ?_⟩
  rw [List.nil_append]
  unfold readBasicInside
  split
  · simpa using ends .opening rfl
  · rfl

theorem BasicRowReads.fieldReads (reads : BasicRowReads text row)
    (identifier : IsIdentifier name.toList) :
    BasicFieldReads (name.toList ++ '[' :: (text ++ [']'])) name (ofRow row) := by
  obtain ⟨first, tokens, found, reads⟩ := reads
  refine ⟨.opening :: (.name first :: tokens ++ [.closing]),
    (tokenizes_name identifier).append_sign rfl (found.append_sign rfl tokenizes_nil), ?_⟩
  intro fuel rest enough _
  simp only [List.length_cons, List.length_append] at enough
  have read := reads .empty fuel (.closing :: rest) (by simp only [List.length_cons]; omega)
    (by simp)
  rw [insertRow_eq_ofRow] at read
  simpa using readBasicInside_opening read

theorem BasicFieldReads.rowReads (reads : BasicFieldReads text name sub) :
    BasicRowReads text [(name, sub)] := by
  obtain ⟨tokens, found, reads⟩ := reads
  refine ⟨name, tokens, found, fun before fuel rest enough ends => ?_⟩
  simp only [List.length_cons] at enough
  obtain ⟨fuel, rfl⟩ := Nat.exists_eq_add_one.mpr (show 0 < fuel by omega)
  have read := reads fuel rest (by omega) fun token member =>
    List.mem_cons.mpr (.inl (List.mem_singleton.mp (ends token member)))
  change readBasic (fuel + 1) before (.name name :: (tokens ++ rest)) = _
  rw [readBasic_name, read, ok_bind]
  dsimp only
  unfold readBasicMore
  split
  · simpa using ends .pipe rfl
  · rfl

theorem BasicFieldReads.cons (reads : BasicFieldReads text name sub)
    (others : BasicRowReads behind row) :
    BasicRowReads (text ++ '|' :: behind) ((name, sub) :: row) := by
  obtain ⟨tokens, found, reads⟩ := reads
  obtain ⟨next, more, foundToo, readsToo⟩ := others
  refine ⟨name, tokens ++ .pipe :: .name next :: more, found.append_sign rfl foundToo, ?_⟩
  intro before fuel rest enough ends
  simp only [List.length_cons, List.length_append] at enough
  obtain ⟨fuel, rfl⟩ := Nat.exists_eq_add_one.mpr (show 0 < fuel by omega)
  have read := reads fuel (.pipe :: .name next :: (more ++ rest)) (by omega) (by simp)
  have continued := readsToo (before.insert name sub) fuel rest
    (by simp only [List.length_cons]; omega) ends
  simp only [List.cons_append, List.append_assoc] at read continued ⊢
  rw [readBasic_name, read, ok_bind]
  exact continued

mutual

theorem BasicRow.reads {text : List Char} {row : List (String × Selector)} :
    BasicRow text row → BasicRowReads text row
  | .last written => written.reads.rowReads
  | .more written others => written.reads.cons others.reads

theorem BasicField.reads {text : List Char} {name : String} {sub : Selector} :
    BasicField text name sub → BasicFieldReads text name sub
  | .bare identifier => basicFieldReads_bare identifier
  | .bracketed identifier inside => inside.reads.fieldReads identifier

end

theorem basic_of_parseBasic {text : String} (done : parseBasic text = .ok selector) :
    Basic text.toList selector := by
  obtain ⟨tokens, split, read⟩ := readWhole_eq_ok_iff.mp done
  obtain ⟨spelled, proper⟩ := spell_of_tokenize split
  obtain ⟨used, row, same, written, rfl⟩ := basicRow_of_readBasic _ proper read
  rw [List.append_nil] at same
  exact ⟨row, by rwa [← spelled, same], insertRow_eq_ofRow row⟩

theorem parseBasic_of_basic {text : String} (basic : Basic text.toList selector) :
    parseBasic text = .ok selector := by
  obtain ⟨row, written, rfl⟩ := basic
  obtain ⟨name, tokens, found, reads⟩ := written.reads
  have read := reads .empty (4 * (tokens.length + 1) + 4) []
    (by simp only [List.length_cons]; omega) (by simp)
  rw [List.append_nil, insertRow_eq_ofRow] at read
  exact readWhole_eq_ok_iff.mpr ⟨_, found.tokenize_eq, read⟩

end EntityResolver.Selector
