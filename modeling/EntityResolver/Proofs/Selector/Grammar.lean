import EntityResolver.Proofs.Selector.Rows
import EntityResolver.Proofs.Selector.Tokens
import EntityResolver.Selector.Parser

/-!
The texts that select fields, as a grammar.

    selector := field ('|' field)* | '*'
    field    := name ['*'] ['[' selector ']']

`Written` relates a class and a text to the selector that the text stands for, and knows nothing of
tokens. What is read is what is written: the steps of the reader are compared with the grammar in
both directions, for any tokens that stand behind.
-/

set_option autoImplicit false

namespace EntityResolver.Selector

inductive Marked (schema : Schema) (field : Field) (sub : Selector) :
    List Char → Selector → Prop where
  | plain : Marked schema field sub [] sub
  | starred {target : ClassId} (refers : field.kind.target? = some target)
      (again : (schema.field? target field.name).isSome) :
      Marked schema field sub ['*'] (sub.insertRecursive field.name)

mutual

/-- For the class, the text stands for the selector. -/
inductive Written (schema : Schema) : EntityClass → List Char → Selector → Prop where
  | all (cls : EntityClass) :
      Written schema cls ['*']
        (ofRow (cls.fields.map fun field => (field.name, schema.defaultSubselector field)))
  | fields {cls : EntityClass} {text : List Char} {row : List (String × Selector)}
      (written : RowWritten schema cls text row) : Written schema cls text (ofRow row)

inductive RowWritten (schema : Schema) :
    EntityClass → List Char → List (String × Selector) → Prop where
  | last {cls : EntityClass} {text : List Char} {name : String} {sub : Selector}
      (written : FieldWritten schema cls text name sub) :
      RowWritten schema cls text [(name, sub)]
  | more {cls : EntityClass} {text behind : List Char} {name : String} {sub : Selector}
      {row : List (String × Selector)} (written : FieldWritten schema cls text name sub)
      (others : RowWritten schema cls behind row) :
      RowWritten schema cls (text ++ '|' :: behind) ((name, sub) :: row)

inductive FieldWritten (schema : Schema) :
    EntityClass → List Char → String → Selector → Prop where
  | bare {cls : EntityClass} {field : Field} {star : List Char} {sub : Selector}
      (identifier : IsIdentifier field.name.toList) (known : cls.field? field.name = some field)
      (marked : Marked schema field (schema.defaultSubselector field) star sub) :
      FieldWritten schema cls (field.name.toList ++ star) field.name sub
  | bracketed {cls target : EntityClass} {field : Field} {star text : List Char}
      {within sub : Selector} (identifier : IsIdentifier field.name.toList)
      (known : cls.field? field.name = some field)
      (refers : field.kind.target?.bind schema.class? = some target)
      (inside : Written schema target text within)
      (marked : Marked schema field within star sub) :
      FieldWritten schema cls (field.name.toList ++ star ++ '[' :: (text ++ [']'])) field.name sub

end

variable {schema : Schema} {cls : EntityClass} {field : Field} {fuel : Nat}
    {tokens rest : List Token}
  {selector sub within : Selector} {name : String}

theorem EntityClass.name_of_field? (known : cls.field? name = some field) : field.name = name := by
  simpa using List.find?_some known

theorem allFields_eq_ofRow (schema : Schema) (cls : EntityClass) :
    allFields schema cls =
      ofRow (cls.fields.map fun field => (field.name, schema.defaultSubselector field)) := by
  rw [← insertRow_eq_ofRow, insertRow, List.foldl_map]
  rfl

theorem makeRecursive_eq_ok_iff :
    makeRecursive schema field within = .ok sub ↔ Marked schema field within ['*'] sub := by
  constructor
  · intro done
    unfold makeRecursive at done
    split at done
    · cases done
    · rename_i target refers
      split at done
      · rename_i again
        cases done
        exact .starred refers again
      · cases done
  · rintro (_ | ⟨refers, again⟩)
    simp [makeRecursive, refers, again]

theorem expectClosing_eq_ok_iff :
    expectClosing tokens = .ok rest ↔ tokens = .closing :: rest := by
  unfold expectClosing
  split
  · simp [eq_comm]
  · rename_i unclosed
    simp only [reduceCtorEq, false_iff]
    exact unclosed rest

theorem expectName_eq_ok_iff :
    expectName tokens = .ok (name, rest) ↔ tokens = .name name :: rest := by
  unfold expectName
  split
  · simp [eq_comm]
  · rename_i unnamed
    simp only [reduceCtorEq, false_iff]
    exact unnamed name rest

/-- What a field without brackets, or with them, is selected with before its star counts. -/
def readInside (schema : Schema) (fuel : Nat) (field : Field) :
    List Token → Except Fault (Selector × List Token)
  | .opening :: rest => readBrackets schema fuel field rest
  | tokens => .ok (schema.defaultSubselector field, tokens)

/-- What a star, if there is one, makes of what a field is selected with. -/
def mark (schema : Schema) (field : Field) (isStarred : Bool) (within : Selector) :
    Except Fault Selector :=
  if isStarred then makeRecursive schema field within else .ok within

theorem readField_name {behind : List Token} (known : cls.field? name = some field) :
    readField schema (fuel + 1) cls (.name name :: behind) =
      readInside schema fuel field (takeToken .star behind).2 >>= fun (within, rest) =>
        (mark schema field (takeToken .star behind).1 within).map fun sub =>
          ((name, sub), rest) := by
  have inside (more : List Token)
      (next : Selector × List Token → Except Fault ((String × Selector) × List Token)) :
      (match more with
        | .opening :: rest => readBrackets schema fuel field rest >>= next
        | _ => pure (schema.defaultSubselector field, more) >>= next) =
      readInside schema fuel field more >>= next := by
    unfold readInside
    split <;> rfl
  rw [readField, expectName, ok_bind]
  simp only [known]
  refine (inside _ _).trans (congrArg _ (funext fun (within, rest) => ?_))
  cases (takeToken .star behind).1 with
  | false => rfl
  | true =>
      rw [mark, if_pos rfl]
      cases makeRecursive schema field within <;> rfl

theorem mark_takeToken {behind : List Token}
    (done : mark schema field (takeToken .star behind).1 within = .ok sub) :
    ∃ star, behind = star ++ (takeToken .star behind).2 ∧
      Marked schema field within (spell star) sub := by
  cases behind with
  | nil =>
      cases done
      exact ⟨[], rfl, .plain⟩
  | cons token behind =>
      by_cases isStar : token = .star
      · subst isStar
        exact ⟨[.star], rfl, makeRecursive_eq_ok_iff.mp done⟩
      · simp only [takeToken, if_neg isStar] at done ⊢
        cases done
        exact ⟨[], rfl, .plain⟩

mutual

theorem written_of_readSelector (fuel : Nat) {cls : EntityClass} {tokens rest : List Token}
    {selector : Selector} (proper : ∀ token ∈ tokens, token.IsProper)
    (done : readSelector schema fuel cls tokens = .ok (selector, rest)) :
    (∃ used, tokens = used ++ rest ∧ Written schema cls (spell used) selector) ∨
      selector = .empty ∧ rest = tokens := by
  cases fuel with
  | zero => cases done
  | succ fuel =>
      unfold readSelector at done
      split at done
      · obtain ⟨used, row, split, written, rfl⟩ := rowWritten_of_readFields fuel proper done
        rw [insertRow_eq_ofRow]
        exact .inl ⟨used, split, .fields written⟩
      · cases done
        rw [allFields_eq_ofRow]
        exact .inl ⟨[.star], rfl, .all cls⟩
      · cases done
        exact .inr ⟨rfl, rfl⟩

theorem rowWritten_of_readFields (fuel : Nat) {cls : EntityClass} {tokens rest : List Token}
    {before selector : Selector} (proper : ∀ token ∈ tokens, token.IsProper)
    (done : readFields schema fuel cls before tokens = .ok (selector, rest)) :
    ∃ used row, tokens = used ++ rest ∧ RowWritten schema cls (spell used) row ∧
      selector = before.insertRow row := by
  cases fuel with
  | zero => cases done
  | succ fuel =>
      obtain ⟨⟨⟨name, sub⟩, more⟩, read, continued⟩ := bind_eq_ok_iff.mp done
      obtain ⟨used, rfl, written⟩ := fieldWritten_of_readField fuel proper read
      dsimp only at continued
      split at continued
      · obtain ⟨others, row, rfl, writtenToo, rfl⟩ := rowWritten_of_readFields fuel
          (fun token member => proper token (by simp_all)) continued
        refine ⟨used ++ .pipe :: others, (name, sub) :: row, by simp, ?_, rfl⟩
        rw [spell_append, spell_cons]
        exact .more written writtenToo
      · cases continued
        exact ⟨used, [(name, sub)], rfl, .last written, rfl⟩

theorem fieldWritten_of_readField (fuel : Nat) {cls : EntityClass} {tokens rest : List Token}
    {name : String} {sub : Selector} (proper : ∀ token ∈ tokens, token.IsProper)
    (done : readField schema fuel cls tokens = .ok ((name, sub), rest)) :
    ∃ used, tokens = used ++ rest ∧ FieldWritten schema cls (spell used) name sub := by
  cases fuel with
  | zero => cases done
  | succ fuel =>
      obtain ⟨⟨found, behind⟩, named, _⟩ := bind_eq_ok_iff.mp done
      obtain rfl := expectName_eq_ok_iff.mp named
      cases known : cls.field? found with
      | none =>
          unfold readField at done
          simp only [expectName, ok_bind, known] at done
          cases done
      | some field =>
          rw [readField_name known] at done
          obtain ⟨⟨within, more⟩, read, finished⟩ := bind_eq_ok_iff.mp done
          obtain ⟨_, done, same⟩ := map_eq_ok_iff.mp finished
          cases same
          obtain ⟨star, split, marked⟩ := mark_takeToken done
          generalize (takeToken .star behind).2 = inside at read split
          subst split
          obtain rfl := EntityClass.name_of_field? known
          have identifier : IsIdentifier field.name.toList := proper (.name field.name) (by simp)
          unfold readInside at read
          split at read
          · obtain ⟨target, used, refers, rfl, written⟩ := written_of_readBrackets fuel
              (fun token member => proper token (by simp_all)) read
            refine ⟨.name field.name :: (star ++ .opening :: (used ++ [.closing])), by simp, ?_⟩
            simpa [Token.spelling] using FieldWritten.bracketed identifier known refers written marked
          · cases read
            refine ⟨.name field.name :: star, by simp, ?_⟩
            exact FieldWritten.bare identifier known marked

theorem written_of_readBrackets (fuel : Nat) {field : Field} {tokens rest : List Token}
    {within : Selector} (proper : ∀ token ∈ tokens, token.IsProper)
    (done : readBrackets schema fuel field tokens = .ok (within, rest)) :
    ∃ target used, field.kind.target?.bind schema.class? = some target ∧
      tokens = used ++ .closing :: rest ∧ Written schema target (spell used) within := by
  cases fuel with
  | zero => cases done
  | succ fuel =>
      rw [readBrackets] at done
      split at done
      · cases done
      · rename_i target refers
        split at done
        · cases done
        · rename_i opened
          obtain ⟨⟨sub, more⟩, read, done⟩ := bind_eq_ok_iff.mp done
          obtain ⟨behind, closed, done⟩ := bind_eq_ok_iff.mp done
          cases done
          obtain rfl := expectClosing_eq_ok_iff.mp closed
          rcases written_of_readSelector fuel proper read with ⟨used, split, written⟩ | ⟨_, same⟩
          · exact ⟨target, used, refers, split, written⟩
          · exact (opened _ same.symm).elim

end

/-- The tokens of a text are read as a result where one of `ends` or nothing comes behind them. Each
token takes at most four units of fuel, `spared` of which the reader does not need. -/
def Reads {α : Type} (read : Nat → List Token → Except Fault (α × List Token)) (spared : Nat)
    (ends : List Token) (tokens : List Token) (result : α) : Prop :=
  ∀ fuel rest, 4 * tokens.length ≤ fuel + spared → (∀ token ∈ rest.head?, token ∈ ends) →
    read fuel (tokens ++ rest) = .ok (result, rest)

/-- The text is read as the selector. It does not begin with the end of its brackets. -/
def SelectorReads (schema : Schema) (cls : EntityClass) (text : List Char)
    (selector : Selector) : Prop :=
  ∃ token tokens, token ≠ .closing ∧ Tokenizes text (token :: tokens) ∧
    Reads (fun fuel tokens => readSelector schema fuel cls tokens) 0 [.closing] (token :: tokens)
      selector

def RowReads (schema : Schema) (cls : EntityClass) (text : List Char)
    (row : List (String × Selector)) : Prop :=
  ∃ name tokens, Tokenizes text (.name name :: tokens) ∧
    ∀ before : Selector,
      Reads (fun fuel tokens => readFields schema fuel cls before tokens) 1 [.closing]
        (.name name :: tokens) (before.insertRow row)

def FieldReads (schema : Schema) (cls : EntityClass) (text : List Char) (name : String)
    (sub : Selector) : Prop :=
  ∃ tokens, Tokenizes text (.name name :: tokens) ∧
    Reads (fun fuel tokens => readField schema fuel cls tokens) 2 [.closing, .pipe]
      (.name name :: tokens) (name, sub)

variable {text behind : List Char} {row : List (String × Selector)} {target : EntityClass}

theorem selectorReads_all (schema : Schema) (cls : EntityClass) :
    SelectorReads schema cls ['*']
      (ofRow (cls.fields.map fun field => (field.name, schema.defaultSubselector field))) := by
  refine ⟨.star, [], by decide, tokenizes_nil.append_sign rfl tokenizes_nil, ?_⟩
  intro fuel rest enough _
  obtain ⟨fuel, rfl⟩ := Nat.exists_eq_add_one.mpr (show 0 < fuel by simp at enough; omega)
  rw [← allFields_eq_ofRow]
  rfl

theorem RowReads.selectorReads (reads : RowReads schema cls text row) :
    SelectorReads schema cls text (ofRow row) := by
  obtain ⟨name, tokens, found, reads⟩ := reads
  refine ⟨.name name, tokens, by simp, found, ?_⟩
  intro fuel rest enough ends
  obtain ⟨fuel, rfl⟩ := Nat.exists_eq_add_one.mpr (show 0 < fuel by simp at enough; omega)
  rw [← insertRow_eq_ofRow]
  exact reads .empty fuel rest enough ends

theorem readFields_last {before : Selector}
    (read : readField schema fuel cls tokens = .ok ((name, sub), rest))
    (ends : rest.head? ≠ some .pipe) :
    readFields schema (fuel + 1) cls before tokens = .ok (before.insert name sub, rest) := by
  rw [readFields, read, ok_bind]
  dsimp only
  split
  · exact (ends rfl).elim
  · rfl

theorem readFields_more {before : Selector}
    (read : readField schema fuel cls tokens = .ok ((name, sub), .pipe :: rest)) :
    readFields schema (fuel + 1) cls before tokens =
      readFields schema fuel cls (before.insert name sub) rest := by
  rw [readFields, read, ok_bind]

theorem FieldReads.rowReads (reads : FieldReads schema cls text name sub) :
    RowReads schema cls text [(name, sub)] := by
  obtain ⟨tokens, found, reads⟩ := reads
  refine ⟨name, tokens, found, fun before fuel rest enough ends => ?_⟩
  obtain ⟨fuel, rfl⟩ := Nat.exists_eq_add_one.mpr (show 0 < fuel by simp at enough; omega)
  have read := reads fuel rest (by omega) fun token member =>
    List.mem_cons.mpr (.inl (List.mem_singleton.mp (ends token member)))
  exact readFields_last read fun piped => by simpa using ends .pipe piped

theorem FieldReads.cons (reads : FieldReads schema cls text name sub)
    (others : RowReads schema cls behind row) :
    RowReads schema cls (text ++ '|' :: behind) ((name, sub) :: row) := by
  obtain ⟨tokens, found, reads⟩ := reads
  obtain ⟨next, more, foundToo, readsToo⟩ := others
  refine ⟨name, tokens ++ .pipe :: .name next :: more, found.append_sign rfl foundToo, ?_⟩
  intro before fuel rest enough ends
  simp only [List.length_cons, List.length_append] at enough
  obtain ⟨fuel, rfl⟩ := Nat.exists_eq_add_one.mpr (show 0 < fuel by omega)
  have read := reads fuel (.pipe :: .name next :: (more ++ rest)) (by simp; omega) (by simp)
  have continued := readsToo (before.insert name sub) fuel rest (by simp; omega) ends
  simp only [List.cons_append, List.append_assoc] at read continued ⊢
  rw [readFields_more read]
  exact continued

theorem Marked.exists_tokens {star : List Char} (marked : Marked schema field within star sub)
    (identifier : IsIdentifier field.name.toList) (known : cls.field? field.name = some field) :
    ∃ stars, Tokenizes (field.name.toList ++ star) (.name field.name :: stars) ∧
      ∀ fuel behind rest, behind.head? ≠ some .star →
        readInside schema fuel field behind = .ok (within, rest) →
        readField schema (fuel + 1) cls (.name field.name :: (stars ++ behind)) =
          .ok ((field.name, sub), rest) := by
  have found := tokenizes_name identifier
  cases marked with
  | plain =>
      refine ⟨[], by simpa using found, fun fuel behind rest unstarred inside => ?_⟩
      have taken : takeToken .star behind = (false, behind) := by
        cases behind with
        | nil => rfl
        | cons token behind => exact if_neg fun same => unstarred (congrArg some same)
      rw [List.nil_append, readField_name known, taken, inside]
      rfl
  | starred refers again =>
      refine ⟨[.star], found.append_sign rfl tokenizes_nil, fun fuel behind rest _ inside => ?_⟩
      have marked : makeRecursive schema field within = .ok (within.insertRecursive field.name) :=
        makeRecursive_eq_ok_iff.mpr (.starred refers again)
      rw [List.singleton_append, readField_name known]
      change (readInside schema fuel field behind >>= _) = _
      rw [inside, ok_bind]
      change (makeRecursive schema field within).map _ = _
      rw [marked]
      rfl

theorem fieldReads_bare {star : List Char} (identifier : IsIdentifier field.name.toList)
    (known : cls.field? field.name = some field)
    (marked : Marked schema field (schema.defaultSubselector field) star sub) :
    FieldReads schema cls (field.name.toList ++ star) field.name sub := by
  obtain ⟨stars, found, reads⟩ := marked.exists_tokens identifier known
  refine ⟨stars, found, fun fuel rest enough ends => ?_⟩
  simp only [List.length_cons] at enough
  obtain ⟨fuel, rfl⟩ := Nat.exists_eq_add_one.mpr (show 0 < fuel by omega)
  refine reads fuel rest rest (fun starred => by simpa using ends .star starred) ?_
  unfold readInside
  split
  · simpa using ends .opening rfl
  · rfl

theorem readBrackets_of_readSelector {token : Token}
    (refers : field.kind.target?.bind schema.class? = some target) (opened : token ≠ .closing)
    (read : readSelector schema fuel target (token :: tokens) = .ok (within, .closing :: rest)) :
    readBrackets schema (fuel + 1) field (token :: tokens) = .ok (within, rest) := by
  rw [readBrackets]
  simp only [refers]
  split
  · exact (opened (List.cons.inj ‹_›).1).elim
  · rw [read]
    rfl

theorem SelectorReads.fieldReads {star : List Char}
    (inside : SelectorReads schema target text within)
    (identifier : IsIdentifier field.name.toList) (known : cls.field? field.name = some field)
    (refers : field.kind.target?.bind schema.class? = some target)
    (marked : Marked schema field within star sub) :
    FieldReads schema cls (field.name.toList ++ star ++ '[' :: (text ++ [']'])) field.name sub := by
  obtain ⟨stars, found, reads⟩ := marked.exists_tokens identifier known
  obtain ⟨token, tokens, opened, foundInside, readsInside⟩ := inside
  refine ⟨stars ++ .opening :: (token :: tokens ++ [.closing]),
    found.append_sign rfl (foundInside.append_sign rfl tokenizes_nil), ?_⟩
  intro fuel rest enough ends
  simp only [List.length_cons, List.length_append, List.length_nil] at enough
  obtain ⟨fuel, rfl⟩ := Nat.exists_eq_add_of_le' (show 2 ≤ fuel by omega)
  have read := readsInside fuel (.closing :: rest) (by simp; omega) (by simp)
  have bracketed := readBrackets_of_readSelector refers opened read
  have done := reads (fuel + 1) (.opening :: (token :: tokens ++ .closing :: rest)) rest (by simp)
    bracketed
  simpa using done

mutual

theorem selectorReads_of_written {cls : EntityClass} {text : List Char} {selector : Selector} :
    Written schema cls text selector → SelectorReads schema cls text selector
  | .all cls => selectorReads_all schema cls
  | .fields written => (rowReads_of_rowWritten written).selectorReads

theorem rowReads_of_rowWritten {cls : EntityClass} {text : List Char}
    {row : List (String × Selector)} :
    RowWritten schema cls text row → RowReads schema cls text row
  | .last written => (fieldReads_of_fieldWritten written).rowReads
  | .more written others => (fieldReads_of_fieldWritten written).cons (rowReads_of_rowWritten others)

theorem fieldReads_of_fieldWritten {cls : EntityClass} {text : List Char} {name : String}
    {sub : Selector} :
    FieldWritten schema cls text name sub → FieldReads schema cls text name sub
  | .bare identifier known marked => fieldReads_bare identifier known marked
  | .bracketed identifier known refers inside marked =>
      (selectorReads_of_written inside).fieldReads identifier known refers marked

end

theorem readWhole_eq_ok_iff {text : String}
    {read : Nat → List Token → Except Fault (Selector × List Token)} :
    readWhole text read = .ok selector ↔
      ∃ tokens, tokenize text.toList = .ok tokens ∧
        read (4 * tokens.length + 4) tokens = .ok (selector, []) := by
  rw [readWhole, mapError_eq_ok_iff]
  cases split : tokenize text.toList with
  | error c => simp
  | ok tokens =>
      simp only [Except.ok.injEq, exists_eq_left']
      refine bind_eq_ok_iff.trans ⟨?_, fun read => ⟨_, read, rfl⟩⟩
      rintro ⟨⟨found, rest⟩, read, done⟩
      cases rest with
      | nil =>
          cases done
          exact read
      | cons token rest => cases done

theorem written_of_parse {text : String} (done : parse schema cls text = .ok selector) :
    text = "" ∧ selector = .empty ∨ Written schema cls text.toList selector := by
  obtain ⟨tokens, split, read⟩ := readWhole_eq_ok_iff.mp done
  obtain ⟨spelled, proper⟩ := spell_of_tokenize split
  rcases written_of_readSelector _ proper read with ⟨used, same, written⟩ | ⟨rfl, rfl⟩
  · rw [List.append_nil] at same
    exact .inr (by rwa [← spelled, same])
  · exact .inl ⟨String.toList_eq_nil_iff.mp spelled.symm, rfl⟩

theorem parse_of_written {text : String} (written : Written schema cls text.toList selector) :
    parse schema cls text = .ok selector := by
  obtain ⟨token, tokens, _, found, reads⟩ := selectorReads_of_written written
  have read := reads (4 * (tokens.length + 1) + 4) [] (by simp) (by simp)
  rw [List.append_nil] at read
  exact readWhole_eq_ok_iff.mpr ⟨_, found.tokenize_eq, read⟩

theorem parse_empty (schema : Schema) (cls : EntityClass) : parse schema cls "" = .ok .empty :=
  readWhole_eq_ok_iff.mpr ⟨[], tokenizes_nil.tokenize_eq, rfl⟩

end EntityResolver.Selector
