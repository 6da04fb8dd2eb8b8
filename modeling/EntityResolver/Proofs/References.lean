import EntityResolver.Proofs.MatchText

/-!
# References to characters

What an ampersand begins is told by the longest run of characters of one kind behind it, which is a
name or a number, and a semicolon behind that belongs to it. A text is decoded exactly if each
reference in it stands for a character. What a reference is depends on the letters that announce
hexadecimal digits; those that are read do so in either case.
-/

set_option autoImplicit false

namespace EntityResolver.MatchText

structure Longest {α : Type} (kind : α → Bool) (run rest : List α) : Prop where
  nonempty : run ≠ []
  inside : ∀ one ∈ run, kind one = true
  outside : ∀ one ∈ rest.head?, kind one = false

inductive Begins (mark : Char → Bool) : List Char → Reference → List Char → Prop where
  | name {word rest : List Char} (longest : Longest Text.isWord word rest) :
      Begins mark (word ++ rest) (.name word) rest
  | decimal {digits rest : List Char} (longest : Longest Text.isDigit digits rest) :
      Begins mark ('#' :: (digits ++ rest)) (.decimal digits) rest
  | hexadecimal {c : Char} {digits rest : List Char} (announced : mark c = true)
      (longest : Longest Text.isHexDigit digits rest) :
      Begins mark ('#' :: c :: (digits ++ rest)) (.hexadecimal digits) rest

def characterNames : List (String × Char) :=
  [("quot", '"'), ("apos", '\''), ("amp", '&'), ("lt", '<'), ("gt", '>')]

/-- A name stands for the character that has it, and a number in ASCII digits for the character with
that number. -/
inductive Reference.Denotes : Reference → Char → Prop where
  | name {word : List Char} {c : Char} (listed : (String.ofList word, c) ∈ characterNames) :
      Denotes (.name word) c
  | decimal {digits : List Char} {c : Char} (ascii : ∀ d ∈ digits, Text.isAsciiDigit d = true)
      (number : Text.numberOf 10 digits = c.toNat) : Denotes (.decimal digits) c
  | hexadecimal {digits : List Char} {c : Char} (number : Text.numberOf 16 digits = c.toNat) :
      Denotes (.hexadecimal digits) c

/-- What stands behind a reference, which a semicolon may close. -/
def afterSemicolon : List Char → List Char
  | ';' :: rest => rest
  | rest => rest

/-- Every reference in the text stands for a character. -/
def Known (mark : Char → Bool) (text : List Char) : Prop :=
  ∀ before behind reference rest, text = before ++ '&' :: behind →
    Begins mark behind reference rest → ∃ c, reference.Denotes c

/-- The text with the characters that its references stand for in their place. -/
inductive Decodes (mark : Char → Bool) : List Char → List Char → Prop where
  | nil : Decodes mark [] []
  | plain {c : Char} {rest decoded : List Char}
      (alone : c = '&' → ∀ reference behind, ¬ Begins mark rest reference behind)
      (more : Decodes mark rest decoded) : Decodes mark (c :: rest) (c :: decoded)
  | reference {text rest decoded : List Char} {reference : Reference} {c : Char}
      (begins : Begins mark text reference rest) (denotes : reference.Denotes c)
      (more : Decodes mark (afterSemicolon rest) decoded) :
      Decodes mark ('&' :: text) (c :: decoded)

section

variable {α : Type} {kind : α → Bool} {text run rest : List α} {one : α}

theorem Longest.takeWhile_append (longest : Longest kind run rest) :
    (run ++ rest).takeWhile kind = run := by
  rw [List.takeWhile_append_of_pos longest.inside]
  cases rest with
  | nil => simp
  | cons first rest => simp [longest.outside first rfl]

theorem Longest.notMem (longest : Longest kind run rest) (differs : kind one = false) : one ∉ run :=
  fun member => Bool.false_ne_true (differs.symm.trans (longest.inside one member))

theorem Longest.unique {other tail : List α} (longest : Longest kind run rest)
    (longestToo : Longest kind other tail) (same : run ++ rest = other ++ tail) :
    run = other ∧ rest = tail := by
  have sameRun : run = other := by
    rw [← longest.takeWhile_append, same, longestToo.takeWhile_append]
  exact ⟨sameRun, List.append_cancel_left (sameRun ▸ same)⟩

theorem longest_takeWhile (filled : text.takeWhile kind ≠ []) :
    Longest kind (text.takeWhile kind) (text.dropWhile kind) := by
  refine ⟨filled, fun one member => List.mem_takeWhile_imp member, fun one first => ?_⟩
  have stopped : text.find? (fun other => !kind other) = some one := by
    rw [List.find?_not_eq_head?_dropWhile]
    exact first
  simpa using List.find?_some stopped

theorem exists_longest (filled : (!(text.takeWhile kind).isEmpty) = true) :
    ∃ run rest, text = run ++ rest ∧ Longest kind run rest :=
  ⟨_, _, List.takeWhile_append_dropWhile.symm, longest_takeWhile (by simpa using filled)⟩

end

variable {mark : Char → Bool} {text rest behind decoded : List Char} {reference : Reference}
    {c : Char}

/-- The reference that is found begins there, and takes the characters before what follows. -/
theorem begins_of_reference? {length : Nat} (found : reference? text = some (reference, length)) :
    Begins Reference.isHexMark text reference (text.drop length) := by
  unfold reference? at found
  extract_lets word at found
  split at found
  · rename_i filled
    obtain ⟨run, rest, rfl, longest⟩ := exists_longest filled
    cases found
    simp only [word, longest.takeWhile_append, List.drop_left]
    exact .name longest
  · split at found
    · rename_i behind
      extract_lets digits at found
      split at found
      · rename_i filled
        obtain ⟨run, rest, rfl, longest⟩ := exists_longest filled
        cases found
        simp only [digits, longest.takeWhile_append, List.drop_succ_cons, List.drop_left]
        exact .decimal longest
      · split at found
        · rename_i c tail _
          extract_lets digits at found
          split at found
          · rename_i both
            obtain ⟨announced, filled⟩ := Bool.and_eq_true_iff.mp both
            obtain ⟨run, rest, rfl, longest⟩ := exists_longest filled
            cases found
            simp only [digits, longest.takeWhile_append, List.drop_succ_cons, List.drop_left]
            exact .hexadecimal announced longest
          · cases found
        · cases found
    · cases found

theorem reference?_of_begins (begins : Begins Reference.isHexMark text reference rest) :
    ∃ length, reference? text = some (reference, length) ∧ text.drop length = rest := by
  cases begins with
  | @name word rest longest =>
      refine ⟨word.length, ?_, List.drop_left⟩
      simp only [reference?, longest.takeWhile_append,
        List.isEmpty_eq_false_iff.mpr longest.nonempty]
      rfl
  | @decimal digits rest longest =>
      refine ⟨digits.length + 1, ?_, by simp⟩
      have noWord : ('#' :: (digits ++ rest)).takeWhile Text.isWord = [] :=
        List.takeWhile_cons_of_neg (by decide)
      simp only [reference?, noWord, longest.takeWhile_append,
        List.isEmpty_eq_false_iff.mpr longest.nonempty]
      rfl
  | @hexadecimal c digits rest announced longest =>
      refine ⟨digits.length + 2, ?_, by simp⟩
      have noWord : ('#' :: c :: (digits ++ rest)).takeWhile Text.isWord = [] :=
        List.takeWhile_cons_of_neg (by decide)
      have noDigit : (c :: (digits ++ rest)).takeWhile Text.isDigit = [] := by
        refine List.takeWhile_cons_of_neg ?_
        simp only [Reference.isHexMark, Bool.or_eq_true, beq_iff_eq] at announced
        rcases announced with rfl | rfl <;> decide
      simp only [reference?, noWord, noDigit, longest.takeWhile_append,
        List.isEmpty_eq_false_iff.mpr longest.nonempty, announced]
      rfl

theorem charOf?_eq_some_iff {number : Nat} : charOf? number = some c ↔ number = c.toNat := by
  unfold charOf?
  constructor
  · intro found
    split at found
    · rename_i valid
      cases found
      rw [Char.ofNat, dif_pos valid]
      rfl
    · cases found
  · rintro rfl
    have valid : c.toNat < 0xd800 ∨ 0xdfff < c.toNat ∧ c.toNat < 0x110000 := c.valid
    rw [if_pos valid, Char.ofNat_toNat]

theorem char?_eq_some_iff : reference.char? = some c ↔ reference.Denotes c := by
  cases reference with
  | name word =>
      have listed : (Reference.name word).char? = some c ↔
          (String.ofList word, c) ∈ characterNames := by
        simp only [Reference.char?, characterNames, List.mem_cons, List.not_mem_nil, Prod.mk.injEq]
        generalize String.ofList word = name
        split <;> simp_all [eq_comm]
      exact listed.trans ⟨.name, fun (.name listed) => listed⟩
  | decimal digits =>
      simp only [Reference.char?, Option.ite_none_right_eq_some, charOf?_eq_some_iff,
        List.all_eq_true]
      exact ⟨fun ⟨ascii, number⟩ => .decimal ascii number,
        fun (.decimal ascii number) => ⟨ascii, number⟩⟩
  | hexadecimal digits =>
      exact charOf?_eq_some_iff.trans ⟨.hexadecimal, fun (.hexadecimal number) => number⟩

theorem unescapeFrom_eq_unescape (skipped : Nat) (text : List Char) :
    unescapeFrom skipped text = unescape (text.drop skipped) := by
  unfold unescape
  induction text generalizing skipped with
  | nil => simp [unescapeFrom]
  | cons c rest inductionHypothesis =>
      cases skipped with
      | zero => rfl
      | succ skipped => exact inductionHypothesis skipped

theorem afterSemicolon_eq (text : List Char) :
    afterSemicolon text = if text.head? = some ';' then text.drop 1 else text := by
  cases text with
  | nil => rfl
  | cons c rest =>
      by_cases same : c = ';'
      · rw [same]
        rfl
      · simp [afterSemicolon, same]

theorem unescape_reference (begins : Begins Reference.isHexMark text reference rest)
    (denotes : reference.Denotes c) :
    unescape ('&' :: text) = (unescape (afterSemicolon rest)).map (c :: ·) := by
  obtain ⟨length, found, rfl⟩ := reference?_of_begins begins
  have closed : text.drop (if text[length]? = some ';' then length + 1 else length) =
      afterSemicolon (text.drop length) := by
    rw [afterSemicolon_eq, List.head?_drop, List.drop_drop]
    split <;> rfl
  simp only [unescape, unescapeFrom, if_true, found, char?_eq_some_iff.mpr denotes]
  rw [unescapeFrom_eq_unescape, closed]
  rfl

theorem unescape_plain
    (alone : c = '&' → ∀ reference behind, ¬ Begins Reference.isHexMark rest reference behind) :
    unescape (c :: rest) = (unescape rest).map (c :: ·) := by
  unfold unescape
  by_cases ampersand : c = '&'
  · subst ampersand
    have missed : reference? rest = none := by
      cases found : reference? rest with
      | none => rfl
      | some pair => exact (alone rfl _ _ (begins_of_reference? found)).elim
    simp only [unescapeFrom, if_true, missed]
  · simp only [unescapeFrom, if_neg ampersand]

theorem denotes_of_unescape (begins : Begins Reference.isHexMark text reference rest)
    (done : unescape ('&' :: text) = .ok decoded) : ∃ c, reference.Denotes c := by
  obtain ⟨length, found, _⟩ := reference?_of_begins begins
  cases means : reference.char? with
  | some c => exact ⟨c, char?_eq_some_iff.mp means⟩
  | none =>
      simp only [unescape, unescapeFrom, if_true, found, means] at done
      cases done

theorem afterSemicolon_suffix (text : List Char) :
    ∃ front, '&' ∉ front ∧ text = front ++ afterSemicolon text := by
  rw [afterSemicolon_eq]
  split
  · rename_i closed
    obtain ⟨rest, rfl⟩ := List.head?_eq_some_iff.mp closed
    exact ⟨[';'], by decide, rfl⟩
  · exact ⟨[], List.not_mem_nil, rfl⟩

/-- What is decoded behind a reference is the end of the text that it begins, and no other reference
begins before. -/
theorem Begins.suffix (begins : Begins Reference.isHexMark text reference rest) :
    ∃ front, '&' ∉ front ∧ text = front ++ afterSemicolon rest := by
  obtain ⟨front, free, same⟩ := afterSemicolon_suffix rest
  cases begins with
  | @name word rest longest =>
      have freeWord : '&' ∉ word := longest.notMem (by decide)
      refine ⟨word ++ front, by simp [freeWord, free], ?_⟩
      rw [List.append_assoc, ← same]
  | @decimal digits rest longest =>
      have freeDigits : '&' ∉ digits := longest.notMem (by decide)
      refine ⟨'#' :: (digits ++ front), by simp [freeDigits, free], ?_⟩
      rw [List.cons_append, List.append_assoc, ← same]
  | @hexadecimal c digits rest announced longest =>
      have freeDigits : '&' ∉ digits := longest.notMem (by decide)
      have differs : '&' ≠ c := by
        rintro rfl
        cases announced
      refine ⟨'#' :: c :: (digits ++ front), by simp [differs, freeDigits, free], ?_⟩
      rw [List.cons_append, List.cons_append, List.append_assoc, ← same]

theorem Begins.length_le (begins : Begins Reference.isHexMark text reference rest) :
    (afterSemicolon rest).length ≤ text.length := by
  obtain ⟨front, _, same⟩ := begins.suffix
  rw [same, List.length_append]
  exact Nat.le_add_left _ _

theorem Begins.unique {other : Reference} (begins : Begins Reference.isHexMark text reference rest)
    (beginsToo : Begins Reference.isHexMark text other behind) : other = reference := by
  obtain ⟨_, found, _⟩ := reference?_of_begins begins
  obtain ⟨_, foundToo, _⟩ := reference?_of_begins beginsToo
  cases found.symm.trans foundToo
  rfl

theorem unescape_of_decodes (decodes : Decodes Reference.isHexMark text decoded) :
    unescape text = .ok decoded := by
  induction decodes with
  | nil => rfl
  | plain alone _ inductionHypothesis =>
      rw [unescape_plain alone, inductionHypothesis]
      rfl
  | reference begins denotes _ inductionHypothesis =>
      rw [unescape_reference begins denotes, inductionHypothesis]
      rfl

theorem decodes_of_unescape {text decoded : List Char} (done : unescape text = .ok decoded) :
    Decodes Reference.isHexMark text decoded := by
  match text with
  | [] =>
      cases done
      exact .nil
  | c :: rest =>
      by_cases alone :
        c = '&' → ∀ reference behind, ¬ Begins Reference.isHexMark rest reference behind
      · rw [unescape_plain alone] at done
        obtain ⟨more, doneThere, rfl⟩ := map_eq_ok_iff.mp done
        exact .plain alone (decodes_of_unescape doneThere)
      · simp only [not_forall, not_not] at alone
        obtain ⟨rfl, reference, behind, begins⟩ := alone
        obtain ⟨decodedChar, denotes⟩ := denotes_of_unescape begins done
        rw [unescape_reference begins denotes] at done
        obtain ⟨more, doneThere, rfl⟩ := map_eq_ok_iff.mp done
        have shorter := begins.length_le
        exact .reference begins denotes (decodes_of_unescape doneThere)
termination_by text.length

/-- A text is decoded to what its references stand for, and to nothing else. -/
theorem unescape_eq_ok_iff : unescape text = .ok decoded ↔
    Decodes Reference.isHexMark text decoded :=
  ⟨decodes_of_unescape, unescape_of_decodes⟩

theorem Known.suffix (front : List Char) (known : Known mark (front ++ text)) : Known mark text :=
  fun before behind reference rest same begins =>
    known (front ++ before) behind reference rest (by rw [same, List.append_assoc]) begins

theorem exists_decodes_of_known {text : List Char} (known : Known Reference.isHexMark text) :
    ∃ decoded, Decodes Reference.isHexMark text decoded := by
  match text with
  | [] => exact ⟨[], .nil⟩
  | c :: rest =>
      by_cases alone :
        c = '&' → ∀ reference behind, ¬ Begins Reference.isHexMark rest reference behind
      · obtain ⟨more, decodes⟩ := exists_decodes_of_known (known.suffix [c])
        exact ⟨c :: more, .plain alone decodes⟩
      · simp only [not_forall, not_not] at alone
        obtain ⟨rfl, reference, behind, begins⟩ := alone
        obtain ⟨decodedChar, denotes⟩ := known [] rest reference behind rfl begins
        obtain ⟨front, _, same⟩ := begins.suffix
        have shorter := begins.length_le
        have knownThere : Known Reference.isHexMark (afterSemicolon behind) :=
          Known.suffix ('&' :: front) (by rwa [List.cons_append, ← same])
        obtain ⟨more, decodes⟩ := exists_decodes_of_known knownThere
        exact ⟨decodedChar :: more, .reference begins denotes decodes⟩
termination_by text.length

/-- An ampersand behind a part without any stands in what follows that part. -/
theorem eq_append_of_notMem {front before : List Char} (free : '&' ∉ front)
    (same : front ++ text = before ++ '&' :: behind) :
    ∃ between, text = between ++ '&' :: behind := by
  rcases List.append_eq_append_iff.mp same with ⟨between, _, found⟩ | ⟨between, front_eq, found⟩
  · exact ⟨between, found⟩
  · cases between with
    | nil => exact ⟨[], found.symm⟩
    | cons c between =>
        cases found
        exact (free (by simp [front_eq])).elim

theorem known_of_decodes (decodes : Decodes Reference.isHexMark text decoded) :
    Known Reference.isHexMark text := by
  induction decodes with
  | nil =>
      intro before behind reference rest same
      simp at same
  | @plain c text decoded alone _ inductionHypothesis =>
      intro before behind reference rest same begins
      cases before with
      | nil =>
          cases same
          exact (alone rfl reference rest begins).elim
      | cons d before =>
          cases same
          exact inductionHypothesis before behind reference rest rfl begins
  | @reference text there decoded first c beginsFirst denotes _ inductionHypothesis =>
      intro before behind reference rest same begins
      cases before with
      | nil =>
          cases same
          exact ⟨c, beginsFirst.unique begins ▸ denotes⟩
      | cons d before =>
          obtain ⟨front, free, split⟩ := beginsFirst.suffix
          have inside : front ++ afterSemicolon there = before ++ '&' :: behind :=
            split.symm.trans (List.cons.inj same).2
          obtain ⟨between, found⟩ := eq_append_of_notMem free inside
          exact inductionHypothesis between behind reference rest found begins

theorem exists_decodes_iff :
    (∃ decoded, Decodes Reference.isHexMark text decoded) ↔ Known Reference.isHexMark text :=
  ⟨fun ⟨_, decodes⟩ => known_of_decodes decodes, exists_decodes_of_known⟩

end EntityResolver.MatchText
