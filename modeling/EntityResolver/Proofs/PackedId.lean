import EntityResolver.Proofs.Checked
import EntityResolver.Value.Error

/-!
# Packed ids

Packing rows of parts into texts and unpacking the texts are inverse to each other. The texts that
can be unpacked are those in which every escape, read from the left, stands before a character that
needs one, and they have one part more than separators that are not escaped.
-/

set_option autoImplicit false

namespace EntityResolver.PackedId

/-- Read from the left, every escape stands before a separator or before another escape. -/
inductive WellEscaped : List Char → Prop where
  | nil : WellEscaped []
  | plain {c : Char} {rest : List Char} (unescaped : c ≠ escape) (behind : WellEscaped rest) :
      WellEscaped (c :: rest)
  | escaped {c : Char} {rest : List Char} (needed : c = separator ∨ c = escape)
      (behind : WellEscaped rest) : WellEscaped (escape :: c :: rest)

/-- How many separators stand in the text that no escape makes part of a part. -/
def bareSeparators : List Char → Nat
  | [] => 0
  | c :: rest =>
      if c = escape then
        match rest with
        | [] => 0
        | _ :: tail => bareSeparators tail
      else if c = separator then bareSeparators rest + 1
      else bareSeparators rest

variable {c : Char} {text rest part : List Char} {parts : List (List Char)}

theorem needsEscape_iff : needsEscape c = true ↔ c = separator ∨ c = escape := by
  simp [needsEscape]

theorem separator_ne_escape : separator ≠ escape := by decide

theorem unpackChars_escaped (needed : needsEscape c = true) :
    unpackChars (escape :: c :: rest) = (unpackChars rest).map (pushFront c) := by
  simp [unpackChars, needed]

theorem unpackChars_separator :
    unpackChars (separator :: rest) = (unpackChars rest).map ([] :: ·) := by
  simp [unpackChars.eq_def (separator :: rest), separator_ne_escape]

theorem unpackChars_plain (plain : needsEscape c = false) :
    unpackChars (c :: rest) = (unpackChars rest).map (pushFront c) := by
  have apart : c ≠ separator ∧ c ≠ escape := by
    rw [← not_or, ← needsEscape_iff, plain]
    simp
  simp [unpackChars.eq_def (c :: rest), apart]

/-- A part that was escaped is unpacked in front of what stands behind it. -/
theorem unpackChars_append {first : List Char} {others : List (List Char)}
    (done : unpackChars rest = .ok (first :: others)) (part : List Char) :
    unpackChars (escapePart part ++ rest) = .ok ((part ++ first) :: others) := by
  induction part with
  | nil => exact done
  | cons c part inductionHypothesis =>
      unfold escapePart
      cases needed : needsEscape c with
      | true =>
          rw [if_pos rfl, List.cons_append, List.cons_append, unpackChars_escaped needed,
            inductionHypothesis]
          rfl
      | false =>
          rw [if_neg Bool.false_ne_true, List.cons_append, unpackChars_plain needed,
            inductionHypothesis]
          rfl

theorem unpackChars_packChars (nonempty : parts ≠ []) :
    unpackChars (packChars parts) = .ok parts := by
  induction parts with
  | nil => exact (nonempty rfl).elim
  | cons part others inductionHypothesis =>
      cases others with
      | nil =>
          have last : unpackChars (escapePart part ++ []) = .ok [part ++ []] :=
            unpackChars_append rfl part
          rwa [List.append_nil, List.append_nil] at last
      | cons next others =>
          have behind : unpackChars (separator :: packChars (next :: others)) =
              .ok ([] :: next :: others) := by
            rw [unpackChars_separator, inductionHypothesis (by simp)]
            rfl
          have whole := unpackChars_append behind part
          rwa [List.append_nil] at whole

theorem packChars_pushFront (parts : List (List Char)) :
    packChars (pushFront c parts) = escapePart [c] ++ packChars parts := by
  have front (part : List Char) : escapePart (c :: part) = escapePart [c] ++ escapePart part := by
    simp only [escapePart]
    split <;> rfl
  cases parts with
  | nil => simp [pushFront, packChars]
  | cons part others =>
      cases others with
      | nil => exact front part
      | cons next others => simp [pushFront, packChars, front part]

theorem packChars_empty_cons (nonempty : parts ≠ []) :
    packChars ([] :: parts) = separator :: packChars parts := by
  cases parts with
  | nil => exact (nonempty rfl).elim
  | cons part others => rfl

theorem length_pushFront (nonempty : parts ≠ []) : (pushFront c parts).length = parts.length := by
  cases parts with
  | nil => exact (nonempty rfl).elim
  | cons part others => rfl

theorem sound_of_unpackChars (done : unpackChars text = .ok parts) :
    WellEscaped text ∧ packChars parts = text ∧ parts.length = bareSeparators text + 1 := by
  fun_induction unpackChars text generalizing parts with
  | case1 =>
      cases done
      exact ⟨.nil, rfl, rfl⟩
  | case2 => cases done
  | case3 c rest needed inductionHypothesis =>
      obtain ⟨others, doneThere, rfl⟩ := map_eq_ok_iff.mp done
      obtain ⟨behind, packed, count⟩ := inductionHypothesis doneThere
      have nonempty := List.ne_nil_of_length_eq_add_one count
      refine ⟨.escaped (needsEscape_iff.mp needed) behind, ?_, ?_⟩
      · simp [packChars_pushFront, escapePart, needed, packed]
      · rw [length_pushFront nonempty, count]
        simp [bareSeparators]
  | case4 => cases done
  | case5 rest unescaped inductionHypothesis =>
      obtain ⟨others, doneThere, rfl⟩ := map_eq_ok_iff.mp done
      obtain ⟨behind, packed, count⟩ := inductionHypothesis doneThere
      have nonempty := List.ne_nil_of_length_eq_add_one count
      refine ⟨.plain unescaped behind, ?_, ?_⟩
      · rw [packChars_empty_cons nonempty, packed]
      · rw [List.length_cons, count, bareSeparators.eq_def (separator :: rest)]
        simp [unescaped]
  | case6 c rest unescaped joined inductionHypothesis =>
      obtain ⟨others, doneThere, rfl⟩ := map_eq_ok_iff.mp done
      obtain ⟨behind, packed, count⟩ := inductionHypothesis doneThere
      have nonempty := List.ne_nil_of_length_eq_add_one count
      have plain : needsEscape c = false := by simp [needsEscape, unescaped, joined]
      refine ⟨.plain unescaped behind, ?_, ?_⟩
      · simp [packChars_pushFront, escapePart, plain, packed]
      · rw [length_pushFront nonempty, count,
          bareSeparators.eq_def (c :: rest)]
        simp [unescaped, joined]

theorem exists_unpackChars (escaped : WellEscaped text) :
    ∃ parts, unpackChars text = .ok parts := by
  induction escaped with
  | nil => exact ⟨_, rfl⟩
  | escaped needed _ inductionHypothesis =>
      obtain ⟨parts, done⟩ := inductionHypothesis
      exact ⟨_, by rw [unpackChars_escaped (needsEscape_iff.mpr needed), done]; rfl⟩
  | @plain c rest unescaped _ inductionHypothesis =>
      obtain ⟨parts, done⟩ := inductionHypothesis
      by_cases joined : c = separator
      · exact ⟨_, by rw [joined, unpackChars_separator, done]; rfl⟩
      · have plain : needsEscape c = false := by simp [needsEscape, unescaped, joined]
        exact ⟨_, by rw [unpackChars_plain plain, done]; rfl⟩

variable {id : String} {count : Nat} {texts : List String}

theorem unpackId_none_iff :
    unpackId id none = .ok texts ↔ unpackChars id.toList = .ok (texts.map String.toList) := by
  rw [unpackId, mapError_eq_ok_iff, unpack, bind_eq_ok_iff]
  constructor
  · rintro ⟨found, done, same⟩
    cases same
    simpa [Function.comp_def] using done
  · intro done
    exact ⟨_, done, congrArg Except.ok (by simp [Function.comp_def])⟩

/-- The number of parts that is expected is checked, and nothing else changes. -/
theorem unpackId_some_iff :
    unpackId id (some count) = .ok texts ↔
      unpackId id none = .ok texts ∧ texts.length = count := by
  rw [unpackId, unpackId, mapError_eq_ok_iff, mapError_eq_ok_iff, unpack, unpack, bind_eq_ok_iff,
    bind_eq_ok_iff]
  constructor
  · rintro ⟨found, done, same⟩
    dsimp only at same
    split at same
    · rename_i enough
      cases same
      exact ⟨⟨found, done, rfl⟩, by rwa [List.length_map]⟩
    · cases same
  · rintro ⟨⟨found, done, same⟩, enough⟩
    cases same
    rw [List.length_map] at enough
    exact ⟨found, done, if_pos enough⟩

theorem unpackId_none_sound (done : unpackId id none = .ok texts) :
    WellEscaped id.toList ∧ pack texts = id ∧ texts.length = bareSeparators id.toList + 1 := by
  obtain ⟨escaped, packed, count⟩ := sound_of_unpackChars (unpackId_none_iff.mp done)
  refine ⟨escaped, ?_, by simpa using count⟩
  unfold pack
  rw [packed, String.ofList_toList]

theorem exists_unpackId_none (escaped : WellEscaped id.toList) :
    ∃ texts, unpackId id none = .ok texts := by
  obtain ⟨parts, done⟩ := exists_unpackChars escaped
  refine ⟨parts.map String.ofList, unpackId_none_iff.mpr ?_⟩
  simpa [Function.comp_def] using done

/-- Parts that were packed are found again by a reader that expects as many. -/
theorem unpackId_pack (nonempty : texts ≠ []) :
    unpackId (pack texts) (some texts.length) = .ok texts := by
  refine unpackId_some_iff.mpr ⟨unpackId_none_iff.mpr ?_, rfl⟩
  rw [pack, String.toList_ofList]
  exact unpackChars_packChars (by simpa using nonempty)

/-- Packing and unpacking are inverse to each other. What can be unpacked is every text that is well
escaped, and into as many parts as its bare separators make. -/
theorem unpack_pack_inverse :
    (∀ parts : List String, parts ≠ [] →
      unpackId (pack parts) (some parts.length) = .ok parts) ∧
    ∀ id : String,
      ((∃ parts, unpackId id none = .ok parts) ↔ WellEscaped id.toList) ∧
      (∀ parts, unpackId id none = .ok parts → pack parts = id) ∧
      ∀ count, (∃ parts, unpackId id (some count) = .ok parts) ↔
        WellEscaped id.toList ∧ bareSeparators id.toList + 1 = count := by
  refine ⟨fun parts nonempty => ?_, fun id => ⟨⟨?_, exists_unpackId_none⟩, ?_, fun count => ?_⟩⟩
  · refine unpackId_some_iff.mpr ⟨unpackId_none_iff.mpr ?_, rfl⟩
    unfold pack
    rw [String.toList_ofList]
    exact unpackChars_packChars (by simpa using nonempty)
  · rintro ⟨parts, done⟩
    exact (unpackId_none_sound done).1
  · exact fun parts done => (unpackId_none_sound done).2.1
  · constructor
    · rintro ⟨parts, done⟩
      obtain ⟨done, length⟩ := unpackId_some_iff.mp done
      obtain ⟨escaped, _, found⟩ := unpackId_none_sound done
      exact ⟨escaped, found.symm.trans length⟩
    · rintro ⟨escaped, rfl⟩
      obtain ⟨parts, done⟩ := exists_unpackId_none escaped
      exact ⟨parts, unpackId_some_iff.mpr ⟨done, (unpackId_none_sound done).2.2⟩⟩

/-- Separators and escapes inside parts and at their ends, and an empty part. -/
theorem unpack_pack_escaped :
    let parts := ["a|b", "c\\d", "", "e\\|"]
    let id := "a\\|b|c\\\\d||e\\\\\\|"
    (parts ≠ [] ∧ unpackId (pack parts) (some 4) = .ok parts) ∧
      unpackId id none = .ok parts ∧ pack parts = id := by
  have nonempty : ["a|b", "c\\d", "", "e\\|"] ≠ [] := by decide
  have done : unpackId "a\\|b|c\\\\d||e\\\\\\|" none = .ok ["a|b", "c\\d", "", "e\\|"] :=
    unpackId_none_iff.mpr (by cbv)
  exact ⟨⟨nonempty, unpack_pack_inverse.1 _ nonempty⟩, done,
    (unpack_pack_inverse.2 _).2.1 _ done⟩

end EntityResolver.PackedId
