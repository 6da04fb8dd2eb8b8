import EntityResolver.Text.LetterCase
import Mathlib.Data.List.Infix

/-!
Lower-casing, and the phrases that stand in lower-cased texts.

Letters from U+0080 on have lower-case forms of their own. Only two of these hold ASCII letters:
that of the Kelvin sign is a `k`, and that of the dotted capital I is an `i` with a mark. So a
phrase that neither can be a part of is found in a lower-cased text exactly if it is found after
only the ASCII letters have been lower-cased.
-/

set_option autoImplicit false

namespace EntityResolver.Text

variable {phrase text lowered : List Char}

/-- The second text is a lower-case form of the first. At the end of a word the capital sigma has a
form of its own; which one is written is left open. -/
inductive Lowers : List Char → List Char → Prop where
  | nil : Lowers [] []
  | letter (c : Char) {rest lowered : List Char} (others : Lowers rest lowered) :
      Lowers (c :: rest) (lowerChars c ++ lowered)
  | finalSigma {rest lowered : List Char} (others : Lowers rest lowered) :
      Lowers ('Σ' :: rest) ('ς' :: lowered)

theorem lowers_flatMap (text : List Char) : Lowers text (text.flatMap lowerChars) := by
  induction text with
  | nil => exact .nil
  | cons c rest inductionHypothesis => exact .letter c inductionHypothesis

/-- A way to lower-case texts. -/
structure LowerCasing where
  lower : String → String
  lowers : ∀ text, Lowers text.toList (lower text).toList

/-- Lower-cases letter by letter, which gives no capital sigma a form of its own. -/
def LowerCasing.letterwise : LowerCasing where
  lower text := String.ofList (text.toList.flatMap lowerChars)
  lowers text := by
    rw [String.toList_ofList]
    exact lowers_flatMap text.toList

theorem asciiLower_of_not_ascii {c : Char} (above : 128 ≤ c.toNat) : asciiLower c = c := by
  have other : isAsciiUpper c = false := by
    have last : ¬ c ≤ 'Z' := fun small => absurd (Char.le_def.mp small) (by
      change ¬ c.toNat ≤ 90
      omega)
    simp [isAsciiUpper, last]
  simp [asciiLower, other]

/-- No run of the table leads to an ASCII letter, except that of the Kelvin sign, which leads to a
`k`. -/
theorem target_of_mem_lowerCaseRuns : ∀ run ∈ lowerCaseRuns,
    ((128 ≤ (run.1 : Int) + run.2.2.2 ∧ (run.2.1 : Int) + run.2.2.2 < 0xD800) ∨
      (0xDFFF < (run.1 : Int) + run.2.2.2 ∧ (run.2.1 : Int) + run.2.2.2 < 0x110000)) ∨
    (run.1 = run.2.1 ∧ (run.1 : Int) + run.2.2.2 = 107) := by
  decide +kernel

inductive LoweredTo (c : Char) : List Char → Prop where
  | ascii (below : c.toNat < 128) : LoweredTo c [asciiLower c]
  | letter {d : Char} (above : 128 ≤ c.toNat) (form : 128 ≤ d.toNat ∨ d = 'k') : LoweredTo c [d]
  | dotted {d : Char} (above : 128 ≤ c.toNat) (mark : 128 ≤ d.toNat) : LoweredTo c ['i', d]

theorem loweredTo_lowerChars (c : Char) : LoweredTo c (lowerChars c) := by
  unfold lowerChars
  split
  · rename_i below
    exact .ascii below
  · rename_i ascii
    have above : 128 ≤ c.toNat := Nat.not_lt.mp ascii
    split
    · exact .dotted above (by decide)
    · dsimp only
      split
      · rename_i first last step distance found
        have within := List.find?_some found
        have target := target_of_mem_lowerCaseRuns _ (List.mem_of_find?_eq_some found)
        simp only [Bool.and_eq_true, decide_eq_true_eq] at within target
        refine .letter above ?_
        by_cases kelvin : (c.toNat : Int) + distance = 107
        · rw [kelvin]
          exact .inr rfl
        · refine .inl ?_
          have valid : ((c.toNat : Int) + distance).toNat.isValidChar := by
            unfold Nat.isValidChar
            omega
          have same : (Char.ofNat ((c.toNat : Int) + distance).toNat).toNat =
              ((c.toNat : Int) + distance).toNat := by
            rw [Char.ofNat, dif_pos valid]
            rfl
          omega
      · exact .letter above (.inl above)

theorem loweredTo_finalSigma : LoweredTo 'Σ' ['ς'] :=
  .letter (by decide) (.inl (by decide))

theorem occursIn_iff : occursIn phrase text = true ↔ phrase <:+: text := by
  induction text with
  | nil => simp [occursIn]
  | cons c rest inductionHypothesis =>
      simp [occursIn, List.infix_cons_iff, inductionHypothesis]

/-- The phrase is of ASCII characters other than `k`, and does not end in an `i`. -/
structure Plain (phrase : List Char) : Prop where
  ascii : ∀ c ∈ phrase, c.toNat < 128 ∧ c ≠ 'k'
  last : phrase.getLast? ≠ some 'i'

theorem Plain.tail {c : Char} (plain : Plain (c :: phrase)) : Plain phrase := by
  refine ⟨fun d member => plain.ascii d (List.mem_cons_of_mem c member), fun last => ?_⟩
  cases phrase with
  | nil => cases last
  | cons d rest => exact plain.last (by rwa [List.getLast?_cons_cons])

theorem Plain.not_prefix {c : Char} (plain : Plain phrase) (nonempty : phrase ≠ [])
    (strange : 128 ≤ c.toNat ∨ c = 'k') : ¬ phrase <+: c :: text := by
  cases phrase with
  | nil => exact absurd rfl nonempty
  | cons first rest =>
      intro begins
      obtain ⟨rfl, _⟩ := List.cons_prefix_cons.mp begins
      obtain ⟨below, other⟩ := plain.ascii first List.mem_cons_self
      rcases strange with above | same
      · omega
      · exact other same

/-- Nor does one begin with an `i` and a letter that it avoids. -/
theorem Plain.not_prefix_dotted {d : Char} (plain : Plain phrase) (nonempty : phrase ≠ [])
    (mark : 128 ≤ d.toNat) : ¬ phrase <+: 'i' :: d :: text := by
  cases phrase with
  | nil => exact absurd rfl nonempty
  | cons first rest =>
      intro begins
      obtain ⟨rfl, goesOn⟩ := List.cons_prefix_cons.mp begins
      refine plain.tail.not_prefix ?_ (.inl mark) goesOn
      rintro rfl
      exact plain.last rfl

theorem Plain.not_prefix_map {c : Char} (plain : Plain phrase) (nonempty : phrase ≠ [])
    (above : 128 ≤ c.toNat) : ¬ phrase <+: (c :: text).map asciiLower := by
  rw [List.map_cons, asciiLower_of_not_ascii above]
  exact plain.not_prefix nonempty (.inl above)

section Step

variable {c : Char} {form rest : List Char} (lowers : LoweredTo c form)

include lowers

theorem prefix_form_iff (plain : Plain phrase)
    (others : ∀ {phrase : List Char}, Plain phrase →
      (phrase <+: lowered ↔ phrase <+: rest.map asciiLower)) :
    phrase <+: form ++ lowered ↔ phrase <+: (c :: rest).map asciiLower := by
  by_cases nonempty : phrase = []
  · simp [nonempty]
  · cases lowers with
    | ascii below =>
        cases phrase with
        | nil => exact absurd rfl nonempty
        | cons first more =>
            simp only [List.singleton_append, List.map_cons, List.cons_prefix_cons,
              others plain.tail]
    | letter above strange =>
        exact iff_of_false (plain.not_prefix nonempty strange) (plain.not_prefix_map nonempty above)
    | dotted above mark =>
        exact iff_of_false (plain.not_prefix_dotted nonempty mark)
          (plain.not_prefix_map nonempty above)

/-- A phrase that stands in a text begins with the first letter, or stands in the rest: it does not
begin with the mark of a dotted letter. -/
theorem infix_form_iff (plain : Plain phrase) (nonempty : phrase ≠ []) :
    phrase <:+: form ++ lowered ↔ phrase <+: form ++ lowered ∨ phrase <:+: lowered := by
  cases lowers with
  | ascii _ | letter _ _ => exact List.infix_cons_iff
  | dotted _ mark =>
      have unmarked : ¬ phrase <+: _ :: lowered := plain.not_prefix nonempty (.inl mark)
      simp [List.infix_cons_iff, unmarked]

end Step

theorem prefix_lowers_iff (lowers : Lowers text lowered) (plain : Plain phrase) :
    phrase <+: lowered ↔ phrase <+: text.map asciiLower := by
  induction lowers generalizing phrase with
  | nil => rfl
  | letter c _ inductionHypothesis =>
      exact prefix_form_iff (loweredTo_lowerChars c) plain inductionHypothesis
  | finalSigma _ inductionHypothesis =>
      exact prefix_form_iff loweredTo_finalSigma plain inductionHypothesis

/-- Whichever lower-case form of a text is taken, it contains a phrase exactly if the text does
after its ASCII letters have been lower-cased. -/
theorem infix_lowers_iff (lowers : Lowers text lowered) (plain : Plain phrase)
    (nonempty : phrase ≠ []) : phrase <:+: lowered ↔ phrase <:+: text.map asciiLower := by
  have step {c : Char} {form rest lowered : List Char} (first : LoweredTo c form)
      (others : Lowers rest lowered)
      (inductionHypothesis : phrase <:+: lowered ↔ phrase <:+: rest.map asciiLower) :
      phrase <:+: form ++ lowered ↔ phrase <:+: (c :: rest).map asciiLower := by
    rw [infix_form_iff first plain nonempty, inductionHypothesis,
      prefix_form_iff first plain (prefix_lowers_iff others)]
    exact List.infix_cons_iff.symm
  induction lowers with
  | nil => rfl
  | letter c others inductionHypothesis =>
      exact step (loweredTo_lowerChars c) others inductionHypothesis
  | finalSigma others inductionHypothesis =>
      exact step loweredTo_finalSigma others inductionHypothesis

end EntityResolver.Text
