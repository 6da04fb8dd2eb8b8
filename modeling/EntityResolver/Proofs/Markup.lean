import EntityResolver.Proofs.References
import EntityResolver.Proofs.Value.Shape

/-!
# Marked-up texts

A text is read exactly if it is put together from runs, pairs of bold tags and empty bold tags, and
each reference in a run stands for a character. Each of these pieces is told by how it begins, and a
run goes on to the next bracket, so that there is one way to take a text apart and nothing is
skipped between the pieces. What is read is the normal form of the decoded runs: the characters and
their highlighting are kept in order, and they leave no choice of parts.
-/

set_option autoImplicit false

namespace EntityResolver.MatchText

/-- The text is put together from runs without brackets, which go on to the next bracket, from bold
pairs, and from empty bold tags, which hold no run. -/
inductive Marked : List Char → MatchText → Prop where
  | nil : Marked [] []
  | run {text rest : List Char} {runs : MatchText} (longest : Longest isPlain text rest)
      (more : Marked rest runs) : Marked (text ++ rest) (⟨String.ofList text, false⟩ :: runs)
  | pair {text inner rest : List Char} {runs : MatchText} (pair : BoldPair text inner rest)
      (more : Marked rest runs) : Marked ('<' :: text) (⟨String.ofList inner, true⟩ :: runs)
  | tag {text rest : List Char} {runs : MatchText} (tag : Tag ['b'] ['/', '>'] text rest)
      (more : Marked rest runs) : Marked ('<' :: text) runs

/-- The second run is the first one with its references decoded. -/
def DecodesTo (mark : Char → Bool) (run decoded : MatchPart) : Prop :=
  Decodes mark run.text.toList decoded.text.toList ∧ decoded.highlighted = run.highlighted

/-- The characters of runs, each with the highlighting of its run. -/
def letters (parts : MatchText) : List (Char × Bool) :=
  parts.flatMap fun part => part.text.toList.map fun c => (c, part.highlighted)

/-- A text is read exactly if it is put together from pieces in which every reference is known. What
is read are then the decoded runs, in order, in normal form. -/
structure ReadsExactly (mark : Char → Bool) (html : String) : Prop where
  accepted : (∃ parts, ofHtml html = .ok parts) ↔
    ∃ runs, Marked html.toList runs ∧ ∀ run ∈ runs, Known mark run.text.toList
  parts : ∀ parts, ofHtml html = .ok parts ↔
    ∃ runs decoded, Marked html.toList runs ∧ List.Forall₂ (DecodesTo mark) runs decoded ∧
      Normal parts ∧ letters parts = letters decoded ∧ text parts = text decoded

def joined (runs : MatchText) : MatchText :=
  runs.foldr (fun run parts => joinFront run.text.toList run.highlighted parts) []

variable {parts others runs decoded : MatchText} {html rest : List Char}

theorem joined_cons (run : MatchPart) (runs : MatchText) :
    joined (run :: runs) = joinFront run.text.toList run.highlighted (joined runs) :=
  rfl

theorem letters_cons (part : MatchPart) (parts : MatchText) :
    letters (part :: parts) =
      part.text.toList.map (fun c => (c, part.highlighted)) ++ letters parts :=
  List.flatMap_cons

theorem letters_joinFront (text : List Char) (highlighted : Bool) (parts : MatchText) :
    letters (joinFront text highlighted parts) =
      text.map (fun c => (c, highlighted)) ++ letters parts := by
  unfold joinFront
  split
  · rename_i empty
    rw [List.isEmpty_iff.mp empty]
    rfl
  · cases parts with
    | nil => simp [letters]
    | cons next rest =>
        dsimp only
        split
        · rename_i same
          simp [letters_cons, ← same]
        · simp [letters_cons]

theorem letters_joined (runs : MatchText) : letters (joined runs) = letters runs := by
  induction runs with
  | nil => rfl
  | cons run runs inductionHypothesis =>
      rw [joined_cons, letters_joinFront, inductionHypothesis, letters_cons]

theorem normal_joined (runs : MatchText) : Normal (joined runs) := by
  induction runs with
  | nil => trivial
  | cons run runs inductionHypothesis => exact normal_joinFront _ _ inductionHypothesis

theorem toList_text (parts : MatchText) : (text parts).toList = (letters parts).map Prod.fst := by
  simp [text, letters, String.toList_join, List.flatMap_map, List.map_flatMap, Function.comp_def]

/-- In normal form the letters of the first run are all those of its highlighting. -/
theorem longest_letters {part : MatchPart} (normal : Normal (part :: parts)) :
    Longest (fun letter => letter.2 == part.highlighted)
      (part.text.toList.map fun c => (c, part.highlighted)) (letters parts) := by
  obtain ⟨nonempty, apart, behind⟩ := normal
  refine ⟨by simpa using nonempty, by simp, ?_⟩
  cases parts with
  | nil => simp [letters]
  | cons next rest =>
      obtain ⟨c, more, found⟩ := List.exists_cons_of_ne_nil behind.1
      simpa [letters_cons, found] using apart next rfl

/-- Runs in normal form are told by their letters. -/
theorem eq_of_letters (normal : Normal parts) (normalToo : Normal others)
    (same : letters parts = letters others) : parts = others := by
  induction parts generalizing others with
  | nil =>
      cases others with
      | nil => rfl
      | cons other others => simp [letters, normalToo.1] at same
  | cons part parts inductionHypothesis =>
      cases others with
      | nil => simp [letters, normal.1] at same
      | cons other others =>
          have longest := longest_letters normal
          have longestToo := longest_letters normalToo
          rw [letters_cons, letters_cons] at same
          have highlighted : part.highlighted = other.highlighted := by
            obtain ⟨c, more, found⟩ := List.exists_cons_of_ne_nil normal.1
            obtain ⟨d, moreToo, foundToo⟩ := List.exists_cons_of_ne_nil normalToo.1
            rw [found, foundToo] at same
            exact congrArg Prod.snd (List.cons.inj same).1
          rw [← highlighted] at longestToo same
          obtain ⟨first, behind⟩ := longest.unique longestToo same
          have text : part.text = other.text := by
            refine String.toList_injective (List.map_injective_iff.mpr ?_ first)
            exact fun c d pairs => congrArg Prod.fst pairs
          have others := inductionHypothesis normal.2.2 normalToo.2.2 behind
          cases part
          cases other
          simp_all

theorem eq_joined_iff :
    parts = joined decoded ↔ Normal parts ∧ letters parts = letters decoded := by
  constructor
  · rintro rfl
    exact ⟨normal_joined decoded, letters_joined decoded⟩
  · rintro ⟨normal, same⟩
    exact eq_of_letters normal (normal_joined decoded) (same.trans (letters_joined decoded).symm)

theorem Tag.closed_unique {opening closing ending text tail : List Char} {c d : Char}
    (solid : Text.isBlank c = false) (solidToo : Text.isBlank d = false)
    (tag : Tag opening (c :: closing) text rest) (other : Tag opening (d :: ending) text tail) :
    c :: (closing ++ rest) = d :: (ending ++ tail) := by
  obtain ⟨blank, white, rfl⟩ := tag
  obtain ⟨blankToo, whiteToo, same⟩ := other
  have trimmed := congrArg Text.trimStart (List.append_cancel_left same)
  rw [List.cons_append, List.cons_append, trimStart_blank _ white solid,
    trimStart_blank _ whiteToo solidToo] at trimmed
  exact trimmed

theorem emptyBold?_eq_some_iff {text : List Char} :
    emptyBold? text = some rest ↔ Tag ['b'] ['/', '>'] text rest :=
  afterTag?_eq_some_iff (by decide)

theorem segments_emptyBold {text : List Char} (tag : Tag ['b'] ['/', '>'] text rest) :
    segments ('<' :: text) = .emptyBold :: segments rest := by
  rw [segments, if_neg (by decide), if_pos rfl]
  split
  · rename_i found
    obtain ⟨_, behind, opens, _⟩ := boldPair?_eq_some_iff.mp found
    cases tag.closed_unique (by decide) (by decide) opens
  · split
    · rename_i found
      cases (emptyBold?_eq_some_iff.mpr tag).symm.trans found
      rfl
    · rename_i missed
      cases (emptyBold?_eq_some_iff.mpr tag).symm.trans missed

/-- A decoded run is put in front of what is read behind it. -/
theorem ofSegments_of_marked (marked : Marked html runs)
    (decodes : List.Forall₂ (DecodesTo Reference.isHexMark) runs decoded) :
    ofSegments (segments html) = .ok (joined decoded) := by
  induction marked generalizing decoded with
  | nil =>
      cases decodes
      rw [segments]
      rfl
  | run longest _ inductionHypothesis =>
      obtain _ | ⟨⟨done, highlighted⟩, more⟩ := decodes
      rw [String.toList_ofList] at done
      rw [segments_plain longest.nonempty longest.inside longest.outside, ofSegments,
        unescape_eq_ok_iff.mpr done, ok_bind, inductionHypothesis more, joined_cons, highlighted]
      rfl
  | pair pair _ inductionHypothesis =>
      obtain _ | ⟨⟨done, highlighted⟩, more⟩ := decodes
      rw [String.toList_ofList] at done
      rw [segments_bold pair, ofSegments, unescape_eq_ok_iff.mpr done, ok_bind,
        inductionHypothesis more, joined_cons, highlighted]
      rfl
  | tag tag _ inductionHypothesis =>
      rw [segments_emptyBold tag]
      exact inductionHypothesis decodes

theorem decodesTo_of_unescape {text done : List Char} (highlighted : Bool)
    (unescaped : unescape text = .ok done) :
    DecodesTo Reference.isHexMark ⟨String.ofList text, highlighted⟩
      ⟨String.ofList done, highlighted⟩ :=
  ⟨by simpa only [String.toList_ofList] using unescape_eq_ok_iff.mp unescaped, rfl⟩

/-- What was read without a fault was put together from pieces. -/
theorem exists_marked (read : ofSegments (segments html) = .ok parts) :
    ∃ runs decoded, Marked html runs ∧
      List.Forall₂ (DecodesTo Reference.isHexMark) runs decoded ∧ parts = joined decoded := by
  fun_induction segments html generalizing parts with
  | case1 =>
      cases read
      exact ⟨[], [], .nil, .nil, rfl⟩
  | case2 c rest plain inductionHypothesis =>
      obtain ⟨done, unescaped, read⟩ := bind_eq_ok_iff.mp read
      obtain ⟨others, readRest, same⟩ := bind_eq_ok_iff.mp read
      obtain ⟨runs, decoded, marked, pairs, rfl⟩ := inductionHypothesis readRest
      have longest : Longest isPlain ((c :: rest).takeWhile isPlain)
          ((c :: rest).dropWhile isPlain) := longest_takeWhile (by simp [plain])
      rw [List.takeWhile_cons_of_pos plain, List.dropWhile_cons_of_pos plain] at longest
      have whole : c :: rest.takeWhile isPlain ++ rest.dropWhile isPlain = c :: rest := by
        rw [List.cons_append, List.takeWhile_append_dropWhile]
      cases same
      refine ⟨_, _, whole ▸ .run longest marked,
        .cons (decodesTo_of_unescape false unescaped) pairs, ?_⟩
      simp [joined_cons]
  | case3 rest inner tail found _ inductionHypothesis =>
      obtain ⟨done, unescaped, read⟩ := bind_eq_ok_iff.mp read
      obtain ⟨others, readRest, same⟩ := bind_eq_ok_iff.mp read
      obtain ⟨runs, decoded, marked, pairs, rfl⟩ := inductionHypothesis readRest
      cases same
      refine ⟨_, _, .pair (boldPair?_eq_some_iff.mp found) marked,
        .cons (decodesTo_of_unescape true unescaped) pairs, ?_⟩
      simp [joined_cons]
  | case4 rest _ tail found _ inductionHypothesis =>
      obtain ⟨runs, decoded, marked, pairs, same⟩ := inductionHypothesis read
      exact ⟨runs, decoded, .tag (emptyBold?_eq_some_iff.mp found) marked, pairs, same⟩
  | case5 => cases read
  | case6 => cases read

theorem ofHtml_eq_ok_iff {html : String} :
    ofHtml html = .ok parts ↔ ∃ runs decoded, Marked html.toList runs ∧
      List.Forall₂ (DecodesTo Reference.isHexMark) runs decoded ∧ parts = joined decoded := by
  constructor
  · exact exists_marked
  · rintro ⟨runs, decoded, marked, pairs, rfl⟩
    exact ofSegments_of_marked marked pairs

theorem exists_decoded_iff :
    (∃ decoded, List.Forall₂ (DecodesTo Reference.isHexMark) runs decoded) ↔
      ∀ run ∈ runs, Known Reference.isHexMark run.text.toList := by
  constructor
  · rintro ⟨decoded, pairs⟩ run member
    obtain ⟨_, _, decodes, _⟩ := FieldValue.exists_related pairs member
    exact exists_decodes_iff.mp ⟨_, decodes⟩
  · intro known
    refine FieldValue.exists_forall₂ fun run member => ?_
    obtain ⟨decoded, decodes⟩ := exists_decodes_iff.mpr (known run member)
    exact ⟨⟨String.ofList decoded, run.highlighted⟩, by simpa [DecodesTo] using decodes⟩

/-- Every text is read exactly, with hexadecimal digits announced in either case. -/
theorem reads_exactly (html : String) : ReadsExactly Reference.isHexMark html := by
  constructor
  case accepted =>
    constructor
    · rintro ⟨parts, read⟩
      obtain ⟨runs, decoded, marked, pairs, _⟩ := ofHtml_eq_ok_iff.mp read
      exact ⟨runs, marked, exists_decoded_iff.mp ⟨decoded, pairs⟩⟩
    · rintro ⟨runs, marked, known⟩
      obtain ⟨decoded, pairs⟩ := exists_decoded_iff.mpr known
      exact ⟨_, ofHtml_eq_ok_iff.mpr ⟨runs, decoded, marked, pairs, rfl⟩⟩
  case parts =>
    intro parts
    constructor
    · intro read
      obtain ⟨runs, decoded, marked, pairs, same⟩ := ofHtml_eq_ok_iff.mp read
      obtain ⟨normal, sameLetters⟩ := eq_joined_iff.mp same
      have sameText : text parts = text decoded := by
        rw [← String.toList_inj, toList_text, sameLetters, toList_text]
      exact ⟨runs, decoded, marked, pairs, normal, sameLetters, sameText⟩
    · rintro ⟨runs, decoded, marked, pairs, normal, sameLetters, _⟩
      have same : parts = joined decoded := eq_joined_iff.mpr ⟨normal, sameLetters⟩
      exact ofHtml_eq_ok_iff.mpr ⟨runs, decoded, marked, pairs, same⟩

/-- A capital letter announces hexadecimal digits as well, so that references with it do not stay in
the text. -/
theorem not_reads_exactly_capital : ¬ ReadsExactly (· == 'x') "&#X41;" := by
  intro exact
  have alone (reference : Reference) (behind : List Char) :
      ¬ Begins (· == 'x') ['#', 'X', '4', '1', ';'] reference behind := by
    intro begins
    generalize same : ['#', 'X', '4', '1', ';'] = text at begins
    cases begins with
    | name longest =>
        have none := same ▸ longest.takeWhile_append
        exact longest.nonempty (none.symm.trans (List.takeWhile_cons_of_neg (by decide)))
    | decimal longest =>
        have none := (List.cons.inj same).2 ▸ longest.takeWhile_append
        exact longest.nonempty (none.symm.trans (List.takeWhile_cons_of_neg (by decide)))
    | hexadecimal announced _ =>
        obtain ⟨rfl, _⟩ := List.cons.inj (List.cons.inj same).2
        cases announced
  have stays : Decodes (· == 'x') "&#X41;".toList "&#X41;".toList := by
    have other {c : Char} (differs : c ≠ '&') {rest decoded : List Char}
        (more : Decodes (· == 'x') rest decoded) : Decodes (· == 'x') (c :: rest) (c :: decoded) :=
      .plain (fun same => (differs same).elim) more
    exact .plain (fun _ => alone) (other (by decide) (other (by decide) (other (by decide)
      (other (by decide) (other (by decide) .nil)))))
  have marked : Marked "&#X41;".toList [⟨"&#X41;", false⟩] := by
    have longest : Longest isPlain "&#X41;".toList [] :=
      ⟨by simp, by simp [isPlain], by simp⟩
    simpa using Marked.run longest .nil
  have unread := (exact.parts [⟨"&#X41;", false⟩]).mpr
    ⟨_, _, marked, .cons ⟨stays, rfl⟩ .nil, ⟨by simp, by simp, trivial⟩, rfl, rfl⟩
  have read : ofHtml "&#X41;" = .ok [⟨"A", false⟩] := by with_unfolding_all rfl
  exact absurd (read.symm.trans unread) (by decide)

end EntityResolver.MatchText
