import EntityResolver.MatchText
import EntityResolver.Proofs.Checked
import Mathlib.Data.List.TakeWhile

/-!
# Match texts

Writing a match text and reading it again gives the same runs. Escaping leaves no bracket in a run,
so that the only tags are those around highlighted runs, and each ampersand left begins a reference
that ends with its own semicolon. What is read is in normal form: joining runs that were written one
by one neither drops nor merges any of them.
-/

set_option autoImplicit false

namespace EntityResolver.MatchText

/-- No run is empty, and neighbours differ in highlighting. -/
def Normal : MatchText → Prop
  | [] => True
  | part :: rest =>
      part.text.toList ≠ [] ∧
        (∀ next ∈ rest.head?, next.highlighted ≠ part.highlighted) ∧ Normal rest

/-- What a character becomes in an escaped text. -/
def escapeChar (c : Char) : List Char :=
  if c = '&' then ['&', 'a', 'm', 'p', ';']
  else if c = '<' then ['&', 'l', 't', ';']
  else if c = '>' then ['&', 'g', 't', ';']
  else if c = '"' then ['&', 'q', 'u', 'o', 't', ';']
  else if c = '\'' then ['&', '#', '3', '9', ';']
  else [c]

theorem escaped_append (text rest : List Char) :
    escaped (text ++ rest) = escaped text ++ escaped rest := by
  simp only [escaped, replaceChar, List.flatMap_append]

/-- A replacement does not touch what an earlier one has put in. -/
theorem escaped_singleton (c : Char) : escaped [c] = escapeChar c := by
  unfold escapeChar
  split_ifs with ampersand opening closing quote apostrophe
  · subst ampersand
    rfl
  · subst opening
    rfl
  · subst closing
    rfl
  · subst quote
    rfl
  · subst apostrophe
    rfl
  · simp only [escaped, replaceChar, List.flatMap_singleton, ampersand, opening, closing, quote,
      apostrophe, if_false]

theorem escaped_cons (c : Char) (text : List Char) :
    escaped (c :: text) = escapeChar c ++ escaped text := by
  rw [← escaped_singleton, ← escaped_append, List.singleton_append]

def written (part : MatchPart) : List Char :=
  if part.highlighted then '<' :: 'b' :: '>' :: (escaped part.text.toList ++ ['<', '/', 'b', '>'])
  else escaped part.text.toList

def segmentOf (part : MatchPart) : Segment :=
  if part.highlighted then .bold (escaped part.text.toList) else .plain (escaped part.text.toList)

variable {parts : MatchText} {rest tail word : List Char} {highlighted : Bool}

theorem reference?_word (nonempty : word ≠ []) (isWord : word.all Text.isWord = true) :
    reference? (word ++ ';' :: rest) = some (.name word, word.length) := by
  have taken : (word ++ ';' :: rest).takeWhile Text.isWord = word := by
    rw [List.takeWhile_append_of_pos (by simpa using isWord)]
    simp [show Text.isWord ';' = false by decide]
  have filled : word.isEmpty = false := by simpa using nonempty
  simp only [reference?, taken, filled]
  rfl

theorem unescapeFrom_reference (text : List Char) {reference : Reference} {c : Char}
    (found : reference? (text ++ ';' :: rest) = some (reference, text.length))
    (means : reference.char? = some c) :
    unescapeFrom 0 ('&' :: (text ++ ';' :: rest)) = (unescapeFrom 0 rest).map (c :: ·) := by
  have skip (text : List Char) (count : Nat) (length : count = text.length) :
      unescapeFrom count (text ++ rest) = unescapeFrom 0 rest := by
    subst length
    induction text with
    | nil => rfl
    | cons d text inductionHypothesis => exact inductionHypothesis
  have closed : (text ++ ';' :: rest)[text.length]? = some ';' := by simp
  have behind := skip (text ++ [';']) (text.length + 1) (by simp)
  rw [List.append_assoc, List.singleton_append] at behind
  simp only [unescapeFrom, if_true, found, closed, means, behind]

/-- A character that was escaped is read back, whatever stands behind it. -/
theorem unescapeFrom_escapeChar (c : Char) (rest : List Char) :
    unescapeFrom 0 (escapeChar c ++ rest) = (unescapeFrom 0 rest).map (c :: ·) := by
  have named (word : List Char) (nonempty : word ≠ []) (isWord : word.all Text.isWord = true)
      (means : (Reference.name word).char? = some c) :
      unescapeFrom 0 ('&' :: (word ++ ';' :: rest)) = (unescapeFrom 0 rest).map (c :: ·) :=
    unescapeFrom_reference word (reference?_word nonempty isWord) means
  unfold escapeChar
  split
  · rename_i same
    subst same
    exact named "amp".toList (by decide) (by decide) (by decide)
  split
  · rename_i same
    subst same
    exact named "lt".toList (by decide) (by decide) (by decide)
  split
  · rename_i same
    subst same
    exact named "gt".toList (by decide) (by decide) (by decide)
  split
  · rename_i same
    subst same
    exact named "quot".toList (by decide) (by decide) (by decide)
  split
  · rename_i same
    subst same
    have found : reference? ('#' :: '3' :: '9' :: ';' :: rest) =
        some (.decimal ['3', '9'], 3) := by
      simp [reference?, List.takeWhile, show Text.isWord '#' = false by decide,
        show Text.isDigit '3' = true by decide, show Text.isDigit '9' = true by decide,
        show Text.isDigit ';' = false by decide]
    exact unescapeFrom_reference "#39".toList found (by decide)
  · rename_i noAmpersand _ _ _ _
    simp [unescapeFrom, noAmpersand]

theorem unescape_escaped (text : List Char) : unescape (escaped text) = .ok text := by
  unfold unescape
  induction text with
  | nil => rfl
  | cons c text inductionHypothesis =>
      rw [escaped_cons, unescapeFrom_escapeChar, inductionHypothesis]
      rfl

theorem isPlain_escapeChar (c : Char) : ∀ d ∈ escapeChar c, isPlain d = true := by
  unfold escapeChar
  split
  · simp [isPlain]
  split
  · simp [isPlain]
  split
  · simp [isPlain]
  split
  · simp [isPlain]
  split
  · simp [isPlain]
  · rename_i noOpening noClosing _ _
    simp [isPlain, noOpening, noClosing]

theorem isPlain_escaped (text : List Char) : ∀ c ∈ escaped text, isPlain c = true := by
  induction text with
  | nil => exact nofun
  | cons c text inductionHypothesis =>
      rw [escaped_cons]
      exact List.forall_mem_append.mpr ⟨isPlain_escapeChar c, inductionHypothesis⟩

theorem escaped_ne_nil {text : List Char} (nonempty : text ≠ []) : escaped text ≠ [] := by
  obtain ⟨c, behind, rfl⟩ := List.exists_cons_of_ne_nil nonempty
  have filled : escapeChar c ≠ [] := by
    unfold escapeChar
    grind
  simp [escaped_cons, filled]

/-- The text begins with a tag, in which white space may stand before what closes it. -/
def Tag (opening closing text rest : List Char) : Prop :=
  ∃ blank, (∀ c ∈ blank, Text.isBlank c = true) ∧ text = opening ++ (blank ++ (closing ++ rest))

theorem afterWord?_eq_some_iff {text : List Char} :
    afterWord? word text = some rest ↔ text = word ++ rest := by
  fun_induction afterWord? word text with
  | case1 text => simp
  | case2 => simp
  | case3 word d text inductionHypothesis => simpa using inductionHypothesis
  | case4 c word d text differs => simpa using fun same => (differs same.symm).elim

theorem trimStart_blank {blank : List Char} {c : Char} (rest : List Char)
    (white : ∀ d ∈ blank, Text.isBlank d = true) (solid : Text.isBlank c = false) :
    Text.trimStart (blank ++ c :: rest) = c :: rest := by
  rw [Text.trimStart, List.dropWhile_append_of_pos white]
  simp [solid]

theorem afterTag?_eq_some_iff {opening closing text : List Char} {c : Char}
    (solid : Text.isBlank c = false) :
    afterTag? opening (c :: closing) text = some rest ↔ Tag opening (c :: closing) text rest := by
  simp only [afterTag?, Option.bind_eq_some_iff, afterWord?_eq_some_iff]
  constructor
  · rintro ⟨behind, rfl, closed⟩
    refine ⟨behind.takeWhile Text.isBlank, fun d member => List.mem_takeWhile_imp member, ?_⟩
    rw [← closed, Text.trimStart, List.takeWhile_append_dropWhile]
  · rintro ⟨blank, white, rfl⟩
    exact ⟨_, rfl, trimStart_blank (closing ++ rest) white solid⟩

/-- No plain character comes first. -/
def StartsTag (text : List Char) : Prop :=
  ∀ c ∈ text.head?, isPlain c = false

theorem dropWhile_plain {text : List Char} (plain : ∀ c ∈ text, isPlain c = true)
    (stops : StartsTag rest) :
    (text ++ rest).takeWhile isPlain = text ∧ (text ++ rest).dropWhile isPlain = rest := by
  rw [List.takeWhile_append_of_pos plain, List.dropWhile_append_of_pos plain]
  cases rest with
  | nil => simp
  | cons c rest => simp [stops c rfl]

theorem segments_plain {text : List Char} (nonempty : text ≠ [])
    (plain : ∀ c ∈ text, isPlain c = true) (stops : StartsTag rest) :
    segments (text ++ rest) = .plain text :: segments rest := by
  obtain ⟨c, behind, rfl⟩ := List.exists_cons_of_ne_nil nonempty
  obtain ⟨first, others⟩ := List.forall_mem_cons.mp plain
  obtain ⟨taken, dropped⟩ := dropWhile_plain others stops
  rw [List.cons_append, segments, if_pos first, taken, dropped]

def BoldPair (text inner rest : List Char) : Prop :=
  (∀ c ∈ inner, isPlain c = true) ∧
    ∃ behind, Tag ['b'] ['>'] text (inner ++ behind) ∧ Tag ['<', '/', 'b'] ['>'] behind rest

theorem boldPair?_eq_some_iff {text inner : List Char} :
    boldPair? text = some (inner, rest) ↔ BoldPair text inner rest := by
  have solid : Text.isBlank '>' = false := by decide
  simp only [boldPair?, Option.bind_eq_some_iff, Option.map_eq_some_iff, Prod.mk.injEq,
    afterTag?_eq_some_iff solid]
  constructor
  · rintro ⟨behind, opens, tail, closes, rfl, rfl⟩
    refine ⟨fun c member => List.mem_takeWhile_imp member, behind.dropWhile isPlain, ?_, closes⟩
    rwa [List.takeWhile_append_dropWhile]
  · rintro ⟨plain, behind, opens, closes⟩
    have stops : StartsTag behind := by
      obtain ⟨blank, _, rfl⟩ := closes
      simp [StartsTag, isPlain]
    obtain ⟨taken, dropped⟩ := dropWhile_plain plain stops
    exact ⟨inner ++ behind, opens, rest, dropped.symm ▸ closes, taken, rfl⟩

theorem segments_bold {text inner : List Char} (pair : BoldPair text inner rest) :
    segments ('<' :: text) = .bold inner :: segments rest := by
  rw [segments, if_neg (by decide), if_pos rfl]
  split
  · rename_i found
    cases (boldPair?_eq_some_iff.mpr pair).symm.trans found
    rfl
  · rename_i missed
    cases (boldPair?_eq_some_iff.mpr pair).symm.trans missed

/-- What is written behind a run of one highlighting starts no plain text, if the next run has the
other. -/
theorem startsTag_written (apart : ∀ next ∈ parts.head?, next.highlighted = true) :
    StartsTag (parts.flatMap written) := by
  cases parts with
  | nil => simp [StartsTag]
  | cons next rest => simp [StartsTag, written, apart next rfl, isPlain]

theorem segments_written (normal : Normal parts) :
    segments (parts.flatMap written) = parts.map segmentOf := by
  induction parts with
  | nil => rw [List.flatMap_nil, segments, List.map_nil]
  | cons part rest inductionHypothesis =>
      obtain ⟨nonempty, apart, behind⟩ := normal
      rw [List.flatMap_cons, List.map_cons, ← inductionHypothesis behind]
      cases highlighted : part.highlighted with
      | true =>
          have pair : BoldPair ('b' :: '>' :: (escaped part.text.toList ++
              '<' :: '/' :: 'b' :: '>' :: rest.flatMap written)) (escaped part.text.toList)
              (rest.flatMap written) :=
            ⟨isPlain_escaped _, '<' :: '/' :: 'b' :: '>' :: rest.flatMap written,
             ⟨[], by simp, by simp⟩, [], by simp, by simp⟩
          simpa [written, segmentOf, highlighted] using segments_bold pair
      | false =>
          have stops : StartsTag (rest.flatMap written) :=
            startsTag_written fun next first => by simpa [highlighted] using apart next first
          have plain := segments_plain (escaped_ne_nil nonempty) (isPlain_escaped _) stops
          simpa [written, segmentOf, highlighted] using plain

theorem joinFront_of_normal {part : MatchPart} (normal : Normal (part :: parts)) :
    joinFront part.text.toList part.highlighted parts = part :: parts := by
  obtain ⟨nonempty, apart, _⟩ := normal
  have filled : part.text.toList.isEmpty = false := by simpa using nonempty
  unfold joinFront
  rw [if_neg (by simp [filled])]
  cases parts with
  | nil => simp
  | cons next rest => simp [apart next rfl]

theorem normal_joinFront (text : List Char) (highlighted : Bool) (normal : Normal parts) :
    Normal (joinFront text highlighted parts) := by
  unfold joinFront
  split
  · exact normal
  · rename_i filled
    have nonempty : text ≠ [] := by simpa using filled
    cases parts with
    | nil => simpa [Normal] using nonempty
    | cons next rest =>
        have ⟨_, apart, behind⟩ := normal
        dsimp only
        split
        · rename_i same
          exact ⟨by simp [nonempty], same ▸ apart, behind⟩
        · rename_i differs
          exact ⟨by simpa using nonempty, by simpa using differs, normal⟩

theorem normal_ofSegments {segments : List Segment} (read : ofSegments segments = .ok parts) :
    Normal parts := by
  induction segments generalizing parts with
  | nil =>
      cases read
      exact trivial
  | cons segment rest inductionHypothesis =>
      cases segment with
      | plain text | bold text =>
          obtain ⟨decoded, _, joined⟩ := bind_eq_ok_iff.mp read
          obtain ⟨others, readRest, same⟩ := bind_eq_ok_iff.mp joined
          cases same
          exact normal_joinFront _ _ (inductionHypothesis readRest)
      | emptyBold => exact inductionHypothesis read
      | stray => cases read

theorem ofSegments_segmentOf (normal : Normal parts) :
    ofSegments (parts.map segmentOf) = .ok parts := by
  induction parts with
  | nil => rfl
  | cons part rest inductionHypothesis =>
      have behind := inductionHypothesis normal.2.2
      have joined := joinFront_of_normal normal
      rw [List.map_cons, segmentOf]
      split
      · rename_i highlighted
        rw [ofSegments, unescape_escaped, ok_bind, behind, ok_bind, ← highlighted, joined]
        rfl
      · rename_i highlighted
        rw [ofSegments, unescape_escaped, ok_bind, behind, ok_bind,
          ← eq_false_of_ne_true highlighted, joined]
        rfl

theorem toList_render (parts : MatchText) : (render parts).toList = parts.flatMap written := by
  rw [render, format, String.toList_join, List.flatMap_map]
  congr 1
  funext part
  unfold written
  split <;> simp [Escape.apply, escaped]

/-- The written form of runs in normal form is read as these runs. -/
theorem ofHtml_render_of_normal (normal : Normal parts) : ofHtml (render parts) = .ok parts := by
  rw [ofHtml, toList_render, segments_written normal, ofSegments_segmentOf normal]

/-- A match text that was read is read again from its written form. -/
theorem ofHtml_render {html : String} (read : ofHtml html = .ok parts) :
    ofHtml (render parts) = .ok parts :=
  ofHtml_render_of_normal (normal_ofSegments read)

theorem ofHtml_render_references :
    ofHtml "R&amp D <b\t>&amp;lt; &#x27;9</b><b>&gt;</b><b/>!" =
        .ok [⟨"R& D ", false⟩, ⟨"&lt; '9>", true⟩, ⟨"!", false⟩] ∧
      ofHtml (render [⟨"R& D ", false⟩, ⟨"&lt; '9>", true⟩, ⟨"!", false⟩]) =
        .ok [⟨"R& D ", false⟩, ⟨"&lt; '9>", true⟩, ⟨"!", false⟩] := by
  have read : ofHtml "R&amp D <b\t>&amp;lt; &#x27;9</b><b>&gt;</b><b/>!" =
      .ok [⟨"R& D ", false⟩, ⟨"&lt; '9>", true⟩, ⟨"!", false⟩] := by with_unfolding_all rfl
  exact ⟨read, ofHtml_render read⟩

end EntityResolver.MatchText
