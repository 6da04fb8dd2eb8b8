import EntityResolver.Text.Blank
import EntityResolver.Text.WordCharacter

/-!
Highlighted matches of a search.

The remote marks the matching runs of a text with `<b>` tags and writes some characters as entity
references. Reading gives the runs with their highlighting: none is empty, and neighbours differ
in highlighting.
-/

set_option autoImplicit false

namespace EntityResolver

structure MatchPart where
  text : String
  highlighted : Bool
  deriving DecidableEq, Repr

abbrev MatchText : Type := List MatchPart

namespace MatchText

inductive Fault where
  /-- An angle bracket belongs to no tag that may occur. -/
  | markup
  /-- A reference names no character that is known. -/
  | unsupportedEntity (reference : String)
  deriving DecidableEq, Repr

def Fault.message : Fault → String
  | .markup => "unexpected markup"
  | .unsupportedEntity reference => "unsupported HTML entity '" ++ reference ++ "'"

inductive Segment where
  /-- A maximal run outside of tags. -/
  | plain (text : List Char)
  /-- The text between `<b>` and `</b>`. -/
  | bold (text : List Char)
  /-- The tag `<b/>`. -/
  | emptyBold
  /-- An angle bracket that starts none of these. -/
  | stray
  deriving DecidableEq, Repr

def isPlain (c : Char) : Bool :=
  c != '<' && c != '>'

def afterWord? : List Char → List Char → Option (List Char)
  | [], rest => some rest
  | _ :: _, [] => none
  | c :: word, d :: rest => if c = d then afterWord? word rest else none

/-- What follows `opening`, white space and `closing`. -/
def afterTag? (opening closing text : List Char) : Option (List Char) :=
  (afterWord? opening text).bind fun rest => afterWord? closing (Text.trimStart rest)

def boldPair? (text : List Char) : Option (List Char × List Char) :=
  (afterTag? ['b'] ['>'] text).bind fun inner =>
    (afterTag? ['<', '/', 'b'] ['>'] (inner.dropWhile isPlain)).map fun rest =>
      (inner.takeWhile isPlain, rest)

def emptyBold? (text : List Char) : Option (List Char) :=
  afterTag? ['b'] ['/', '>'] text

theorem length_dropWhile_le {α : Type} (p : α → Bool) (text : List α) :
    (text.dropWhile p).length ≤ text.length := by
  induction text with
  | nil => simp
  | cons c rest inductionHypothesis =>
      by_cases hit : p c <;> simp [hit]
      omega

theorem length_le_of_afterWord? {word text rest : List Char}
    (found : afterWord? word text = some rest) : rest.length ≤ text.length := by
  fun_induction afterWord? word text with
  | case1 => simp_all
  | case2 => simp at found
  | case3 word d tail inductionHypothesis =>
      have := inductionHypothesis found
      simp only [List.length_cons]
      omega
  | case4 => simp at found

theorem length_le_of_afterTag? {opening closing text rest : List Char}
    (found : afterTag? opening closing text = some rest) : rest.length ≤ text.length := by
  obtain ⟨middle, opened, closed⟩ := Option.bind_eq_some_iff.1 found
  have first := length_le_of_afterWord? opened
  have second := length_le_of_afterWord? closed
  have blank := length_dropWhile_le Text.isBlank middle
  simp only [Text.trimStart] at second
  omega

theorem length_le_of_boldPair? {text inner rest : List Char}
    (found : boldPair? text = some (inner, rest)) : rest.length ≤ text.length := by
  obtain ⟨opened, first, found⟩ := Option.bind_eq_some_iff.1 found
  obtain ⟨closed, second, same⟩ := Option.map_eq_some_iff.1 found
  have behindOpening := length_le_of_afterTag? first
  have behindClosing := length_le_of_afterTag? second
  have plain := length_dropWhile_le isPlain opened
  cases same
  omega

def segments (text : List Char) : List Segment :=
  match text with
  | [] => []
  | c :: rest =>
      if isPlain c then
        .plain (c :: rest.takeWhile isPlain) :: segments (rest.dropWhile isPlain)
      else if c = '<' then
        match _pair : boldPair? rest with
        | some (inner, tail) => .bold inner :: segments tail
        | none =>
            match _tag : emptyBold? rest with
            | some tail => .emptyBold :: segments tail
            | none => [.stray]
      else [.stray]
termination_by text.length
decreasing_by
  · have := length_dropWhile_le isPlain rest
    simp only [List.length_cons]
    omega
  · have := length_le_of_boldPair? _pair
    simp only [List.length_cons]
    omega
  · have := length_le_of_afterTag? _tag
    simp only [List.length_cons]
    omega

inductive Reference where
  | name (word : List Char)
  | decimal (digits : List Char)
  | hexadecimal (digits : List Char)
  deriving DecidableEq, Repr

/-- The letter that announces hexadecimal digits. -/
def Reference.isHexMark (c : Char) : Bool :=
  c == 'x' || c == 'X'

/-- The reference that starts behind an ampersand, with the number of characters it takes. -/
def reference? (text : List Char) : Option (Reference × Nat) :=
  let word := text.takeWhile Text.isWord
  if !word.isEmpty then some (.name word, word.length)
  else
    match text with
    | '#' :: rest =>
        let digits := rest.takeWhile Text.isDigit
        if !digits.isEmpty then some (.decimal digits, digits.length + 1)
        else
          match rest with
          | c :: tail =>
              let digits := tail.takeWhile Text.isHexDigit
              if Reference.isHexMark c && !digits.isEmpty then
                some (.hexadecimal digits, digits.length + 2)
              else none
          | [] => none
    | _ => none

def charOf? (number : Nat) : Option Char :=
  if number < 0xd800 ∨ (0xdfff < number ∧ number < 0x110000) then some (Char.ofNat number) else none

/-- The character that a reference stands for. Decimal digits count only if they are ASCII. -/
def Reference.char? : Reference → Option Char
  | .name word =>
      match String.ofList word with
      | "quot" => some '"'
      | "apos" => some '\''
      | "amp" => some '&'
      | "lt" => some '<'
      | "gt" => some '>'
      | _ => none
  | .decimal digits =>
      if digits.all Text.isAsciiDigit then charOf? (Text.numberOf 10 digits) else none
  | .hexadecimal digits => charOf? (Text.numberOf 16 digits)

/-- Replaces references by their characters; the first `skipped` characters belong to the
reference before them. -/
def unescapeFrom : Nat → List Char → Except Fault (List Char)
  | _, [] => .ok []
  | skipped + 1, _ :: rest => unescapeFrom skipped rest
  | 0, c :: rest =>
      if c = '&' then
        match reference? rest with
        | none => (unescapeFrom 0 rest).map ('&' :: ·)
        | some (reference, length) =>
            let full := if rest[length]? = some ';' then length + 1 else length
            match reference.char? with
            | some decoded => (unescapeFrom full rest).map (decoded :: ·)
            | none => .error (.unsupportedEntity (String.ofList ('&' :: rest.take full)))
      else (unescapeFrom 0 rest).map (c :: ·)

def unescape (text : List Char) : Except Fault (List Char) :=
  unescapeFrom 0 text

/-- Puts a run in front of others: an empty one is dropped, and one of the same highlighting as
the next is joined to it. -/
def joinFront (text : List Char) (highlighted : Bool) (parts : MatchText) : MatchText :=
  if text.isEmpty then parts
  else
    match parts with
    | next :: rest =>
        if next.highlighted = highlighted then
          ⟨String.ofList text ++ next.text, highlighted⟩ :: rest
        else ⟨String.ofList text, highlighted⟩ :: next :: rest
    | [] => [⟨String.ofList text, highlighted⟩]

/-- The runs of segments. Of several faults the first counts. -/
def ofSegments : List Segment → Except Fault MatchText
  | [] => .ok []
  | .plain text :: rest => do
      let decoded ← unescape text
      return joinFront decoded false (← ofSegments rest)
  | .bold text :: rest => do
      let decoded ← unescape text
      return joinFront decoded true (← ofSegments rest)
  | .emptyBold :: rest => ofSegments rest
  | .stray :: _ => .error .markup

/-- Reads a text with `<b>` tags and entity references. -/
def ofHtml (html : String) : Except Fault MatchText :=
  ofSegments (segments html.toList)

def text (parts : MatchText) : String :=
  String.join (parts.map MatchPart.text)

/-- The text with one character replaced throughout. -/
def replaceChar (old : Char) (new : String) (text : List Char) : List Char :=
  text.flatMap fun c => if c = old then new.toList else [c]

/-- The text with references for the characters that mean something in markup. The ampersand comes
first, since all references begin with it. -/
def escaped (text : List Char) : List Char :=
  replaceChar '\'' "&#39;" (replaceChar '"' "&quot;" (replaceChar '>' "&gt;"
    (replaceChar '<' "&lt;" (replaceChar '&' "&amp;" text))))

inductive Escape where
  | none
  | html
  deriving DecidableEq, Repr

def Escape.apply : Escape → String → String
  | .none, text => text
  | .html, text => String.ofList (escaped text.toList)

/-- The text with highlighted runs between two marks. -/
def format (parts : MatchText) (start stop : String) (escape : Escape) : String :=
  String.join (parts.map fun part =>
    if part.highlighted then start ++ escape.apply part.text ++ stop else escape.apply part.text)

/-- The text in the form that `ofHtml` reads. -/
def render (parts : MatchText) : String :=
  format parts "<b>" "</b>" .html

end MatchText

end EntityResolver
