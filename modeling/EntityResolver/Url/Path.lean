import EntityResolver.Text.Basic
import EntityResolver.Url.Escape

/-!
Paths of URLs: segments between slashes, with the segments `.` and `..` walked.
-/

set_option autoImplicit false

namespace EntityResolver.Url.Path

/-- A text with escaped dots read as dots. -/
def plainDots : List Char → List Char
  | '%' :: '2' :: 'e' :: rest => '.' :: plainDots rest
  | '%' :: '2' :: 'E' :: rest => '.' :: plainDots rest
  | c :: rest => c :: plainDots rest
  | [] => []

/-- A letter and a colon or a bar name a drive. A path never leaves a drive. -/
def isDrive : List Char → Bool
  | [letter, mark] => Text.isAsciiLetter letter && (mark == ':' || mark == '|')
  | _ => false

/-- Takes back a segment, given the segments so far, the last one first. -/
def leave : List (List Char) → List (List Char)
  | [] => []
  | last :: earlier => if isDrive last then last :: earlier else earlier

/-- Walks segments, given those kept so far, the last one first. A path that ends in dots ends in a
slash. -/
def walk (kept : List (List Char)) : List (List Char) → List (List Char)
  | [] => kept.reverse
  | segment :: rest =>
      let close (kept : List (List Char)) := if rest.isEmpty then [] :: kept else kept
      match plainDots segment with
      | ['.'] => walk (close kept) rest
      | ['.', '.'] => walk (close (leave kept)) rest
      | _ => walk (segment :: kept) rest

/-- The segments of a path that starts with a slash, the slash already read. -/
def segments (text : List Char) : List (List Char) :=
  walk [] (Text.splitOn '/' text)

def render (segments : List (List Char)) : String :=
  String.ofList ('/' :: ['/'].intercalate (segments.map (escape pathEscapes)))

end EntityResolver.Url.Path
