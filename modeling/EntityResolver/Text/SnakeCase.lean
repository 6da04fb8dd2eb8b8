import EntityResolver.Text.LetterCase

/-!
Names in snake case: the words of a name in lower case, joined by `_`.

Words consist of alphanumeric characters. Inside such a run a new word starts at an upper-case
letter behind a word part whose last cased letter is lower-case, and at the last upper-case letter
of a row of them when a lower-case letter follows.
-/

set_option autoImplicit false

namespace EntityResolver.Text

inductive WordMode where
  | uncased
  | lower
  | upper
  deriving DecidableEq, Repr

def WordMode.after (mode : WordMode) (c : Char) : WordMode :=
  if isLower c then .lower else if isUpper c then .upper else mode

/-- Splits a run of alphanumeric characters into words. `word` is the current word so far, last
character first. -/
def splitWords (mode : WordMode) (word : List Char) : List Char → List (List Char)
  | [] => if word.isEmpty then [] else [word.reverse]
  | [c] => [(c :: word).reverse]
  | c :: next :: rest =>
      if mode.after c = .lower ∧ isUpper next then
        (c :: word).reverse :: splitWords .uncased [] (next :: rest)
      else if mode = .upper ∧ isUpper c ∧ isLower next then
        word.reverse :: splitWords .uncased [c] (next :: rest)
      else
        splitWords (mode.after c) (c :: word) (next :: rest)

def alphanumericRuns : List Char → List (List Char)
  | [] => [[]]
  | c :: rest =>
      match alphanumericRuns rest with
      | [] => []
      | run :: runs => if isAlphanumeric c then (c :: run) :: runs else [] :: run :: runs

/-- A word in lower case; a sigma at its end takes its final form. -/
def lowerWord : List Char → List Char
  | [] => []
  | [c] => if c = 'Σ' then ['ς'] else lowerChars c
  | c :: rest => lowerChars c ++ lowerWord rest

def snakeCase (name : String) : String :=
  "_".intercalate
    (((alphanumericRuns name.toList).flatMap (splitWords .uncased [])).map fun word =>
      String.ofList (lowerWord word))

end EntityResolver.Text
