import EntityResolver.Selector.Basic

/-!
The text of a selector: its fields joined with `|`, the fields of a subselector in brackets behind
the name. Recursive entries are left out.
-/

set_option autoImplicit false

namespace EntityResolver.Selector

def renderField (name : String) (inner : List Char) : List Char :=
  if inner.isEmpty then name.toList else name.toList ++ '[' :: inner ++ [']']

def renderFields : Selector → List (List Char)
  | .empty => []
  | .nested name sub rest =>
      renderField name (['|'].intercalate (renderFields sub)) :: renderFields rest
  | .recursive _ rest => renderFields rest

def renderChars (selector : Selector) : List Char :=
  ['|'].intercalate (renderFields selector)

def render (selector : Selector) : String :=
  String.ofList selector.renderChars

end EntityResolver.Selector
