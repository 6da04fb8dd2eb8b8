import EntityResolver.Run.Load

/-!
Calls that start a run: lists, searches and the current user.
-/

set_option autoImplicit false

namespace EntityResolver

def walk (path : String) : List ListStep → Json → Except ResolveError (List Json)
  | [], value => .ok [value]
  | .key key :: rest, value =>
      match value.member? key with
      | some inner => walk path rest inner
      | none => .error (.malformed path (.missingListKey key))
  | .each :: rest, value =>
      match value with
      | .object members => walkAll (walk path rest) (members.map Prod.snd)
      | .array items => walkAll (walk path rest) items
      | .null => .ok []
      | _ => .error (.malformed path .notCollection)
where
  /-- The documents that a way leads to from each of some values. -/
  walkAll (way : Json → Except ResolveError (List Json)) :
      List Json → Except ResolveError (List Json)
    | [] => .ok []
    | value :: rest => do
        let found ← way value
        let others ← walkAll way rest
        return found ++ others

def ListMethod.execute (method : ListMethod) (selector : Selector) : Run (List Handle) := do
  let response ← Run.callOrFail method.path (method.params selector)
  let items ← ofExcept (walk method.path method.steps response)
  Run.loadEntities
    (fun item => method.pickers.load method.path method.cls item selector) items

namespace SearchMethod

def loadItems (method : SearchMethod) (item : ClassId) (field : Field) (selector : Selector) :
    List Json → Run (List Handle)
  | [] => pure []
  | response :: rest => do
      let found ← method.picker.load method.path field response selector
      match (response.member? matchField).bind Json.asText? with
      | none => throw (.malformed method.path .noSearchMatch)
      | some html =>
          let highlight ← ofExcept (liftError .value (readMatchText html))
          let values : FieldValues :=
            OrderedMap.ofEntries
              [(field.name, found), (matchField, .scalar (.matchText highlight))]
          let handle ← Run.alloc item (some "") values
          let handles ← method.loadItems item field selector rest
          return handle :: handles

def execute (method : SearchMethod) (query : String) (selector : Selector) :
    Run (List Handle) := do
  let (item, field) ← ofExcept (method.itemField (← Run.schema))
  let params := method.params query (← read).lang.code selector
  let response ← Run.callOrFail method.path params
  match (response.member? "items").bind Json.asItems? with
  | none => throw (.malformed method.path .noSearchItems)
  | some items => method.loadItems item field selector items

end SearchMethod

def CurrentUserMethod.load (method : CurrentUserMethod) (selector : Selector) : Run Handle := do
  let response ← Run.callOrFail method.path (method.params selector)
  match ← method.pickers.load method.path method.cls response selector with
  | some user => return user
  | none => throw (.malformed method.path .noCurrentUser)

namespace Run

def setOutput (slot : Nat) (entities : List Handle) : Run Unit :=
  modify fun state => { state with outputs := state.outputs.modify slot fun _ => entities }

def satisfy : Prerequisite → Run Unit
  | .list cls domain selector slot => do
      match (← read).catalog.listMethod? cls domain with
      | none => throw (.noListMethod (← className cls) domain)
      | some method => setOutput slot (← method.execute selector)
  | .search cls query selector slot => do
      match (← read).catalog.searchMethod? cls with
      | none => throw (.noSearchMethod (← className cls))
      | some method => setOutput slot (← method.execute query selector)

def satisfyAll : List Prerequisite → Run Unit
  | [] => pure ()
  | prerequisite :: rest => do
      satisfy prerequisite
      satisfyAll rest

end Run

end EntityResolver
