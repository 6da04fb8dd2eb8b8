import EntityResolver.Decimal.Reader
import EntityResolver.Run.Spawn

/-!
Reading fields out of responses. Entities that a field refers to are spawned together with the
values that the response holds for them.
-/

set_option autoImplicit false

namespace EntityResolver

def Json.isFalsy : Json → Bool
  | .null => true
  | .bool flag => !flag
  | .int value => value == 0
  | .float value => value.isZero
  | .str text => text.isEmpty
  | .array items => items.isEmpty
  | .object members => members.isEmpty

def Json.toDouble? : Json → Option Binary64
  | .str text => Decimal.read? text
  | other => other.asDouble?

/-- The text of a dictionary by language: that of the language wanted, or else the Polish one.
Empty texts do not count. -/
def pickByLang (lang : Lang) (texts : Json) : String :=
  let text? (code : String) : Option String :=
    ((texts.member? code).bind Json.asText?).filter fun text => !text.isEmpty
  ((text? lang.code).or (text? Lang.pl.code)).getD ""

/-- A link to a profile page with the language added. -/
def tagProfileUrl (lang : Lang) (url : String) : String :=
  url ++ (if url.toList.contains '?' then "&" else "?") ++
    (match lang with
      | .pl => "lang=1"
      | .en => "lang=2")

def ScalarRule.apply (rule : ScalarRule) (lang : Lang) (value : Json) : Except Wanted Scalar :=
  match rule with
  | .raw => .ok (.ofJson value)
  | .url => .ok (if value.isFalsy then .null else .ofJson value)
  | .profileUrl =>
      let link :=
        match value with
        | .array items => items.headD .null
        | other => other
      match link with
      | .null => .ok .null
      | .str text => .ok (if text.isEmpty then .null else .str (tagProfileUrl lang text))
      | _ => .error .profileUrl
  | .decimal =>
      match value with
      | .null => .ok .null
      | .str text =>
          if text.isEmpty || text == "None" then .ok .null
          else
            match Decimal.read? (Text.trim text) with
            | some number => .ok (.decimal number)
            | none => .error .decimal
      | .int number => .ok (.decimal (.ofInt number))
      | .float number => .ok (.decimal number)
      | _ => .error .decimal
  | .date =>
      match value with
      | .null => .ok .null
      | .str text =>
          if text.isEmpty then .ok .null
          else
            match Calendar.Date.read? text with
            | some day => .ok (.date day)
            | none => .error .dateText
      | _ => .error .date
  | .dateTime =>
      match value with
      | .null => .ok .null
      | .str text =>
          if text.isEmpty then .ok .null
          else
            match Calendar.DateTime.read? text with
            | some moment => .ok (.dateTime moment)
            | none => .error .dateTimeText
      | _ => .error .dateTime
  | .byLang =>
      match value with
      | .null => .ok .null
      | .object _ => .ok (.str (pickByLang lang value))
      | _ => .error .textByLang
  | .coords =>
      match value with
      | .null => .ok .null
      | .object _ =>
          let coordinate? (name : String) : Option Binary64 :=
            (value.member? name).bind Json.toDouble?
          match coordinate? "lat", coordinate? "long" with
          | some lat, some long => .ok (.coords ⟨lat, long⟩)
          | _, _ => .error .coordinates
      | _ => .error .coordinates
  | .mapping pairs isOpen =>
      match pairs.find? fun pair => pair.1.same value with
      | some pair => .ok (.ofJson pair.2)
      | none => if isOpen then .ok (.ofJson value) else .error .mapped

namespace Run

/-- The items under a key; null holds none. -/
def itemsOf (path key : String) : Json → Except ResolveError (List Json)
  | .null => .ok []
  | .array items => .ok items
  | _ => .error (.malformed path (.notList key))

/-- The members under a key; null holds none. -/
def membersOf (path key : String) : Json → Except ResolveError (List (String × Json))
  | .null => .ok []
  | .object members => .ok members
  | _ => .error (.malformed path (.notObject key))

/-- What a field is worth whose key the response lacks. -/
def missingKey (path : String) (field : Field) (key : String) :
    Except ResolveError (FieldValue Handle) :=
  if field.isVariant then .ok .missing
  else .error (.malformed path (.missingKey key field.name))

def oneEntity {ε : Type} (field : Field) (entity : Option ε) : FieldValue ε :=
  match field.kind, entity with
  | .entity _, some entity => .entity entity
  | _, entity => .optional entity

@[simp] theorem entities_oneEntity {ε : Type} (field : Field) (entity : Option ε) :
    (oneEntity field entity).entities = entity.toList := by
  unfold oneEntity
  split <;> rfl

/-- An object with the values of the response around it copied under other keys. -/
def liftInto (lifts : List (String × String)) (response : Json) : Json → Json
  | .object members =>
      .object (lifts.foldl (fun members (field, lifted) =>
        match response.member? field with
        | some value => Json.setMember lifted value members
        | none => members) members)
  | item => item

/-- Reads one field of a class out of a response, for a field selected with `sub`; there is no
value where the field has no picker. -/
abbrev LoadField : Type :=
  ClassId → Json → String → Selector → Run (Option (FieldValue Handle))

def loadSelected (loadField : LoadField) (cls : ClassId) (response : Json) :
    List (String × Selector) → Run FieldValues
  | [] => pure []
  | (name, sub) :: rest => do
      let value? ← loadField cls response name sub
      let values ← loadSelected loadField cls response rest
      return match value? with
        | some value => (name, value) :: values
        | none => values

def loadValues (loadField : LoadField) (cls : ClassId) (response : Json) (selector : Selector) :
    Run FieldValues :=
  loadSelected loadField cls response selector.resolved

def loadEntity (path : String) (id : IdSpec) (loadField : LoadField) (cls : ClassId)
    (response : Json) (selector : Selector) : Run (Option Handle) := do
  match ← ofExcept (id.load path response) with
  | none => return none
  | some id =>
      let values ← loadValues loadField cls response selector
      return some (← spawn cls id selector values false)

/-- Spawns the entities of a row of responses that are not null. -/
def loadEntities (loadOne : Json → Run (Option Handle)) : List Json → Run (List Handle)
  | [] => pure []
  | item :: rest => do
      let entity? ← if item.isNull then pure none else loadOne item
      let entities ← loadEntities loadOne rest
      return match entity? with
        | some entity => entity :: entities
        | none => entities

def loadMembers (loadOne : Json → Run (Option Handle)) :
    List (String × Json) → Run (List (String × Handle))
  | [] => pure []
  | (key, item) :: rest => do
      let entity? ← if item.isNull then pure none else loadOne item
      let entities ← loadMembers loadOne rest
      return match entity? with
        | some entity => (key, entity) :: entities
        | none => entities

def spawnAll (cls : ClassId) (sub : Selector) : List String → Run (List Handle)
  | [] => pure []
  | id :: rest => do
      let entity ← spawn cls id sub [] false
      let entities ← spawnAll cls sub rest
      return entity :: entities

/-- Spawns entities known by id alone, each under a key. Of several with one key the last counts. -/
def spawnMap (cls : ClassId) (sub : Selector) (built : OrderedMap Handle) :
    List (String × String) → Run (OrderedMap Handle)
  | [] => pure built
  | (key, id) :: rest => do
      let entity ← spawn cls id sub [] false
      spawnMap cls sub (built.set key entity) rest

structure ListPlan where
  path : String
  key : String
  id : IdSpec
  lifts : List (String × String)
  unique : Bool
  field : Field
  /-- The class of the items. -/
  cls : ClassId
  sub : Selector

/-- Reads the items of a list in order. An item whose id is null, or has been seen if the list is
`unique`, is left out. If the field is recursive, an item that carries the key of the list again
has the entities of its own list for that field, read by `below`. -/
def loadItems (plan : ListPlan) (loadField : LoadField) (below : Json → Run (List Handle))
    (response : Json) : List String → List Json → Run (List Handle)
  | _, [] => pure []
  | seen, item :: rest => do
      let item := liftInto plan.lifts response item
      match ← ofExcept (plan.id.load plan.path item) with
      | none => loadItems plan loadField below response seen rest
      | some id =>
          if plan.unique && seen.contains id then
            loadItems plan loadField below response seen rest
          else
            let values ← loadValues loadField plan.cls item plan.sub
            let values ←
              if plan.sub.isRecursive plan.field.name && (item.member? plan.key).isSome then do
                let children ← below item
                pure (values.set plan.field.name (.list children))
              else pure values
            let entity ← spawn plan.cls id plan.sub values false
            let entities ← loadItems plan loadField below response (id :: seen) rest
            return entity :: entities

/-- Reads the list under the key of a response; a response without the key holds none. `depth` is
how often lists may be nested. -/
def loadList (plan : ListPlan) (loadField : LoadField) : Nat → Json → Run (List Handle)
  | 0, _ => throw (.malformed plan.path (.endlessList plan.key))
  | depth + 1, response =>
      match response.member? plan.key with
      | none => pure []
      | some value => do
          let items ← ofExcept (itemsOf plan.path plan.key value)
          loadItems plan loadField (loadList plan loadField depth) response [] items

/-- How often lists can be nested in a response if they come to an end. Whether an item has a list
again depends on what it has under the key and under those that are lifted: nothing, or a document
inside the response. If an item is in that like one around it, there is no end. -/
def ListPlan.depthIn (plan : ListPlan) (response : Json) : Nat :=
  Nat.pow (response.documents.length + 1) (plan.lifts.length + 1) + 1

/-- Reads the ancestors of an entity, the farthest first, each referring to the one before it, and
gives the nearest one. Items whose id is null are left out. -/
def loadAncestors (plan : ListPlan) (loadField : LoadField) (response : Json) :
    Option Handle → List Json → Run (Option Handle)
  | nearest, [] => pure nearest
  | nearest, item :: rest => do
      let item := liftInto plan.lifts response item
      match ← ofExcept (plan.id.load plan.path item) with
      | none => loadAncestors plan loadField response nearest rest
      | some id =>
          let values ← loadValues loadField plan.cls item plan.sub
          let values := values.set plan.field.name (oneEntity plan.field nearest)
          let entity ← spawn plan.cls id plan.sub values false
          loadAncestors plan loadField response (some entity) rest

/-- Reads a field of nested entities out of the value under its key. -/
def loadNested (shape : NestedShape) (plan : ListPlan) (loadField : LoadField)
    (response value : Json) : Run (FieldValue Handle) := do
  let loadOne (item : Json) : Run (Option Handle) :=
    loadEntity plan.path plan.id loadField plan.cls (liftInto plan.lifts response item) plan.sub
  match shape with
  | .single =>
      if value.isNull then return oneEntity plan.field none
      else return oneEntity plan.field (← loadOne value)
  | .map =>
      let members ← ofExcept (membersOf plan.path plan.key value)
      return .map (← loadMembers loadOne members)
  | .list => return .list (← loadList plan loadField (plan.depthIn response) response)
  | .ancestors =>
      let items ← ofExcept (itemsOf plan.path plan.key value)
      if plan.sub.isRecursive plan.field.name then
        return oneEntity plan.field (← loadAncestors plan loadField response none items)
      else
        match items.getLast? with
        | none => return oneEntity plan.field none
        | some last => return oneEntity plan.field (← loadOne last)

def withKey (path : String) (field : Field) (key : String) (response : Json)
    (load : Json → Run (FieldValue Handle)) : Run (FieldValue Handle) :=
  match response.member? key with
  | none => ofExcept (missingKey path field key)
  | some value => load value

end Run

open Run

mutual

/-- Reads a field out of a response, for a field selected with `sub`. -/
def Picker.load (path : String) :
    Picker → Field → Json → Selector → Run (FieldValue Handle)
  | .scalar rule key, field, response, _ =>
      withKey path field key response fun value => do
        match rule.apply (← read).lang value with
        | .ok scalar => return .scalar scalar
        | .error wanted => throw (.malformed path (.badValue wanted value.render))
  | .reference id, field, response, sub => do
      let cls ← ofExcept (field.target path)
      match ← ofExcept (id.load path response) with
      | none => return oneEntity field none
      | some id => return oneEntity field (some (← spawn cls id sub [] false))
  | .referenceList key, field, response, sub =>
      withKey path field key response fun value => do
        let cls ← ofExcept (field.target path)
        let items ← ofExcept (itemsOf path key value)
        return .list (← spawnAll cls sub (items.map idText))
  | .referenceMap key flipped, field, response, sub =>
      withKey path field key response fun value => do
        let cls ← ofExcept (field.target path)
        let members ← ofExcept (membersOf path key value)
        let entries := members.map fun (name, id) =>
          if flipped then (idText id, name) else (name, idText id)
        return .map (← spawnMap cls sub [] entries)
  | .inline id fields, field, response, sub => do
      let cls ← ofExcept (field.target path)
      let entity ← loadEntity path id
        (fun cls response name sub => fields.loadField path cls response name sub) cls response sub
      return oneEntity field entity
  | .inlineList id fields, field, response, sub => do
      let cls ← ofExcept (field.target path)
      let items ←
        match response with
        | .object members => pure (members.map Prod.snd)
        | .array items => pure items
        | _ => throw (.malformed path (.noMembers field.name))
      let entities ← loadEntities (fun item =>
        loadEntity path id
          (fun cls response name sub => fields.loadField path cls response name sub) cls item sub)
        items
      return .list entities
  | .nested shape key id fields _ lifts unique, field, response, sub =>
      withKey path field key response fun value => do
        let cls ← ofExcept (field.target path)
        loadNested shape { path, key, id, lifts, unique, field, cls, sub }
          (fun cls response name sub => fields.loadField path cls response name sub) response value

/-- Reads one field of a class out of a response; there is no value where it has no picker. -/
def FieldPickers.loadField (path : String) :
    FieldPickers → ClassId → Json → String → Selector → Run (Option (FieldValue Handle))
  | .none, _, _, _, _ => pure Option.none
  | .field name picker rest, cls, response, wanted, sub =>
      if name = wanted then do
        let schema ← schema
        match schema.field? cls wanted with
        | Option.none => throw (.invalidMethod path (.unknownField (schema.className cls) wanted))
        | some field => return some (← picker.load path field response sub)
      else rest.loadField path cls response wanted sub

end

def FieldPickers.load (fields : FieldPickers) (path : String) (cls : ClassId) (response : Json)
    (selector : Selector) : Run FieldValues :=
  loadValues (fields.loadField path) cls response selector

/-- Spawns the entity that a response describes, if its id is not null. -/
def EntityPickers.load (pickers : EntityPickers) (path : String) (cls : ClassId) (response : Json)
    (selector : Selector) : Run (Option Handle) :=
  loadEntity path pickers.id (pickers.fields.loadField path) cls response selector

end EntityResolver
