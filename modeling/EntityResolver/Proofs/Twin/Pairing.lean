import EntityResolver.Proofs.Catalog.Spoken
import EntityResolver.Proofs.Run.History
import EntityResolver.Proofs.Run.Rounds
import EntityResolver.Proofs.Value.Matched

/-!
Runs in two languages, side by side.

They take the same steps, and nothing in their states differs but scalars that were read in one
language and in the other. A `Pairing` says what has to be known of the methods of the catalog for
that, and which failures a run may end with. With both languages the same it tells of one run alone.
-/

set_option autoImplicit false

namespace EntityResolver

/-- The failure is put down to a method of the catalog, and not to a response. -/
def ResolveError.BlamesMethod : ResolveError → Prop
  | .invalidMethod _ _ | .missingValue _ _ _ => True
  | _ => False

/-- If there is a failure, it is not put down to a method. -/
def Harmless {α : Type} (outcome : Except ResolveError α) : Prop :=
  ∀ error, outcome = .error error → ¬ error.BlamesMethod

def FieldValue.shape {ε : Type} (value : FieldValue ε) : FieldValue Unit :=
  value.mapEntities fun _ => ()

def Picker.Gives (field : Field) : Picker → FieldValue Unit → Prop
  | .scalar _ _, _ => False
  | .reference _, shape | .inline _ _, shape
  | .nested .single _ _ _ _ _ _, shape | .nested .ancestors _ _ _ _ _ _, shape =>
      ∃ entity?, shape = Run.oneEntity field entity?
  | .referenceList _, shape | .inlineList _ _, shape | .nested .list _ _ _ _ _ _, shape =>
      ∃ entities, shape = .list entities
  | .referenceMap _ _, shape | .nested .map _ _ _ _ _ _, shape => ∃ entities, shape = .map entities

def RunContext.inLang (context : RunContext) (lang : Lang) : RunContext :=
  { context with lang := lang }

def Hosts (arena : Array EntityRecord) (cls : ClassId) (entity : Handle) : Prop :=
  ∃ record, arena[entity.index]? = some record ∧ record.cls = cls

namespace Run

/-- What is known of the runs of a context in its own language and in another one.

Only failures that `permits` tells come up. `admits` bounds the selectors for the entities of each
class, and `trusts` says which pickers read a field of a class. Values of the field have shapes that
`holds` tells, their entities are of classes that `links` tells, and where the runs differ it is in
scalars that `apart` tells. -/
structure Pairing (context : RunContext) (other : Lang) where
  permits : ResolveError → Prop
  admits : ClassId → Selector → Prop
  trusts : ClassId → String → Picker → Prop
  holds : ClassId → String → FieldValue Unit → Prop
  apart : ClassId → String → Scalar → Scalar → Prop
  links : ClassId → String → ClassId → Prop
  permitted : ∀ {error : ResolveError}, ¬ error.BlamesMethod → permits error
  distinct : ∀ {cls selector}, admits cls selector → selector.Distinct
  projects : ∀ {cls selector} names, admits cls selector → admits cls (selector.project names)
  below : ∀ {cls selector name sub inner}, admits cls selector → (name, sub) ∈ selector.resolved →
    context.catalog.schema.Refers cls name inner → admits inner sub ∧
      (sub.isRecursive name = true → (∀ shape, holds cls name shape → holds inner name shape) ∧
        ∀ held, links cls name held → links inner name held)
  known : ∀ {cls name picker}, trusts cls name picker →
    context.catalog.schema.field? cls name = none → ∀ error, permits error
  refers : ∀ {cls name picker field}, trusts cls name picker →
    context.catalog.schema.field? cls name = some field → field.kind.target? = none →
      (∃ rule key, picker = .scalar rule key) ∨ ∀ error, permits error
  inside : ∀ {cls name picker inner innerName innerPicker}, trusts cls name picker →
    context.catalog.schema.Refers cls name inner →
    picker.inside.find? innerName = some innerPicker → trusts inner innerName innerPicker
  linked : ∀ {cls name picker inner}, trusts cls name picker →
    context.catalog.schema.Refers cls name inner → links cls name inner
  missing : ∀ {cls name picker}, trusts cls name picker → holds cls name .missing
  scalars : ∀ {cls name rule key raw one two}, trusts cls name (.scalar rule key) →
    rule.apply context.lang raw = .ok one → rule.apply other raw = .ok two →
      (two = one ∧ holds cls name (.scalar one)) ∨ apart cls name one two
  gives : ∀ {cls name picker field shape}, trusts cls name picker →
    context.catalog.schema.field? cls name = some field → picker.Gives field shape →
      holds cls name shape
  nulls : ∀ {cls name picker field}, trusts cls name picker →
    context.catalog.schema.field? cls name = some field →
      holds cls name (BatchGetter.nullValue field.kind).shape
  revives : ∀ {cls name field shape}, context.catalog.schema.field? cls name = some field →
    holds cls name shape → shape.entities ≠ [] → links cls name (field.kind.target?.getD cls)
  getters : ∀ {getter name picker}, getter ∈ context.catalog.getters →
    getter.pickers.find? name = some picker → trusts getter.cls name picker
  tables : ∀ {method : TableGetter}, .table method ∈ context.catalog.getters →
    (∀ error, permits error) ∧ ∀ name scalar, holds method.cls name (.scalar scalar)
  lists : ∀ {method name picker}, method ∈ context.catalog.lists →
    method.pickers.fields.find? name = some picker → trusts method.cls name picker
  currentUser : ∀ {method name picker}, context.catalog.currentUser = some method →
    method.pickers.fields.find? name = some picker → trusts method.cls name picker
  searches : ∀ {method : SearchMethod}, method ∈ context.catalog.searches → other = context.lang →
    (∀ error, method.itemField context.catalog.schema = .error error → permits error) ∧
      ∀ item field, method.itemField context.catalog.schema = .ok (item, field) →
        context.catalog.schema.field? item field.name = some field ∧
          trusts item field.name method.picker ∧
            ∀ scalar, holds item matchField (.scalar scalar)

namespace Pairing

variable {context : RunContext} {other : Lang} (pairing : Pairing context other)

inductive Alike {ε : Type} (cls : ClassId) (name : String) :
    FieldValue ε → FieldValue ε → Prop where
  | same {value : FieldValue ε} (holds : pairing.holds cls name value.shape) :
      Alike cls name value value
  | apart {one two : Scalar} (apart : pairing.apart cls name one two) :
      Alike cls name (.scalar one) (.scalar two)

/-- The entities of the value are known, and of classes that the field is linked to. -/
def Linked (arena : Array EntityRecord) (cls : ClassId) (name : String)
    (value : FieldValue Handle) : Prop :=
  ∀ entity ∈ value.entities, ∃ inner, pairing.links cls name inner ∧ Hosts arena inner entity

structure Suits (arena : Array EntityRecord) (cls : ClassId) (name : String)
    (value twin : FieldValue Handle) : Prop where
  alike : pairing.Alike cls name value twin
  linked : pairing.Linked arena cls name value

structure SameRecord (arena : Array EntityRecord) (record twin : EntityRecord) : Prop where
  cls : twin.cls = record.cls
  id : twin.id = record.id
  values : OrderedMap.Matched (pairing.Suits arena record.cls) record.values twin.values

structure SameEntry (entry twin : CachedValue) : Prop where
  cls : twin.cls = entry.cls
  id : twin.id = entry.id
  field : twin.field = entry.field
  alike : pairing.Alike entry.cls entry.field entry.value twin.value

structure Fine (arena : Array EntityRecord) (target : Target) : Prop where
  wellFormed : target.WellFormed
  admitted : pairing.admits target.cls target.selector
  known : Hosts arena target.cls target.entity

/-- What the field is selected with is admitted for the entities that it refers to, and if the field
is recursive, what suits it also suits the field of these entities. -/
def Selects (cls : ClassId) (name : String) (sub : Selector) : Prop :=
  ∀ inner, context.catalog.schema.Refers cls name inner → pairing.admits inner sub ∧
    (sub.isRecursive name = true →
      (∀ shape, pairing.holds cls name shape → pairing.holds inner name shape) ∧
        ∀ held, pairing.links cls name held → pairing.links inner name held)

/-- What the prerequisite begins is admitted. A search tells the remote the language. -/
def AdmitsBegun : Prerequisite → Prop
  | .list cls _ selector _ => pairing.admits cls selector
  | .search cls _ selector _ => other = context.lang ∧ ∀ method item field,
      context.catalog.searchMethod? cls = some method →
      method.itemField context.catalog.schema = .ok (item, field) →
        pairing.Selects item field.name selector

/-- Whatever is stored in an entity suits the field that it is stored for. -/
def Sound (arena : Array EntityRecord) : Prop :=
  ∀ (index : Nat) record, arena[index]? = some record →
    ∀ name value, (name, value) ∈ record.values →
    ∃ twin, pairing.Suits arena record.cls name value twin

structure Paired (states : RunState × RunState) : Prop where
  alike : ∃ arena cache events, states.2 =
    { states.1 with arena := arena, cache := cache, events := events }
  arena : ∀ index : Nat, Option.Rel (pairing.SameRecord states.1.arena) states.1.arena[index]?
    states.2.arena[index]?
  cache : List.Forall₂ pairing.SameEntry states.1.cache states.2.cache
  fine : ∀ target ∈ states.1.waiting, pairing.Fine states.1.arena target
  classed : RunState.Classed states.1.pools
  awaits : ∀ prerequisite ∈ states.1.prerequisites, pairing.AdmitsBegun prerequisite
  recorded : Recorded pairing.Sound [] states.1

structure Reaches (before after : RunState × RunState) : Prop where
  valid : pairing.Paired after
  later : ∀ cls entity, Hosts before.1.arena cls entity → Hosts after.1.arena cls entity

/-- Both steps end, with results as `good` says, or both fail in the same permitted way. -/
def Joins {α : Type} (before : RunState × RunState) (step twin : Run α)
    (good : α → α → RunState × RunState → Prop) : Prop :=
  match step context before.1, twin (context.inLang other) before.2 with
  | .ok one after, .ok two afterToo =>
      pairing.Reaches before (after, afterToo) ∧ good one two (after, afterToo)
  | .error one after, .error two afterToo =>
      two = one ∧ pairing.permits one ∧ pairing.Reaches before (after, afterToo)
  | _, _ => False

end Pairing

end Run

end EntityResolver
