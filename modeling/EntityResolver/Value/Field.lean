import EntityResolver.OrderedMap
import EntityResolver.Value.Scalar

/-!
Values of fields, for any way `ε` of referring to entities: by handle while a run works on them, by
id in its cache, and as trees in its result.
-/

set_option autoImplicit false

namespace EntityResolver

inductive FieldValue (ε : Type) where
  /-- The response did not carry the field, and need not. -/
  | missing
  | scalar (value : Scalar)
  | entity (entity : ε)
  | optional (entity : Option ε)
  | list (entities : List ε)
  | map (entities : List (String × ε))

namespace FieldValue

variable {ε τ : Type}

def isMissing : FieldValue ε → Bool
  | .missing => true
  | _ => false

def asScalar? : FieldValue ε → Option Scalar
  | .scalar value => some value
  | _ => none

def asText? (value : FieldValue ε) : Option String :=
  value.asScalar?.bind Scalar.asText?

def asEntity? : FieldValue ε → Option ε
  | .entity one => some one
  | .optional one => one
  | _ => none

def asList? : FieldValue ε → Option (List ε)
  | .list entities => some entities
  | _ => none

def asMap? : FieldValue ε → Option (OrderedMap ε)
  | .map entities => some entities
  | _ => none

def entities : FieldValue ε → List ε
  | .missing | .scalar _ => []
  | .entity one => [one]
  | .optional one => one.toList
  | .list entities => entities
  | .map entities => entities.map Prod.snd

/-- Replaces every entity, in order, and keeps the shape of the value. -/
def mapEntities (f : ε → τ) : FieldValue ε → FieldValue τ
  | .missing => .missing
  | .scalar value => .scalar value
  | .entity one => .entity (f one)
  | .optional one => .optional (one.map f)
  | .list entities => .list (entities.map f)
  | .map entities => .map (entities.map fun (key, one) => (key, f one))

/-- Replaces every entity, in order, by actions that may fail or change a state. -/
def traverseEntities {m : Type → Type} [Monad m] (f : ε → m τ) : FieldValue ε → m (FieldValue τ)
  | .missing => pure .missing
  | .scalar value => pure (.scalar value)
  | .entity one => return .entity (← f one)
  | .optional none => pure (.optional none)
  | .optional (some one) => return .optional (some (← f one))
  | .list entities => return .list (← entities.mapM f)
  | .map entities =>
      return .map (← entities.mapM fun (key, one) => do return (key, ← f one))

end FieldValue

end EntityResolver
