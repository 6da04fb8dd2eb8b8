import EntityResolver.Lang
import EntityResolver.Remote.Basic
import EntityResolver.Schema.Basic
import EntityResolver.Selector.Parser
import EntityResolver.Value.Error

/-!
Why entities cannot be resolved.
-/

set_option autoImplicit false

namespace EntityResolver

inductive Wanted where
  | profileUrl
  | decimal
  | date
  | dateText
  | dateTime
  | dateTimeText
  | textByLang
  | coordinates
  | mapped
  deriving DecidableEq, Repr

def Wanted.message : Wanted → String
  | .profileUrl => "expected a profile url"
  | .decimal => "expected a decimal"
  | .date => "expected a date"
  | .dateText => "expected a YYYY-MM-DD date"
  | .dateTime => "expected a date time"
  | .dateTimeText => "expected a YYYY-MM-DD HH:MM:SS date time"
  | .textByLang => "expected a translated string"
  | .coordinates => "expected coordinates"
  | .mapped => "unmapped value"

inductive Malformation where
  | missingKey (key field : String)
  | missingIdKey (key : String)
  | missingListKey (key : String)
  | notList (key : String)
  | notObject (key : String)
  /-- A list of entities is neither an object nor a list. -/
  | notCollection
  /-- A field is read from something that is neither an object nor a list. -/
  | noMembers (field : String)
  /-- A value, given by its text, is of another sort than wanted. -/
  | badValue (wanted : Wanted) (value : String)
  | batchNotKeyed
  | batchNotListed
  | noSearchItems
  | noSearchMatch
  | noCurrentUser
  /-- Reading would go on for ever: what is lifted into the items of a list gives each of them such
  a list again. -/
  | endlessList (key : String)
  deriving DecidableEq, Repr

def Malformation.message : Malformation → String
  | .missingKey key field => "missing key '" ++ key ++ "' for field '" ++ field ++ "'"
  | .missingIdKey key => "missing id key '" ++ key ++ "'"
  | .missingListKey key => "missing list key '" ++ key ++ "'"
  | .notList key => "key '" ++ key ++ "' should hold a list"
  | .notObject key => "key '" ++ key ++ "' should hold an object"
  | .notCollection => "expected an object or a list"
  | .noMembers field => "field '" ++ field ++ "' needs an object or a list"
  | .badValue wanted value => wanted.message ++ ": " ++ value
  | .batchNotKeyed => "batch response should be an object keyed by id"
  | .batchNotListed => "batch response should be a list of records"
  | .noSearchItems => "missing 'items' list"
  | .noSearchMatch => "search item without 'match'"
  | .noCurrentUser => "current user has no id"
  | .endlessList key => "lists under key '" ++ key ++ "' never end"

inductive MethodFault where
  | suppliesNothing
  | unknownField (cls field : String)
  | kindMismatch (field : String) (kind : FieldKind ClassId)
  | notEntityField (field : String)
  | repeatedDomain (domain : String)
  | repeatedSearch
  | repeatedCurrentUser
  | emptyListPath
  | notSearchable (cls : String)
  | noFoundField (cls : String)
  deriving DecidableEq, Repr

def MethodFault.message : MethodFault → String
  | .suppliesNothing => "supplies no fields"
  | .unknownField cls field => cls ++ " has no field '" ++ field ++ "'"
  | .kindMismatch field kind =>
      "picker of field '" ++ field ++ "' does not match its kind " ++ kind.label
  | .notEntityField field => "field '" ++ field ++ "' is not an entity field"
  | .repeatedDomain domain => "domain '" ++ domain ++ "' already has a list method"
  | .repeatedSearch => "class already has a search method"
  | .repeatedCurrentUser => "current user method already registered"
  | .emptyListPath => "empty list path"
  | .notSearchable cls => cls ++ " is not searchable"
  | .noFoundField cls => cls ++ " has no entity field"

inductive GlobalMethod where
  | currentUser
  | serverTime
  deriving DecidableEq, Repr

def GlobalMethod.label : GlobalMethod → String
  | .currentUser => "current user"
  | .serverTime => "server time"

inductive ResolveError where
  | selector (error : Selector.TextError)
  | remote (failure : RemoteFailure)
  | schema (error : SchemaError)
  | value (error : ValueError)
  | entityNotFound (cls id : String)
  | noApplicableMethod (cls : String) (fields : List String)
  | noListMethod (cls domain : String)
  | noSearchMethod (cls : String)
  | missingMethod (method : GlobalMethod)
  | malformed (path : String) (malformation : Malformation)
  | missingValue (method field id : String)
  | invalidMethod (method : String) (fault : MethodFault)
  | unknownLanguage (code : String)
  /-- A run was still not done after as many rounds as it was allowed. -/
  | tooManyRounds (limit : Nat)
  deriving DecidableEq, Repr

def ResolveError.message : ResolveError → String
  | .selector error => error.message
  | .remote failure => failure.message
  | .schema error => error.message
  | .value error => error.message
  | .entityNotFound cls id => cls ++ " entity with id '" ++ id ++ "' not found"
  | .noApplicableMethod cls fields =>
      "No fetch method supplies fields " ++ Text.quotedList fields ++ " of " ++ cls
  | .noListMethod cls domain => "No list method for " ++ cls ++ " in domain '" ++ domain ++ "'"
  | .noSearchMethod cls => "No search method for " ++ cls
  | .missingMethod method => "Catalog has no " ++ method.label ++ " method"
  | .malformed path malformation =>
      "Malformed response from " ++ path ++ ": " ++ malformation.message
  | .missingValue method field id =>
      method ++ " did not return field '" ++ field ++ "' for id '" ++ id ++ "'"
  | .invalidMethod method fault => "Invalid fetch method " ++ method ++ ": " ++ fault.message
  | .unknownLanguage code => "Unknown language code '" ++ code ++ "'"
  | .tooManyRounds limit => "No result after " ++ toString limit ++ " rounds"

/-- A part of a computation that fails in a way of its own. -/
def liftError {ε α : Type} (wrap : ε → ResolveError) : Except ε α → Except ResolveError α
  | .ok value => .ok value
  | .error error => .error (wrap error)

@[simp] theorem liftError_eq_ok_iff {ε α : Type} {wrap : ε → ResolveError} {outcome : Except ε α}
    {value : α} : liftError wrap outcome = .ok value ↔ outcome = .ok value := by
  cases outcome <;> simp [liftError]

def Lang.ofCode (code : String) : Except ResolveError Lang :=
  match Lang.ofCode? code with
  | some lang => .ok lang
  | none => .error (.unknownLanguage code)

end EntityResolver
