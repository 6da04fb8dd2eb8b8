import EntityResolver.MatchText
import EntityResolver.PackedId

/-!
Why a value cannot be read or taken.
-/

set_option autoImplicit false

namespace EntityResolver

inductive ValueError where
  | fieldNotLoaded (cls field : String)
  | invalidPackedId (id : String) (fault : PackedId.Fault)
  | invalidMatchText (text : String) (fault : MatchText.Fault)
  deriving DecidableEq, Repr

def ValueError.message : ValueError → String
  | .fieldNotLoaded cls field => "field '" ++ field ++ "' of " ++ cls ++ " entity was not loaded"
  | .invalidPackedId id fault => "invalid packed id '" ++ id ++ "': " ++ fault.message
  | .invalidMatchText text fault => "invalid match string '" ++ text ++ "': " ++ fault.message

/-- The parts of a packed id, as many as `expected` when that is given. -/
def unpackId (id : String) (expected : Option Nat) : Except ValueError (List String) :=
  (PackedId.unpack id expected).mapError (ValueError.invalidPackedId id)

def readMatchText (html : String) : Except ValueError MatchText :=
  (MatchText.ofHtml html).mapError (ValueError.invalidMatchText html)

end EntityResolver
