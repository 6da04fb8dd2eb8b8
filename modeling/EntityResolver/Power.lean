/-!
Powers of two and of ten.
-/

set_option autoImplicit false

namespace EntityResolver

def twoTo (exponent : Nat) : Nat :=
  Nat.pow 2 exponent

def tenTo (exponent : Nat) : Nat :=
  Nat.pow 10 exponent

end EntityResolver
