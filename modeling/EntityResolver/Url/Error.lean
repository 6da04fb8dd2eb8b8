/-!
Why a text is not a URL with a host.
-/

set_option autoImplicit false

namespace EntityResolver

inductive UrlError where
  | noScheme
  | noHost
  /-- There is room for a host and nothing in it. -/
  | emptyHost
  | badPortNumber
  | badIpv4
  | badIpv6
  /-- A domain name of a web address is malformed. -/
  | badDomain
  /-- The host under another scheme has a character that no host has. -/
  | badHostCharacter
  deriving DecidableEq, Repr

def UrlError.message : UrlError → String
  | .noScheme => "relative URL without a base"
  | .noHost => "URL must include a host"
  | .emptyHost => "empty host"
  | .badPortNumber => "invalid port number"
  | .badIpv4 => "invalid IPv4 address"
  | .badIpv6 => "invalid IPv6 address"
  | .badDomain => "invalid international domain name"
  | .badHostCharacter => "invalid domain character"

end EntityResolver
