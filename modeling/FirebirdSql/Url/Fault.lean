/-!
The ways in which a text fails to be a URL.
-/

namespace FirebirdSql.Url

inductive Fault where
  | relativeWithoutBase
  | emptyHost
  | invalidPort
  | invalidIpv6
  | invalidDomainCharacter
  | invalidInternationalName
  deriving DecidableEq, Repr

def Fault.message : Fault → String
  | .relativeWithoutBase => "relative URL without a base"
  | .emptyHost => "empty host"
  | .invalidPort => "invalid port number"
  | .invalidIpv6 => "invalid IPv6 address"
  | .invalidDomainCharacter => "invalid domain character"
  | .invalidInternationalName => "invalid international domain name"

end FirebirdSql.Url
