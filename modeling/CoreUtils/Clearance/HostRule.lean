import CoreUtils.Library.IpAddress
import CoreUtils.Library.Text

/-!
# Host names and host rules

`normalizeHost` brings the host of a request into the form in which `hostAllowed` compares it with
the rules of the proxy. Case folding and the translation of international names are functions of
the JavaScript runtime.
-/

namespace CoreUtils.Clearance

open Ip

/-- A host name, or a rule about host names. -/
abbrev Host := List Char

/-- What the proxy uses of the JavaScript runtime. -/
structure Runtime where
  toLowerCase : Host → Host
  domainToASCII : Host → Host

/-- Remove a dot at the end. -/
def dropTrailingDot (host : Host) : Host :=
  if host.getLast? = some '.' then host.dropLast else host

/-- The form in which host names are compared, or nothing for text that is no host. -/
def normalizeHost (runtime : Runtime) (host : Host) : Option Host :=
  let trimmed := dropTrailingDot (runtime.toLowerCase (Text.trim Text.isWhiteSpace host))
  let isBracketed := trimmed.head? == some '[' && trimmed.getLast? == some ']'
  let unbracketed := if isBracketed then trimmed.tail.dropLast else trimmed
  if unbracketed = [] ∨ '%' ∈ unbracketed ∨ '/' ∈ unbracketed ∨
      unbracketed.any Text.isWhiteSpace then none
  else if (isIP unbracketed).isSome then some unbracketed
  -- brackets are reserved for IP literals
  else if isBracketed then none
  else if ':' ∈ unbracketed ∨ '@' ∈ unbracketed then none
  else
    let ascii := runtime.domainToASCII unbracketed
    if ascii = [] ∨ '*' ∈ ascii then none else some ascii

/-- Whether some rule admits the host: a wildcard rule admits longer names with its suffix. -/
def hostAllowed (hostname : Host) (allowedHosts : List Host) : Bool :=
  allowedHosts.any fun rule ↦
    if ['*', '.'].isPrefixOf rule then
      let suffix := rule.drop 1
      suffix.isSuffixOf hostname && suffix.length < hostname.length
    else hostname == rule

end CoreUtils.Clearance
