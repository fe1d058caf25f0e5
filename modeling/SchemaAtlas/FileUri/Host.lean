import SchemaAtlas.DomainName.Basic
import SchemaAtlas.FileUri.Address
import SchemaAtlas.FileUri.Percent

/-!
# Hosts of URLs

A URL may name a host. Files are only read from the machine itself, which a URL names as `localhost`
or by naming no host, so hosts need not be told apart any further.
-/

namespace SchemaAtlas.FileUri

/-- The host of a URL. -/
inductive Host where
  | absent
  | thisMachine
  | another
deriving DecidableEq, Repr

namespace Host

/-- Whether files of the host can be read. -/
def isHere : Host → Bool
  | another => false
  | _ => true

/-- The host that is given in brackets by its address, behind the opening one. -/
def ofBracketed? (cs : List Char) : Option Host :=
  if cs.getLast? = some ']' && isLongAddress cs.dropLast then some another else none

/-- The host that has a name. -/
def ofDomainName? (name : DomainName) : Option Host :=
  if name = .empty then none
  else if name = .localhost then some thisMachine
  else if endsInNumber name.labels && !isAddress name.labels then none
  else some another

/-- The host in a URL whose scheme knows domain names. -/
def ofDomain? : List Char → Option Host
  | '[' :: rest => ofBracketed? rest
  | cs => ((decode? cs).bind DomainName.ofText?).bind ofDomainName?

/-- Whether a character cannot stand in a host of an unknown scheme. -/
def isForbidden (c : Char) : Bool :=
  c ∈ ['\x00', '\t', '\n', '\r', ' ', '#', '/', ':', '<', '>', '?', '@', '[', '\\', ']', '^', '|']

/-- The host in a URL of an unknown scheme, which is taken as it is written. -/
def ofOpaque? : List Char → Option Host
  | [] => some absent
  | '[' :: rest => ofBracketed? rest
  | cs =>
    if cs.any isForbidden then none
    else if cs = "localhost".toList then some thisMachine
    else some another

end Host

end SchemaAtlas.FileUri
