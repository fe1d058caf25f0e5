import SchemaAtlas.FileUri.Host

/-!
# Authorities of URLs

The part of a URL behind two slashes: a user, a host and the number of a service.
-/

namespace SchemaAtlas.FileUri

/-- The user and what follows, if a sign parts them. The last such sign counts. -/
def splitUser? (authority : List Char) : Option (List Char × List Char) :=
  if authority.contains '@' then
    let behind := (authority.reverse.takeWhile (· ≠ '@')).reverse
    some (authority.take (authority.length - behind.length - 1), behind)
  else none

/-- The host and what follows it: a colon outside brackets ends it. -/
def splitHost (bracketed : Bool) : List Char → List Char × List Char
  | [] => ([], [])
  | c :: rest =>
    if c = ':' && !bracketed then ([], c :: rest)
    else
      let (host, behind) := splitHost (c = '[' || (c ≠ ']' && bracketed)) rest
      (c :: host, behind)

/-- What follows the number of a service, if it is one. It may follow a backslash, where it belongs
to the path. -/
def behindService? (cs : List Char) : Option (List Char) :=
  match cs with
  | ':' :: rest =>
    let digits := rest.takeWhile Char.isDigit
    let behind := rest.drop digits.length
    if numberInBase 10 digits < 0x10000 && (behind.isEmpty || behind.head? = some '\\') then
      some behind
    else none
  | _ => some cs

/-- The host of an authority, with what is left of it for the path. `isLast` says whether the URL
ends behind the authority. A user or a service needs a host. -/
def readAuthority? (host? : List Char → Option Host) (isLast : Bool) (authority : List Char) :
    Option (Host × List Char) := do
  let (user, behindUser) := (splitUser? authority).getD ([':'], authority)
  if user.isEmpty && behindUser.isEmpty && !isLast then none
  let (name, behind) := splitHost false behindUser
  let host ← host? name
  if host = .absent && (behind.head? = some ':' || !(user.isEmpty || user = [':'])) then none
  return (host, ← behindService? behind)

end SchemaAtlas.FileUri
