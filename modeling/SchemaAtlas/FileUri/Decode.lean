import SchemaAtlas.FilePath.Basic
import SchemaAtlas.FileUri.Authority
import SchemaAtlas.FileUri.Segments

/-!
# Reading URIs as paths

`FileUri.toPath` reads a URI by the URL standard as far as a path can come of it: scheme, host,
and a path of segments in which dot segments are resolved. A path comes of every URL that has such
a path and whose host is empty or `localhost`; query and fragment are dropped.
-/

namespace SchemaAtlas.FileUri

/-- Why no path comes of a URI. -/
inductive Fault where
  /-- The text is no absolute URL. -/
  | invalid
  /-- The URL names a file of another host, or no file. -/
  | notAFile
  /-- The path is not text; `shown` has a replacement character for every piece that is not. -/
  | notText (shown : FilePath)
deriving DecidableEq, Repr

/-- The path with segments. -/
def pathOf (segments : List (List Char)) : Except Fault FilePath :=
  let bytes := pathBytes segments
  let path : FilePath := ⟨String.ofList (Text.decodeUtf8 bytes)⟩
  if Text.isUtf8 bytes then .ok path else .error (.notText path)

/-- The path with segments on a host. -/
def pathOn (host : Host) (segments : List (List Char)) : Except Fault FilePath :=
  if host.isHere then pathOf segments else .error .notAFile

/-! ## The parts of a URL -/

/-- The text of a URL without what surrounds it. -/
def trim (cs : List Char) : List Char :=
  let isOuter (c : Char) := c.toNat ≤ 0x20
  ((cs.dropWhile isOuter).reverse.dropWhile isOuter).reverse

/-- Text without the characters that are dropped. -/
def withoutBreaks (cs : List Char) : List Char :=
  cs.filter (!isBreak ·)

/-- The scheme of a URL, in small letters, and what follows its colon. -/
def scheme? (cs : List Char) : Option (String × List Char) :=
  let written := cs.takeWhile (· ≠ ':')
  let name := withoutBreaks written
  match name, cs.drop written.length with
  | first :: _, _ :: rest =>
    if first.isAlpha && name.all fun c => c.isAlphanum || c = '+' || c = '-' || c = '.' then
      some (String.ofList (name.map Char.toLower), rest)
    else none
  | _, _ => none

/-- The schemes other than `file` whose URLs always have a host and a path of segments. -/
def networkSchemes : List String :=
  ["http", "https", "ws", "wss", "ftp"]

/-- Whether a character parts segments in the schemes that are known. -/
def isEitherSlash (c : Char) : Bool :=
  c = '/' || c = '\\'

/-- Whether a character ends the path. -/
def endsPath (c : Char) : Bool :=
  c = '?' || c = '#'

/-- What follows the first character that is not dropped, if that is a slash. -/
def behindSlash? (isSlash : Char → Bool) (cs : List Char) : Option (List Char) :=
  match cs.dropWhile isBreak with
  | c :: rest => if isSlash c then some rest else none
  | [] => none

/-! ## URLs -/

/-- How the paths of files are read. -/
def PathRules.files : PathRules :=
  { isSlash := isEitherSlash, hasDrives := true }

/-- The path of a `file` URL behind the colon. Behind one slash it begins behind that slash, as it
does behind the slash that ends the name of another host. Behind an empty host and behind
`localhost` it begins with the slash. -/
def filePath (cs : List Char) : Except Fault FilePath :=
  match behindSlash? isEitherSlash cs with
  | none => pathOf (readPath .files cs).1
  | some behindOne =>
    match behindSlash? isEitherSlash behindOne with
    | none => pathOf (readPath .files behindOne).1
    | some behindTwo =>
      let written := behindTwo.takeWhile (!isEitherSlash ·)
      let name := withoutBreaks written
      -- a drive in the place of the host belongs to the path
      if name.isEmpty || isDrive name then pathOf (readPath .files behindTwo).1
      else match Host.ofDomain? name with
        | none => .error .invalid
        | some .another =>
          let (segments, replacesHost) := readPath .files (behindTwo.drop (written.length + 1))
          if replacesHost then pathOf segments else .error .notAFile
        | some _ => pathOf (readPath .files (behindTwo.drop written.length)).1

/-- The path of a URL of a network scheme behind the colon. -/
def networkPath (cs : List Char) : Except Fault FilePath :=
  let behind := (withoutBreaks cs).dropWhile isEitherSlash
  let authority := behind.takeWhile (!isEitherSlash ·)
  match readAuthority? Host.ofDomain? false authority with
  | none => .error .invalid
  | some (host, _) =>
    pathOn host (readPath (.plain isEitherSlash) (behind.drop (authority.length + 1))).1

/-- The path of a URL of an unknown scheme behind the colon. `isLast` says that no query or fragment
follows. -/
def otherPath (isLast : Bool) (cs : List Char) : Except Fault FilePath :=
  let read (cs : List Char) := (readPath (.plain (· == '/')) cs).1
  match withoutBreaks cs with
  | '/' :: '/' :: behind =>
    let authority := behind.takeWhile (· ≠ '/')
    let path := behind.drop authority.length
    match readAuthority? Host.ofOpaque? (isLast && path.isEmpty) authority with
    | none => .error .invalid
    | some (host, rest) =>
      match rest ++ path with
      | [] => .error .notAFile
      | '/' :: path => pathOn host (read path)
      | path => pathOn host (read path)
  | '/' :: path => pathOf (read path)
  | _ => .error .notAFile

/-- The path that a URI names. -/
def toPath (uri : String) : Except Fault FilePath :=
  match scheme? (trim uri.toList) with
  | none => .error .invalid
  | some (scheme, rest) =>
    let hierarchy := rest.takeWhile (!endsPath ·)
    if scheme = "file" then filePath hierarchy
    else if networkSchemes.contains scheme then networkPath hierarchy
    else otherPath (hierarchy.length = rest.length) hierarchy

end SchemaAtlas.FileUri
