import SchemaAtlas.FileUri.Address
import SchemaAtlas.FileUri.Percent

/-!
# Paths of URLs

A path is a list of segments between slashes. Segments of one dot are dropped, and segments of two
dots take back the one before, unless it names a drive: a letter with a colon or a bar.
-/

namespace SchemaAtlas.FileUri

/-- Whether a character is dropped wherever it stands. -/
def isBreak (c : Char) : Bool :=
  c = '\t' || c = '\n' || c = '\r'

/-- Whether a text is a drive letter with a colon or bar. -/
def isDrive : List Char → Bool
  | [letter, c] => letter.isAlpha && (c = ':' || c = '|')
  | _ => false

/-- Whether a segment names a drive, alone or before a backslash. -/
def namesDrive (segment : List Char) : Bool :=
  isDrive (segment.take 2) && (segment.drop 2).head?.all (· = '\\')

/-- Whether a segment is a dot, perhaps percent-encoded. -/
def isDot (segment : List Char) : Bool :=
  decodeBytes segment = ['.'.toNat]

/-- Whether a segment is two dots, perhaps percent-encoded. -/
def isDoubleDot (segment : List Char) : Bool :=
  decodeBytes segment = ['.'.toNat, '.'.toNat]

/-- How the paths of a scheme are read. -/
structure PathRules where
  isSlash : Char → Bool
  /-- Whether a drive can come first. A bar behind its letter becomes a colon, and the drive takes
  the place of the host. -/
  hasDrives : Bool

/-- The path of a scheme that knows no drives. -/
def PathRules.plain (isSlash : Char → Bool) : PathRules :=
  { isSlash, hasDrives := false }

/-- What has been read of a path. -/
structure PathSoFar where
  /-- The segments, last first. -/
  segments : List (List Char) := []
  /-- Whether a first drive has taken the place of the host. -/
  replacesHost : Bool := false

/-- A drive with a colon and what is parted from it by a dropped character. -/
def splitDrive? (segment : List Char) : Option (List Char × List Char) :=
  match segment.dropWhile isBreak with
  | letter :: rest =>
    match rest.dropWhile isBreak with
    | ':' :: c :: more =>
      let behind := more.filter (!isBreak ·)
      if letter.isAlpha && isBreak c && !behind.isEmpty then some ([letter, ':'], behind) else none
    | _ => none
  | [] => none

namespace PathSoFar

/-- A path behind which a segment has been taken back. -/
def back (path : PathSoFar) : PathSoFar :=
  match path.segments with
  | [] => path
  | last :: before => if namesDrive last then path else { path with segments := before }

/-- A path with a further segment that is no dot segment. -/
def push (rules : PathRules) (path : PathSoFar) (segment : List Char) : PathSoFar :=
  if rules.hasDrives && path.segments.isEmpty && isDrive segment then
    { segments := [segment.take 1 ++ [':']], replacesHost := true }
  else { path with segments := segment :: path.segments }

/-- A path with a further segment as it is written. Behind a first drive a dropped character parts
segments as a slash does. -/
def next (rules : PathRules) (path : PathSoFar) (isLast : Bool) (written : List Char) : PathSoFar :=
  match if rules.hasDrives && path.segments.isEmpty then splitDrive? written else none with
  | some (drive, behind) => { path with segments := [behind, drive] }
  | none =>
    let segment := written.filter (!isBreak ·)
    let close (path : PathSoFar) :=
      if isLast then { path with segments := [] :: path.segments } else path
    if isDoubleDot segment then close path.back
    else if isDot segment then close path
    else path.push rules segment

/-- Reads the segments of a path. -/
def read (rules : PathRules) (path : PathSoFar) : List (List Char) → PathSoFar
  | [] => path
  | segment :: rest => read rules (path.next rules rest.isEmpty segment) rest

end PathSoFar

/-- The segments of the path that a text writes, and whether its drive takes the place of the host.
A path with drives has no empty segments in front: they are dropped at the end, so that a drive
behind a leading slash is no first segment. -/
def readPath (rules : PathRules) (cs : List Char) : List (List Char) × Bool :=
  let path := PathSoFar.read rules {} (splitAtEach rules.isSlash cs)
  let segments := path.segments.reverse
  let kept := segments.dropWhile List.isEmpty
  (if !rules.hasDrives then segments else if kept.isEmpty then [[]] else kept, path.replacesHost)

/-- The text of the path with segments, as bytes. A path that ends in a drive gets a slash behind
it. -/
def pathBytes (segments : List (List Char)) : List Nat :=
  let bytes := segments.flatMap fun segment => '/'.toNat :: decodeBytes segment
  let endsInDrive := isDrive ((bytes.drop (bytes.length - 2)).map Char.ofNat)
  if bytes.length > 2 && endsInDrive then bytes ++ ['/'.toNat] else bytes

end SchemaAtlas.FileUri
