/-!
# File paths

A path is kept as the text that wrote it. Its `route` is what the text means: whether it starts at
the root, and the steps from there. Two spellings with one route (`a//b`, `a/./b` and `a/b/`) name
one place, and paths are ordered by their routes, so that `a/b` comes before `a-b`.
-/

namespace SchemaAtlas

/-- A path as it is written. -/
structure FilePath where
  text : String
deriving DecidableEq, Repr, Inhabited

namespace FilePath

/-- One step of a path. -/
inductive Step where
  /-- A dot, which is a step only at the very start of a path. -/
  | here
  | up
  | down (name : String)
deriving DecidableEq, Repr

/-- The steps that a path takes, from the root of the tree or from wherever one stands. -/
structure Route where
  rooted : Bool
  steps : List Step
deriving DecidableEq, Repr

/-- The pieces of a text between slashes. -/
def pieces : List Char → List (List Char)
  | [] => [[]]
  | c :: rest =>
    if c = '/' then [] :: pieces rest
    else match pieces rest with
      | first :: more => (c :: first) :: more
      | [] => [[c]]

/-- The step that a piece stands for behind the start of a path; empty pieces and dots stand for
none. -/
def Step.ofPiece? (piece : List Char) : Option Step :=
  if piece = [] ∨ piece = ['.'] then none
  else if piece = ['.', '.'] then some .up
  else some (.down (String.ofList piece))

/-- How a step is written. -/
def Step.text : Step → String
  | .here => "."
  | .up => ".."
  | .down name => name

/-- Whether the path starts at the root. -/
def isAbsolute (p : FilePath) : Bool :=
  p.text.toList.head? = some '/'

/-- The steps of a path. -/
def route (p : FilePath) : Route :=
  let all := pieces p.text.toList
  let start := if all.head? = some ['.'] then [Step.here] else []
  { rooted := p.isAbsolute, steps := start ++ all.filterMap Step.ofPiece? }

/-- Pieces with slashes between them. -/
def joinPieces : List (List Char) → List Char
  | [] => []
  | [piece] => piece
  | piece :: next :: more => piece ++ '/' :: joinPieces (next :: more)

/-- The plain spelling of a route. -/
def Route.toFilePath (r : Route) : FilePath :=
  let relative := joinPieces (r.steps.map fun step => step.text.toList)
  ⟨String.ofList (if r.rooted then '/' :: relative else relative)⟩

/-- Whether two paths have one route. -/
def same (p q : FilePath) : Bool :=
  p.route = q.route

/-- Whether one step comes before another: up before down, names in the order of their
characters. -/
def Step.le : Step → Step → Bool
  | .here, _ => true
  | _, .here => false
  | .up, _ => true
  | _, .up => false
  | .down a, .down b => decide (a ≤ b)

/-- Whether one list of steps comes before another, step by step. -/
def Step.listLe : List Step → List Step → Bool
  | [], _ => true
  | _ :: _, [] => false
  | a :: as, b :: bs => if a = b then Step.listLe as bs else a.le b

/-- The order of paths: by their routes, those from the root before the others, save that the
empty path comes first. -/
def le (p q : FilePath) : Bool :=
  match p.route, q.route with
  | ⟨false, []⟩, _ => true
  | _, ⟨false, []⟩ => false
  | ⟨true, _⟩, ⟨false, _⟩ => true
  | ⟨false, _⟩, ⟨true, _⟩ => false
  | ⟨_, a⟩, ⟨_, b⟩ => Step.listLe a b

/-- The path `q` as it reads from the directory `p`: a path from the root stands for itself, and
the empty path adds a final slash. -/
def join (p q : FilePath) : FilePath :=
  if q.isAbsolute then q
  else if p.text = "" || p.text.toList.getLast? = some '/' then ⟨p.text ++ q.text⟩
  else ⟨p.text ++ "/" ++ q.text⟩

/-- The directory that holds a path, and the empty path where there is none. -/
def directory (p : FilePath) : FilePath :=
  if p.route.steps.isEmpty then ⟨""⟩
  else Route.toFilePath { p.route with steps := p.route.steps.dropLast }

/-- The name of the file that a path ends in. -/
def fileName? (p : FilePath) : Option String :=
  match p.route.steps.getLast? with
  | some (.down name) => some name
  | _ => none

/-- What stands behind the last dot of the file name, unless that dot is its first character. -/
def extension? (p : FilePath) : Option String := do
  let name ← p.fileName?
  let reversed := name.toList.reverse
  let tail := reversed.takeWhile (· ≠ '.')
  let stem := reversed.drop (tail.length + 1)
  if stem.isEmpty then none else some (String.ofList tail.reverse)

/-- What is left of the pieces of a path behind those that make the given steps. -/
def piecesBehind? : List Step → List (List Char) → Option (List (List Char))
  | [], pieces => some pieces
  | _ :: _, [] => none
  | step :: steps, piece :: pieces =>
    match Step.ofPiece? piece with
    | none => piecesBehind? (step :: steps) pieces
    | some other => if other = step then piecesBehind? steps pieces else none

/-- Pieces without those at the start that stand for no step. -/
def dropIdle (pieces : List (List Char)) : List (List Char) :=
  pieces.dropWhile fun piece => (Step.ofPiece? piece).isNone

/-- A path from the root as it reads from a directory that it lies in, where its spelling is kept,
and the path itself where it does not lie there. -/
def relativeTo (p directory : FilePath) : FilePath :=
  if p.isAbsolute = directory.isAbsolute then
    match piecesBehind? directory.route.steps (pieces p.text.toList) with
    | some rest => ⟨String.ofList (joinPieces (dropIdle (dropIdle rest).reverse).reverse)⟩
    | none => p
  else p

end FilePath

end SchemaAtlas
