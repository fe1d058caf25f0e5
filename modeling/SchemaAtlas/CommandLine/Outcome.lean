import SchemaAtlas.CommandLine.Arguments
import SchemaAtlas.Project.Workspace
import SchemaAtlas.Query.Operations

/-!
# How a command ends

A command writes its answer to one channel, and warnings and the report of a failure to another.
-/

namespace SchemaAtlas.CommandLine

/-- Why a command fails: what is said first, and what lies behind it, outermost first. -/
structure Failure where
  message : String
  causes : List String := []
deriving DecidableEq, Repr

/-- A text in which every line but the first is indented. -/
def indentLines (indent : Nat) (text : String) : String :=
  String.ofList (text.toList.flatMap fun c =>
    if c = '\n' then c :: List.replicate indent ' ' else [c])

/-- The report of a failure. Several causes are numbered. -/
def Failure.report (failure : Failure) : String :=
  "Error: " ++ failure.message ++ "\n" ++
    match failure.causes with
    | [] => ""
    | [cause] => "\nCaused by:\n    " ++ indentLines 4 cause ++ "\n"
    | causes => "\nCaused by:\n" ++ String.join (causes.zipIdx.map fun (cause, number) =>
        "    " ++ toString number ++ ": " ++ indentLines 7 cause ++ "\n")

/-- A project that cannot be opened. -/
def Failure.ofOpenError (e : OpenError) : Failure :=
  ⟨e.message, e.causes⟩

/-- A scan that fails. -/
def Failure.ofScanError (entry : FilePath) (e : ScanError) : Failure :=
  { message := "Failed to scan " ++ entry.text
    causes := e.message ::
      match e with
      | .unreadable _ reason => [reason]
      | _ => [] }

/-- A query that fails. -/
def Failure.ofQueryError (e : QueryError) : Failure :=
  ⟨e.message, e.causes⟩

/-- What a command leaves behind. -/
structure Outcome where
  /-- Zero for success, one for a failure, two for wrong arguments. -/
  status : Nat
  output : String
  messages : String
deriving DecidableEq, Repr

namespace Outcome

/-- A command that succeeds. -/
def success (output : String) : Outcome :=
  ⟨0, output, ""⟩

/-- A command that fails after some output. -/
def failure (output : String) (cause : Failure) : Outcome :=
  ⟨1, output, cause.report⟩

/-- A command that is given wrong arguments. -/
def misuse (e : UsageError) : Outcome :=
  ⟨2, "", "error: " ++ e.message ++ "\n"⟩

/-- An outcome with warnings ahead of its other messages. -/
def withWarnings (warnings : String) (outcome : Outcome) : Outcome :=
  { outcome with messages := warnings ++ outcome.messages }

/-- The outcome of a command that may fail before it has any. -/
def ofExcept : Except Failure Outcome → Outcome
  | .ok outcome => outcome
  | .error cause => failure "" cause

end Outcome

end SchemaAtlas.CommandLine
