/-!
# Settings files

The values of TOML documents. Numbers with a fraction and dates are told apart from other values
and not kept, since no setting is either.
-/

namespace SchemaAtlas

/-- A TOML value. -/
inductive Toml where
  | string (text : String)
  | integer (n : Int)
  | float
  | boolean (flag : Bool)
  | dateTime
  | array (items : List Toml)
  | table (entries : List (String × Toml))
deriving Inhabited

/-- A tree of tables while a document is read. A table that was only passed through by a header or
a dotted key is implicit, and one made by a dotted key is dotted. -/
inductive TomlTree where
  | value (value : Toml)
  | table (implicit dotted : Bool) (entries : List (String × TomlTree))
  /-- The tables of an array of tables; the last is the current one. -/
  | tables (elements : List TomlTree)

namespace TomlTree

mutual

/-- The value that a tree stands for. -/
def toToml : TomlTree → Toml
  | value v => v
  | table _ _ entries => .table (entriesToToml entries)
  | tables elements => .array (elementsToToml elements)

/-- The values that the entries of a table stand for. -/
def entriesToToml : List (String × TomlTree) → List (String × Toml)
  | [] => []
  | (key, tree) :: rest => (key, tree.toToml) :: entriesToToml rest

/-- The values that the elements of an array of tables stand for. -/
def elementsToToml : List TomlTree → List Toml
  | [] => []
  | tree :: rest => tree.toToml :: elementsToToml rest

end

/-- The entry of a key. -/
def lookup? (key : String) (entries : List (String × TomlTree)) : Option TomlTree :=
  (entries.find? (·.1 == key)).map Prod.snd

/-- Entries in which the tree of a key is replaced, or added at the end. -/
def setKey (key : String) (tree : TomlTree) : List (String × TomlTree) → List (String × TomlTree)
  | [] => [(key, tree)]
  | (k, t) :: rest => if k = key then (k, tree) :: rest else (k, t) :: setKey key tree rest

/-- Changes the table that a path of keys leads to. Tables that are missing on the way are made,
in an array of tables the way leads through its last one, and it leads through no value. A dotted
key does not lead through a table that has a header of its own. -/
def descend (byDots : Bool) (change : TomlTree → Option TomlTree) :
    List String → TomlTree → Option TomlTree
  | [], tree => change tree
  | key :: path, table implicit dotted entries => do
    let inner ← match lookup? key entries with
      | none => descend byDots change path (table true byDots [])
      | some (value _) => none
      | some (tables elements) => do
        let last ← descend byDots change path (← elements.getLast?)
        pure (tables (elements.dropLast ++ [last]))
      | some (table implicit' dotted' entries') =>
        if byDots && !implicit' then none
        else descend byDots change path (table implicit' dotted' entries')
    return table implicit dotted (setKey key inner entries)
  | _ :: _, _ => none

/-- Adds a key with its value to a table, at the end of a path of dots. No key is given twice, and
dots do not add to a table that was made by a header. -/
def addKey (path : List String) (key : String) (v : Toml) : TomlTree → Option TomlTree :=
  descend true (fun
    | table implicit dotted entries =>
      if dotted == path.isEmpty || (lookup? key entries).isSome then none
      else some (table implicit dotted (entries ++ [(key, value v)]))
    | _ => none) path

/-- Opens the table of a header: one that is new or was only passed through by other headers. -/
def openTable (path : List String) (key : String) : TomlTree → Option TomlTree :=
  descend false (fun
    | table implicit dotted entries =>
      match lookup? key entries with
      | none => some (table implicit dotted (entries ++ [(key, table false false [])]))
      | some (table true false inner) =>
        some (table implicit dotted (setKey key (table false false inner) entries))
      | some _ => none
    | _ => none) path

/-- Opens a further table of an array of tables. -/
def openElement (path : List String) (key : String) : TomlTree → Option TomlTree :=
  descend false (fun
    | table implicit dotted entries =>
      match lookup? key entries with
      | none => some (table implicit dotted (entries ++ [(key, tables [table false false []])]))
      | some (tables elements) =>
        let elements := elements ++ [table false false []]
        some (table implicit dotted (setKey key (tables elements) entries))
      | some _ => none
    | _ => none) path

/-- A table without entries. -/
def emptyTable : TomlTree :=
  table false false []

/-- The value of a table that is written in place, from its keys and values in order. -/
def ofPairs (pairs : List (List String × String × Toml)) : Option Toml :=
  (pairs.foldlM (fun tree (path, key, v) => addKey path key v tree) emptyTable).map toToml

end TomlTree

end SchemaAtlas
