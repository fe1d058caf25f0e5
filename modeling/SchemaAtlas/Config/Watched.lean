import SchemaAtlas.Config.Basic
import SchemaAtlas.Text.LowerCase

/-!
# Which files matter

A change of a file matters if its extension is one of the watched ones and no pattern excludes its
path. A pattern that ends in a slash excludes what lies in directories of that name, a pattern
that starts with `*.` what ends in the rest of it, and any other what it occurs in.
-/

namespace SchemaAtlas

/-- A text without the slashes at its end. -/
def withoutSlashes (cs : List Char) : List Char :=
  (cs.reverse.dropWhile (· = '/')).reverse

/-- Whether a pattern excludes a path. -/
def matchesPattern (path pattern : List Char) : Bool :=
  if pattern.getLast? = some '/' then
    pattern.isPrefixOf path || Text.contains path ('/' :: withoutSlashes pattern ++ ['/'])
  else if pattern.take 2 = ['*', '.'] then (pattern.drop 1).isSuffixOf path
  else Text.contains path pattern

namespace Config

/-- Whether one of the patterns excludes a path. -/
def isExcludedPath (config : Config) (path : String) : Bool :=
  config.excluded.any fun pattern => matchesPattern path.toList pattern.toList

/-- Whether a change of the file with a path matters. -/
def isWatched (config : Config) (path : String) : Bool :=
  !config.isExcludedPath path &&
    ((FilePath.mk path).extension?.any fun extension => config.watchedExtensions.contains extension)

end Config

end SchemaAtlas
