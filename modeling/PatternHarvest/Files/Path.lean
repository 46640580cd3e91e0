/-!
# Paths

A path is kept as it was given, for it is shown in messages as it was given. What it leads to
depends on its segments alone: the texts between the slashes that are not empty, whether it starts
with a slash, and whether it ends with one.
-/

namespace PatternHarvest.Files.Path

/-- The texts between slashes. -/
def split : List Char → List (List Char)
  | [] => [[]]
  | c :: s =>
    if c = '/' then [] :: split s
    else
      match split s with
      | [] => [[c]]
      | p :: ps => (c :: p) :: ps

/-- The segments of a path: the texts between its slashes, without the empty ones. -/
def segments (path : String) : List String :=
  ((split path.toList).filter (· ≠ [])).map String.ofList

/-- Whether a path starts at the root. -/
def isAbsolute (path : String) : Bool :=
  path.toList.head? == some '/'

/-- Whether a path ends with a slash, and so leads to a directory if anywhere. -/
def endsInSlash (path : String) : Bool :=
  path.toList.getLast? == some '/'

/-- The steps that a path takes: its segments, and one that stays in place if it ends with a
slash, for only a directory can be stayed in. -/
def steps (path : String) : List String :=
  segments path ++ if endsInSlash path then ["."] else []

/-- A name below a path; a slash goes between them unless the path ends with one. -/
def join (path name : String) : String :=
  if endsInSlash path then path ++ name else path ++ "/" ++ name

/-- The name of the file at a path: its last segment, one that stays in place aside. A path that
ends by going up has none, and stands for itself. -/
def fileName (path : String) : String :=
  match (segments path).reverse.dropWhile (· = ".") with
  | name :: _ => if name = ".." then path else name
  | [] => path

/-- Whether a file name ends with a point and the extension. -/
def hasExtension (extension name : String) : Bool :=
  ('.' :: extension.toList).isSuffixOf name.toList

end PatternHarvest.Files.Path
