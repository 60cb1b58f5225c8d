import PageMacro.Text.Pieces

/-!
# Paths

A path is a text of parts between slashes. Cleaning a path walks its parts: an empty part or `.`
stays where it is and `..` goes up, which at the root stays there and otherwise is kept if there is
nothing to go up from.
-/

namespace PageMacro.Path

/-- The parts between the slashes. -/
def parts (path : String) : List String := Text.splitAtChar '/' path

/-- Whether a path starts at the root. -/
def isAbsolute (path : String) : Bool := Text.beginsWith "/" path

/-- One part of a walk; the place is given by the parts down to it, the last one first. -/
def step (rooted : Bool) (place : List String) (part : String) : List String :=
  if part == "" || part == "." then place
  else if part == ".." then
    match place with
    | [] => if rooted then [] else [".."]
    | top :: rest => if top == ".." then ".." :: place else rest
  else part :: place

/-- The parts of the place that a path leads to. -/
def walk (path : String) : List String :=
  ((parts path).foldl (step (isAbsolute path)) []).reverse

/-- The shortest path to the same place. -/
def clean (path : String) : String :=
  let body := Text.join "/" (walk path)
  if isAbsolute path then "/" ++ body else if body.isEmpty then "." else body

/-- A path below another, cleaned; an empty one is left out. -/
def join (base path : String) : String :=
  if base.isEmpty then if path.isEmpty then "" else clean path
  else if path.isEmpty then clean base
  else clean (base ++ "/" ++ path)

/-- The directory that a path is in. -/
def directory (path : String) : String :=
  clean (Text.join "/" (parts path).dropLast ++ if isAbsolute path then "/" else "")

/-- The last part of a path. -/
def base (path : String) : String :=
  if path.isEmpty then "."
  else
    match ((parts path).filter (!·.isEmpty)).getLast? with
    | some name => name
    | none => "/"

/-- The path from the root, for a path taken from a directory. -/
def absolute (here path : String) : String :=
  if isAbsolute path then clean path else join here path

/-- The name under which a member of an archive is extracted: a clean path that stays below the
directory it is extracted to. Backslashes count as slashes. -/
def member? (name : String) : Option String :=
  let path := clean (Text.replace "\\" "/" name)
  if isAbsolute path || path == ".." || Text.beginsWith "../" path then none else some path

end PageMacro.Path
