/-!
# Marks for foreign text

Messages about faults inside an embedded format do not spell the fault out: a mark naming the
format stands in its place.
-/

namespace PageMacro

/-- The formats whose faults are reported by a mark. -/
inductive Format where
  | starlark | json | url | yaml | archives | eof
  deriving BEq, DecidableEq, Repr

/-- The name of a format. -/
def Format.name : Format → String
  | .starlark => "starlark"
  | .json => "json"
  | .url => "url"
  | .yaml => "yaml"
  | .archives => "archives"
  | .eof => "eof"

/-- The mark that stands for a fault. -/
def Format.mark (f : Format) : String := "<" ++ f.name ++ ">"

end PageMacro
