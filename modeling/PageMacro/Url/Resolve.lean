import PageMacro.Url.Basic

/-!
# References

A reference is taken relative to a base location: what it does not say itself is taken from the
base, and its path starts at the last slash of the base's path. The parts `.` and `..` of the result
are walked.
-/

namespace PageMacro.Url

/-- The walk along a path, from the parts it has passed, the last one first. -/
def walkStep (done : List String) (part : String) : List String :=
  if part == "." then done
  else if part == ".." then done.drop 1
  else part :: done

/-- The path that parts lead to; it is rooted. -/
def walkPath (full : String) : String :=
  let parts := Text.splitAtChar '/' full
  let body := Text.join "/" (parts.foldl walkStep []).reverse
  let last := parts.getLast?
  let tail := if last == some "." || last == some ".." then "/" else ""
  let path := "/" ++ body ++ tail
  if Text.beginsWith "//" path then String.ofList (path.toList.drop 1) else path

/-- The path of a reference taken from the path of a base. -/
def joinPath (base reference : String) : String :=
  let full :=
    if reference.isEmpty then base
    else if Text.beginsWith "/" reference then reference
    else match cutLast '/' base with
      | some (front, _) => front ++ "/" ++ reference
      | none => reference
  if full.isEmpty then "" else walkPath full

/-- Sets the path from an encoded form that is known to be readable. -/
def withPath (u : Url) (raw : String) : Url := (u.withPath? raw).getD u

/-- The location that a reference without a scheme means at a base. -/
def resolve (base reference : Url) : Url :=
  let u := { reference with scheme := base.scheme }
  if !reference.host.isEmpty || reference.user.isSome then
    u.withPath (joinPath reference.pathText "")
  else
    let bare := reference.path.isEmpty && !reference.emptyQuery && reference.query.isEmpty
    let u := if bare then { u with query := base.query } else u
    let u :=
      if bare && reference.fragment.isEmpty then
        { u with fragment := base.fragment, rawFragment := base.rawFragment }
      else u
    { u with host := base.host, user := base.user }.withPath
      (joinPath base.pathText reference.pathText)

end PageMacro.Url
