import PageMacro.Text.Blank

/-!
# Cutting and joining text

Splitting at a separator keeps empty pieces, so joining the pieces with the separator gives the
text back. `cut` splits at the first occurrence only.
-/

namespace PageMacro.Text

/-- The pieces between the occurrences of `sep`; one empty piece for the empty text. -/
def splitAtChar (sep : Char) (s : String) : List String :=
  (s.toList.splitOn sep).map String.ofList

/-- The pieces joined by `sep`. -/
def join (sep : String) (pieces : List String) : String :=
  String.intercalate sep pieces

/-- What stands before and after the first `sep`, if there is one. -/
def cutChars (sep : Char) : List Char → Option (List Char × List Char)
  | [] => none
  | c :: rest =>
    if c == sep then some ([], rest)
    else (cutChars sep rest).map fun (before, after) => (c :: before, after)

/-- `cutChars` on texts. -/
def cut (sep : Char) (s : String) : Option (String × String) :=
  (cutChars sep s.toList).map fun (before, after) => (String.ofList before, String.ofList after)

/-- Whether `s` begins with `start`. -/
def beginsWith (start s : String) : Bool :=
  start.toList.isPrefixOf s.toList

/-- Whether `s` ends with `tail`. -/
def endsIn (tail s : String) : Bool :=
  tail.toList.isSuffixOf s.toList

/-- The rest of `s` after `start`; `s` itself if it does not begin so. -/
def withoutStart (start s : String) : String :=
  if beginsWith start s then String.ofList (s.toList.drop start.toList.length) else s

/-- The part of `s` before `tail`; `s` itself if it does not end so. -/
def withoutEnd (tail s : String) : String :=
  if endsIn tail s then
    String.ofList (s.toList.take (s.toList.length - tail.toList.length))
  else s

/-- Whether `part` occurs in `cs`. -/
def occursIn (part : List Char) : List Char → Bool
  | [] => part.isEmpty
  | c :: rest => part.isPrefixOf (c :: rest) || occursIn part rest

/-- Whether `part` occurs in `s`. -/
def contains (part s : String) : Bool :=
  occursIn part.toList s.toList

/-- Replaces every occurrence of the non-empty `old`, from the left, by `new`. The last argument
counts characters of an occurrence still to be skipped. -/
def replaceChars (old new : List Char) : List Char → Nat → List Char
  | [], _ => []
  | _ :: rest, skip + 1 => replaceChars old new rest skip
  | c :: rest, 0 =>
    if old.isPrefixOf (c :: rest) then new ++ replaceChars old new rest (old.length - 1)
    else c :: replaceChars old new rest 0

/-- Replaces every occurrence of the non-empty `old`, from the left, by `new`. -/
def replace (old new s : String) : String :=
  String.ofList (replaceChars old.toList new.toList s.toList 0)

/-- `n` copies of `s`. -/
def times (n : Nat) (s : String) : String :=
  String.join (List.replicate n s)

/-- Sorts names by their characters' code points. -/
def sortNames (names : List String) : List String :=
  names.mergeSort (fun a b => decide (a ≤ b))

end PageMacro.Text
