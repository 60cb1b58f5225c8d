import PageMacro.Text.Bytes
import PageMacro.Text.Case
import PageMacro.Text.Pieces

/-!
# Masked values

A value whose name looks like that of a secret is shown by its first four bytes only.
-/

namespace PageMacro.Dotenv

/-- The words that make a name look like that of a secret. -/
def sensitiveWords : List String :=
  ["password", "secret", "key", "token", "auth", "api", "credential", "private", "access", "salt"]

/-- Whether a name looks like that of a secret. -/
def isSensitive (name : String) : Bool :=
  let name := Text.lower name
  sensitiveWords.any fun word => Text.contains word name

/-- The bytes of a secret that are shown. -/
def shownBytes : Nat := 4

/-- The value as it is shown. -/
def mask (name value : String) : String :=
  let count := Text.byteCount value
  if !isSensitive name then value
  else if count ≤ shownBytes then "***"
  else Text.append (Text.byteSlice value 0 shownBytes) (Text.times (count - shownBytes) "*")

end PageMacro.Dotenv
