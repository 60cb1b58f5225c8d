import PageMacro.Text.Bytes
import PageMacro.Text.Printable

/-!
# Quoted text

Messages and debug output show a text between double quotes. Quotes and backslashes are escaped,
as is every character that is not printable: by a letter where there is one, else by its number.
-/

namespace PageMacro.Text

/-- A number in lower-case hexadecimal with at least `width` digits. -/
def hexPadded (width n : Nat) : List Char :=
  let digits := Nat.toDigits 16 n
  List.replicate (width - digits.length) '0' ++ digits

/-- How one character is written between the quotes. -/
def quotedChar (c : Char) : List Char :=
  match strayByte? c with
  | some b => '\\' :: 'x' :: hexPadded 2 b.toNat
  | none =>
    if c == '"' then ['\\', '"']
    else if c == '\\' then ['\\', '\\']
    else if isPrintable c then [c]
    else if c == '\x07' then ['\\', 'a']
    else if c == '\x08' then ['\\', 'b']
    else if c == '\x0c' then ['\\', 'f']
    else if c == '\n' then ['\\', 'n']
    else if c == '\r' then ['\\', 'r']
    else if c == '\t' then ['\\', 't']
    else if c == '\x0b' then ['\\', 'v']
    else if c.toNat < 0x20 || c.toNat == 0x7F then '\\' :: 'x' :: hexPadded 2 c.toNat
    else if c.toNat < 0x10000 then '\\' :: 'u' :: hexPadded 4 c.toNat
    else '\\' :: 'U' :: hexPadded 8 c.toNat

/-- The text between double quotes, with escapes. -/
def quoted (s : String) : String :=
  String.ofList ('"' :: s.toList.flatMap quotedChar ++ ['"'])

end PageMacro.Text
