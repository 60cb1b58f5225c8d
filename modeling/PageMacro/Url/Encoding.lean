import PageMacro.Text.Bytes
import PageMacro.Text.Pieces

/-!
# Percent encoding

Every part of a location has its own set of characters that stand for themselves; any other byte is
written as a percent sign and two hexadecimal digits. Decoding accepts a few characters more than
encoding writes.
-/

namespace PageMacro.Url

/-- The parts of a location that are encoded differently. -/
inductive Part where
  | path | host | zone | user | query | fragment
  deriving BEq, DecidableEq, Repr

/-- Punctuation that may stand in a host. -/
def hostPunctuation : List Char :=
  ['!', '$', '&', '\'', '(', ')', '*', '+', ',', ';', '=', ':', '[', ']', '<', '>', '"']

/-- Punctuation with a meaning of its own in some part of a location. -/
def reserved : List Char := ['$', '&', '+', ',', '/', ':', ';', '=', '?', '@']

/-- Whether a character stands for itself in a part. -/
def plain (part : Part) (c : Char) : Bool :=
  if c.isAlphanum then true
  else if (part == .host || part == .zone) && hostPunctuation.contains c then true
  else if ['-', '_', '.', '~'].contains c then true
  else if reserved.contains c then
    match part with
    | .path => c != '?'
    | .user => !(['@', '/', '?', ':'].contains c)
    | .fragment => true
    | _ => false
  else part == .fragment && ['!', '(', ')', '*'].contains c

/-- A byte as a percent sign and two hexadecimal digits. -/
def percent (b : UInt8) : List Char :=
  let digit (n : Nat) : Char := (Nat.digitChar n).toUpper
  ['%', digit (b.toNat / 16), digit (b.toNat % 16)]

/-- How one character is written. -/
def escapeChar (part : Part) (c : Char) : List Char :=
  if plain part c then [c]
  else if part == .query && c == ' ' then ['+']
  else (Text.charBytes c).flatMap percent

/-- The encoded form of a text. -/
def escape (part : Part) (s : String) : String :=
  String.ofList (s.toList.flatMap (escapeChar part))

/-- The value of a hexadecimal digit. -/
def hexValue? (c : Char) : Option Nat :=
  if c.isDigit then some (c.toNat - '0'.toNat)
  else if 'a' ≤ c && c ≤ 'f' then some (c.toNat - 'a'.toNat + 10)
  else if 'A' ≤ c && c ≤ 'F' then some (c.toNat - 'A'.toNat + 10)
  else none

/-- Whether an encoded byte may stand in a part: a host encodes no character that could stand
there, and a zone only those. -/
def allowsByte (part : Part) (byte : Nat) : Bool :=
  match part with
  | .host => byte == 0x25 || 0x80 ≤ byte
  | .zone => byte == 0x25 || byte == 0x20 || (byte < 0x80 && plain .host (Char.ofNat byte))
  | _ => true

/-- Whether a character that is not encoded may stand in a part. -/
def allowsChar (part : Part) (c : Char) : Bool :=
  !(part == .host || part == .zone) || 0x80 ≤ c.toNat || plain part c

/-- The bytes that an encoded text stands for. -/
def unescapeBytes? (part : Part) : List Char → Option (List UInt8)
  | [] => some []
  | '%' :: high :: low :: rest => do
    let high ← hexValue? high
    let low ← hexValue? low
    let byte := high * 16 + low
    if allowsByte part byte then
      let bytes ← unescapeBytes? part rest
      return byte.toUInt8 :: bytes
    else none
  | c :: rest => do
    if c == '%' || !allowsChar part c then none
    else
      let bytes ← unescapeBytes? part rest
      return (if part == .query && c == '+' then [0x20] else Text.charBytes c) ++ bytes

/-- The text that an encoded text stands for. -/
def unescape? (part : Part) (s : String) : Option String :=
  (unescapeBytes? part s.toList).map Text.ofBytes

/-- Whether an encoded text may be kept as it was written. -/
def keepsForm (part : Part) (s : String) : Bool :=
  s.toList.all fun c =>
    ['!', '$', '&', '\'', '(', ')', '*', '+', ',', ';', '=', ':', '@', '[', ']', '%'].contains c ||
      plain part c

end PageMacro.Url
