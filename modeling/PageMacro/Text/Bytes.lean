/-!
# The bytes of a text

Some rules count or cut the UTF-8 bytes of a text, so a cut can fall inside a character. A byte
that belongs to no whole character is carried as one of the last 128 code points of the last
private plane, `U+10FF80` to `U+10FFFF`: `ofBytes` puts such characters in and `bytes` takes them
out again, so that `bytes (ofBytes bs) = bs`.
-/

namespace PageMacro.Text

/-- The character that carries a byte standing alone. -/
def strayByte (b : UInt8) : Char := Char.ofNat (0x10FF00 + b.toNat)

/-- The byte carried by a character, if it carries one. -/
def strayByte? (c : Char) : Option UInt8 :=
  if 0x10FF80 ≤ c.toNat && c.toNat ≤ 0x10FFFF then some (c.toNat - 0x10FF00).toUInt8 else none

/-- The bytes of one character. -/
def charBytes (c : Char) : List UInt8 :=
  match strayByte? c with
  | some b => [b]
  | none => String.utf8EncodeChar c

/-- The UTF-8 bytes of a text. -/
def bytes (s : String) : List UInt8 :=
  s.toList.flatMap charBytes

/-- How many bytes a text has. -/
def byteCount (s : String) : Nat :=
  s.toList.foldl (fun n c => n + if (strayByte? c).isSome then 1 else c.utf8Size) 0

private def isTail (b : UInt8) : Bool := 0x80 ≤ b && b ≤ 0xBF

private def scalar (n : Nat) : Char := Char.ofNat n

/-- Reads the whole characters of a byte sequence; a byte of none is carried alone. -/
def decode : List UInt8 → List Char
  | [] => []
  | a :: rest =>
    if a < 0x80 then scalar a.toNat :: decode rest
    else match rest with
      | b :: c :: d :: more =>
        if 0xF0 ≤ a && a ≤ 0xF4 && isTail b && isTail c && isTail d &&
            (a != 0xF0 || 0x90 ≤ b) && (a != 0xF4 || b ≤ 0x8F) then
          scalar ((a.toNat - 0xF0) * 262144 + (b.toNat - 0x80) * 4096 + (c.toNat - 0x80) * 64 +
            (d.toNat - 0x80)) :: decode more
        else if 0xE0 ≤ a && a ≤ 0xEF && isTail b && isTail c &&
            (a != 0xE0 || 0xA0 ≤ b) && (a != 0xED || b ≤ 0x9F) then
          scalar ((a.toNat - 0xE0) * 4096 + (b.toNat - 0x80) * 64 + (c.toNat - 0x80)) ::
            decode (d :: more)
        else if 0xC2 ≤ a && a ≤ 0xDF && isTail b then
          scalar ((a.toNat - 0xC0) * 64 + (b.toNat - 0x80)) :: decode (c :: d :: more)
        else strayByte a :: decode (b :: c :: d :: more)
      | [b, c] =>
        if 0xE0 ≤ a && a ≤ 0xEF && isTail b && isTail c &&
            (a != 0xE0 || 0xA0 ≤ b) && (a != 0xED || b ≤ 0x9F) then
          [scalar ((a.toNat - 0xE0) * 4096 + (b.toNat - 0x80) * 64 + (c.toNat - 0x80))]
        else if 0xC2 ≤ a && a ≤ 0xDF && isTail b then
          scalar ((a.toNat - 0xC0) * 64 + (b.toNat - 0x80)) :: decode [c]
        else strayByte a :: decode [b, c]
      | [b] =>
        if 0xC2 ≤ a && a ≤ 0xDF && isTail b then
          [scalar ((a.toNat - 0xC0) * 64 + (b.toNat - 0x80))]
        else strayByte a :: decode [b]
      | [] => [strayByte a]
termination_by bs => bs.length

/-- The text of a byte sequence. -/
def ofBytes (bs : List UInt8) : String :=
  String.ofList (decode bs)

/-- Whether every byte of the text belongs to a whole character. -/
def isWhole (s : String) : Bool :=
  s.toList.all fun c => (strayByte? c).isNone

/-- Two texts one after the other; halves of a character that meet become that character. -/
def append (a b : String) : String :=
  if isWhole a && isWhole b then a ++ b else ofBytes (bytes a ++ bytes b)

/-- The bytes from `start` up to `stop`, as text. -/
def byteSlice (s : String) (start stop : Nat) : String :=
  ofBytes (((bytes s).take stop).drop start)

/-- Two lower-case hexadecimal digits. -/
def hexByte (b : UInt8) : String :=
  let digit (n : Nat) : Char := Nat.digitChar n
  String.ofList [digit (b.toNat / 16), digit (b.toNat % 16)]

/-- The bytes of a text in hexadecimal. -/
def hex (bs : List UInt8) : String :=
  String.join (bs.map hexByte)

end PageMacro.Text
