/-!
# UTF-8

Files and the output of tools are lists of bytes.  `Utf8.encode` writes a text as bytes,
`Utf8.decode?` reads bytes that are valid, and `Utf8.decodeLossy` reads any bytes: what is not valid
becomes the replacement character, one for every maximal part that could begin a character.
-/

namespace Drydock

/-- The contents of a file, or what a tool prints. -/
abbrev Bytes := List UInt8

namespace Text.Utf8

/-- The bytes of a text. -/
def encode (s : String) : Bytes := s.toByteArray.data.toList

/-- The text of valid bytes. -/
def decode? (bytes : Bytes) : Option String := String.fromUTF8? ⟨bytes.toArray⟩

/-- Reading what was written gives the text back. -/
theorem decode?_encode (s : String) : decode? (encode s) = some s := by
  have valid : ByteArray.IsValidUTF8 ⟨s.toByteArray.data⟩ := s.isValidUTF8
  simp only [decode?, encode, String.fromUTF8?, Array.toArray_toList]
  exact dif_pos valid

/-- The replacement character. -/
def replacement : Char := '\ufffd'

/-- Whether a byte continues a character. -/
def continues (b : UInt8) : Bool := 0x80 ≤ b && b ≤ 0xbf

/-- How a character of several bytes begins: how many bytes follow the first one, the bits that the
first one carries, and the range of the second one, which excludes overlong forms, surrogates and
code points that are too large. -/
structure Lead where
  follow : Nat
  bits : Nat
  low : UInt8
  high : UInt8

/-- The form of a character by its first byte. -/
def lead? (b : UInt8) : Option Lead :=
  let n := b.toNat
  if 0xc2 ≤ n ∧ n ≤ 0xdf then some ⟨1, n % 32, 0x80, 0xbf⟩
  else if n = 0xe0 then some ⟨2, 0, 0xa0, 0xbf⟩
  else if n = 0xed then some ⟨2, 13, 0x80, 0x9f⟩
  else if 0xe1 ≤ n ∧ n ≤ 0xef then some ⟨2, n % 16, 0x80, 0xbf⟩
  else if n = 0xf0 then some ⟨3, 0, 0x90, 0xbf⟩
  else if 0xf1 ≤ n ∧ n ≤ 0xf3 then some ⟨3, n % 8, 0x80, 0xbf⟩
  else if n = 0xf4 then some ⟨3, 4, 0x80, 0x8f⟩
  else none

/-- The bytes that continue a character: at most `count`, the first one in the given range. -/
def followers (count : Nat) (low high : UInt8) : Bytes → Bytes
  | [] => []
  | b :: rest =>
      match count with
      | 0 => []
      | count + 1 => if low ≤ b && b ≤ high then b :: followers count 0x80 0xbf rest else []

/-- The character with the given bits, continued by bytes. -/
def assemble (bits : Nat) (bytes : Bytes) : Char :=
  Char.ofNat (bytes.foldl (fun n b => 64 * n + b.toNat % 64) bits)

/-- The characters of any bytes. -/
def charsLossy : Bytes → List Char
  | [] => []
  | b :: rest =>
      if b < 0x80 then Char.ofNat b.toNat :: charsLossy rest
      else
        match lead? b with
        | none => replacement :: charsLossy rest
        | some l =>
            let found := followers l.follow l.low l.high rest
            let c := if found.length = l.follow then assemble l.bits found else replacement
            c :: charsLossy (rest.drop found.length)
termination_by bytes => bytes.length

/-- The text of any bytes. -/
def decodeLossy (bytes : Bytes) : String := .ofList (charsLossy bytes)

end Text.Utf8

end Drydock
