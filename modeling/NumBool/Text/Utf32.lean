import NumBool.Text.Codec

/-!
# UTF-32

Every character is one unit of four bytes that holds its code point.
-/

namespace NumBool.Text.Utf32

/-- The name of the encoding in a given order of bytes. -/
def label : ByteOrder → String
  | .little => "utf-32-le"
  | .big => "utf-32-be"

/-- The unit of four bytes. -/
def unit : ByteOrder → UInt8 → UInt8 → UInt8 → UInt8 → Nat
  | .little, a, b, c, d => ((d.toNat * 256 + c.toNat) * 256 + b.toNat) * 256 + a.toNat
  | .big, a, b, c, d => ((a.toNat * 256 + b.toNat) * 256 + c.toNat) * 256 + d.toNat

/-- The four bytes of a unit, the lowest first. -/
def unitBytes (n : Nat) : List UInt8 :=
  [UInt8.ofNat (n % 256), UInt8.ofNat (n / 256 % 256), UInt8.ofNat (n / 65536 % 256),
   UInt8.ofNat (n / 16777216)]

/-- Decodes the bytes from a position on. -/
def decodeFrom (order : ByteOrder) : List UInt8 → (position : Nat) →
    Except DecodeError (List Char)
  | [], _ => .ok []
  | a :: b :: c :: d :: rest, position =>
    let code := unit order a b c d
    if 0x110000 ≤ code then
      .error (.invalid (label order) a position 4 "code point not in range(0x110000)")
    else if 0xD800 ≤ code && code < 0xE000 then
      .error (.invalid (label order) a position 4
        "code point in surrogate code point range(0xd800, 0xe000)")
    else consText (Char.ofNat code) (decodeFrom order rest (position + 4))
  | a :: rest, position =>
    .error (.invalid (label order) a position (rest.length + 1) "truncated data")

/-- Decodes a file that starts with a mark for the order of its bytes. -/
def decodeMarked : List UInt8 → Except DecodeError (List Char)
  | 0xFF :: 0xFE :: 0x00 :: 0x00 :: rest => decodeFrom .little rest 4
  | 0x00 :: 0x00 :: 0xFE :: 0xFF :: rest => decodeFrom .big rest 4
  | bytes =>
    match decodeFrom .little bytes 0 with
    | .error e => .error e
    | .ok [] => .ok []
    | .ok _ => .error (.missingMark 32)

/-- The bytes of one character. -/
def encodeChar : ByteOrder → Char → List UInt8
  | .little, c => unitBytes c.toNat
  | .big, c => (unitBytes c.toNat).reverse

/-- The bytes of a text. -/
def encode (order : ByteOrder) (text : List Char) : List UInt8 :=
  text.flatMap (encodeChar order)

end NumBool.Text.Utf32
