import NumBool.Text.Codec

/-!
# UTF-16

A text is a sequence of units of two bytes.  A code point beyond the first 65536 is
written as two units, a high and a low surrogate.
-/

namespace NumBool.Text.Utf16

/-- The name of the encoding in a given order of bytes. -/
def label : ByteOrder → String
  | .little => "utf-16-le"
  | .big => "utf-16-be"

/-- The unit of two bytes. -/
def unit : ByteOrder → UInt8 → UInt8 → Nat
  | .little, a, b => b.toNat * 256 + a.toNat
  | .big, a, b => a.toNat * 256 + b.toNat

/-- The two bytes of a unit. -/
def unitBytes : ByteOrder → Nat → List UInt8
  | .little, n => [UInt8.ofNat (n % 256), UInt8.ofNat (n / 256)]
  | .big, n => [UInt8.ofNat (n / 256), UInt8.ofNat (n % 256)]

/-- Decodes the bytes from a position on. -/
def decodeFrom (order : ByteOrder) : List UInt8 → (position : Nat) →
    Except DecodeError (List Char)
  | [], _ => .ok []
  | [a], position => .error (.invalid (label order) a position 1 "truncated data")
  | a :: b :: rest, position =>
    let high := unit order a b
    let bad (count : Nat) (reason : String) : Except DecodeError (List Char) :=
      .error (.invalid (label order) a position count reason)
    if high < 0xD800 || 0xE000 ≤ high then
      consText (Char.ofNat high) (decodeFrom order rest (position + 2))
    else if 0xDC00 ≤ high then bad 2 "illegal encoding"
    else
      match rest with
      | [] => bad 2 "unexpected end of data"
      | [_] => bad 3 "unexpected end of data"
      | c :: d :: rest =>
        let low := unit order c d
        if 0xDC00 ≤ low && low < 0xE000 then
          let code := 0x10000 + (high - 0xD800) * 0x400 + (low - 0xDC00)
          consText (Char.ofNat code) (decodeFrom order rest (position + 4))
        else bad 2 "illegal UTF-16 surrogate"

/-- Decodes a file that starts with a mark for the order of its bytes. -/
def decodeMarked : List UInt8 → Except DecodeError (List Char)
  | 0xFF :: 0xFE :: rest => decodeFrom .little rest 2
  | 0xFE :: 0xFF :: rest => decodeFrom .big rest 2
  | bytes =>
    match decodeFrom .little bytes 0 with
    | .error e => .error e
    | .ok [] => .ok []
    | .ok _ => .error (.missingMark 16)

/-- The bytes of one character. -/
def encodeChar (order : ByteOrder) (c : Char) : List UInt8 :=
  let n := c.toNat
  if n < 0x10000 then unitBytes order n
  else
    unitBytes order (0xD800 + (n - 0x10000) / 0x400)
      ++ unitBytes order (0xDC00 + (n - 0x10000) % 0x400)

/-- The bytes of a text. -/
def encode (order : ByteOrder) (text : List Char) : List UInt8 :=
  text.flatMap (encodeChar order)

end NumBool.Text.Utf16
