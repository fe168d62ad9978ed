import NumBool.Text.Utf16
import NumBool.Text.Utf32
import NumBool.Text.Utf8

/-!
# Reading and writing bytes

`Codec.decode` and `Codec.encode` go between the bytes of a file and its text.
-/

namespace NumBool.Text

/-- Decodes bytes that stand for one character each, below a limit. -/
def decodeBytes (limit : Nat) : List UInt8 → (position : Nat) → Except DecodeError (List Char)
  | [], _ => .ok []
  | b :: rest, position =>
    if b.toNat < limit then
      consText (Char.ofNat b.toNat) (decodeBytes limit rest (position + 1))
    else .error (.invalid "ascii" b position 1 s!"ordinal not in range({limit})")

/-- Encodes characters below a limit by one byte each.  The first one beyond it is reported,
together with those that follow it and lie beyond it too. -/
def encodeBytes (codec : String) (limit : Nat) : List Char → (position : Nat) →
    Except EncodeError (List UInt8)
  | [], _ => .ok []
  | c :: rest, position =>
    if c.toNat < limit then
      (encodeBytes codec limit rest (position + 1)).map (UInt8.ofNat c.toNat :: ·)
    else
      let more := (rest.takeWhile (limit ≤ ·.toNat)).length
      .error (.invalid codec c position (more + 1) s!"ordinal not in range({limit})")

namespace Codec

/-- Why there are no bytes and no text in the undefined encoding. -/
def undefinedReason : String := "undefined encoding"

/-- The text that bytes stand for. -/
def decode : Codec → List UInt8 → Except DecodeError (List Char)
  | utf8, bytes => Utf8.decode bytes
  | utf8Marked, bytes => Utf8.decodeMarked bytes
  | latin1, bytes => decodeBytes 256 bytes 0
  | ascii, bytes => decodeBytes 128 bytes 0
  | utf16, bytes => Utf16.decodeMarked bytes
  | utf16With order, bytes => Utf16.decodeFrom order bytes 0
  | utf32, bytes => Utf32.decodeMarked bytes
  | utf32With order, bytes => Utf32.decodeFrom order bytes 0
  | undefined, _ => .error (.stated undefinedReason)

/-- The bytes of a text. -/
def encode : Codec → List Char → Except EncodeError (List UInt8)
  | utf8, text => .ok (Utf8.encode text)
  | utf8Marked, text => .ok (Utf8.mark ++ Utf8.encode text)
  | latin1, text => encodeBytes "latin-1" 256 text 0
  | ascii, text => encodeBytes "ascii" 128 text 0
  | utf16, text => .ok (0xFF :: 0xFE :: Utf16.encode .little text)
  | utf16With order, text => .ok (Utf16.encode order text)
  | utf32, text => .ok (0xFF :: 0xFE :: 0x00 :: 0x00 :: Utf32.encode .little text)
  | utf32With order, text => .ok (Utf32.encode order text)
  | undefined, _ => .error (.stated undefinedReason)

/-- An encoding of this library.  It holds nothing back. -/
def coding (codec : Codec) : Coding where
  decode := codec.decode
  encode text _ := codec.encode text

/-- The registry of this library.  A system may know other encodings, so what is said of
reports is said for any registry. -/
def registry : Registry := fun name =>
  (ofName name).map coding

theorem registry_utf8 : registry "utf-8" = .ok utf8.coding := by
  have hname : ofName "utf-8" = .ok utf8 := by rfl
  rw [registry, hname]
  rfl

end Codec

end NumBool.Text
