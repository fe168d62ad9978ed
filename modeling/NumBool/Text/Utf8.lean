import NumBool.Text.Codec

/-!
# UTF-8

Bytes are taken one at a time.  Between characters a byte starts a new one and tells
how many bytes are owed and in which range the next one has to lie; the range shuts
out surrogates, overlong forms and code points that are too large.  The first byte
that does not fit is reported, together with the bytes of the character it cuts off.
-/

namespace NumBool.Text.Utf8

/-- A character of which some bytes have been read. -/
structure Pending where
  /-- The first byte and its position. -/
  first : UInt8
  position : Nat
  /-- How many bytes have been read. -/
  count : Nat
  /-- The bits read so far. -/
  code : Nat
  /-- How many bytes are still owed. -/
  owed : Nat
  /-- The range in which the next byte has to lie. -/
  lo : Nat
  hi : Nat
  deriving DecidableEq, Repr

/-- What a first byte tells: the bits it holds, the bytes owed, and the range of the
second byte. -/
def lead? (b : Nat) : Option (Nat × Nat × Nat × Nat) :=
  if 0xC2 ≤ b && b ≤ 0xDF then some (b - 0xC0, 1, 0x80, 0xBF)
  else if b = 0xE0 then some (0, 2, 0xA0, 0xBF)
  else if b = 0xED then some (0xD, 2, 0x80, 0x9F)
  else if 0xE1 ≤ b && b ≤ 0xEF then some (b - 0xE0, 2, 0x80, 0xBF)
  else if b = 0xF0 then some (0, 3, 0x90, 0xBF)
  else if 0xF1 ≤ b && b ≤ 0xF3 then some (b - 0xF0, 3, 0x80, 0xBF)
  else if b = 0xF4 then some (4, 3, 0x80, 0x8F)
  else none

/-- The error at a character that is not completed. -/
def Pending.error (p : Pending) (reason : String) : DecodeError :=
  .invalid "utf-8" p.first p.position p.count reason

/-- Decodes the bytes from a position on, inside a pending character or between two. -/
def decodeFrom : List UInt8 → (position : Nat) → Option Pending →
    Except DecodeError (List Char)
  | [], _, none => .ok []
  | [], _, some p => .error (p.error "unexpected end of data")
  | b :: rest, position, none =>
    if b.toNat < 0x80 then
      consText (Char.ofNat b.toNat) (decodeFrom rest (position + 1) none)
    else
      match lead? b.toNat with
      | none => .error (.invalid "utf-8" b position 1 "invalid start byte")
      | some (code, owed, lo, hi) =>
        decodeFrom rest (position + 1) (some ⟨b, position, 1, code, owed, lo, hi⟩)
  | b :: rest, position, some p =>
    if p.lo ≤ b.toNat && b.toNat ≤ p.hi then
      let code := p.code * 64 + (b.toNat - 0x80)
      if p.owed = 1 then
        consText (Char.ofNat code) (decodeFrom rest (position + 1) none)
      else
        decodeFrom rest (position + 1)
          (some ⟨p.first, p.position, p.count + 1, code, p.owed - 1, 0x80, 0xBF⟩)
    else .error (p.error "invalid continuation byte")

/-- Decodes a whole file. -/
def decode (bytes : List UInt8) : Except DecodeError (List Char) :=
  decodeFrom bytes 0 none

/-- The mark in front of a marked file. -/
def mark : List UInt8 := [0xEF, 0xBB, 0xBF]

/-- Decodes a file that may start with a mark; positions count from behind the mark.
A file that is only a part of the mark is empty. -/
def decodeMarked (bytes : List UInt8) : Except DecodeError (List Char) :=
  if bytes.isPrefixOf mark then .ok []
  else if mark.isPrefixOf bytes then decode (bytes.drop mark.length)
  else decode bytes

/-- The bytes of a text. -/
def encode (text : List Char) : List UInt8 :=
  text.flatMap String.utf8EncodeChar

end NumBool.Text.Utf8
