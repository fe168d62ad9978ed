import NumBool.Text.Quoted

/-!
# Encodings

A file holds bytes, and an encoding says which text they are (`Coding`).  Encodings are
found by their names in a registry, which may know any encodings under any names.

The encodings of this library are asked for by a name or by one of several other names;
case, and what stands between the letters and digits of a name, do not matter.  Some
names belong to transformations of bytes, which give no text.
-/

namespace NumBool.Text

/-- The order of the bytes of a unit. -/
inductive ByteOrder where
  | little
  | big
  deriving DecidableEq, Repr

/-- The encodings of this library. -/
inductive Codec where
  | utf8
  /-- UTF-8 behind a mark that may be missing when it is read. -/
  | utf8Marked
  | latin1
  | ascii
  /-- Units of two bytes behind a mark that tells their order. -/
  | utf16
  /-- Units of two bytes in a given order. -/
  | utf16With (order : ByteOrder)
  /-- Units of four bytes behind a mark that tells their order. -/
  | utf32
  /-- Units of four bytes in a given order. -/
  | utf32With (order : ByteOrder)
  /-- The encoding that no bytes and no text have. -/
  | undefined
  deriving DecidableEq, Repr

/-- A name under which something is registered, its other names, and the encoding it
stands for; a transformation of bytes stands for none. -/
structure CodecEntry where
  name : String
  aliases : List String
  codec : Option Codec
  deriving DecidableEq, Repr

/-- Why a name gives no encoding. -/
inductive CodecError where
  /-- Nothing is registered under the name. -/
  | unknown (name : String)
  /-- The name belongs to a transformation of bytes. -/
  | notText (name : String)
  deriving DecidableEq, Repr

namespace CodecError

/-- The report on a name that gives no encoding; a very long name is cut off. -/
def message : CodecError → String
  | unknown name => s!"unknown encoding: {name}"
  | notText name =>
    let shown := String.ofList (name.toList.take 400)
    s!"'{shown}' is not a text encoding; use codecs.open() to handle arbitrary codecs"

end CodecError

namespace Codec

/-- What is registered. -/
def entries : List CodecEntry :=
  [⟨"utf_8", ["utf8", "utf", "u8", "utf8_ucs2", "utf8_ucs4", "cp65001"], some utf8⟩,
   ⟨"utf_8_sig", [], some utf8Marked⟩,
   ⟨"latin_1",
    ["latin1", "latin", "l1", "iso_8859_1", "iso8859_1", "iso8859", "8859",
     "iso_8859_1_1987", "iso_ir_100", "cp819", "ibm819", "csisolatin1"], some latin1⟩,
   ⟨"ascii",
    ["us_ascii", "us", "646", "iso646_us", "iso_ir_6", "iso_646.irv_1991",
     "ansi_x3.4_1968", "ansi_x3_4_1968", "ansi_x3.4_1986", "cp367", "ibm367", "csascii"],
    some ascii⟩,
   ⟨"utf_16", ["utf16", "u16"], some utf16⟩,
   ⟨"utf_16_le", ["utf_16le", "unicodelittleunmarked"], some (utf16With .little)⟩,
   ⟨"utf_16_be", ["utf_16be", "unicodebigunmarked"], some (utf16With .big)⟩,
   ⟨"utf_32", ["utf32", "u32"], some utf32⟩,
   ⟨"utf_32_le", ["utf_32le"], some (utf32With .little)⟩,
   ⟨"utf_32_be", ["utf_32be"], some (utf32With .big)⟩,
   ⟨"undefined", [], some undefined⟩,
   ⟨"base64_codec", ["base64", "base_64"], none⟩,
   ⟨"bz2_codec", ["bz2"], none⟩,
   ⟨"hex_codec", ["hex"], none⟩,
   ⟨"quopri_codec", ["quopri", "quoted_printable", "quotedprintable"], none⟩,
   ⟨"rot_13", ["rot13"], none⟩,
   ⟨"uu_codec", ["uu"], none⟩,
   ⟨"zlib_codec", ["zip", "zlib"], none⟩]

/-- Lower case, with one underscore for whatever stands between two runs of letters,
digits and points; `gap` tells that something else has just been passed, and `begun`
that a run has been written. -/
def canonical : List Char → (begun gap : Bool) → List Char
  | [], _, _ => []
  | c :: rest, begun, gap =>
    if c.isAlphanum || c = '.' then
      if begun && gap then '_' :: c.toLower :: canonical rest true false
      else c.toLower :: canonical rest true false
    else canonical rest begun true

/-- The entry with another name `key`. -/
def aliased? (key : List Char) : Option CodecEntry :=
  entries.find? (·.aliases.contains (String.ofList key))

/-- The entry for a name in canonical form.  The other names come first, and among
them a point may stand for an underscore; the registered name has to be exact. -/
def entry? (key : List Char) : Option CodecEntry :=
  (aliased? key
    <|> aliased? (key.map fun c => if c = '.' then '_' else c))
    <|> entries.find? (·.name = String.ofList key)

/-- The encoding of a given name.  The word for the encoding of the surroundings
gives UTF-8. -/
def ofName (name : String) : Except CodecError Codec :=
  if name = "locale" then .ok utf8
  else
    match entry? (canonical name.toList false false) with
    | none => .error (.unknown name)
    | some entry =>
      match entry.codec with
      | none => .error (.notText name)
      | some codec => .ok codec

end Codec

/-- Why bytes are no text. -/
inductive DecodeError where
  /-- `count` bytes from `position` on, the first of them `byte`, are no character. -/
  | invalid (codec : String) (byte : UInt8) (position count : Nat) (reason : String)
  /-- The mark that tells the order of the bytes in units of `bits` is missing. -/
  | missingMark (bits : Nat)
  /-- The encoding has a reason of its own. -/
  | stated (reason : String)
  deriving DecidableEq, Repr

/-- The report on bytes that are no text. -/
def DecodeError.message : DecodeError → String
  | invalid codec byte position count reason =>
    if count = 1 then
      s!"'{codec}' codec can't decode byte 0x{String.ofList (hex 2 byte.toNat)} in position "
        ++ s!"{position}: {reason}"
    else
      s!"'{codec}' codec can't decode bytes in position "
        ++ s!"{position}-{position + count - 1}: {reason}"
  | missingMark bits => s!"UTF-{bits} stream does not start with BOM"
  | stated reason => reason

/-- Why a text has no bytes. -/
inductive EncodeError where
  /-- `count` characters from `position` on, the first of them `char`, have none. -/
  | invalid (codec : String) (char : Char) (position count : Nat) (reason : String)
  /-- The encoding has a reason of its own. -/
  | stated (reason : String)
  deriving DecidableEq, Repr

/-- A character by its number, in as many digits as are needed. -/
def escaped (c : Char) : String :=
  let n := c.toNat
  if n < 0x100 then "\\x" ++ String.ofList (hex 2 n)
  else if n < 0x10000 then "\\u" ++ String.ofList (hex 4 n)
  else "\\U" ++ String.ofList (hex 8 n)

/-- The report on a text that has no bytes. -/
def EncodeError.message : EncodeError → String
  | invalid codec char position count reason =>
    if count = 1 then
      s!"'{codec}' codec can't encode character '{escaped char}' in position {position}: {reason}"
    else
      s!"'{codec}' codec can't encode characters in position "
        ++ s!"{position}-{position + count - 1}: {reason}"
  | stated reason => reason

/-- An encoding: how the bytes of files stand for text, and text for bytes. -/
structure Coding where
  /-- The text of a whole file. -/
  decode : List UInt8 → Except DecodeError (List Char)
  /-- The bytes of a text.  As long as the text has not `ended`, some of them may be held
  back. -/
  encode : List Char → (ended : Bool) → Except EncodeError (List UInt8)

/-- Encodings by their names.  A name may have none. -/
abbrev Registry := String → Except CodecError Coding

/-- A text with one more character in front, if it is one. -/
def consText (c : Char) : Except DecodeError (List Char) → Except DecodeError (List Char)
  | .ok text => .ok (c :: text)
  | .error e => .error e

end NumBool.Text
