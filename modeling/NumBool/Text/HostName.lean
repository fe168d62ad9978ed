import NumBool.Text.Encoding

/-!
# Host names

The encoding of host names divides a text at its points into labels and writes one label
after another.  A label is over at the point behind it or at the end of the text, so as long
as the text goes on the last label is held back.

Only plain labels are covered: those of ASCII characters, which stand for themselves.
-/

namespace NumBool.Text.HostName

/-- The greatest length of a label. -/
def maxLabel : Nat := 63

/-- The bytes of one label. -/
def encodeLabel (label : List Char) : Except EncodeError (List UInt8) :=
  if label.isEmpty || maxLabel < label.length then .error (.stated "label empty or too long")
  else encodeBytes "ascii" 128 label 0

/-- The bytes of a text that begins in the middle of a label, behind the part `begun`. -/
def encodeFrom (ended : Bool) (begun : List Char) : List Char → Except EncodeError (List UInt8)
  | [] => if begun.isEmpty || !ended then .ok [] else encodeLabel begun
  | c :: rest =>
    if c = '.' then do
      let bytes ← encodeLabel begun
      let more ← encodeFrom ended [] rest
      return bytes ++ 0x2E :: more
    else encodeFrom ended (begun ++ [c]) rest

/-- The encoding of host names. -/
def coding : Coding where
  decode bytes := decodeBytes 128 bytes 0
  encode text ended := encodeFrom ended [] text

/-- The registry of this library, with the encoding of host names. -/
def registry : Registry := fun name =>
  if name = "idna" then .ok coding else Codec.registry name

end NumBool.Text.HostName
