import NumBool.Check.Error
import NumBool.Disk.Basic
import NumBool.Phrase.Parse
import NumBool.Text.Codec

/-!
# Errors of a report

A report can fail at each of its steps: finding the file, decoding it, parsing its
text, checking its tree, and writing the result.
-/

namespace NumBool.Report

/-- Why a report fails. -/
inductive Error where
  /-- A file cannot be reached or made. -/
  | file (error : Disk.FileError)
  /-- A path holds a character that no path can hold. -/
  | nullInPath
  /-- The name of the encoding holds a character that no name can hold. -/
  | nullInEncoding
  /-- The name gives no encoding. -/
  | encoding (error : Text.CodecError)
  /-- The bytes of a file are no text. -/
  | decode (error : Text.DecodeError)
  /-- The line has no bytes. -/
  | encode (error : Text.EncodeError)
  /-- The output does not take the bytes of the line. -/
  | store (error : Disk.StoreError)
  /-- The text is no program. -/
  | parse (error : ParseError)
  /-- The program does not pass the check. -/
  | check (failure : Failure)
  /-- There is no successful check to write about. -/
  | nothingToWrite
  deriving DecidableEq, Repr

namespace Error

/-- The report on an error. -/
def message : Error → String
  | file error => error.message
  | nullInPath => "embedded null byte"
  | nullInEncoding => "embedded null character"
  | encoding error => error.message
  | decode error => error.message
  | encode error => error.message
  | store error => error.message
  | parse error => error.message
  | check failure => failure.message
  | nothingToWrite => "无法写出：尚未成功完成检查。"

/-- Whether the error is a broken rule of the language. -/
def isSemantic : Error → Bool
  | check (.semantic _) => true
  | _ => false

/-- Whether the error is one that the command line expects: a broken rule, a text that
is no program, or trouble with a file.  A number that is too long, bytes that are no
text, a text that has no bytes and a path that is no path are not expected. -/
def isExpected : Error → Bool
  | file _ => true
  | store _ => true
  | parse (.tooManyDigits _) => false
  | parse _ => true
  | check (.semantic _) => true
  | _ => false

end Error

end NumBool.Report
