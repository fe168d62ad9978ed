import NumBool.Text.Printable

/-!
# Quoted text

Messages show a text between quotes.  The quotes are single unless the text holds a
single quote and no double quote.  The backslash, the chosen quote, the line feed,
the carriage return and the tab are escaped by a backslash; any other character that
is not printable is written by its code point in lower-case hexadecimal, with two,
four or eight digits.
-/

namespace NumBool.Text

/-- `n` in lower-case hexadecimal, padded with zeros to `width` digits. -/
def hex (width n : Nat) : List Char :=
  let digits := Nat.toDigits 16 n
  List.replicate (width - digits.length) '0' ++ digits

/-- The quote around a text: single unless only single quotes occur in it. -/
def quoteFor (text : List Char) : Char :=
  if text.contains '\x27' && !text.contains '\x22' then '\x22' else '\x27'

/-- How one character is written between the quotes `quote`. -/
def escape (quote c : Char) : List Char :=
  if c = quote || c = '\\' then ['\\', c]
  else if c = '\n' then ['\\', 'n']
  else if c = '\r' then ['\\', 'r']
  else if c = '\t' then ['\\', 't']
  else if isPrintable c then [c]
  else if c.toNat < 0x100 then '\\' :: 'x' :: hex 2 c.toNat
  else if c.toNat < 0x10000 then '\\' :: 'u' :: hex 4 c.toNat
  else '\\' :: 'U' :: hex 8 c.toNat

/-- The text between quotes. -/
def quotedChars (text : List Char) : List Char :=
  let quote := quoteFor text
  quote :: (text.flatMap (escape quote) ++ [quote])

/-- The text between quotes, as a string. -/
def quoted (text : String) : String :=
  String.ofList (quotedChars text.toList)

end NumBool.Text
