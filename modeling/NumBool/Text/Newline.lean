/-!
# Line ends

A text file may end its lines by a line feed, a carriage return or both.  Reading a
file turns each of the three into a single line feed.
-/

namespace NumBool.Text

/-- Every line end becomes a line feed: `\r\n` counts as one, a lone `\r` as one. -/
def unifyNewlines : List Char → List Char
  | [] => []
  | '\r' :: '\n' :: rest => '\n' :: unifyNewlines rest
  | c :: rest => (if c = '\r' then '\n' else c) :: unifyNewlines rest

end NumBool.Text
