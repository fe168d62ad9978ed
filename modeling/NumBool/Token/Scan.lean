import NumBool.Text.Digit
import NumBool.Text.Quoted
import NumBool.Text.Word
import NumBool.Token.Basic

/-!
# Reading tokens from text

The scanner looks at one place of the text at a time and decides which piece starts
there: a gap (a blank, a line feed or a comment), a lexeme, or nothing it knows.
Then it passes over the characters of that piece one by one.  Every character
passed moves the offset by one, and every line feed passed moves the line by one,
whatever piece it belongs to; so the place recorded in a token never depends on how
the text before it was divided.

A block comment ends at the first `*/` after its opening.  Where there is none, `/`
and `*` are read as two operators.
-/

namespace NumBool.Token

/-- What starts at some place of the text.  The length of a piece counts the
characters that follow its first one. -/
inductive Piece where
  /-- Nothing that a phrase can see. -/
  | gap (more : Nat)
  /-- The text of a token. -/
  | lexeme (kind : TokenKind) (more : Nat)
  /-- A run of digits, this many, beyond the limit. -/
  | tooManyDigits (digits : Nat)
  /-- A character that starts no piece. -/
  | illegal
  deriving DecidableEq, Repr

/-- Spaces, tabs, carriage returns and line feeds separate tokens. -/
def isBlank (c : Char) : Bool :=
  c = ' ' || c = '\t' || c = '\r' || c = '\n'

/-- The number of characters up to and with the first `*/`. -/
def lengthToClose? : List Char → Option Nat
  | [] => none
  | '*' :: '/' :: _ => some 2
  | _ :: rest => (lengthToClose? rest).map (· + 1)

/-- The comment that starts with a slash before `rest`, by the length of what follows
the slash. -/
def commentLength? : List Char → Option Nat
  | '/' :: rest => some (1 + (rest.takeWhile (· != '\n')).length)
  | '*' :: rest => (lengthToClose? rest).map (1 + ·)
  | _ => none

/-- A word: one of the reserved ones, or a name. -/
def wordKind (word : List Char) : TokenKind :=
  match Keyword.ofText? (String.ofList word) with
  | some keyword => .keyword keyword
  | none => .ident (String.ofList word)

/-- The operator or mark that starts with `c` before `rest`; the longer one wins. -/
def symbolPiece (c : Char) (rest : List Char) : Piece :=
  match c, rest with
  | '<', '=' :: _ => .lexeme (.op (.compare .le)) 1
  | '>', '=' :: _ => .lexeme (.op (.compare .ge)) 1
  | '=', '=' :: _ => .lexeme (.op (.compare .eq)) 1
  | '!', '=' :: _ => .lexeme (.op (.compare .ne)) 1
  | '&', '&' :: _ => .lexeme (.op (.logic .and)) 1
  | '|', '|' :: _ => .lexeme (.op (.logic .or)) 1
  | '<', _ => .lexeme (.op (.compare .lt)) 0
  | '>', _ => .lexeme (.op (.compare .gt)) 0
  | '!', _ => .lexeme (.op .not) 0
  | '+', _ => .lexeme (.op (.sum .plus)) 0
  | '-', _ => .lexeme (.op (.sum .minus)) 0
  | '*', _ => .lexeme (.op (.product .times)) 0
  | '/', _ => .lexeme (.op (.product .div)) 0
  | '%', _ => .lexeme (.op (.product .mod)) 0
  | '=', _ => .lexeme (.mark .assign) 0
  | ';', _ => .lexeme (.mark .semicolon) 0
  | '\x7b', _ => .lexeme (.mark .openBrace) 0
  | '\x7d', _ => .lexeme (.mark .closeBrace) 0
  | '(', _ => .lexeme (.mark .openParen) 0
  | ')', _ => .lexeme (.mark .closeParen) 0
  | _, _ => .illegal

/-- The run of digits that starts with `c` before `rest`. -/
def digitPiece (c : Char) (rest : List Char) : Piece :=
  let run := rest.takeWhile Text.isDigit
  if Text.maxDigits < run.length + 1 then .tooManyDigits (run.length + 1)
  else .lexeme (.int (Text.digitsValue (c :: run))) run.length

/-- The word that starts with `c` before `rest`. -/
def wordPiece (c : Char) (rest : List Char) : Piece :=
  let run := rest.takeWhile Text.isWordChar
  .lexeme (wordKind (c :: run)) run.length

/-- The piece that starts with `c` before `rest`. -/
def pieceAt (c : Char) (rest : List Char) : Piece :=
  if isBlank c then .gap 0
  else if Text.isDigit c then digitPiece c rest
  else if Text.isWordStart c then wordPiece c rest
  else if c = '/' then
    match commentLength? rest with
    | some more => .gap more
    | none => symbolPiece c rest
  else symbolPiece c rest

/-- Why the scanner stopped, and the line on which it did. -/
inductive Ending where
  /-- The end of the text. -/
  | finished (line : Nat)
  /-- A character that starts no token. -/
  | illegal (char : Char) (line : Nat)
  /-- A number of so many digits. -/
  | tooManyDigits (digits line : Nat)
  deriving DecidableEq, Repr

/-- The line on which the scanner stopped. -/
def Ending.line : Ending → Nat
  | finished line => line
  | illegal _ line => line
  | tooManyDigits _ line => line

/-- The tokens before the scanner stopped, and why it did. -/
structure Scan where
  tokens : List Token
  ending : Ending
  deriving DecidableEq, Repr

/-- The same scan after one more token in front. -/
def Scan.cons (token : Token) (scan : Scan) : Scan :=
  { scan with tokens := token :: scan.tokens }

/-- The line after passing over `c`. -/
def lineAfter (line : Nat) (c : Char) : Nat :=
  if c = '\n' then line + 1 else line

/-- Scans the text from a place on a given line and offset; the first `skip`
characters belong to a piece that has been dealt with. -/
def scanFrom : List Char → (skip line offset : Nat) → Scan
  | [], _, line, _ => ⟨[], .finished line⟩
  | c :: rest, skip + 1, line, offset =>
    scanFrom rest skip (lineAfter line c) (offset + 1)
  | c :: rest, 0, line, offset =>
    match pieceAt c rest with
    | .gap more => scanFrom rest more (lineAfter line c) (offset + 1)
    | .lexeme kind more =>
      (scanFrom rest more (lineAfter line c) (offset + 1)).cons ⟨kind, line, offset⟩
    | .tooManyDigits digits => ⟨[], .tooManyDigits digits line⟩
    | .illegal => ⟨[], .illegal c line⟩

/-- Scans a whole text. -/
def scan (source : String) : Scan :=
  scanFrom source.toList 0 1 0

@[simp]
theorem scanFrom_nil (skip line offset : Nat) :
    scanFrom [] skip line offset = ⟨[], .finished line⟩ := by
  rw [scanFrom]

theorem scanFrom_succ (c : Char) (rest : List Char) (skip line offset : Nat) :
    scanFrom (c :: rest) (skip + 1) line offset =
      scanFrom rest skip (lineAfter line c) (offset + 1) := by
  rw [scanFrom]

theorem scanFrom_zero (c : Char) (rest : List Char) (line offset : Nat) :
    scanFrom (c :: rest) 0 line offset =
      match pieceAt c rest with
      | .gap more => scanFrom rest more (lineAfter line c) (offset + 1)
      | .lexeme kind more =>
        (scanFrom rest more (lineAfter line c) (offset + 1)).cons ⟨kind, line, offset⟩
      | .tooManyDigits digits => ⟨[], .tooManyDigits digits line⟩
      | .illegal => ⟨[], .illegal c line⟩ := by
  rw [scanFrom]

theorem lineAfter_add_count (line : Nat) (c : Char) (run : List Char) :
    lineAfter line c + run.count '\n' = line + (c :: run).count '\n' := by
  rw [lineAfter, List.count_cons]
  by_cases hc : c = '\n'
  · rw [if_pos hc, hc, if_pos (beq_self_eq_true _), Nat.add_assoc, Nat.add_comm 1]
  · rw [if_neg hc, if_neg (by simpa using hc), Nat.add_zero]

/-- Passing over a run of characters counts its line feeds and its length. -/
theorem scanFrom_skip (run more : List Char) (line offset : Nat) :
    scanFrom (run ++ more) run.length line offset =
      scanFrom more 0 (line + run.count '\n') (offset + run.length) := by
  induction run generalizing line offset with
  | nil => rfl
  | cons c run ih =>
    rw [List.cons_append, List.length_cons, scanFrom_succ, ih, lineAfter_add_count, Nat.add_assoc,
      Nat.add_comm 1]

end NumBool.Token
