import NumBool.Phrase.Reader
import NumBool.Token.Scan

/-!
# Parsing a text

The tokens of a text are read in order.  The first token that the reader refuses is
reported, even if the scanner would have stopped behind it; otherwise what stopped
the scanner is reported; otherwise the text has to be a whole program.
-/

namespace NumBool

/-- Why a text is no program. -/
inductive ParseError where
  /-- A character that starts no token. -/
  | illegal (char : Char) (line : Nat)
  /-- A number of so many digits. -/
  | tooManyDigits (digits : Nat)
  /-- A token with which no program can go on. -/
  | unexpected (token : Token)
  /-- The text ends inside a statement. -/
  | unexpectedEnd
  deriving DecidableEq, Repr

namespace ParseError

/-- The report on a parse error. -/
def message : ParseError → String
  | illegal char line =>
    s!"Illegal character {Text.quoted (String.singleton char)} at line {line}"
  | tooManyDigits digits =>
    s!"Exceeds the limit ({Text.maxDigits} digits) for integer string conversion: "
      ++ s!"value has {digits} digits; "
      ++ "use sys.set_int_max_str_digits() to increase the limit"
  | unexpected token =>
    s!"Syntax error at '{token.kind.text}' (type: {token.kind.label}) on line {token.line}"
  | unexpectedEnd => "Syntax error at EOF"

/-- What stopped the scanner, if it was not the end of the text. -/
def ofEnding? : Token.Ending → Option ParseError
  | .finished _ => none
  | .illegal char line => some (illegal char line)
  | .tooManyDigits digits _ => some (tooManyDigits digits)

end ParseError

namespace Phrase

/-- Takes tokens up to the first that is refused, and reports that one. -/
def State.run (s : State) : List Token → Except Token State
  | [] => .ok s
  | token :: rest =>
    match s.step? token.kind with
    | some next => next.run rest
    | none => .error token

@[simp]
theorem State.run_nil (s : State) : s.run [] = .ok s := rfl

theorem State.run_cons (s : State) (token : Token) (rest : List Token) :
    s.run (token :: rest) =
      match s.step? token.kind with
      | some next => next.run rest
      | none => .error token := rfl

/-- Taking two lists of tokens one after the other. -/
theorem State.run_append (s : State) (xs ys : List Token) :
    s.run (xs ++ ys) =
      match s.run xs with
      | .ok next => next.run ys
      | .error token => .error token := by
  induction xs generalizing s with
  | nil => rfl
  | cons token rest ih =>
    rw [List.cons_append, run_cons, run_cons]
    cases s.step? token.kind with
    | none => rfl
    | some next => exact ih next

/-- The program that a scanned text holds. -/
def parseScan (scan : Token.Scan) : Except ParseError Program :=
  match State.start.run scan.tokens with
  | .error token => .error (.unexpected token)
  | .ok last =>
    match ParseError.ofEnding? scan.ending with
    | some error => .error error
    | none =>
      match last.finish? with
      | some program => .ok program
      | none => .error .unexpectedEnd

/-- The program that a text holds. -/
def parse (source : String) : Except ParseError Program :=
  parseScan (Token.scan source)

end Phrase

end NumBool
