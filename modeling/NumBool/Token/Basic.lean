import NumBool.Ty

/-!
# Tokens

The operators are grouped by the level of the grammar at which they stand, so that a
phrase of one level can only hold operators of that level.  A token is a kind with
the line and the offset at which its text starts.
-/

namespace NumBool

/-- Operators that join truth values. -/
inductive LogicOp where
  | and
  | or
  deriving DecidableEq, Repr

/-- Operators that compare two values. -/
inductive CompareOp where
  | eq
  | ne
  | lt
  | le
  | gt
  | ge
  deriving DecidableEq, Repr

/-- Additive operators, which also serve as signs. -/
inductive SumOp where
  | plus
  | minus
  deriving DecidableEq, Repr

/-- Multiplicative operators. -/
inductive ProductOp where
  | times
  | div
  | mod
  deriving DecidableEq, Repr

/-- All operators, by level; `not` is the negation mark. -/
inductive Op where
  | logic (op : LogicOp)
  | compare (op : CompareOp)
  | sum (op : SumOp)
  | product (op : ProductOp)
  | not
  deriving DecidableEq, Repr

/-- Reserved words. -/
inductive Keyword where
  /-- A word that declares a variable. -/
  | type (ty : Ty)
  /-- The word before a condition. -/
  | branch
  /-- The word before an alternative. -/
  | otherwise
  /-- The word before the condition of a loop. -/
  | loop
  /-- A truth value. -/
  | truth (value : Bool)
  deriving DecidableEq, Repr

/-- Punctuation, one character each. -/
inductive Mark where
  | assign
  | semicolon
  | openBrace
  | closeBrace
  | openParen
  | closeParen
  deriving DecidableEq, Repr

/-- What a token is, without where it stands. -/
inductive TokenKind where
  | ident (name : String)
  | int (value : Nat)
  | keyword (word : Keyword)
  | op (op : Op)
  | mark (mark : Mark)
  deriving DecidableEq, Repr

/-- A token, the line on which it starts, counted from one, and the number of
characters before it. -/
structure Token where
  kind : TokenKind
  line : Nat
  offset : Nat
  deriving DecidableEq, Repr

/-- A logical operator as it is written. -/
def LogicOp.text : LogicOp → String
  | .and => "&&"
  | .or => "||"

/-- A comparison operator as it is written. -/
def CompareOp.text : CompareOp → String
  | .eq => "=="
  | .ne => "!="
  | .lt => "<"
  | .le => "<="
  | .gt => ">"
  | .ge => ">="

/-- An additive operator or sign as it is written. -/
def SumOp.text : SumOp → String
  | .plus => "+"
  | .minus => "-"

/-- A multiplicative operator as it is written. -/
def ProductOp.text : ProductOp → String
  | .times => "*"
  | .div => "/"
  | .mod => "%"

namespace Op

/-- An operator as it is written. -/
def text : Op → String
  | logic op => op.text
  | compare op => op.text
  | sum op => op.text
  | product op => op.text
  | not => "!"

/-- The name of an operator's token class. -/
def label : Op → String
  | logic .and => "AND"
  | logic .or => "OR"
  | compare .eq => "EQ"
  | compare .ne => "NE"
  | compare .lt => "LT"
  | compare .le => "LE"
  | compare .gt => "GT"
  | compare .ge => "GE"
  | sum .plus => "PLUS"
  | sum .minus => "MINUS"
  | product .times => "TIMES"
  | product .div => "DIV"
  | product .mod => "MOD"
  | not => "NOT"

end Op

namespace Keyword

/-- A reserved word as it is written. -/
def text : Keyword → String
  | type ty => ty.keyword
  | branch => "if"
  | otherwise => "else"
  | loop => "while"
  | truth true => "true"
  | truth false => "false"

/-- The name of a reserved word's token class. -/
def label : Keyword → String
  | type .number => "NUM_TYPE"
  | type .bool => "BOOL_TYPE"
  | branch => "IF"
  | otherwise => "ELSE"
  | loop => "WHILE"
  | truth true => "TRUE"
  | truth false => "FALSE"

/-- All reserved words. -/
def all : List Keyword :=
  [type .number, type .bool, branch, otherwise, loop, truth true, truth false]

theorem mem_all (word : Keyword) : word ∈ all := by
  rcases word with (_ | _) | _ | _ | _ | (_ | _) <;> simp [all]

/-- The reserved word that is written as `text`. -/
def ofText? (text : String) : Option Keyword :=
  all.find? (·.text = text)

@[simp]
theorem ofText?_text (word : Keyword) : ofText? word.text = some word := by
  rcases word with (_ | _) | _ | _ | _ | (_ | _) <;> rfl

theorem ofText?_eq_some_iff {text : String} {word : Keyword} :
    ofText? text = some word ↔ text = word.text := by
  constructor
  · intro h
    have found : word.text = text := by simpa using List.find?_some h
    exact found.symm
  · rintro rfl
    exact ofText?_text word

end Keyword

namespace Mark

/-- A mark's one character. -/
def char : Mark → Char
  | assign => '='
  | semicolon => ';'
  | openBrace => '\x7b'
  | closeBrace => '\x7d'
  | openParen => '('
  | closeParen => ')'

/-- A mark as it is written. -/
def text (mark : Mark) : String :=
  String.singleton mark.char

end Mark

namespace TokenKind

/-- The name of a token class; a mark names itself. -/
def label : TokenKind → String
  | ident _ => "IDENT"
  | int _ => "INT"
  | keyword word => word.label
  | op o => o.label
  | mark m => m.text

/-- What a token stands for, in its plain written form: leading zeros of a number are
dropped, and its digits are the ASCII ones. -/
def text : TokenKind → String
  | ident name => name
  | int value => toString value
  | keyword word => word.text
  | op o => o.text
  | mark m => m.text

end TokenKind

end NumBool
