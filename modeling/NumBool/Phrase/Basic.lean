import NumBool.Token.Basic

/-!
# Phrases of the language

The types below are the grammar: a value of one of them is a phrase with exactly one
reading.  An expression has seven levels, from the logical operators down to single
values, and a phrase of one level holds operators of that level only.  The chained
levels group to the left; a comparison takes at most one operator; signs stand
before negation marks, and both before a value.
-/

namespace NumBool.Phrase

mutual

/-- Comparisons joined by logical operators. -/
inductive Logical where
  | single (only : Comparison)
  | chain (first : Logical) (op : LogicOp) (last : Comparison)

/-- One sum, or two sums compared. -/
inductive Comparison where
  | single (only : Addition)
  | binary (left : Addition) (op : CompareOp) (right : Addition)

/-- Products joined by additive operators. -/
inductive Addition where
  | single (only : Multiplication)
  | chain (first : Addition) (op : SumOp) (last : Multiplication)

/-- Signed values joined by multiplicative operators. -/
inductive Multiplication where
  | single (only : Signed)
  | chain (first : Multiplication) (op : ProductOp) (last : Signed)

/-- A value behind any number of signs, the outermost first. -/
inductive Signed where
  | mk (signs : List SumOp) (operand : Negation)

/-- A value behind so many negation marks. -/
inductive Negation where
  | mk (marks : Nat) (operand : Atom)

/-- A single value. -/
inductive Atom where
  | ident (name : String)
  | int (value : Nat)
  | truth (value : Bool)
  | paren (inner : Logical)

end

mutual

/-- A statement; a body is the list of statements between two braces. -/
inductive Stmt where
  | declare (ty : Ty) (name : String)
  | assign (name : String) (value : Logical)
  | branch (cond : Logical) (body : List Stmt) (alt : Alternative)
  | loop (cond : Logical) (body : List Stmt)
  | block (body : List Stmt)

/-- What follows the body of a branch: nothing, a body, or a further branch. -/
inductive Alternative where
  | absent
  | block (body : List Stmt)
  | branch (cond : Logical) (body : List Stmt) (alt : Alternative)

end

/-- A whole program. -/
structure Program where
  stmts : List Stmt

end NumBool.Phrase
