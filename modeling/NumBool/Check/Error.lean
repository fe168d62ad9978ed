import NumBool.Ty

/-!
# Errors of the checker

A semantic error says which rule of the language a tree breaks.  A tree that is not
even made of proper nodes can make the check break off without a verdict on it; such
a breakdown is no semantic error.
-/

namespace NumBool

/-! The names of the expression levels in messages. -/

namespace Level

/-- Operands of logical operators. -/
def logical : String := "boolean"

/-- Sides of a comparison. -/
def comparison : String := "comparison"

/-- Operands of additive operators. -/
def addition : String := "addition"

/-- Operands of multiplicative operators. -/
def multiplication : String := "multiplication"

/-- Operands of signs. -/
def sign : String := "unary"

/-- Operands of negation marks. -/
def negation : String := "negation"

end Level

/-- A rule of the language that a tree breaks. -/
inductive SemanticError where
  /-- A variable is used before its declaration. -/
  | undefined (name : String)
  /-- A variable is declared a second time. -/
  | duplicate (name : String)
  /-- A condition is no truth value. -/
  | condition
  /-- A value of the wrong type is assigned to a variable. -/
  | assignment (name : String)
  /-- An operand at some level has the wrong type. -/
  | operand (level : String) (got expected : Option Ty)
  /-- A node that is no expression stands where one belongs. -/
  | unknownExpression (kind : String)
  /-- A node that is no statement stands where one belongs. -/
  | unknownStatement (kind : String)
  /-- A comparison by an operator that is none. -/
  | unknownComparison (op : String)
  /-- A declaration by a word that names no type. -/
  | unknownType (typeName name : String)
  deriving DecidableEq, Repr

namespace SemanticError

/-- The report on a semantic error. -/
def message : SemanticError → String
  | undefined name => s!"Invalid use of undefined Identifier {name}"
  | duplicate name => s!"Identifier {name} has multiple declarations"
  | condition => "Invalid type in condition"
  | assignment name => s!"Invalid type in assignment of Identifier {name}"
  | operand level (some got) (some expected) =>
    s!"Invalid type in {level}: got {got.name}, was expecting {expected.name}"
  | operand level _ _ => s!"Invalid type in {level}"
  | unknownExpression kind => s!"Unknown expression node: {kind}"
  | unknownStatement kind => s!"Unknown statement node: {kind}"
  | unknownComparison op => s!"Unknown comparison operator: {op}"
  | unknownType typeName name => s!"Unknown type {typeName} for Identifier {name}"

end SemanticError

/-- Why a check does not succeed. -/
inductive Failure where
  /-- The tree breaks a rule. -/
  | semantic (error : SemanticError)
  /-- A sign stands before an operand that has no type. -/
  | untyped
  /-- A node bears the name of a known kind and lacks the part that is looked at. -/
  | missingPart (kind part : String)
  /-- A node bears the name of the rule for operand lists, which needs more than a node. -/
  | missingArguments
  /-- A node bears the name of the rule for all statements, which leads back to itself. -/
  | endless
  deriving DecidableEq, Repr

namespace Failure

/-- The report on a failed check. -/
def message : Failure → String
  | semantic error => error.message
  | untyped => "'NoneType' object has no attribute 'is_numeric'"
  | missingPart kind part => s!"'{kind}' object has no attribute '{part}'"
  | missingArguments =>
    "ExpressionAnalyzer._analyze_operands() missing 3 required positional arguments: "
      ++ "'ops', 'level', and 'expected'"
  | endless => "maximum recursion depth exceeded"

end Failure

end NumBool
