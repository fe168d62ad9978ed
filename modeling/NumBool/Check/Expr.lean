import NumBool.Check.Context
import NumBool.Tree.Basic

/-!
# Types of expressions

The type of an expression is found bottom up, left to right, in one pass.  A node
with operators checks each operand as soon as its type is known and before it looks
at the next one, and counts its operators after its operands; its own type is then
fixed by its level.  A node without operators passes on the type of its last operand.
A list of no operands without operators has no type.
-/

namespace NumBool.Check

/-- Equality takes operands of any type, an order only numbers. -/
inductive Comparison where
  | equality
  | order
  deriving DecidableEq, Repr

/-- What kind of comparison an operator makes. -/
def comparisonOf? (op : String) : Option Comparison :=
  if op = "==" || op = "!=" then some .equality
  else if op = "<" || op = "<=" || op = ">" || op = ">=" then some .order
  else none

/-- The part that the rule for a kind of expression looks at first, for the kinds
that have parts. -/
def firstPart? (kind : String) : Option String :=
  [("BoolExpr", "operands"), ("CompExpr", "left"), ("AddExpr", "operands"),
   ("MulExpr", "operands"), ("UnaExpr", "operand"), ("NotExpr", "operand"),
   ("GenValue", "value"), ("Identifier", "name")].lookup kind

/-- The type of a node from outside the language.  Under the name of a literal it has
that literal's type; under any other name of a known kind it lacks the parts. -/
def foreignType (kind : String) : Check (Option Ty) :=
  match firstPart? kind with
  | some part => throw (.missingPart kind part)
  | none =>
    if kind = "IntValue" then pure (some .number)
    else if kind = "BoolValue" then pure (some .bool)
    else if kind = "operands" then throw .missingArguments
    else reject (.unknownExpression kind)

mutual

/-- The type of an expression. -/
def typeOf : Node → Check (Option Ty)
  | .logical operands ops => do
    let last ← operandsType operands ops Level.logical .bool none
    countOps ops
    return if ops.isEmpty then last else some .bool
  | .comparison left none _ => typeOf left
  | .comparison left (some op) right => do
    let leftType ← typeOf left
    match comparisonOf? op with
    | none => reject (.unknownComparison op)
    | some .equality =>
      let _ ← typeOf right
    | some .order =>
      expect Level.comparison .number leftType
      expect Level.comparison .number (← typeOf right)
    count .operators
    return some .bool
  | .addition operands ops => do
    let last ← operandsType operands ops Level.addition .number none
    countOps ops
    return if ops.isEmpty then last else some .number
  | .multiplication operands ops => do
    let last ← operandsType operands ops Level.multiplication .number none
    countOps ops
    return if ops.isEmpty then last else some .number
  | .signed operand ops => do
    let ty ← typeOf operand
    if ops.isEmpty then
      return ty
    expectNumeric ty
    countOps ops
    return some .number
  | .negated operand ops => do
    let ty ← typeOf operand
    if ops.isEmpty then
      return ty
    expect Level.negation .bool ty
    countOps ops
    return some .bool
  | .value inner => typeOf inner
  | .identifier name => do
    return some (← lookup name)
  | .int _ => return some .number
  | .truth _ => return some .bool
  | .foreign kind => foreignType kind
  | node => reject (.unknownExpression node.kindName)

/-- The type of the last of some operands, or `last` if there are none; next to
operators each of them has to have the expected type. -/
def operandsType : List Node → (ops : List String) → (level : String) → (expected : Ty) →
    (last : Option Ty) → Check (Option Ty)
  | [], _, _, _, last => return last
  | operand :: rest, ops, level, expected, _ => do
    let ty ← typeOf operand
    if !ops.isEmpty then
      expect level expected ty
    operandsType rest ops level expected ty

end

end NumBool.Check
