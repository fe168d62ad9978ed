import NumBool.Number.Shortest
import NumBool.Text.Digit
import NumBool.Text.Quoted
import NumBool.Tree.Basic

/-!
# The printed form of a tree

Every node prints as its kind with its parts in parentheses.  A list prints its items
between brackets.  A text value inside a list is quoted, and elsewhere it is printed
as it is.

Not every tree can be printed.  A declaration and an assignment print the name of what
they are about, which only an identifier has, and a number must not have too many
digits.  The parts are printed from left to right, and the first one that cannot be
printed is the error.
-/

namespace NumBool

/-- Why a tree cannot be printed. -/
inductive PrintError where
  /-- A node of this kind stands for a name and has none. -/
  | nameless (kind : String)
  /-- A number has more digits than are printed. -/
  | tooManyDigits
  deriving DecidableEq, Repr

/-- The report on a tree that cannot be printed. -/
def PrintError.message : PrintError → String
  | nameless kind => s!"'{kind}' object has no attribute 'name'"
  | tooManyDigits =>
    s!"Exceeds the limit ({Text.maxDigits} digits) for integer string conversion; "
      ++ "use sys.set_int_max_str_digits() to increase the limit"

/-- Items between brackets. -/
def bracketed (items : List String) : String :=
  "[" ++ ", ".intercalate items ++ "]"

/-- A list of operators, each quoted. -/
def opsText (ops : List String) : String :=
  bracketed (ops.map Text.quoted)

/-- A truth value as a word. -/
def truthText (b : Bool) : String :=
  if b then "True" else "False"

/-- A whole number by its digits. -/
def intPrinted (n : Int) : Except PrintError String :=
  if Text.maxDigits < (Nat.toDigits 10 n.natAbs).length then .error .tooManyDigits
  else .ok (toString n)

/-- A plain value, unquoted. -/
def Datum.printed : Datum → Except PrintError String
  | .truth b => .ok (truthText b)
  | .int n => intPrinted n
  | .real x => .ok x.text
  | .text s => .ok s

/-- The name that a node stands for. -/
def Node.namePrinted (node : Node) : Except PrintError String :=
  match node.name? with
  | some name => .ok name
  | none => .error (.nameless node.kindName)

/-- The operands and operators of one level. -/
def chainPrinted (head : String) (operands ops : List String) : String :=
  head ++ "(" ++ bracketed operands ++ ", ops=" ++ opsText ops ++ ")"

mutual

/-- The printed form of a node. -/
def Node.printed : Node → Except PrintError String
  | .program stmts => return "Program(" ++ bracketed (← itemsPrinted stmts) ++ ")"
  | .block stmts => return "Block(" ++ bracketed (← itemsPrinted stmts) ++ ")"
  | .identifier name => return "Ident(" ++ name ++ ")"
  | .declaration typeName ident =>
    return "Decl(" ++ typeName ++ " " ++ (← ident.namePrinted) ++ ")"
  | .assignment target value =>
    return "Assign(" ++ (← target.namePrinted) ++ " = " ++ (← value.printed) ++ ")"
  | .branch cond body alt =>
    return "If(" ++ (← cond.printed) ++ ", then=" ++ (← body.printed) ++ ", else="
      ++ (← alt.printed) ++ ")"
  | .loop cond body => return "While(" ++ (← cond.printed) ++ ", " ++ (← body.printed) ++ ")"
  | .logical operands ops => return chainPrinted "BoolExpr" (← itemsPrinted operands) ops
  | .comparison left none _ => return "Comp(" ++ (← left.printed) ++ ")"
  | .comparison left (some op) right =>
    return "Comp(" ++ (← left.printed) ++ " " ++ op ++ " " ++ (← right.printed) ++ ")"
  | .addition operands ops => return chainPrinted "AddExpr" (← itemsPrinted operands) ops
  | .multiplication operands ops => return chainPrinted "MulExpr" (← itemsPrinted operands) ops
  | .signed operand ops => return "Una(" ++ String.join ops ++ (← operand.printed) ++ ")"
  | .negated operand ops => return "Not(" ++ String.join ops ++ (← operand.printed) ++ ")"
  | .value inner => return "Gen(" ++ (← inner.printed) ++ ")"
  | .int value => return "Int(" ++ (← intPrinted value) ++ ")"
  | .truth value => return "Bool(" ++ truthText value ++ ")"
  | .absent => return "None"
  | .datum d => d.printed
  | .list items => return bracketed (← itemsPrinted items)
  | .foreign kind => return "<" ++ kind ++ ">"

/-- The printed forms of the items of a list. -/
def itemsPrinted : List Node → Except PrintError (List String)
  | [] => return []
  | .datum (.text s) :: rest => return Text.quoted s :: (← itemsPrinted rest)
  | node :: rest => return (← node.printed) :: (← itemsPrinted rest)

end

/-- A tree shown by itself: a text value is quoted here too. -/
def Node.shown : Node → Except PrintError String
  | .datum (.text s) => .ok (Text.quoted s)
  | node => node.printed

end NumBool
