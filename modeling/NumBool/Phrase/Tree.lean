import NumBool.Phrase.Basic
import NumBool.Tree.Basic

/-!
# The tree of a phrase

Each level of an expression becomes one node that holds all operands and all
operators of that level, left to right.
-/

namespace NumBool.Phrase

/-- The operators of a chain of logical operators. -/
def Logical.ops : Logical → List String
  | .single _ => []
  | .chain first op _ => first.ops ++ [op.text]

/-- The operators of a chain of additive operators. -/
def Addition.ops : Addition → List String
  | .single _ => []
  | .chain first op _ => first.ops ++ [op.text]

/-- The operators of a chain of multiplicative operators. -/
def Multiplication.ops : Multiplication → List String
  | .single _ => []
  | .chain first op _ => first.ops ++ [op.text]

mutual

/-- The operands of a chain of logical operators. -/
def Logical.operands : Logical → List Node
  | .single only => [only.toNode]
  | .chain first _ last => first.operands ++ [last.toNode]

/-- The node of a comparison. -/
def Comparison.toNode : Comparison → Node
  | .single only => .comparison (.addition only.operands only.ops) none .absent
  | .binary left op right =>
    .comparison (.addition left.operands left.ops) (some op.text)
      (.addition right.operands right.ops)

/-- The operands of a chain of additive operators. -/
def Addition.operands : Addition → List Node
  | .single only => [.multiplication only.operands only.ops]
  | .chain first _ last => first.operands ++ [.multiplication last.operands last.ops]

/-- The operands of a chain of multiplicative operators. -/
def Multiplication.operands : Multiplication → List Node
  | .single only => [only.toNode]
  | .chain first _ last => first.operands ++ [last.toNode]

/-- The node of a value with its signs. -/
def Signed.toNode : Signed → Node
  | .mk signs operand => .signed operand.toNode (signs.map SumOp.text)

/-- The node of a value with its negation marks. -/
def Negation.toNode : Negation → Node
  | .mk marks operand => .negated operand.toNode (List.replicate marks Op.not.text)

/-- The node of a single value. -/
def Atom.toNode : Atom → Node
  | .ident name => .value (.identifier name)
  | .int value => .value (.int value)
  | .truth value => .value (.truth value)
  | .paren inner => .value (.logical inner.operands inner.ops)

end

/-- The node of a logical phrase. -/
def Logical.toNode (e : Logical) : Node :=
  .logical e.operands e.ops

/-- The node of a sum. -/
def Addition.toNode (e : Addition) : Node :=
  .addition e.operands e.ops

/-- The node of a product. -/
def Multiplication.toNode (e : Multiplication) : Node :=
  .multiplication e.operands e.ops

/-! The nodes of the parts are spelled out above, and named here. -/

theorem Comparison.toNode_single (only : Addition) :
    (single only).toNode = .comparison only.toNode none .absent := by
  rw [toNode, Addition.toNode]

theorem Comparison.toNode_binary (left : Addition) (op : CompareOp) (right : Addition) :
    (binary left op right).toNode = .comparison left.toNode (some op.text) right.toNode := by
  rw [toNode, Addition.toNode, Addition.toNode]

theorem Addition.operands_single (only : Multiplication) :
    (single only).operands = [only.toNode] := by
  rw [operands, Multiplication.toNode]

theorem Addition.operands_chain (first : Addition) (op : SumOp) (last : Multiplication) :
    (chain first op last).operands = first.operands ++ [last.toNode] := by
  rw [operands, Multiplication.toNode]

theorem Atom.toNode_paren (inner : Logical) : (paren inner).toNode = .value inner.toNode := by
  rw [toNode, Logical.toNode]

mutual

/-- The node of a statement. -/
def Stmt.toNode : Stmt → Node
  | .declare ty name => .declaration ty.keyword (.identifier name)
  | .assign name value => .assignment (.identifier name) value.toNode
  | .branch cond body alt => .branch cond.toNode (.block (stmtNodes body)) alt.toNode
  | .loop cond body => .loop cond.toNode (.block (stmtNodes body))
  | .block body => .block (stmtNodes body)

/-- The node of an alternative, `absent` if there is none. -/
def Alternative.toNode : Alternative → Node
  | .absent => .absent
  | .block body => .block (stmtNodes body)
  | .branch cond body alt => .branch cond.toNode (.block (stmtNodes body)) alt.toNode

/-- The nodes of some statements. -/
def stmtNodes : List Stmt → List Node
  | [] => []
  | stmt :: rest => stmt.toNode :: stmtNodes rest

end

/-- The tree of a whole program. -/
def Program.toNode (program : Program) : Node :=
  .program (stmtNodes program.stmts)

theorem stmtNodes_eq_map (stmts : List Stmt) : stmtNodes stmts = stmts.map Stmt.toNode := by
  induction stmts with
  | nil => rw [stmtNodes, List.map_nil]
  | cons stmt rest ih => rw [stmtNodes, ih, List.map_cons]

end NumBool.Phrase
