import NumBool.Check.Checker

/-!
# Normal trees

Many nodes of a tree do nothing but hold one other node.  An expression of one level without
operators stands for its only operand, and a block among statements for the statements in it.
The normal form of a tree leaves such nodes out, at every depth: a layer wherever an expression
belongs, and a block wherever it is an element of a list of statements.  Layers that stand
elsewhere stay, since there they are errors under their own name, and so do blocks that are the
body of a branch or a loop.

A tree and its normal form are checked alike (`check_normal_eq`), whatever the tree is.  A layer
performs the check of its child and counts no operators (`typeOf_bare`), and a block performs
the checks of its statements in order (`checkStmts_spliced`), so the two computations are equal,
and with them the failure and the state reached.
-/

namespace NumBool

namespace Node

/-- Whether a node only passes on the value of one child. -/
def isLayer : Node → Bool
  | .logical [_] [] => true
  | .addition [_] [] => true
  | .multiplication [_] [] => true
  | .comparison _ none _ => true
  | .signed _ [] => true
  | .negated _ [] => true
  | .value _ => true
  | _ => false

/-- The child of a layer; any other node stands for itself. -/
def bare : Node → Node
  | .logical [only] [] => only
  | .addition [only] [] => only
  | .multiplication [only] [] => only
  | .comparison left none _ => left
  | .signed operand [] => operand
  | .negated operand [] => operand
  | .value inner => inner
  | node => node

/-- Whether a node is a block. -/
def isBlock : Node → Bool
  | .block _ => true
  | _ => false

/-- The statements that a node stands for in a list of statements. -/
def spliced : Node → List Node
  | .block stmts => stmts
  | node => [node]

end Node

mutual

/-- The normal form of a tree. -/
def Node.normal : Node → Node
  | .program stmts => .program ((normalNodes stmts).flatMap Node.spliced)
  | .block stmts => .block ((normalNodes stmts).flatMap Node.spliced)
  | .declaration typeName ident => .declaration typeName ident.normal
  | .assignment target value => .assignment target.normal value.normal.bare
  | .branch cond body alt => .branch cond.normal.bare body.normal alt.normal
  | .loop cond body => .loop cond.normal.bare body.normal
  | .logical operands ops => .logical ((normalNodes operands).map Node.bare) ops
  | .comparison left op right => .comparison left.normal.bare op right.normal.bare
  | .addition operands ops => .addition ((normalNodes operands).map Node.bare) ops
  | .multiplication operands ops => .multiplication ((normalNodes operands).map Node.bare) ops
  | .signed operand ops => .signed operand.normal.bare ops
  | .negated operand ops => .negated operand.normal.bare ops
  | .value inner => .value inner.normal.bare
  | .list items => .list (normalNodes items)
  | node => node

/-- The normal forms of some trees. -/
def normalNodes : List Node → List Node
  | [] => []
  | node :: rest => node.normal :: normalNodes rest

end

mutual

/-- Whether no expression position of a tree holds a layer, and no list of statements a
block. -/
def Node.isNormal : Node → Bool
  | .program stmts => stmts.all (!·.isBlock) && areNormal stmts
  | .block stmts => stmts.all (!·.isBlock) && areNormal stmts
  | .declaration _ ident => ident.isNormal
  | .assignment target value => target.isNormal && !value.isLayer && value.isNormal
  | .branch cond body alt => !cond.isLayer && cond.isNormal && body.isNormal && alt.isNormal
  | .loop cond body => !cond.isLayer && cond.isNormal && body.isNormal
  | .logical operands _ => operands.all (!·.isLayer) && areNormal operands
  | .comparison left _ right =>
    !left.isLayer && left.isNormal && !right.isLayer && right.isNormal
  | .addition operands _ => operands.all (!·.isLayer) && areNormal operands
  | .multiplication operands _ => operands.all (!·.isLayer) && areNormal operands
  | .signed operand _ => !operand.isLayer && operand.isNormal
  | .negated operand _ => !operand.isLayer && operand.isNormal
  | .value inner => !inner.isLayer && inner.isNormal
  | .list items => areNormal items
  | _ => true

/-- Whether all of some trees are normal. -/
def areNormal : List Node → Bool
  | [] => true
  | node :: rest => node.isNormal && areNormal rest

end

theorem areNormal_iff {nodes : List Node} :
    areNormal nodes = true ↔ ∀ node ∈ nodes, node.isNormal = true := by
  induction nodes with
  | nil => simp [areNormal]
  | cons node rest ih => simp [areNormal, ih]

namespace Node

/-! ## Normal forms are normal -/

/-- The child of a layer in a normal tree is normal and no layer. -/
theorem isNormal_bare {node : Node} (h : node.isNormal = true) :
    node.bare.isLayer = false ∧ node.bare.isNormal = true := by
  fun_cases bare node with
  | case1 only => simpa [isNormal, areNormal] using h
  | case2 only => simpa [isNormal, areNormal] using h
  | case3 only => simpa [isNormal, areNormal] using h
  | case4 left right =>
      simp only [isNormal, Bool.and_eq_true, Bool.not_eq_true'] at h
      exact h.1.1
  | case5 operand => simpa [isNormal] using h
  | case6 operand => simpa [isNormal] using h
  | case7 inner => simpa [isNormal] using h
  | case8 node =>
      refine ⟨?_, h⟩
      simp_all [isLayer]

/-- What a normal node contributes to a list of statements is normal and no block. -/
theorem isNormal_spliced {node : Node} (h : node.isNormal = true) :
    ∀ stmt ∈ node.spliced, stmt.isBlock = false ∧ stmt.isNormal = true := by
  fun_cases spliced node with
  | case1 stmts =>
      simp only [isNormal, Bool.and_eq_true, List.all_eq_true, Bool.not_eq_true',
        areNormal_iff] at h
      intro stmt hstmt
      exact ⟨h.1 stmt hstmt, h.2 stmt hstmt⟩
  | case2 node hblock =>
      intro stmt hstmt
      obtain rfl := List.mem_singleton.mp hstmt
      refine ⟨?_, h⟩
      cases stmt with
      | block stmts => exact absurd rfl (hblock stmts)
      | _ => rfl

theorem operands_normal {operands : List Node} (h : areNormal operands = true) :
    (operands.map bare).all (!·.isLayer) = true ∧ areNormal (operands.map bare) = true := by
  simp only [List.all_eq_true, areNormal_iff, List.forall_mem_map, Bool.not_eq_true'] at h ⊢
  constructor
  · intro operand hoperand
    exact (isNormal_bare (h operand hoperand)).1
  · intro operand hoperand
    exact (isNormal_bare (h operand hoperand)).2

theorem stmts_normal {stmts : List Node} (h : areNormal stmts = true) :
    (stmts.flatMap spliced).all (!·.isBlock) = true ∧ areNormal (stmts.flatMap spliced) = true := by
  simp only [List.all_eq_true, areNormal_iff, List.mem_flatMap, Bool.not_eq_true'] at h ⊢
  constructor
  · rintro stmt ⟨node, hnode, hstmt⟩
    exact (isNormal_spliced (h node hnode) stmt hstmt).1
  · rintro stmt ⟨node, hnode, hstmt⟩
    exact (isNormal_spliced (h node hnode) stmt hstmt).2

end Node

mutual

/-- The normal form of a tree is normal. -/
theorem Node.isNormal_normal : ∀ node : Node, node.normal.isNormal = true
  | .program stmts => by
      have hstmts := Node.stmts_normal (areNormal_normalNodes stmts)
      rw [Node.normal, Node.isNormal, hstmts.1, hstmts.2]
      rfl
  | .block stmts => by
      have hstmts := Node.stmts_normal (areNormal_normalNodes stmts)
      rw [Node.normal, Node.isNormal, hstmts.1, hstmts.2]
      rfl
  | .declaration typeName ident => by
      rw [Node.normal, Node.isNormal, ident.isNormal_normal]
  | .assignment target value => by
      have hvalue := Node.isNormal_bare value.isNormal_normal
      rw [Node.normal, Node.isNormal, target.isNormal_normal, hvalue.1, hvalue.2]
      rfl
  | .branch cond body alt => by
      have hcond := Node.isNormal_bare cond.isNormal_normal
      rw [Node.normal, Node.isNormal, hcond.1, hcond.2, body.isNormal_normal, alt.isNormal_normal]
      rfl
  | .loop cond body => by
      have hcond := Node.isNormal_bare cond.isNormal_normal
      rw [Node.normal, Node.isNormal, hcond.1, hcond.2, body.isNormal_normal]
      rfl
  | .logical operands ops => by
      have hoperands := Node.operands_normal (areNormal_normalNodes operands)
      rw [Node.normal, Node.isNormal, hoperands.1, hoperands.2]
      rfl
  | .comparison left op right => by
      have hleft := Node.isNormal_bare left.isNormal_normal
      have hright := Node.isNormal_bare right.isNormal_normal
      rw [Node.normal, Node.isNormal, hleft.1, hleft.2, hright.1, hright.2]
      rfl
  | .addition operands ops => by
      have hoperands := Node.operands_normal (areNormal_normalNodes operands)
      rw [Node.normal, Node.isNormal, hoperands.1, hoperands.2]
      rfl
  | .multiplication operands ops => by
      have hoperands := Node.operands_normal (areNormal_normalNodes operands)
      rw [Node.normal, Node.isNormal, hoperands.1, hoperands.2]
      rfl
  | .signed operand ops => by
      have hoperand := Node.isNormal_bare operand.isNormal_normal
      rw [Node.normal, Node.isNormal, hoperand.1, hoperand.2]
      rfl
  | .negated operand ops => by
      have hoperand := Node.isNormal_bare operand.isNormal_normal
      rw [Node.normal, Node.isNormal, hoperand.1, hoperand.2]
      rfl
  | .value inner => by
      have hinner := Node.isNormal_bare inner.isNormal_normal
      rw [Node.normal, Node.isNormal, hinner.1, hinner.2]
      rfl
  | .list items => by
      rw [Node.normal, Node.isNormal, areNormal_normalNodes items]
  | .identifier _ | .int _ | .truth _ | .absent | .datum _ | .foreign _ => rfl

theorem areNormal_normalNodes : ∀ nodes : List Node, areNormal (normalNodes nodes) = true
  | [] => rfl
  | node :: rest => by
      rw [normalNodes, areNormal, node.isNormal_normal, areNormal_normalNodes rest]
      rfl

end

namespace Check

/-! ## Expressions -/

/-- A node without operators counts none. -/
theorem countOps_nil : countOps [] = pure () := by
  have hsame : (fun ctx : Context => ctx.countOps []) = id := by
    funext ctx
    simp [Context.countOps, Counters.increase]
  rw [countOps, hsame]
  rfl

/-- A chain of one operand without operators has the type of this operand. -/
theorem chain_singleton (only : Node) (level : String) (expected : Ty) :
    (do
      let last ← operandsType [only] [] level expected none
      countOps []
      return if ([] : List String).isEmpty then last else some expected) = typeOf only := by
  simp [operandsType, countOps_nil]

/-- A layer has the type of its child. -/
theorem typeOf_bare (node : Node) : typeOf node.bare = typeOf node := by
  fun_cases Node.bare node with
  | case1 only => rw [typeOf, chain_singleton]
  | case2 only => rw [typeOf, chain_singleton]
  | case3 only => rw [typeOf, chain_singleton]
  | case4 left right => rw [eq_comm, typeOf]
  | case5 operand => simp [typeOf]
  | case6 operand => simp [typeOf]
  | case7 inner => rw [eq_comm, typeOf]
  | case8 node => rfl

mutual

/-- An expression and its normal form have the same type, found with the same effects. -/
theorem typeOf_normal : ∀ node : Node, typeOf node.normal = typeOf node
  | .logical operands ops => by
      rw [Node.normal, typeOf, typeOf, operandsType_normal operands]
  | .comparison left none right => by
      rw [Node.normal, typeOf, typeOf, typeOf_bare, typeOf_normal left]
  | .comparison left (some op) right => by
      rw [Node.normal, typeOf, typeOf, typeOf_bare, typeOf_normal left, typeOf_bare,
        typeOf_normal right]
  | .addition operands ops => by
      rw [Node.normal, typeOf, typeOf, operandsType_normal operands]
  | .multiplication operands ops => by
      rw [Node.normal, typeOf, typeOf, operandsType_normal operands]
  | .signed operand ops => by
      rw [Node.normal, typeOf, typeOf, typeOf_bare, typeOf_normal operand]
  | .negated operand ops => by
      rw [Node.normal, typeOf, typeOf, typeOf_bare, typeOf_normal operand]
  | .value inner => by
      rw [Node.normal, typeOf, typeOf, typeOf_bare, typeOf_normal inner]
  | .identifier _ | .int _ | .truth _ | .foreign _ | .absent | .datum _ => rfl
  | .program _ | .block _ | .declaration _ _ | .assignment _ _ | .branch _ _ _ | .loop _ _
  | .list _ => by
      rw [Node.normal]
      simp only [typeOf, Node.kindName]

theorem operandsType_normal : ∀ (operands : List Node) (ops : List String) (level : String)
    (expected : Ty) (last : Option Ty),
    operandsType ((normalNodes operands).map Node.bare) ops level expected last =
      operandsType operands ops level expected last
  | [], ops, level, expected, last => rfl
  | operand :: rest, ops, level, expected, last => by
      rw [normalNodes, List.map_cons, operandsType, operandsType, typeOf_bare,
        typeOf_normal operand]
      simp only [operandsType_normal rest]

end

/-- An expression may be replaced by its normal form without its outermost layer. -/
theorem typeOf_normal_bare (node : Node) : typeOf node.normal.bare = typeOf node := by
  rw [typeOf_bare, typeOf_normal]

/-! ## Statements -/

/-- A node stands for its statements in a list of statements. -/
theorem checkStmts_spliced (node : Node) : checkStmts node.spliced = checkStmt node := by
  fun_cases Node.spliced node with
  | case1 stmts => rw [checkStmt]
  | case2 node => simp [checkStmts_cons, checkStmts_nil]

theorem isAbsent_normal (node : Node) : node.normal.isAbsent = node.isAbsent := by
  cases node with
  | _ => rfl

/-- A node and its normal form are nodes of one kind, with one name. -/
theorem nameOf_normal (node : Node) : nameOf node.normal = nameOf node := by
  cases node with
  | _ => rfl

theorem checkCondition_normal (cond : Node) :
    checkCondition cond.normal.bare = checkCondition cond := by
  rw [checkCondition, checkCondition, typeOf_normal_bare]

mutual

/-- A statement and its normal form are checked alike. -/
theorem checkStmt_normal : ∀ node : Node, checkStmt node.normal = checkStmt node
  | .program stmts => by
      rw [Node.normal, checkStmt, checkStmt, checkStmts_normal stmts]
  | .block stmts => by
      rw [Node.normal, checkStmt, checkStmt, checkStmts_normal stmts]
  | .declaration typeName ident => by
      rw [Node.normal, checkStmt, checkStmt, checkDeclaration, checkDeclaration, nameOf_normal]
  | .assignment target value => by
      rw [Node.normal, checkStmt, checkStmt, checkAssignment, checkAssignment, nameOf_normal,
        typeOf_normal_bare]
  | .branch cond body alt => by
      rw [Node.normal, checkStmt, checkStmt, checkCondition_normal, isAbsent_normal,
        checkStmt_normal body, checkStmt_normal alt]
  | .loop cond body => by
      rw [Node.normal, checkStmt, checkStmt, checkCondition_normal, checkStmt_normal body]
  | .identifier _ | .int _ | .truth _ | .foreign _ | .absent | .datum _ => rfl
  | .logical _ _ | .comparison _ _ _ | .addition _ _ | .multiplication _ _ | .signed _ _
  | .negated _ _ | .value _ | .list _ => by
      rw [Node.normal]
      simp only [checkStmt, Node.kindName]

theorem checkStmts_normal : ∀ stmts : List Node,
    checkStmts ((normalNodes stmts).flatMap Node.spliced) = checkStmts stmts
  | [] => rfl
  | stmt :: rest => by
      rw [normalNodes, List.flatMap_cons, checkStmts_append, checkStmts_spliced,
        checkStmt_normal stmt, checkStmts_normal rest, checkStmts_cons]

end

/-- Normalising preserves checks.  The normal form of a tree has no layer left where an
expression belongs and no block left among statements, and it is checked like the tree itself:
it passes or fails with the same failure, and leaves the same counts, variables and reports. -/
theorem check_normal_eq (tree : Node) :
    tree.normal.isNormal = true ∧ check tree.normal = check tree := by
  refine ⟨tree.isNormal_normal, ?_⟩
  rw [check, check, checkStmt_normal]

/-- The statements `{ x = ((1)); { } }` behind an expression that is no statement. -/
example : (Node.program [.value (.int 0), .block [.assignment (.identifier "x") (.value
    (.signed (.value (.int 1)) [])), .block []]]).normal =
      .program [.value (.int 0), .assignment (.identifier "x") (.int 1)] := rfl

end Check

end NumBool
