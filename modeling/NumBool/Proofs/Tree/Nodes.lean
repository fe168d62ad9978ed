import NumBool.Tree.Basic

/-!
# The nodes of a tree

`Node.nodes` lists a tree with everything below it, whatever stands there and whether or not
a check ever looks at it.  What is said of all nodes of a tree, or added up over them, is said
or added up of the node on top and of its children (`Node.nodes_eq_cons`).
-/

namespace NumBool

/-- The nodes right below a node, from left to right. -/
def Node.children : Node → List Node
  | .program stmts => stmts
  | .block stmts => stmts
  | .declaration _ ident => [ident]
  | .assignment target assigned => [target, assigned]
  | .branch cond body alt => [cond, body, alt]
  | .loop cond body => [cond, body]
  | .logical operands _ => operands
  | .comparison left _ right => [left, right]
  | .addition operands _ => operands
  | .multiplication operands _ => operands
  | .signed operand _ => [operand]
  | .negated operand _ => [operand]
  | .value inner => [inner]
  | .list items => items
  | _ => []

mutual

/-- A node and all nodes below it. -/
def Node.nodes : Node → List Node
  | .program stmts => .program stmts :: nodesOf stmts
  | .block stmts => .block stmts :: nodesOf stmts
  | .declaration typeName ident => .declaration typeName ident :: ident.nodes
  | .assignment target value => .assignment target value :: (target.nodes ++ value.nodes)
  | .branch cond body alt => .branch cond body alt :: (cond.nodes ++ (body.nodes ++ alt.nodes))
  | .loop cond body => .loop cond body :: (cond.nodes ++ body.nodes)
  | .logical operands ops => .logical operands ops :: nodesOf operands
  | .comparison left op right => .comparison left op right :: (left.nodes ++ right.nodes)
  | .addition operands ops => .addition operands ops :: nodesOf operands
  | .multiplication operands ops => .multiplication operands ops :: nodesOf operands
  | .signed operand ops => .signed operand ops :: operand.nodes
  | .negated operand ops => .negated operand ops :: operand.nodes
  | .value inner => .value inner :: inner.nodes
  | .list items => .list items :: nodesOf items
  | node => [node]

/-- Some nodes and all nodes below them. -/
def nodesOf : List Node → List Node
  | [] => []
  | node :: rest => node.nodes ++ nodesOf rest

end

theorem nodesOf_eq_flatMap (nodes : List Node) : nodesOf nodes = nodes.flatMap Node.nodes := by
  induction nodes with
  | nil => rfl
  | cons node rest ih => rw [nodesOf, ih, List.flatMap_cons]

namespace Node

theorem nodes_eq_cons (n : Node) : n.nodes = n :: n.children.flatMap Node.nodes := by
  cases n with
  | _ => simp [nodes, children, nodesOf_eq_flatMap]

theorem mem_nodes_self (n : Node) : n ∈ n.nodes := by
  rw [nodes_eq_cons]
  exact List.mem_cons_self

theorem mem_nodes_of_mem_children {n child m : Node} (hchild : child ∈ n.children)
    (hm : m ∈ child.nodes) : m ∈ n.nodes := by
  rw [nodes_eq_cons]
  exact List.mem_cons_of_mem n (List.mem_flatMap.mpr ⟨child, hchild, hm⟩)

theorem sizeOf_lt_of_mem_children {n child : Node} (h : child ∈ n.children) :
    sizeOf child < sizeOf n := by
  cases n with
  | program _ | block _ | logical _ _ | addition _ _ | multiplication _ _ | list _ =>
      have hlist := List.sizeOf_lt_of_mem h
      simp only [children] at hlist
      simp only [program.sizeOf_spec, block.sizeOf_spec, logical.sizeOf_spec,
        addition.sizeOf_spec, multiplication.sizeOf_spec, list.sizeOf_spec]
      omega
  | declaration _ _ | signed _ _ | negated _ _ | value _ =>
      obtain rfl := List.mem_singleton.mp h
      simp only [declaration.sizeOf_spec, signed.sizeOf_spec, negated.sizeOf_spec,
        value.sizeOf_spec]
      omega
  | assignment _ _ | branch _ _ _ | loop _ _ | comparison _ _ _ =>
      simp only [children, List.mem_cons, List.not_mem_nil, or_false] at h
      simp only [assignment.sizeOf_spec, branch.sizeOf_spec, loop.sizeOf_spec,
        comparison.sizeOf_spec]
      rcases h with rfl | rfl | rfl
      all_goals omega
  | identifier _ | int _ | truth _ | absent | datum _ | foreign _ =>
      exact absurd h List.not_mem_nil

/-- What stands below a node of a tree stands in the tree. -/
theorem mem_nodes_trans {n m : Node} (hm : m ∈ n.nodes) {k : Node} (hk : k ∈ m.nodes) :
    k ∈ n.nodes := by
  rw [nodes_eq_cons, List.mem_cons, List.mem_flatMap] at hm
  rcases hm with rfl | ⟨child, hchild, hm⟩
  · exact hk
  · have hsize := sizeOf_lt_of_mem_children hchild
    exact mem_nodes_of_mem_children hchild (mem_nodes_trans hm hk)
termination_by sizeOf n

theorem mem_nodes_child {tree n child : Node} (hn : n ∈ tree.nodes)
    (hchild : child ∈ n.children) : child ∈ tree.nodes :=
  mem_nodes_trans hn (mem_nodes_of_mem_children hchild child.mem_nodes_self)

end Node

end NumBool
