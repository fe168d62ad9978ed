import Mathlib.Data.List.Induction
import NumBool.Check.Stmt
import NumBool.Proofs.Tree.Shape

/-!
# The tokens of a tree

`Node.tokens` writes a tree down again.  It needs no more than the tree: operators and
types are looked up by their words, a value that holds a whole expression gets its
parentheses back, and an alternative gets its word back unless it is missing.  Trees
that no text holds are written in some way or other.

The tokens of the tree of a phrase are those of the phrase (`Program.tokens_toNode`), so
no two programs have the same tree.  The trees of the shape of a program are those of
the programs that can be written (`shaped_program_iff`).
-/

namespace NumBool

/-- All operators. -/
def Op.all : List Op :=
  [.logic .and, .logic .or, .compare .eq, .compare .ne, .compare .lt, .compare .le,
    .compare .gt, .compare .ge, .sum .plus, .sum .minus, .product .times, .product .div,
    .product .mod, .not]

/-- The token of an operator, given by its text. -/
def operatorTokens (text : String) : List TokenKind :=
  (Op.all.filter (·.text = text)).map .op

theorem operatorTokens_text (op : Op) : operatorTokens op.text = [.op op] := by
  rcases op with (_ | _) | (_ | _ | _ | _ | _ | _) | (_ | _) | (_ | _ | _) | _
  all_goals rfl

theorem flatMap_operatorTokens_signs (signs : List SumOp) :
    (signs.map SumOp.text).flatMap operatorTokens = signs.map fun op => .op (.sum op) := by
  induction signs with
  | nil => rfl
  | cons op signs ih =>
      have hop : operatorTokens op.text = [.op (.sum op)] := operatorTokens_text (.sum op)
      rw [List.map_cons, List.flatMap_cons, hop, ih]
      rfl

theorem flatMap_operatorTokens_marks (n : Nat) :
    (List.replicate n Op.not.text).flatMap operatorTokens = List.replicate n (.op .not) := by
  induction n with
  | zero => rfl
  | succ n ih =>
      rw [List.replicate_succ, List.flatMap_cons, operatorTokens_text, ih]
      rfl

/-- The token of a type, given by its word. -/
def typeTokens (word : String) : List TokenKind :=
  (Ty.ofKeyword? word).toList.map fun ty => .keyword (.type ty)

theorem typeTokens_keyword (ty : Ty) : typeTokens ty.keyword = [.keyword (.type ty)] := by
  rw [typeTokens, Ty.ofKeyword?_keyword]
  rfl

/-- Further operands, each behind its operator. -/
def tailTokens : List String → List (List TokenKind) → List TokenKind
  | op :: ops, part :: parts => operatorTokens op ++ (part ++ tailTokens ops parts)
  | _, _ => []

/-- Operands joined by operators. -/
def chainTokens (ops : List String) : List (List TokenKind) → List TokenKind
  | [] => []
  | first :: rest => first ++ tailTokens ops rest

/-- Whether a node is a whole expression. -/
def Node.isLogical : Node → Bool
  | .logical _ _ => true
  | _ => false

mutual

/-- The tokens of a tree. -/
def Node.tokens : Node → List TokenKind
  | .program stmts => (nodesTokens stmts).flatten
  | .block stmts => Phrase.braced (nodesTokens stmts).flatten
  | .identifier name => [.ident name]
  | .declaration typeName ident => typeTokens typeName ++ (ident.tokens ++ [.mark .semicolon])
  | .assignment target value =>
    target.tokens ++ .mark .assign :: (value.tokens ++ [.mark .semicolon])
  | .branch cond body alt =>
    .keyword .branch :: .mark .openParen :: (cond.tokens ++ .mark .closeParen ::
      (body.tokens ++ if alt.isAbsent then [] else .keyword .otherwise :: alt.tokens))
  | .loop cond body =>
    .keyword .loop :: .mark .openParen :: (cond.tokens ++ .mark .closeParen :: body.tokens)
  | .logical operands ops => chainTokens ops (nodesTokens operands)
  | .comparison left none _ => left.tokens
  | .comparison left (some op) right => left.tokens ++ (operatorTokens op ++ right.tokens)
  | .addition operands ops => chainTokens ops (nodesTokens operands)
  | .multiplication operands ops => chainTokens ops (nodesTokens operands)
  | .signed operand ops => ops.flatMap operatorTokens ++ operand.tokens
  | .negated operand ops => ops.flatMap operatorTokens ++ operand.tokens
  | .value inner =>
    if inner.isLogical then .mark .openParen :: (inner.tokens ++ [.mark .closeParen])
    else inner.tokens
  | .int value => [.int value.toNat]
  | .truth value => [.keyword (.truth value)]
  | _ => []

/-- The tokens of each of some trees. -/
def nodesTokens : List Node → List (List TokenKind)
  | [] => []
  | node :: rest => node.tokens :: nodesTokens rest

end

theorem nodesTokens_eq_map (nodes : List Node) : nodesTokens nodes = nodes.map Node.tokens := by
  induction nodes with
  | nil => rw [nodesTokens, List.map_nil]
  | cons node rest ih => rw [nodesTokens, ih, List.map_cons]

theorem tailTokens_append_singleton (ops : List String) (parts : List (List TokenKind))
    (h : parts.length = ops.length) (op : String) (part : List TokenKind) :
    tailTokens (ops ++ [op]) (parts ++ [part]) =
      tailTokens ops parts ++ (operatorTokens op ++ part) := by
  induction ops generalizing parts with
  | nil =>
      obtain rfl := List.eq_nil_of_length_eq_zero h
      simp [tailTokens]
  | cons first ops ih =>
      cases parts with
      | nil => simp at h
      | cons head parts =>
          have hlength : parts.length = ops.length := by simpa using h
          simp [tailTokens, ih parts hlength]

/-- A chain of one operand. -/
theorem chainTokens_singleton (node : Node) :
    chainTokens [] (nodesTokens [node]) = node.tokens := by
  simp [nodesTokens_eq_map, chainTokens, tailTokens]

/-- A chain with one more operator and one more operand. -/
theorem chainTokens_append_singleton {ops : List String} {nodes : List Node}
    (h : nodes.length = ops.length + 1) (op : Op) (node : Node) :
    chainTokens (ops ++ [op.text]) (nodesTokens (nodes ++ [node])) =
      chainTokens ops (nodesTokens nodes) ++ .op op :: node.tokens := by
  cases nodes with
  | nil => simp at h
  | cons first rest =>
      have hlength : (rest.map Node.tokens).length = ops.length := by simpa using h
      rw [nodesTokens_eq_map, nodesTokens_eq_map, List.map_append, List.map_cons]
      change first.tokens ++ tailTokens (ops ++ [op.text]) (rest.map Node.tokens ++ [node.tokens]) =
        first.tokens ++ tailTokens ops (rest.map Node.tokens) ++ .op op :: node.tokens
      rw [tailTokens_append_singleton _ _ hlength, operatorTokens_text]
      simp

end NumBool

/-!
# The tree of a phrase, written down

The recursion follows the phrases.  A chain of operators is flat in the tree and nested
to the left in the phrase, so its last operator and operand are split off.
-/

namespace NumBool.Phrase

theorem Logical.isLogical_toNode (e : Logical) : e.toNode.isLogical = true := by
  rw [Logical.toNode]
  rfl

mutual

theorem Logical.tokens_toNode : ∀ e : Logical, e.toNode.tokens = e.tokens
  | .single only => by
      have honly := only.tokens_toNode
      rw [Logical.toNode, Logical.operands, Logical.ops, Node.tokens, chainTokens_singleton,
        Logical.tokens]
      exact honly
  | .chain first op last => by
      have hfirst := first.tokens_toNode
      have hlast := last.tokens_toNode
      have hchain := chainTokens_append_singleton first.length_operands (.logic op) last.toNode
      rw [Logical.toNode, Node.tokens] at hfirst
      rw [hfirst, hlast] at hchain
      rw [Logical.toNode, Logical.operands, Logical.ops, Node.tokens, Logical.tokens]
      exact hchain

theorem Comparison.tokens_toNode : ∀ e : Comparison, e.toNode.tokens = e.tokens
  | .single only => by
      rw [Comparison.toNode_single, Comparison.tokens, Node.tokens, only.tokens_toNode]
  | .binary left op right => by
      have hop : operatorTokens op.text = [.op (.compare op)] := operatorTokens_text (.compare op)
      rw [Comparison.toNode_binary, Comparison.tokens, Node.tokens, left.tokens_toNode,
        right.tokens_toNode, hop]
      rfl

theorem Addition.tokens_toNode : ∀ e : Addition, e.toNode.tokens = e.tokens
  | .single only => by
      have honly := only.tokens_toNode
      rw [Addition.toNode, Addition.operands, Addition.ops, Node.tokens, chainTokens_singleton,
        Addition.tokens]
      exact honly
  | .chain first op last => by
      have hfirst := first.tokens_toNode
      have hlast := last.tokens_toNode
      have hchain := chainTokens_append_singleton first.length_operands (.sum op) last.toNode
      rw [Addition.toNode, Node.tokens] at hfirst
      rw [hfirst, hlast] at hchain
      rw [Addition.toNode, Addition.operands, Addition.ops, Node.tokens, Addition.tokens]
      exact hchain

theorem Multiplication.tokens_toNode : ∀ e : Multiplication, e.toNode.tokens = e.tokens
  | .single only => by
      have honly := only.tokens_toNode
      rw [Multiplication.toNode, Multiplication.operands, Multiplication.ops, Node.tokens,
        chainTokens_singleton, Multiplication.tokens]
      exact honly
  | .chain first op last => by
      have hfirst := first.tokens_toNode
      have hlast := last.tokens_toNode
      have hchain := chainTokens_append_singleton first.length_operands (.product op) last.toNode
      rw [Multiplication.toNode, Node.tokens] at hfirst
      rw [hfirst, hlast] at hchain
      rw [Multiplication.toNode, Multiplication.operands, Multiplication.ops, Node.tokens,
        Multiplication.tokens]
      exact hchain

theorem Signed.tokens_toNode : ∀ e : Signed, e.toNode.tokens = e.tokens
  | .mk signs operand => by
      rw [Signed.toNode, Signed.tokens, Node.tokens, operand.tokens_toNode,
        flatMap_operatorTokens_signs]

theorem Negation.tokens_toNode : ∀ e : Negation, e.toNode.tokens = e.tokens
  | .mk marks operand => by
      rw [Negation.toNode, Negation.tokens, Node.tokens, operand.tokens_toNode,
        flatMap_operatorTokens_marks]

theorem Atom.tokens_toNode : ∀ e : Atom, e.toNode.tokens = e.tokens
  | .ident name => by simp [Atom.toNode, Atom.tokens, Node.tokens, Node.isLogical]
  | .int value => by simp [Atom.toNode, Atom.tokens, Node.tokens, Node.isLogical]
  | .truth value => by simp [Atom.toNode, Atom.tokens, Node.tokens, Node.isLogical]
  | .paren inner => by
      rw [Atom.toNode_paren, Atom.tokens, Node.tokens, if_pos inner.isLogical_toNode,
        inner.tokens_toNode]

end

mutual

theorem Stmt.tokens_toNode : ∀ s : Stmt, s.toNode.tokens = s.tokens
  | .declare ty name => by
      rw [Stmt.toNode, Stmt.tokens, Node.tokens, typeTokens_keyword, Node.tokens]
      rfl
  | .assign name value => by
      rw [Stmt.toNode, Stmt.tokens, Node.tokens, value.tokens_toNode, Node.tokens]
      rfl
  | .branch cond body alt => by
      have halt := alt.otherwiseTokens_toNode
      rw [Stmt.toNode, Stmt.tokens, Node.tokens, cond.tokens_toNode, body_tokens_toNode body, halt]
      simp [conditionTokens]
  | .loop cond body => by
      rw [Stmt.toNode, Stmt.tokens, Node.tokens, cond.tokens_toNode, body_tokens_toNode body]
      simp [conditionTokens]
  | .block body => by
      rw [Stmt.toNode, Stmt.tokens, body_tokens_toNode body]

theorem Alternative.otherwiseTokens_toNode : ∀ alt : Alternative,
    (if alt.toNode.isAbsent then [] else .keyword .otherwise :: alt.toNode.tokens) = alt.tokens
  | .absent => by
      rw [Alternative.toNode, Alternative.tokens]
      rfl
  | .block body => by
      rw [Alternative.toNode, Alternative.tokens, body_tokens_toNode body]
      rfl
  | .branch cond body alt => by
      have halt := alt.otherwiseTokens_toNode
      rw [Alternative.toNode, Alternative.tokens, Node.tokens, cond.tokens_toNode,
        body_tokens_toNode body, halt]
      simp [Node.isAbsent, conditionTokens]

theorem body_tokens_toNode : ∀ body : List Stmt,
    (Node.block (stmtNodes body)).tokens = braced (stmtsTokens body)
  | body => by
      rw [Node.tokens, stmtNodes_tokens body]

theorem stmtNodes_tokens : ∀ stmts : List Stmt,
    (nodesTokens (stmtNodes stmts)).flatten = stmtsTokens stmts
  | [] => by
      rw [stmtNodes, nodesTokens, stmtsTokens]
      rfl
  | stmt :: rest => by
      rw [stmtNodes, nodesTokens, stmtsTokens, List.flatten_cons, stmt.tokens_toNode,
        stmtNodes_tokens rest]

end

/-- The tree of a program is written with the tokens of the program. -/
theorem Program.tokens_toNode (program : Program) : program.toNode.tokens = program.tokens := by
  rw [Program.toNode, Program.tokens, Node.tokens, stmtNodes_tokens]

end NumBool.Phrase

/-!
# Trees of the shape, as phrases

Each tree of the shape of a symbol is put together again as a phrase whose tokens can be
written.  Operands and operators of a chain are counted against each other, so that one
induction serves the three levels that have chains.
-/

namespace NumBool.Grammar

open NumBool.Phrase

/-- Some tokens, all of which can be written, make up the value of a symbol. -/
def Symbol.CanBeWritten (symbol : Symbol) (value : symbol.Value) : Prop :=
  ∃ kinds : List TokenKind, (∀ kind ∈ kinds, kind.isWritable = true) ∧
    symbol.HasPhrase kinds value

/-- A chain can be written if each of its operands can.  `D` relates an operand to its tokens
and `E` a chain to its own, so that one induction on the operators serves the three levels. -/
theorem exists_writable_chain {α : Type} {text : α → String} {token : α → TokenKind}
    (D : List TokenKind → Node → Prop) (E : List TokenKind → List Node → List String → Prop)
    (htoken : ∀ op, (token op).isWritable = true)
    (one : ∀ {xs n}, D xs n → E xs [n] [])
    (more : ∀ {xs ys operands ops n} (op : α), E xs operands ops → D ys n →
      E (xs ++ token op :: ys) (operands ++ [n]) (ops ++ [text op]))
    (ops : List α) {operands : List Node} (hlength : operands.length = ops.length + 1)
    (hoperands : ∀ n ∈ operands, ∃ xs, (∀ kind ∈ xs, kind.isWritable = true) ∧ D xs n) :
    ∃ xs, (∀ kind ∈ xs, kind.isWritable = true) ∧ E xs operands (ops.map text) := by
  induction ops using List.reverseRecOn generalizing operands with
  | nil =>
      obtain ⟨n, rfl⟩ := List.length_eq_one_iff.mp hlength
      obtain ⟨xs, hxs, h⟩ := hoperands n List.mem_cons_self
      exact ⟨xs, hxs, one h⟩
  | append_singleton ops op ih =>
      -- the operators end in one more, so the operands do
      obtain ⟨front, last, rfl⟩ : ∃ front last, operands = front ++ [last] := by
        have hne : operands ≠ [] := by
          intro h
          simp [h] at hlength
        exact ⟨_, _, (List.dropLast_concat_getLast hne).symm⟩
      rw [List.forall_mem_append, List.forall_mem_singleton] at hoperands
      obtain ⟨xs, hxs, hfront⟩ := ih (by simpa using hlength) hoperands.1
      obtain ⟨ys, hys, hlast⟩ := hoperands.2
      have hkinds := List.forall_mem_append.mpr
        ⟨hxs, List.forall_mem_cons.mpr ⟨htoken op, hys⟩⟩
      rw [List.map_append]
      exact ⟨_, hkinds, more op hfront hlast⟩

theorem canBeWritten_stmts {nodes : List Node} (h : ∀ n ∈ nodes, Symbol.stmt.CanBeWritten n) :
    Symbol.stmts.CanBeWritten nodes := by
  induction nodes with
  | nil => exact ⟨[], by simp, [], by rw [stmtsTokens], by rw [stmtNodes]⟩
  | cons n nodes ih =>
      rw [List.forall_mem_cons] at h
      obtain ⟨xs, hxs, s, rfl, rfl⟩ := h.1
      obtain ⟨ys, hys, body, rfl, rfl⟩ := ih h.2
      exact ⟨_, List.forall_mem_append.mpr ⟨hxs, hys⟩, s :: body, by rw [stmtsTokens],
        by rw [stmtNodes]⟩

/-- Every value of the shape of its symbol can be written. -/
theorem Shaped.canBeWritten {symbol : Symbol} {value : symbol.Value} (h : Shaped symbol value) :
    symbol.CanBeWritten value := by
  induction h with
  | program _ ih =>
      obtain ⟨xs, hxs, body, rfl, rfl⟩ := ih
      exact ⟨_, hxs, ⟨body⟩, rfl, rfl⟩
  | stmts _ ih => exact canBeWritten_stmts ih
  | stmtDeclaration _ ih => exact ih
  | stmtAssignment _ ih => exact ih
  | stmtBranch _ ih =>
      obtain ⟨xs, hxs, cond, body, alt, rfl, rfl⟩ := ih
      exact ⟨_, hxs, .branch cond body alt, rfl, rfl⟩
  | stmtLoop _ ih => exact ih
  | stmtBlock _ ih =>
      obtain ⟨xs, hxs, body, rfl, rfl⟩ := ih
      exact ⟨_, hxs, .block body, by rw [Stmt.tokens], by rw [Stmt.toNode]⟩
  | declaration ty hname =>
      exact ⟨_, by simpa [TokenKind.isWritable] using hname, (Derives.declaration ty _).hasPhrase⟩
  | assignment hname _ ih =>
      obtain ⟨xs, hxs, e, rfl, rfl⟩ := ih
      refine ⟨_, ?_, (Derives.assignment _ (.expr e.derives)).hasPhrase⟩
      simp only [List.forall_mem_cons, List.forall_mem_append]
      exact ⟨hname, rfl, hxs, rfl, by simp⟩
  | branch _ _ _ ihcond ihbody ihalt =>
      obtain ⟨xs, hxs, cond, rfl, rfl⟩ := ihcond
      obtain ⟨ys, hys, body, rfl, rfl⟩ := ihbody
      obtain ⟨zs, hzs, alt, rfl, rfl⟩ := ihalt
      refine ⟨_, ?_,
        (Derives.branch (.expr cond.derives) (body_derives body) alt.derives).hasPhrase⟩
      simp only [List.forall_mem_cons, List.forall_mem_append]
      exact ⟨rfl, rfl, hxs, rfl, hys, hzs⟩
  | alternativeBlock _ ih =>
      obtain ⟨xs, hxs, body, rfl, rfl⟩ := ih
      exact ⟨_, List.forall_mem_cons.mpr ⟨rfl, hxs⟩,
        (Derives.alternativeBlock (body_derives body)).hasPhrase⟩
  | alternativeBranch _ ih =>
      obtain ⟨xs, hxs, cond, body, alt, rfl, rfl⟩ := ih
      refine ⟨_, List.forall_mem_cons.mpr ⟨?_, hxs⟩, .branch cond body alt,
        by rw [Alternative.tokens, Stmt.tokens], by rw [Alternative.toNode, Stmt.toNode]⟩
      rfl
  | alternativeAbsent => exact ⟨[], by simp, Derives.alternativeEmpty.hasPhrase⟩
  | loop _ _ ihcond ihbody =>
      obtain ⟨xs, hxs, cond, rfl, rfl⟩ := ihcond
      obtain ⟨ys, hys, body, rfl, rfl⟩ := ihbody
      refine ⟨_, ?_, (Derives.loop (.expr cond.derives) (body_derives body)).hasPhrase⟩
      simp only [List.forall_mem_cons, List.forall_mem_append]
      exact ⟨rfl, rfl, hxs, rfl, hys⟩
  | block _ ih =>
      obtain ⟨xs, hxs, body, rfl, rfl⟩ := ih
      refine ⟨_, ?_, body, rfl, rfl⟩
      simp only [braced, List.forall_mem_cons, List.forall_mem_append]
      exact ⟨rfl, hxs, rfl, by simp⟩
  | expr _ ih => exact ih
  | logical ops hlength _ ih =>
      obtain ⟨xs, hxs, h⟩ := exists_writable_chain (Derives .comparison)
        (fun xs operands ops => Derives .logical xs (.logical operands ops))
        (fun _ => rfl) .logicalOne .logicalMore ops hlength fun n hn => by
          obtain ⟨ys, hys, e, rfl, rfl⟩ := ih n hn
          exact ⟨_, hys, e.derives⟩
      exact ⟨xs, hxs, h.hasPhrase⟩
  | comparisonOne _ ih =>
      obtain ⟨xs, hxs, only, rfl, rfl⟩ := ih
      exact ⟨_, hxs, (Derives.comparisonOne only.derives).hasPhrase⟩
  | comparison op _ _ ihleft ihright =>
      obtain ⟨xs, hxs, left, rfl, rfl⟩ := ihleft
      obtain ⟨ys, hys, right, rfl, rfl⟩ := ihright
      exact ⟨_, List.forall_mem_append.mpr ⟨hxs, List.forall_mem_cons.mpr ⟨rfl, hys⟩⟩,
        (Derives.comparisonBinary op left.derives right.derives).hasPhrase⟩
  | addition ops hlength _ ih =>
      obtain ⟨xs, hxs, h⟩ := exists_writable_chain (Derives .multiplication)
        (fun xs operands ops => Derives .addition xs (.addition operands ops))
        (fun _ => rfl) .additionOne .additionMore ops hlength fun n hn => by
          obtain ⟨ys, hys, e, rfl, rfl⟩ := ih n hn
          exact ⟨_, hys, e.derives⟩
      exact ⟨xs, hxs, h.hasPhrase⟩
  | multiplication ops hlength _ ih =>
      obtain ⟨xs, hxs, h⟩ := exists_writable_chain (Derives .signed)
        (fun xs operands ops => Derives .multiplication xs (.multiplication operands ops))
        (fun _ => rfl) .multiplicationOne .multiplicationMore ops hlength fun n hn => by
          obtain ⟨ys, hys, e, rfl, rfl⟩ := ih n hn
          exact ⟨_, hys, e.derives⟩
      exact ⟨xs, hxs, h.hasPhrase⟩
  | signed _ _ ihops ihoperand =>
      obtain ⟨xs, hxs, signs, rfl, rfl⟩ := ihops
      obtain ⟨ys, hys, operand, rfl, rfl⟩ := ihoperand
      exact ⟨_, List.forall_mem_append.mpr ⟨hxs, hys⟩,
        (derives_signed signs operand.derives).hasPhrase⟩
  | signs ops => exact ⟨_, by simp [TokenKind.isWritable], ops, rfl, rfl⟩
  | negated _ _ ihops ihoperand =>
      obtain ⟨xs, hxs, marks, rfl, rfl⟩ := ihops
      obtain ⟨ys, hys, operand, rfl, rfl⟩ := ihoperand
      exact ⟨_, List.forall_mem_append.mpr ⟨hxs, hys⟩,
        (derives_negated marks operand.derives).hasPhrase⟩
  | marks n => exact ⟨_, by simp [TokenKind.isWritable], n, rfl, rfl⟩
  | valueIdent hname =>
      refine ⟨_, ?_, (Derives.valueIdent _).hasPhrase⟩
      exact List.forall_mem_singleton.mpr hname
  | valueInt hvalue =>
      refine ⟨_, ?_, (Derives.valueInt _).hasPhrase⟩
      exact List.forall_mem_singleton.mpr (decide_eq_true hvalue)
  | valueTruth value =>
      exact ⟨_, List.forall_mem_singleton.mpr rfl, (Derives.valueTruth value).hasPhrase⟩
  | valueParen _ ih =>
      obtain ⟨xs, hxs, inner, rfl, rfl⟩ := ih
      refine ⟨_, ?_, (Derives.valueParen (.expr inner.derives)).hasPhrase⟩
      simp only [List.forall_mem_cons, List.forall_mem_append]
      exact ⟨rfl, hxs, rfl, by simp⟩

/-- The trees of the shape of a program are those of the programs that can be written. -/
theorem shaped_program_iff {tree : Node} :
    Shaped .program tree ↔
      ∃ p : Program, (∀ kind ∈ p.tokens, kind.isWritable = true) ∧ p.toNode = tree := by
  constructor
  · intro h
    obtain ⟨kinds, hkinds, p, rfl, rfl⟩ := h.canBeWritten
    exact ⟨p, hkinds, rfl⟩
  · intro h
    obtain ⟨p, hkinds, rfl⟩ := h
    exact p.derives.shaped hkinds

end NumBool.Grammar
