import NumBool.Phrase.Tokens
import NumBool.Phrase.Tree

/-!
# The grammar of the language

`Derives symbol kinds value` is the derivation relation of the context-free grammar:
the tokens `kinds` derive from `symbol`, and `value` is what the actions of the
productions build on the way.  There is one constructor for each production, written
with the symbols of its right side in order.  Lists are left recursive, and a chain
of operators of one level adds each further operand to the node it has already built.

The phrases are a second form of the same grammar.  A phrase is a derivation with its
lists flattened, so every phrase derives (`Program.derives`) and every derivation
comes from a phrase (`Derives.hasPhrase`).
-/

namespace NumBool.Grammar

/-- The nonterminal symbols, from whole programs down to single values. -/
inductive Symbol where
  | program
  | stmts
  | stmt
  | declaration
  | assignment
  | branch
  | alternative
  | loop
  | block
  | expr
  | logical
  | comparison
  | addition
  | multiplication
  | signed
  | signs
  | negated
  | marks
  | value
  deriving DecidableEq, Repr

/-- What the actions build for a symbol: a tree, but for the lists of statements, of
signs and of negation marks. -/
abbrev Symbol.Value : Symbol → Type
  | .stmts => List Node
  | .signs => List String
  | .marks => List String
  | _ => Node

/-- The derivations of the grammar, with the value that each of them builds. -/
inductive Derives : (symbol : Symbol) → List TokenKind → symbol.Value → Prop
  | program {xs : List TokenKind} {stmts : List Node} (body : Derives .stmts xs stmts) :
      Derives .program xs (.program stmts)
  | programEmpty : Derives .program [] (.program [])
  | stmtsMore {xs ys : List TokenKind} {stmts : List Node} {stmt : Node}
      (front : Derives .stmts xs stmts) (last : Derives .stmt ys stmt) :
      Derives .stmts (xs ++ ys) (stmts ++ [stmt])
  | stmtsOne {xs : List TokenKind} {stmt : Node} (only : Derives .stmt xs stmt) :
      Derives .stmts xs [stmt]
  | stmtDeclaration {xs : List TokenKind} {stmt : Node}
      (h : Derives .declaration xs stmt) : Derives .stmt xs stmt
  | stmtAssignment {xs : List TokenKind} {stmt : Node}
      (h : Derives .assignment xs stmt) : Derives .stmt xs stmt
  | stmtBranch {xs : List TokenKind} {stmt : Node}
      (h : Derives .branch xs stmt) : Derives .stmt xs stmt
  | stmtLoop {xs : List TokenKind} {stmt : Node}
      (h : Derives .loop xs stmt) : Derives .stmt xs stmt
  | stmtBlock {xs : List TokenKind} {stmt : Node}
      (h : Derives .block xs stmt) : Derives .stmt xs stmt
  | declaration (ty : Ty) (name : String) :
      Derives .declaration [.keyword (.type ty), .ident name, .mark .semicolon]
        (.declaration ty.keyword (.identifier name))
  | assignment (name : String) {xs : List TokenKind} {value : Node}
      (expr : Derives .expr xs value) :
      Derives .assignment (.ident name :: .mark .assign :: (xs ++ [.mark .semicolon]))
        (.assignment (.identifier name) value)
  | branch {xs ys zs : List TokenKind} {cond body alt : Node}
      (expr : Derives .expr xs cond) (block : Derives .block ys body)
      (rest : Derives .alternative zs alt) :
      Derives .branch
        (.keyword .branch :: .mark .openParen :: (xs ++ .mark .closeParen :: (ys ++ zs)))
        (.branch cond body alt)
  | alternativeBlock {xs : List TokenKind} {body : Node} (h : Derives .block xs body) :
      Derives .alternative (.keyword .otherwise :: xs) body
  | alternativeBranch {xs : List TokenKind} {stmt : Node} (h : Derives .branch xs stmt) :
      Derives .alternative (.keyword .otherwise :: xs) stmt
  | alternativeEmpty : Derives .alternative [] .absent
  | loop {xs ys : List TokenKind} {cond body : Node}
      (expr : Derives .expr xs cond) (block : Derives .block ys body) :
      Derives .loop
        (.keyword .loop :: .mark .openParen :: (xs ++ .mark .closeParen :: ys))
        (.loop cond body)
  | block {xs : List TokenKind} {stmts : List Node} (body : Derives .stmts xs stmts) :
      Derives .block (.mark .openBrace :: (xs ++ [.mark .closeBrace])) (.block stmts)
  | blockEmpty : Derives .block [.mark .openBrace, .mark .closeBrace] (.block [])
  | expr {xs : List TokenKind} {node : Node} (h : Derives .logical xs node) :
      Derives .expr xs node
  | logicalMore {xs ys : List TokenKind} {operands : List Node} {ops : List String}
      {operand : Node} (op : LogicOp) (first : Derives .logical xs (.logical operands ops))
      (last : Derives .comparison ys operand) :
      Derives .logical (xs ++ .op (.logic op) :: ys)
        (.logical (operands ++ [operand]) (ops ++ [op.text]))
  | logicalOne {xs : List TokenKind} {operand : Node}
      (only : Derives .comparison xs operand) : Derives .logical xs (.logical [operand] [])
  | comparisonBinary {xs ys : List TokenKind} {left right : Node} (op : CompareOp)
      (first : Derives .addition xs left) (last : Derives .addition ys right) :
      Derives .comparison (xs ++ .op (.compare op) :: ys)
        (.comparison left (some op.text) right)
  | comparisonOne {xs : List TokenKind} {left : Node} (only : Derives .addition xs left) :
      Derives .comparison xs (.comparison left none .absent)
  | additionMore {xs ys : List TokenKind} {operands : List Node} {ops : List String}
      {operand : Node} (op : SumOp) (first : Derives .addition xs (.addition operands ops))
      (last : Derives .multiplication ys operand) :
      Derives .addition (xs ++ .op (.sum op) :: ys)
        (.addition (operands ++ [operand]) (ops ++ [op.text]))
  | additionOne {xs : List TokenKind} {operand : Node}
      (only : Derives .multiplication xs operand) :
      Derives .addition xs (.addition [operand] [])
  | multiplicationMore {xs ys : List TokenKind} {operands : List Node} {ops : List String}
      {operand : Node} (op : ProductOp)
      (first : Derives .multiplication xs (.multiplication operands ops))
      (last : Derives .signed ys operand) :
      Derives .multiplication (xs ++ .op (.product op) :: ys)
        (.multiplication (operands ++ [operand]) (ops ++ [op.text]))
  | multiplicationOne {xs : List TokenKind} {operand : Node}
      (only : Derives .signed xs operand) :
      Derives .multiplication xs (.multiplication [operand] [])
  | signedSigns {xs ys : List TokenKind} {ops : List String} {operand : Node}
      (signs : Derives .signs xs ops) (last : Derives .negated ys operand) :
      Derives .signed (xs ++ ys) (.signed operand ops)
  | signedPlain {xs : List TokenKind} {operand : Node} (only : Derives .negated xs operand) :
      Derives .signed xs (.signed operand [])
  | signsMore {xs : List TokenKind} {ops : List String} (op : SumOp)
      (front : Derives .signs xs ops) :
      Derives .signs (xs ++ [.op (.sum op)]) (ops ++ [op.text])
  | signsOne (op : SumOp) : Derives .signs [.op (.sum op)] [op.text]
  | negatedMarks {xs ys : List TokenKind} {ops : List String} {operand : Node}
      (marks : Derives .marks xs ops) (last : Derives .value ys operand) :
      Derives .negated (xs ++ ys) (.negated operand ops)
  | negatedPlain {xs : List TokenKind} {operand : Node} (only : Derives .value xs operand) :
      Derives .negated xs (.negated operand [])
  | marksMore {xs : List TokenKind} {ops : List String} (front : Derives .marks xs ops) :
      Derives .marks (xs ++ [.op .not]) (ops ++ [Op.not.text])
  | marksOne : Derives .marks [.op .not] [Op.not.text]
  | valueIdent (name : String) : Derives .value [.ident name] (.value (.identifier name))
  | valueInt (value : Nat) : Derives .value [.int value] (.value (.int value))
  | valueTruth (value : Bool) :
      Derives .value [.keyword (.truth value)] (.value (.truth value))
  | valueParen {xs : List TokenKind} {inner : Node} (expr : Derives .expr xs inner) :
      Derives .value (.mark .openParen :: (xs ++ [.mark .closeParen])) (.value inner)

end NumBool.Grammar

/-!
# Phrases as derivations

A phrase and a derivation group a chain in the same way: each further operator and
operand is added at the end of what is there.
-/

namespace NumBool

theorem forall_mem_append_singleton {α : Type} {p : α → Prop} {xs : List α} {x : α}
    (hxs : ∀ y ∈ xs, p y) (hx : p x) : ∀ y ∈ xs ++ [x], p y := by
  rw [List.forall_mem_append]
  exact ⟨hxs, List.forall_mem_singleton.mpr hx⟩

end NumBool

namespace NumBool.Phrase

open NumBool.Grammar

theorem Logical.length_operands : ∀ e : Logical, e.operands.length = e.ops.length + 1
  | .single _ => by simp [operands, ops]
  | .chain first _ _ => by simp [operands, ops, length_operands first]

theorem Addition.length_operands : ∀ e : Addition, e.operands.length = e.ops.length + 1
  | .single _ => by simp [operands, ops]
  | .chain first _ _ => by simp [operands, ops, length_operands first]

theorem Multiplication.length_operands : ∀ e : Multiplication,
    e.operands.length = e.ops.length + 1
  | .single _ => by simp [operands, ops]
  | .chain first _ _ => by simp [operands, ops, length_operands first]

theorem derives_signs_append {xs : List TokenKind} {ops : List String}
    (h : Derives .signs xs ops) (signs : List SumOp) :
    Derives .signs (xs ++ signs.map fun op => .op (.sum op)) (ops ++ signs.map SumOp.text) := by
  induction signs generalizing xs ops with
  | nil => simpa using h
  | cons op signs ih => simpa using ih (.signsMore op h)

theorem derives_signed {xs : List TokenKind} {operand : Node} (signs : List SumOp)
    (h : Derives .negated xs operand) :
    Derives .signed (signs.map (fun op => .op (.sum op)) ++ xs)
      (.signed operand (signs.map SumOp.text)) := by
  cases signs with
  | nil => exact .signedPlain h
  | cons op signs => exact .signedSigns (derives_signs_append (.signsOne op) signs) h

theorem derives_marks_append {xs : List TokenKind} {ops : List String}
    (h : Derives .marks xs ops) (n : Nat) :
    Derives .marks (xs ++ List.replicate n (.op .not))
      (ops ++ List.replicate n Op.not.text) := by
  induction n generalizing xs ops with
  | zero => simpa using h
  | succ n ih => simpa [List.replicate_succ] using ih (.marksMore h)

theorem derives_negated {xs : List TokenKind} {operand : Node} (marks : Nat)
    (h : Derives .value xs operand) :
    Derives .negated (List.replicate marks (.op .not) ++ xs)
      (.negated operand (List.replicate marks Op.not.text)) := by
  cases marks with
  | zero => exact .negatedPlain h
  | succ n => exact .negatedMarks (derives_marks_append .marksOne n) h

mutual

theorem Logical.derives : ∀ e : Logical, Derives .logical e.tokens e.toNode
  | .single only => by
      rw [Logical.tokens, Logical.toNode, Logical.operands, Logical.ops]
      exact .logicalOne only.derives
  | .chain first op last => by
      rw [Logical.tokens, Logical.toNode, Logical.operands, Logical.ops]
      exact .logicalMore op first.derives last.derives

theorem Comparison.derives : ∀ e : Comparison, Derives .comparison e.tokens e.toNode
  | .single only => by
      rw [Comparison.tokens, Comparison.toNode_single]
      exact .comparisonOne only.derives
  | .binary left op right => by
      rw [Comparison.tokens, Comparison.toNode_binary]
      exact .comparisonBinary op left.derives right.derives

theorem Addition.derives : ∀ e : Addition, Derives .addition e.tokens e.toNode
  | .single only => by
      rw [Addition.tokens, Addition.toNode, Addition.operands_single, Addition.ops]
      exact .additionOne only.derives
  | .chain first op last => by
      rw [Addition.tokens, Addition.toNode, Addition.operands_chain, Addition.ops]
      exact .additionMore op first.derives last.derives

theorem Multiplication.derives :
    ∀ e : Multiplication, Derives .multiplication e.tokens e.toNode
  | .single only => by
      rw [Multiplication.tokens, Multiplication.toNode, Multiplication.operands, Multiplication.ops]
      exact .multiplicationOne only.derives
  | .chain first op last => by
      rw [Multiplication.tokens, Multiplication.toNode, Multiplication.operands, Multiplication.ops]
      exact .multiplicationMore op first.derives last.derives

theorem Signed.derives : ∀ e : Signed, Derives .signed e.tokens e.toNode
  | .mk signs operand => by
      rw [Signed.tokens, Signed.toNode]
      exact derives_signed signs operand.derives

theorem Negation.derives : ∀ e : Negation, Derives .negated e.tokens e.toNode
  | .mk marks operand => by
      rw [Negation.tokens, Negation.toNode]
      exact derives_negated marks operand.derives

theorem Atom.derives : ∀ e : Atom, Derives .value e.tokens e.toNode
  | .ident name => by
      rw [Atom.tokens, Atom.toNode]
      exact .valueIdent name
  | .int value => by
      rw [Atom.tokens, Atom.toNode]
      exact .valueInt value
  | .truth value => by
      rw [Atom.tokens, Atom.toNode]
      exact .valueTruth value
  | .paren inner => by
      rw [Atom.tokens, Atom.toNode_paren]
      exact .valueParen (.expr inner.derives)

end

mutual

theorem Stmt.derives : ∀ s : Stmt, Derives .stmt s.tokens s.toNode
  | .declare ty name => by
      rw [Stmt.tokens, Stmt.toNode]
      exact .stmtDeclaration (.declaration ty name)
  | .assign name value => by
      rw [Stmt.tokens, Stmt.toNode]
      exact .stmtAssignment (.assignment name (.expr value.derives))
  | .branch cond body alt => by
      rw [Stmt.tokens, Stmt.toNode]
      have h := Derives.branch (.expr cond.derives) (body_derives body) alt.derives
      simpa [conditionTokens, braced] using Derives.stmtBranch h
  | .loop cond body => by
      rw [Stmt.tokens, Stmt.toNode]
      have h := Derives.loop (.expr cond.derives) (body_derives body)
      simpa [conditionTokens, braced] using Derives.stmtLoop h
  | .block body => by
      rw [Stmt.tokens, Stmt.toNode]
      exact .stmtBlock (body_derives body)

theorem Alternative.derives : ∀ alt : Alternative, Derives .alternative alt.tokens alt.toNode
  | .absent => by
      rw [Alternative.tokens, Alternative.toNode]
      exact .alternativeEmpty
  | .block body => by
      rw [Alternative.tokens, Alternative.toNode]
      exact .alternativeBlock (body_derives body)
  | .branch cond body alt => by
      rw [Alternative.tokens, Alternative.toNode]
      have h := Derives.branch (.expr cond.derives) (body_derives body) alt.derives
      simpa [conditionTokens, braced] using Derives.alternativeBranch h

theorem body_derives : ∀ stmts : List Stmt,
    Derives .block (braced (stmtsTokens stmts)) (.block (stmtNodes stmts))
  | [] => by
      rw [stmtsTokens, stmtNodes]
      exact .blockEmpty
  | stmt :: rest => by
      rw [stmtsTokens, stmtNodes]
      exact .block (stmts_derives rest _ _ (.stmtsOne stmt.derives))

theorem stmts_derives : ∀ (stmts : List Stmt) (xs : List TokenKind) (nodes : List Node),
    Derives .stmts xs nodes →
      Derives .stmts (xs ++ stmtsTokens stmts) (nodes ++ stmtNodes stmts)
  | [], xs, nodes, h => by simpa [stmtsTokens, stmtNodes] using h
  | stmt :: rest, xs, nodes, h => by
      have hmore := stmts_derives rest _ _ (.stmtsMore h stmt.derives)
      simpa [stmtsTokens, stmtNodes] using hmore

end

/-- Every program derives from the start symbol. -/
theorem Program.derives (program : Program) :
    Derives .program program.tokens program.toNode := by
  rcases program with ⟨stmts⟩
  rw [Program.tokens, Program.toNode]
  cases stmts with
  | nil =>
      rw [stmtsTokens, stmtNodes]
      exact .programEmpty
  | cons stmt rest =>
      rw [stmtsTokens, stmtNodes]
      exact .program (stmts_derives rest _ _ (.stmtsOne stmt.derives))

end NumBool.Phrase

/-!
# Derivations as phrases

The value of a symbol is the tree of a phrase of that symbol, so the induction over a
derivation puts the phrase together again.
-/

namespace NumBool.Grammar

open NumBool.Phrase

/-- Some phrase of the symbol has these tokens and this value. -/
def Symbol.HasPhrase : (symbol : Symbol) → List TokenKind → symbol.Value → Prop
  | .program, kinds, node => ∃ p : Program, p.tokens = kinds ∧ p.toNode = node
  | .stmts, kinds, nodes => ∃ body : List Stmt, stmtsTokens body = kinds ∧ stmtNodes body = nodes
  | .stmt, kinds, node => ∃ s : Stmt, s.tokens = kinds ∧ s.toNode = node
  | .declaration, kinds, node => ∃ s : Stmt, s.tokens = kinds ∧ s.toNode = node
  | .assignment, kinds, node => ∃ s : Stmt, s.tokens = kinds ∧ s.toNode = node
  | .branch, kinds, node => ∃ (cond : Logical) (body : List Stmt) (alt : Alternative),
      (Stmt.branch cond body alt).tokens = kinds ∧ (Stmt.branch cond body alt).toNode = node
  | .alternative, kinds, node => ∃ alt : Alternative, alt.tokens = kinds ∧ alt.toNode = node
  | .loop, kinds, node => ∃ s : Stmt, s.tokens = kinds ∧ s.toNode = node
  | .block, kinds, node => ∃ body : List Stmt,
      braced (stmtsTokens body) = kinds ∧ .block (stmtNodes body) = node
  | .expr, kinds, node => ∃ e : Logical, e.tokens = kinds ∧ e.toNode = node
  | .logical, kinds, node => ∃ e : Logical, e.tokens = kinds ∧ e.toNode = node
  | .comparison, kinds, node => ∃ e : Comparison, e.tokens = kinds ∧ e.toNode = node
  | .addition, kinds, node => ∃ e : Addition, e.tokens = kinds ∧ e.toNode = node
  | .multiplication, kinds, node => ∃ e : Multiplication, e.tokens = kinds ∧ e.toNode = node
  | .signed, kinds, node => ∃ e : Signed, e.tokens = kinds ∧ e.toNode = node
  | .signs, kinds, ops => ∃ signs : List SumOp,
      signs.map (fun op => .op (.sum op)) = kinds ∧ signs.map SumOp.text = ops
  | .negated, kinds, node => ∃ e : Negation, e.tokens = kinds ∧ e.toNode = node
  | .marks, kinds, ops => ∃ n : Nat,
      List.replicate n (.op .not) = kinds ∧ List.replicate n Op.not.text = ops
  | .value, kinds, node => ∃ e : Atom, e.tokens = kinds ∧ e.toNode = node

/-- Every derivation comes from a phrase. -/
theorem Derives.hasPhrase {symbol : Symbol} {kinds : List TokenKind} {value : symbol.Value}
    (h : Derives symbol kinds value) : symbol.HasPhrase kinds value := by
  induction h with
  | program _ ih =>
      rcases ih with ⟨body, rfl, rfl⟩
      exact ⟨⟨body⟩, rfl, rfl⟩
  | programEmpty => exact ⟨⟨[]⟩, by simp [Program.tokens], by simp [Program.toNode, stmtNodes]⟩
  | stmtsMore _ _ ihfront ihlast =>
      rcases ihfront with ⟨body, rfl, rfl⟩
      rcases ihlast with ⟨stmt, rfl, rfl⟩
      exact ⟨body ++ [stmt], by simp, by simp [stmtNodes_eq_map]⟩
  | stmtsOne _ ih =>
      rcases ih with ⟨stmt, rfl, rfl⟩
      exact ⟨[stmt], by simp, by simp [stmtNodes_eq_map]⟩
  | stmtDeclaration _ ih => exact ih
  | stmtAssignment _ ih => exact ih
  | stmtBranch _ ih =>
      rcases ih with ⟨cond, body, alt, rfl, rfl⟩
      exact ⟨.branch cond body alt, rfl, rfl⟩
  | stmtLoop _ ih => exact ih
  | stmtBlock _ ih =>
      rcases ih with ⟨body, rfl, rfl⟩
      exact ⟨.block body, by rw [Stmt.tokens], by rw [Stmt.toNode]⟩
  | declaration ty name => exact ⟨.declare ty name, by rw [Stmt.tokens], by rw [Stmt.toNode]⟩
  | assignment name _ ih =>
      rcases ih with ⟨e, rfl, rfl⟩
      exact ⟨.assign name e, by rw [Stmt.tokens], by rw [Stmt.toNode]⟩
  | branch _ _ _ ihcond ihbody ihalt =>
      rcases ihcond with ⟨cond, rfl, rfl⟩
      rcases ihbody with ⟨body, rfl, rfl⟩
      rcases ihalt with ⟨alt, rfl, rfl⟩
      exact ⟨cond, body, alt, by simp [Stmt.tokens, conditionTokens], by rw [Stmt.toNode]⟩
  | alternativeBlock _ ih =>
      rcases ih with ⟨body, rfl, rfl⟩
      exact ⟨.block body, by rw [Alternative.tokens], by rw [Alternative.toNode]⟩
  | alternativeBranch _ ih =>
      rcases ih with ⟨cond, body, alt, rfl, rfl⟩
      exact ⟨.branch cond body alt, by rw [Alternative.tokens, Stmt.tokens],
        by rw [Alternative.toNode, Stmt.toNode]⟩
  | alternativeEmpty => exact ⟨.absent, by rw [Alternative.tokens], by rw [Alternative.toNode]⟩
  | loop _ _ ihcond ihbody =>
      rcases ihcond with ⟨cond, rfl, rfl⟩
      rcases ihbody with ⟨body, rfl, rfl⟩
      exact ⟨.loop cond body, by simp [Stmt.tokens, conditionTokens], by rw [Stmt.toNode]⟩
  | block _ ih =>
      rcases ih with ⟨body, rfl, rfl⟩
      exact ⟨body, rfl, rfl⟩
  | blockEmpty => exact ⟨[], by simp [braced], by rw [stmtNodes]⟩
  | expr _ ih => exact ih
  | logicalMore op _ _ ihfirst ihlast =>
      rcases ihfirst with ⟨first, rfl, hfirst⟩
      rcases ihlast with ⟨last, rfl, rfl⟩
      injection hfirst with hoperands hops
      refine ⟨.chain first op last, by rw [Logical.tokens], ?_⟩
      rw [Logical.toNode, Logical.operands, Logical.ops, hoperands, hops]
  | logicalOne _ ih =>
      rcases ih with ⟨only, rfl, rfl⟩
      refine ⟨.single only, by rw [Logical.tokens], ?_⟩
      rw [Logical.toNode, Logical.operands, Logical.ops]
  | comparisonBinary op _ _ ihleft ihright =>
      rcases ihleft with ⟨left, rfl, rfl⟩
      rcases ihright with ⟨right, rfl, rfl⟩
      exact ⟨.binary left op right, by rw [Comparison.tokens], by rw [Comparison.toNode_binary]⟩
  | comparisonOne _ ih =>
      rcases ih with ⟨only, rfl, rfl⟩
      exact ⟨.single only, by rw [Comparison.tokens],
        by rw [Comparison.toNode_single]⟩
  | additionMore op _ _ ihfirst ihlast =>
      rcases ihfirst with ⟨first, rfl, hfirst⟩
      rcases ihlast with ⟨last, rfl, rfl⟩
      injection hfirst with hoperands hops
      refine ⟨.chain first op last, by rw [Addition.tokens], ?_⟩
      rw [Addition.toNode, Addition.operands_chain, Addition.ops, hoperands, hops]
  | additionOne _ ih =>
      rcases ih with ⟨only, rfl, rfl⟩
      refine ⟨.single only, by rw [Addition.tokens], ?_⟩
      rw [Addition.toNode, Addition.operands_single, Addition.ops]
  | multiplicationMore op _ _ ihfirst ihlast =>
      rcases ihfirst with ⟨first, rfl, hfirst⟩
      rcases ihlast with ⟨last, rfl, rfl⟩
      injection hfirst with hoperands hops
      refine ⟨.chain first op last, by rw [Multiplication.tokens], ?_⟩
      rw [Multiplication.toNode, Multiplication.operands, Multiplication.ops, hoperands, hops]
  | multiplicationOne _ ih =>
      rcases ih with ⟨only, rfl, rfl⟩
      refine ⟨.single only, by rw [Multiplication.tokens], ?_⟩
      rw [Multiplication.toNode, Multiplication.operands, Multiplication.ops]
  | signedSigns _ _ ihsigns ihlast =>
      rcases ihsigns with ⟨signs, rfl, rfl⟩
      rcases ihlast with ⟨operand, rfl, rfl⟩
      exact ⟨.mk signs operand, by rw [Signed.tokens], by rw [Signed.toNode]⟩
  | signedPlain _ ih =>
      rcases ih with ⟨operand, rfl, rfl⟩
      exact ⟨.mk [] operand, by simp [Signed.tokens], by simp [Signed.toNode]⟩
  | signsMore op _ ih =>
      rcases ih with ⟨signs, rfl, rfl⟩
      exact ⟨signs ++ [op], by simp, by simp⟩
  | signsOne op => exact ⟨[op], rfl, rfl⟩
  | negatedMarks _ _ ihmarks ihlast =>
      rcases ihmarks with ⟨marks, rfl, rfl⟩
      rcases ihlast with ⟨operand, rfl, rfl⟩
      exact ⟨.mk marks operand, by rw [Negation.tokens], by rw [Negation.toNode]⟩
  | negatedPlain _ ih =>
      rcases ih with ⟨operand, rfl, rfl⟩
      exact ⟨.mk 0 operand, by simp [Negation.tokens], by simp [Negation.toNode]⟩
  | marksMore _ ih =>
      rcases ih with ⟨n, rfl, rfl⟩
      exact ⟨n + 1, List.replicate_succ', List.replicate_succ'⟩
  | marksOne => exact ⟨1, rfl, rfl⟩
  | valueIdent name => exact ⟨.ident name, by rw [Atom.tokens], by rw [Atom.toNode]⟩
  | valueInt value => exact ⟨.int value, by rw [Atom.tokens], by rw [Atom.toNode]⟩
  | valueTruth value => exact ⟨.truth value, by rw [Atom.tokens], by rw [Atom.toNode]⟩
  | valueParen _ ih =>
      rcases ih with ⟨inner, rfl, rfl⟩
      exact ⟨.paren inner, by rw [Atom.tokens], by rw [Atom.toNode_paren]⟩

/-- The derivations of a whole program are its phrases. -/
theorem derives_program_iff {kinds : List TokenKind} {tree : Node} :
    Derives .program kinds tree ↔ ∃ p : Program, p.tokens = kinds ∧ p.toNode = tree := by
  constructor
  · intro h
    exact h.hasPhrase
  · intro h
    rcases h with ⟨p, rfl, rfl⟩
    exact p.derives

end NumBool.Grammar
