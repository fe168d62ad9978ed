import NumBool.Check.Checker
import NumBool.Proofs.Tree.Nodes

/-!
# Definite types

An expression can be without a type, and a check can break off without a verdict.  Both have
one cause in trees of the language: a list of operands that is empty and has no operators.
Where no node of a tree is such a list and none comes from outside the language, every
expression in it that can be typed at all is a number or a truth value, and its check passes
or names a rule that is broken.  There is one exception, which has nothing to do with types: a
declaration or an assignment asks a node for its name, and only an identifier has one.

`Answers m P E` says this of a computation of the checker, started in any state: it reaches a
value with `P`, or it fails with a failure with `E`.  The rule for one computation after another
(`Answers.bind`) carries it through expressions and statements.
-/

namespace NumBool

/-- An error about an operand tells the type that the operand has and another one that it
should have. -/
def SemanticError.TellsTypes : SemanticError → Prop
  | .operand _ got expected => ∃ ty ty' : Ty, got = some ty ∧ expected = some ty' ∧ ty ≠ ty'
  | _ => True

/-- The failure is a semantic error, and it tells its types. -/
def Failure.IsDefinite (failure : Failure) : Prop :=
  ∃ error : SemanticError, failure = .semantic error ∧ error.TellsTypes

namespace Node

/-- Whether a node is of a kind that the language does not define. -/
def isForeign : Node → Bool
  | .foreign _ => true
  | _ => false

/-- Whether a node is a list of no operands and no operators. -/
def isEmptyChain : Node → Bool
  | .logical [] [] => true
  | .addition [] [] => true
  | .multiplication [] [] => true
  | _ => false

/-- No node of a tree is foreign or a list of no operands and no operators. -/
def IsDefinite (n : Node) : Prop :=
  ∀ m ∈ n.nodes, m.isForeign = false ∧ m.isEmptyChain = false

theorem IsDefinite.of_mem {n m : Node} (h : n.IsDefinite) (hm : m ∈ n.nodes) : m.IsDefinite :=
  fun _ hk => h _ (mem_nodes_trans hm hk)

theorem IsDefinite.child {n child : Node} (h : n.IsDefinite) (hchild : child ∈ n.children) :
    child.IsDefinite :=
  fun m hm => h m (mem_nodes_of_mem_children hchild hm)

/-- The part of a node that has to have a name. -/
def namePart? : Node → Option Node
  | .declaration _ ident => some ident
  | .assignment target _ => some target
  | _ => none

/-- The failure is that of a part of the tree that has to have a name and is no identifier. -/
def MissesName (tree : Node) (failure : Failure) : Prop :=
  ∃ n ∈ tree.nodes, ∃ part, n.namePart? = some part ∧ part.name? = none ∧
    failure = .missingPart part.kindName "name"

end Node

namespace Check

/-- From any state the computation reaches a value with `P`, or it fails with a failure
with `E`. -/
def Answers {α : Type} (m : Check α) (P : α → Prop) (E : Failure → Prop) : Prop :=
  ∀ ctx : Context,
    match m.run ctx with
    | .ok a _ => P a
    | .error failure _ => E failure

namespace Answers

variable {α β : Type} {P : α → Prop} {Q : β → Prop} {E : Failure → Prop}

theorem pure {a : α} (h : P a) : Answers (Pure.pure a) P E := by
  intro ctx
  exact h

theorem throw {failure : Failure} (h : E failure) : Answers (throw failure) P E := by
  intro ctx
  exact h

theorem reject (error : SemanticError) (h : error.TellsTypes) :
    Answers (Check.reject error) P Failure.IsDefinite :=
  throw ⟨error, rfl, h⟩

/-- One computation after another. -/
theorem bind {m : Check α} {k : α → Check β} (hm : Answers m P E)
    (hk : ∀ a, P a → Answers (k a) Q E) : Answers (m >>= k) Q E := by
  intro ctx
  have hfirst := hm ctx
  rw [EStateM.run_bind]
  cases hrun : m.run ctx with
  | ok a next =>
      rw [hrun] at hfirst
      exact hk a hfirst next
  | error failure last =>
      rw [hrun] at hfirst
      exact hfirst

theorem imp {m : Check α} {R : α → Prop} {F : Failure → Prop} (hm : Answers m P E)
    (hvalue : ∀ a, P a → R a) (hfailure : ∀ failure, E failure → F failure) : Answers m R F := by
  intro ctx
  have hrun := hm ctx
  cases hresult : m.run ctx with
  | ok a next =>
      rw [hresult] at hrun
      exact hvalue a hrun
  | error failure last =>
      rw [hresult] at hrun
      exact hfailure failure hrun

theorem modify (f : Context → Context) : Answers (modify f : Check Unit) (fun _ => True) E := by
  intro ctx
  trivial

theorem get : Answers (get : Check Context) (fun _ => True) E := by
  intro ctx
  trivial

theorem lookup (name : String) :
    Answers (Check.lookup name) (fun _ => True) Failure.IsDefinite := by
  refine get.bind fun ctx _ => ?_
  rw [Table.lookup]
  cases ctx.symbols.find? name with
  | none => exact reject _ trivial
  | some entry =>
      cases entry with
      | none => exact reject _ trivial
      | some ty => exact pure trivial

theorem declare (name : String) (ty : Ty) :
    Answers (Check.declare name ty) (fun _ => True) Failure.IsDefinite := by
  refine get.bind fun ctx _ => ?_
  rw [Context.declare, Table.declare]
  cases ctx.symbols.contains name with
  | true => exact reject _ trivial
  | false => exact fun _ => trivial

theorem expect (level : String) (expected : Ty) {got : Option Ty} (h : got ≠ none) :
    Answers (Check.expect level expected got) (fun _ => True) Failure.IsDefinite := by
  unfold Check.expect
  by_cases heq : got = some expected
  · rw [if_pos heq]
    exact pure trivial
  · rw [if_neg heq]
    obtain ⟨ty, rfl⟩ := Option.ne_none_iff_exists'.mp h
    apply reject
    exact ⟨ty, expected, rfl, rfl, fun hsame => heq (congrArg some hsame)⟩

theorem expectNumeric {got : Option Ty} (h : got ≠ none) :
    Answers (Check.expectNumeric got) (fun _ => True) Failure.IsDefinite := by
  obtain ⟨ty, rfl⟩ := Option.ne_none_iff_exists'.mp h
  cases ty with
  | number => exact pure trivial
  | bool => exact reject _ ⟨.bool, .number, rfl, rfl, by decide⟩

/-- Only an identifier has a name. -/
theorem nameOf {n : Node} (h : n.name? = none → E (.missingPart n.kindName "name")) :
    Answers (Check.nameOf n) (fun _ => True) E := by
  rw [Check.nameOf]
  cases hname : n.name? with
  | none => exact throw (h hname)
  | some name => exact pure trivial

/-- Operators are counted behind their operands, and then the type is the one of the level. -/
theorem counted {ops : List String} {ty : Option Ty} (h : ty ≠ none) :
    Answers (do Check.countOps ops; return ty) (· ≠ none) E :=
  (modify _).bind fun _ _ => pure h

/-- A level with operands or operators has a type, if its operands have. -/
theorem chain {operands : List Node} {ops : List String} {level : String} {expected ty : Ty}
    (hempty : operands = [] → ops ≠ [])
    (hoperands : ∀ last, (operands = [] → last ≠ none) →
      Answers (operandsType operands ops level expected last) (· ≠ none) E) :
    Answers
      (do
        let last ← operandsType operands ops level expected none
        Check.countOps ops
        return if ops.isEmpty then last else some ty)
      (· ≠ none) E := by
  cases operands with
  | nil =>
      have hops := hempty rfl
      rw [operandsType]
      exact counted (by simp [hops])
  | cons operand rest =>
      have hlevel := hoperands none (by simp)
      refine hlevel.bind fun last hlast => counted ?_
      cases ops with
      | nil => exact hlast
      | cons op ops => exact Option.some_ne_none ty

end Answers

/-! ## Expressions -/

mutual

/-- An expression of a definite tree has a type, or it is rejected. -/
theorem answers_typeOf : ∀ n : Node, n.IsDefinite →
    Answers (typeOf n) (· ≠ none) Failure.IsDefinite
  | .logical operands ops, h => by
      have hself := (h _ (Node.mem_nodes_self _)).2
      have hempty : operands = [] → ops ≠ [] := by
        rintro rfl rfl
        cases hself
      rw [typeOf]
      exact Answers.chain hempty (answers_operandsType operands (fun _ => h.child) _ _ _)
  | .comparison left none right, h => by
      rw [typeOf]
      exact answers_typeOf left (h.child (by simp [Node.children]))
  | .comparison left (some op) right, h => by
      have hleft := answers_typeOf left (h.child (by simp [Node.children]))
      have hright := answers_typeOf right (h.child (by simp [Node.children]))
      have hcount : Answers (do count .operators; return some Ty.bool) (· ≠ none)
          Failure.IsDefinite :=
        (Answers.modify _).bind fun _ _ => Answers.pure (by simp)
      rw [typeOf]
      refine hleft.bind fun leftType hleftType => ?_
      cases comparisonOf? op with
      | none =>
          exact Answers.bind (P := fun _ => True) (Answers.reject _ trivial) fun _ _ => hcount
      | some kind =>
          cases kind with
          | equality => exact hright.bind fun _ _ => hcount
          | order =>
              refine (Answers.expect _ _ hleftType).bind fun _ _ => ?_
              refine hright.bind fun rightType hrightType => ?_
              exact (Answers.expect _ _ hrightType).bind fun _ _ => hcount
  | .addition operands ops, h => by
      have hself := (h _ (Node.mem_nodes_self _)).2
      have hempty : operands = [] → ops ≠ [] := by
        rintro rfl rfl
        cases hself
      rw [typeOf]
      exact Answers.chain hempty (answers_operandsType operands (fun _ => h.child) _ _ _)
  | .multiplication operands ops, h => by
      have hself := (h _ (Node.mem_nodes_self _)).2
      have hempty : operands = [] → ops ≠ [] := by
        rintro rfl rfl
        cases hself
      rw [typeOf]
      exact Answers.chain hempty (answers_operandsType operands (fun _ => h.child) _ _ _)
  | .signed operand ops, h => by
      have hoperand := answers_typeOf operand (h.child (by simp [Node.children]))
      rw [typeOf]
      refine hoperand.bind fun ty hty => ?_
      cases ops with
      | nil => exact Answers.pure hty
      | cons op ops =>
          exact (Answers.expectNumeric hty).bind fun _ _ => Answers.counted (by simp)
  | .negated operand ops, h => by
      have hoperand := answers_typeOf operand (h.child (by simp [Node.children]))
      rw [typeOf]
      refine hoperand.bind fun ty hty => ?_
      cases ops with
      | nil => exact Answers.pure hty
      | cons op ops => exact (Answers.expect _ _ hty).bind fun _ _ => Answers.counted (by simp)
  | .value inner, h => by
      rw [typeOf]
      exact answers_typeOf inner (h.child (by simp [Node.children]))
  | .identifier name, _ => by
      rw [typeOf]
      exact (Answers.lookup name).bind fun _ _ => Answers.pure (by simp)
  | .int _, _ | .truth _, _ => by
      rw [typeOf]
      exact Answers.pure (by simp)
  | .foreign kind, h => by
      have hself := h _ (Node.mem_nodes_self _)
      simp [Node.isForeign] at hself
  | .program _, _ | .block _, _ | .declaration _ _, _ | .assignment _ _, _ | .branch _ _ _, _
  | .loop _ _, _ | .absent, _ | .datum _, _ | .list _, _ => by
      simp only [typeOf]
      exact Answers.reject _ trivial

theorem answers_operandsType : ∀ operands : List Node, (∀ n ∈ operands, n.IsDefinite) →
    ∀ (ops : List String) (level : String) (expected : Ty) (last : Option Ty),
      (operands = [] → last ≠ none) →
        Answers (operandsType operands ops level expected last) (· ≠ none) Failure.IsDefinite
  | [], _, ops, level, expected, last, hlast => by
      rw [operandsType]
      exact Answers.pure (hlast rfl)
  | operand :: rest, h, ops, level, expected, last, _ => by
      have hoperand := answers_typeOf operand (h operand List.mem_cons_self)
      have hrest := answers_operandsType rest fun n hn => h n (List.mem_cons_of_mem operand hn)
      rw [operandsType]
      refine hoperand.bind fun ty hty => ?_
      cases ops with
      | nil => exact hrest _ _ _ ty fun _ => hty
      | cons op ops =>
          refine (Answers.expect level expected hty).bind fun _ _ => ?_
          exact hrest _ _ _ ty fun _ => hty

end

/-! ## Statements -/

theorem answers_checkCondition (cond : Node) (h : cond.IsDefinite) :
    Answers (checkCondition cond) (fun _ => True) Failure.IsDefinite := by
  refine (answers_typeOf cond h).bind fun ty _ => ?_
  by_cases hbool : ty = some .bool
  · rw [if_neg fun hne => hne hbool]
    exact Answers.pure trivial
  · rw [if_pos hbool]
    exact Answers.reject _ trivial

section Statements

variable {root : Node}

/-- A failure that the check of a tree can end with. -/
def Explains (root : Node) (failure : Failure) : Prop :=
  failure.IsDefinite ∨ root.MissesName failure

theorem Answers.explained {α : Type} {m : Check α} {P : α → Prop}
    (h : Answers m P Failure.IsDefinite) : Answers m P (Explains root) :=
  h.imp (fun _ => id) fun _ => .inl

theorem answers_checkDeclaration {typeName : String} {ident : Node}
    (h : .declaration typeName ident ∈ root.nodes) :
    Answers (checkDeclaration typeName ident) (fun _ => True) (Explains root) := by
  have hname := Answers.nameOf (E := Explains root) fun hnone => .inr ⟨_, h, ident, rfl, hnone, rfl⟩
  unfold checkDeclaration
  cases Ty.ofKeyword? typeName with
  | none => exact hname.bind fun _ _ => Answers.explained (Answers.reject _ trivial)
  | some ty => exact hname.bind fun name _ => (Answers.declare name ty).explained

theorem answers_checkAssignment {target value : Node} (h : .assignment target value ∈ root.nodes)
    (hvalue : value.IsDefinite) :
    Answers (checkAssignment target value) (fun _ => True) (Explains root) := by
  have hname := Answers.nameOf (E := Explains root)
    fun hnone => .inr ⟨_, h, target, rfl, hnone, rfl⟩
  refine hname.bind fun name _ => Answers.explained ?_
  refine (Answers.lookup name).bind fun wanted _ => ?_
  refine (answers_typeOf value hvalue).bind fun ty _ => ?_
  by_cases hwanted : ty = some wanted
  · rw [if_neg fun hne => hne hwanted]
    exact Answers.pure trivial
  · rw [if_pos hwanted]
    exact Answers.reject _ trivial

mutual

/-- A statement in a definite tree passes, or the tree tells why it does not. -/
theorem answers_checkStmt (hroot : root.IsDefinite) : ∀ n : Node, n ∈ root.nodes →
    Answers (checkStmt n) (fun _ => True) (Explains root)
  | .program stmts, h => by
      have hstmts := answers_checkStmts hroot stmts fun _ => Node.mem_nodes_child h
      rw [checkStmt]
      exact hstmts.bind fun _ _ => Answers.modify _
  | .block stmts, h => by
      rw [checkStmt]
      exact answers_checkStmts hroot stmts fun _ => Node.mem_nodes_child h
  | .declaration typeName ident, h => by
      rw [checkStmt]
      exact answers_checkDeclaration h
  | .assignment target value, h => by
      have hvalue : value.IsDefinite := (hroot.of_mem h).child (by simp [Node.children])
      rw [checkStmt]
      exact answers_checkAssignment h hvalue
  | .branch cond body alt, h => by
      have hcond : cond.IsDefinite := (hroot.of_mem h).child (by simp [Node.children])
      have hbody := answers_checkStmt hroot body (Node.mem_nodes_child h (by simp [Node.children]))
      have halt := answers_checkStmt hroot alt (Node.mem_nodes_child h (by simp [Node.children]))
      rw [checkStmt]
      refine (answers_checkCondition cond hcond).explained.bind fun _ _ => hbody.bind fun _ _ => ?_
      cases alt.isAbsent with
      | true => exact Answers.modify _
      | false => exact halt.bind fun _ _ => Answers.modify _
  | .loop cond body, h => by
      have hcond : cond.IsDefinite := (hroot.of_mem h).child (by simp [Node.children])
      have hbody := answers_checkStmt hroot body (Node.mem_nodes_child h (by simp [Node.children]))
      rw [checkStmt]
      refine (answers_checkCondition cond hcond).explained.bind fun _ _ => ?_
      exact hbody.bind fun _ _ => Answers.modify _
  | .foreign kind, h => by
      have hself := hroot _ h
      simp [Node.isForeign] at hself
  | .identifier _, _ | .logical _ _, _ | .comparison _ _ _, _ | .addition _ _, _
  | .multiplication _ _, _ | .signed _ _, _ | .negated _ _, _ | .value _, _ | .int _, _
  | .truth _, _ | .absent, _ | .datum _, _ | .list _, _ => by
      simp only [checkStmt]
      exact Answers.explained (Answers.reject _ trivial)

theorem answers_checkStmts (hroot : root.IsDefinite) : ∀ stmts : List Node,
    (∀ n ∈ stmts, n ∈ root.nodes) →
    Answers (checkStmts stmts) (fun _ => True) (Explains root)
  | [], _ => by
      rw [checkStmts_nil]
      exact Answers.pure trivial
  | stmt :: rest, h => by
      have hstmt := answers_checkStmt hroot stmt (h stmt List.mem_cons_self)
      have hrest := answers_checkStmts hroot rest fun n hn => h n (List.mem_cons_of_mem stmt hn)
      rw [checkStmts_cons]
      exact hstmt.bind fun _ _ => hrest

end

end Statements

/-- Types are missing only where a list of operands is empty and has no operators.  In a tree
of the language without such a list every expression that is typed, in whatever state, is a
number or a truth value.  The check passes or reports a semantic error, and an error about an
operand tells two types that differ; or it asks a part for a name that is no identifier, as a
declaration or an assignment of the tree does, and breaks off. -/
theorem definite_of_no_emptyChain {tree : Node} (hknown : ∀ n ∈ tree.nodes, n.isForeign = false)
    (hfilled : ∀ n ∈ tree.nodes, n.isEmptyChain = false) :
    (∀ expr ∈ tree.nodes,
      Answers (typeOf expr) (fun ty => ty = some .number ∨ ty = some .bool)
        Failure.IsDefinite) ∧
    ((∃ counters, (check tree).result = .ok counters) ∨
      ∃ failure, (check tree).result = .error failure ∧
        (failure.IsDefinite ∨ tree.MissesName failure)) := by
  have hdefinite : tree.IsDefinite := fun n hn => ⟨hknown n hn, hfilled n hn⟩
  constructor
  · intro expr hexpr
    refine (answers_typeOf expr (hdefinite.of_mem hexpr)).imp (fun ty hty => ?_) fun _ => id
    obtain ⟨found, rfl⟩ := Option.ne_none_iff_exists'.mp hty
    cases found with
    | number => exact .inl rfl
    | bool => exact .inr rfl
  · have hrun := answers_checkStmt hdefinite tree tree.mem_nodes_self {}
    rw [check]
    cases hresult : (checkStmt tree).run {} with
    | ok _ context => exact .inl ⟨context.counters, rfl⟩
    | error failure context =>
        rw [hresult] at hrun
        exact .inr ⟨failure, rfl, hrun⟩

/-- The program `1 = 1;`, which no text has. -/
def namelessTarget : Node :=
  .program [.assignment (.int 1) (.int 1)]

/-- A name that is missing is no semantic error.  A tree of the language without an empty list
of operands can make the check break off. -/
theorem check_breaks_off_at_namelessTarget :
    (∀ n ∈ namelessTarget.nodes, n.isForeign = false ∧ n.isEmptyChain = false) ∧
    (check namelessTarget).result = .error (.missingPart "IntValue" "name") ∧
    ¬ ∀ tree : Node, (∀ n ∈ tree.nodes, n.isForeign = false) →
      (∀ n ∈ tree.nodes, n.isEmptyChain = false) →
        (∃ counters, (check tree).result = .ok counters) ∨
          ∃ failure, (check tree).result = .error failure ∧ failure.IsDefinite := by
  have hknown : ∀ n ∈ namelessTarget.nodes, n.isForeign = false := by decide
  have hfilled : ∀ n ∈ namelessTarget.nodes, n.isEmptyChain = false := by decide
  have hresult : (check namelessTarget).result = .error (.missingPart "IntValue" "name") := rfl
  refine ⟨fun n hn => ⟨hknown n hn, hfilled n hn⟩, hresult, fun h => ?_⟩
  rcases h namelessTarget hknown hfilled with ⟨counters, hok⟩ | ⟨failure, herror, error, rfl, -⟩
  · rw [hresult] at hok
    cases hok
  · rw [hresult] at herror
    cases herror

/-- A program with operators that have no operands, and with a sign before a truth value. -/
def signedTruth : Node :=
  .program [.declaration "bool" (.identifier "b"), .program [],
    .assignment (.identifier "b") (.logical [] ["&&"]),
    .loop (.signed (.addition [.int 1, .identifier "b"] []) ["-"]) (.list [.datum (.int 1)])]

theorem definite_of_no_emptyChain_signedTruth :
    (∀ n ∈ signedTruth.nodes, n.isForeign = false) ∧
      (∀ n ∈ signedTruth.nodes, n.isEmptyChain = false) ∧
      (check signedTruth).failure =
        some (.semantic (.operand Level.sign (some .bool) (some .number))) ∧
      (∀ expr ∈ signedTruth.nodes,
        Answers (typeOf expr) (fun ty => ty = some .number ∨ ty = some .bool)
          Failure.IsDefinite) := by
  have hknown : ∀ n ∈ signedTruth.nodes, n.isForeign = false := by decide +kernel
  have hfilled : ∀ n ∈ signedTruth.nodes, n.isEmptyChain = false := by decide +kernel
  have hfailure : (check signedTruth).failure =
      some (.semantic (.operand Level.sign (some .bool) (some .number))) := by decide +kernel
  exact ⟨hknown, hfilled, hfailure, (definite_of_no_emptyChain hknown hfilled).1⟩

end Check

end NumBool
