import Mathlib.Logic.Relation
import NumBool.Check.Checker
import NumBool.Proofs.Tree.Nodes

/-!
# The way of a check

A check goes down a tree from node to node, and takes each node for a statement or for an
expression.  `Visit.Leads` says to which nodes it goes on from a node, and in which state: to
those in front of which nothing has failed at this node.  `Visit.Reaches` is the way down over
any number of nodes.

A failure ends everything.  It passes up unchanged, with the state that it leaves, along the
way by which the check has come down (`Visit.Reaches.failsWith`).
-/

namespace NumBool.Check

/-- What a check takes a node for. -/
inductive Position where
  | stmt
  | expr
  deriving DecidableEq, Repr

/-! ## Runs that fail -/

section Runs

variable {α β : Type} {m : Check α} {k : α → Check β} {ctx last : Context} {failure : Failure}

theorem run_bind_of_error (h : m.run ctx = .error failure last) :
    (m >>= k).run ctx = .error failure last := by
  rw [EStateM.run_bind, h]

theorem run_bind_of_ok {a : α} {next : Context} (h : m.run ctx = .ok a next) :
    (m >>= k).run ctx = (k a).run next := by
  rw [EStateM.run_bind, h]

/-- One computation after another fails in the first or in the second. -/
theorem error_cases_of_bind (h : (m >>= k).run ctx = .error failure last) :
    m.run ctx = .error failure last ∨
      ∃ a next, m.run ctx = .ok a next ∧ (k a).run next = .error failure last := by
  cases hm : m.run ctx with
  | ok a next =>
      rw [run_bind_of_ok hm] at h
      exact .inr ⟨a, next, rfl, h⟩
  | error failure' last' =>
      rw [run_bind_of_error hm] at h
      cases h
      exact .inl rfl

end Runs

theorem run_expect_self (level : String) (ty : Ty) (ctx : Context) :
    (expect level ty (some ty)).run ctx = .ok () ctx := by
  rw [expect, if_pos rfl]
  rfl

theorem eq_of_run_expect {level : String} {expected : Ty} {got : Option Ty} {ctx next : Context}
    (h : (expect level expected got).run ctx = .ok () next) :
    got = some expected ∧ next = ctx := by
  unfold expect at h
  split at h
  · next hgot =>
    cases h
    exact ⟨hgot, rfl⟩
  · cases h

/-- Only an identifier has a name. -/
theorem eq_of_run_nameOf {n : Node} {name : String} {ctx next : Context}
    (h : (nameOf n).run ctx = .ok name next) : n = .identifier name ∧ next = ctx := by
  cases n with
  | identifier _ =>
      cases h
      exact ⟨rfl, rfl⟩
  | _ => cases h

/-! ## The way down a tree -/

/-- A check comes to a node in some state. -/
structure Visit where
  position : Position
  node : Node
  context : Context

namespace Visit

/-- The check of a node fails, and leaves the state `last`. -/
def FailsWith (v : Visit) (failure : Failure) (last : Context) : Prop :=
  match v.position with
  | .stmt => (checkStmt v.node).run v.context = .error failure last
  | .expr => (typeOf v.node).run v.context = .error failure last

/-- From the one node the check goes on to the other, which stands right below it.  What is
looked at before it has not failed, and has led from the one state to the other. -/
inductive Leads : Visit → Visit → Prop
  | program {front rest : List Node} {stmt : Node} {ctx next : Context}
      (hfront : (checkStmts front).run ctx = .ok () next) :
      Leads ⟨.stmt, .program (front ++ stmt :: rest), ctx⟩ ⟨.stmt, stmt, next⟩
  | block {front rest : List Node} {stmt : Node} {ctx next : Context}
      (hfront : (checkStmts front).run ctx = .ok () next) :
      Leads ⟨.stmt, .block (front ++ stmt :: rest), ctx⟩ ⟨.stmt, stmt, next⟩
  | assigned {target : String} {value : Node} {ctx next : Context} {ty : Ty}
      (htarget : (lookup target).run ctx = .ok ty next) :
      Leads ⟨.stmt, .assignment (.identifier target) value, ctx⟩ ⟨.expr, value, next⟩
  | branchCond {cond body alt : Node} {ctx : Context} :
      Leads ⟨.stmt, .branch cond body alt, ctx⟩ ⟨.expr, cond, ctx⟩
  | branchBody {cond body alt : Node} {ctx next : Context}
      (hcond : (checkCondition cond).run ctx = .ok () next) :
      Leads ⟨.stmt, .branch cond body alt, ctx⟩ ⟨.stmt, body, next⟩
  | branchAlt {cond body alt : Node} {ctx mid next : Context}
      (hcond : (checkCondition cond).run ctx = .ok () mid)
      (hbody : (checkStmt body).run mid = .ok () next) (halt : alt.isAbsent = false) :
      Leads ⟨.stmt, .branch cond body alt, ctx⟩ ⟨.stmt, alt, next⟩
  | loopCond {cond body : Node} {ctx : Context} :
      Leads ⟨.stmt, .loop cond body, ctx⟩ ⟨.expr, cond, ctx⟩
  | loopBody {cond body : Node} {ctx next : Context}
      (hcond : (checkCondition cond).run ctx = .ok () next) :
      Leads ⟨.stmt, .loop cond body, ctx⟩ ⟨.stmt, body, next⟩
  | logical {front rest : List Node} {operand : Node} {ops : List String} {ty : Option Ty}
      {ctx next : Context}
      (hfront : (operandsType front ops Level.logical .bool none).run ctx = .ok ty next) :
      Leads ⟨.expr, .logical (front ++ operand :: rest) ops, ctx⟩ ⟨.expr, operand, next⟩
  | addition {front rest : List Node} {operand : Node} {ops : List String} {ty : Option Ty}
      {ctx next : Context}
      (hfront : (operandsType front ops Level.addition .number none).run ctx = .ok ty next) :
      Leads ⟨.expr, .addition (front ++ operand :: rest) ops, ctx⟩ ⟨.expr, operand, next⟩
  | multiplication {front rest : List Node} {operand : Node} {ops : List String}
      {ty : Option Ty} {ctx next : Context}
      (hfront : (operandsType front ops Level.multiplication .number none).run ctx =
        .ok ty next) :
      Leads ⟨.expr, .multiplication (front ++ operand :: rest) ops, ctx⟩
        ⟨.expr, operand, next⟩
  | left {left right : Node} {op : Option String} {ctx : Context} :
      Leads ⟨.expr, .comparison left op right, ctx⟩ ⟨.expr, left, ctx⟩
  | rightOfEquality {left right : Node} {op : String} {ty : Option Ty} {ctx next : Context}
      (hleft : (typeOf left).run ctx = .ok ty next) (hop : comparisonOf? op = some .equality) :
      Leads ⟨.expr, .comparison left (some op) right, ctx⟩ ⟨.expr, right, next⟩
  | rightOfOrder {left right : Node} {op : String} {ctx next : Context}
      (hleft : (typeOf left).run ctx = .ok (some .number) next)
      (hop : comparisonOf? op = some .order) :
      Leads ⟨.expr, .comparison left (some op) right, ctx⟩ ⟨.expr, right, next⟩
  | signed {operand : Node} {ops : List String} {ctx : Context} :
      Leads ⟨.expr, .signed operand ops, ctx⟩ ⟨.expr, operand, ctx⟩
  | negated {operand : Node} {ops : List String} {ctx : Context} :
      Leads ⟨.expr, .negated operand ops, ctx⟩ ⟨.expr, operand, ctx⟩
  | inner {inner : Node} {ctx : Context} :
      Leads ⟨.expr, .value inner, ctx⟩ ⟨.expr, inner, ctx⟩

/-- From the one node the check gets down to the other. -/
def Reaches : Visit → Visit → Prop :=
  Relation.ReflTransGen Leads

theorem Leads.mem_children {v w : Visit} (h : v.Leads w) : w.node ∈ v.node.children := by
  cases h with
  | _ => simp [Node.children]

end Visit

/-! ## Failures pass up -/

theorem operandsType_append (xs ys : List Node) (ops : List String) (level : String)
    (expected : Ty) (last : Option Ty) :
    operandsType (xs ++ ys) ops level expected last =
      (do
        let ty ← operandsType xs ops level expected last
        operandsType ys ops level expected ty) := by
  induction xs generalizing last with
  | nil => rw [List.nil_append, operandsType, pure_bind]
  | cons operand rest ih =>
      rw [List.cons_append, operandsType, operandsType]
      cases ops with
      | nil => simp [ih]
      | cons op ops => simp [ih]

section Failing

variable {ctx next last : Context} {failure : Failure}

theorem checkStmts_error {front rest : List Node} {stmt : Node}
    (hfront : (checkStmts front).run ctx = .ok () next)
    (hstmt : (checkStmt stmt).run next = .error failure last) :
    (checkStmts (front ++ stmt :: rest)).run ctx = .error failure last := by
  rw [checkStmts_append, run_bind_of_ok hfront, checkStmts_cons]
  exact run_bind_of_error hstmt

theorem operandsType_error {front rest : List Node} {operand : Node} {ops : List String}
    {level : String} {expected : Ty} {first ty : Option Ty}
    (hfront : (operandsType front ops level expected first).run ctx = .ok ty next)
    (hoperand : (typeOf operand).run next = .error failure last) :
    (operandsType (front ++ operand :: rest) ops level expected first).run ctx =
      .error failure last := by
  rw [operandsType_append, run_bind_of_ok hfront, operandsType]
  exact run_bind_of_error hoperand

theorem checkCondition_error {cond : Node} (h : (typeOf cond).run ctx = .error failure last) :
    (checkCondition cond).run ctx = .error failure last := by
  rw [checkCondition]
  exact run_bind_of_error h

end Failing

namespace Visit

/-- A failure at a node is a failure at the node from which the check has come. -/
theorem Leads.failsWith {v w : Visit} {failure : Failure} {last : Context} (h : v.Leads w)
    (hw : w.FailsWith failure last) : v.FailsWith failure last := by
  cases h with
  | program hfront =>
      simp only [FailsWith, checkStmt] at hw ⊢
      exact run_bind_of_error (checkStmts_error hfront hw)
  | block hfront =>
      simp only [FailsWith, checkStmt] at hw ⊢
      exact checkStmts_error hfront hw
  | assigned htarget =>
      simp only [FailsWith, checkStmt, checkAssignment, nameOf, Node.name?, pure_bind] at hw ⊢
      rw [run_bind_of_ok htarget]
      exact run_bind_of_error hw
  | branchCond =>
      simp only [FailsWith, checkStmt] at hw ⊢
      exact run_bind_of_error (checkCondition_error hw)
  | branchBody hcond =>
      simp only [FailsWith, checkStmt] at hw ⊢
      rw [run_bind_of_ok hcond]
      exact run_bind_of_error hw
  | branchAlt hcond hbody halt =>
      simp only [FailsWith, checkStmt] at hw ⊢
      rw [run_bind_of_ok hcond, run_bind_of_ok hbody, halt]
      exact run_bind_of_error hw
  | loopCond =>
      simp only [FailsWith, checkStmt] at hw ⊢
      exact run_bind_of_error (checkCondition_error hw)
  | loopBody hcond =>
      simp only [FailsWith, checkStmt] at hw ⊢
      rw [run_bind_of_ok hcond]
      exact run_bind_of_error hw
  | logical hfront | addition hfront | multiplication hfront =>
      simp only [FailsWith, typeOf] at hw ⊢
      exact run_bind_of_error (operandsType_error hfront hw)
  | @left _ _ op _ =>
      cases op with
      | none =>
          simp only [FailsWith, typeOf] at hw ⊢
          exact hw
      | some op =>
          simp only [FailsWith, typeOf] at hw ⊢
          exact run_bind_of_error hw
  | rightOfEquality hleft hop =>
      simp only [FailsWith, typeOf] at hw ⊢
      rw [run_bind_of_ok hleft, hop]
      exact run_bind_of_error hw
  | rightOfOrder hleft hop =>
      simp only [FailsWith, typeOf] at hw ⊢
      rw [run_bind_of_ok hleft, hop]
      refine (run_bind_of_ok (run_expect_self _ _ _)).trans ?_
      exact run_bind_of_error hw
  | signed | negated =>
      simp only [FailsWith, typeOf] at hw ⊢
      exact run_bind_of_error hw
  | inner =>
      simp only [FailsWith, typeOf] at hw ⊢
      exact hw

theorem Reaches.failsWith {v w : Visit} {failure : Failure} {last : Context} (h : v.Reaches w)
    (hw : w.FailsWith failure last) : v.FailsWith failure last := by
  induction h using Relation.ReflTransGen.head_induction_on with
  | refl => exact hw
  | head hleads _ ih => exact hleads.failsWith ih

end Visit

/-- A check is a visit to the tree as a statement, in an empty state. -/
theorem check_eq_iff_failsWith {tree : Node} {failure : Failure} {ctx : Context} :
    check tree = ⟨some failure, ctx⟩ ↔ Visit.FailsWith ⟨.stmt, tree, {}⟩ failure ctx := by
  rw [check, Visit.FailsWith]
  cases (checkStmt tree).run {} with
  | ok _ last => simp
  | error failure' last => simp

end NumBool.Check
