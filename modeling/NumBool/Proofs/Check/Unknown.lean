import NumBool.Proofs.Check.Visit

/-!
# Nodes of unknown kinds

At each node a check looks for a rule under the name of the node's kind, among the rules for
statements or among those for expressions.  Where there is none, it ends with an error that
tells the kind.  Such an error comes from nowhere else: a failure over a kind that is met at a
node comes from this node, or from a node to which the check has gone on (`Visit.Origin`).  So
a check ends with the error for an unknown kind exactly if it reaches a node of that kind, and
it leaves the state in which it has reached it.

The rules are found by name, and next to the rules for the kinds there is one more at each
position that serves the others: the rule for lists of operands, and the one for all
statements.  A node under the name of such a rule is handed to it.
-/

namespace NumBool

/-- Whether a failure is what becomes of a node of an unknown kind. -/
def Failure.isOverKind : Failure → Bool
  | .semantic (.unknownExpression _) | .semantic (.unknownStatement _) => true
  | .missingArguments | .endless => true
  | _ => false

namespace Check

namespace Position

/-- The kinds that have a rule at a position. -/
def kinds : Position → List String
  | stmt => ["Program", "Block", "Declaration", "AssignStmt", "IfStmt", "WhileStmt"]
  | expr => ["BoolExpr", "CompExpr", "AddExpr", "MulExpr", "UnaExpr", "NotExpr", "GenValue",
      "Identifier", "IntValue", "BoolValue"]

/-- The name of the rule that serves the rules for the kinds. -/
def serving : Position → String
  | stmt => "stmt"
  | expr => "operands"

/-- The error for a node of an unknown kind. -/
def unknown : Position → String → SemanticError
  | stmt => .unknownStatement
  | expr => .unknownExpression

/-- How the report on a node of an unknown kind begins. -/
def complaint : Position → String
  | stmt => "Unknown statement node: "
  | expr => "Unknown expression node: "

theorem message_unknown (p : Position) (kind : String) :
    (p.unknown kind).message = p.complaint ++ kind := by
  cases p with
  | _ => rfl

/-- What becomes of a node that is handed to the serving rule. -/
def misled : Position → Failure
  | stmt => .endless
  | expr => .missingArguments

/-- The failure for a node of an unknown kind. -/
def rejection (p : Position) (kind : String) : Failure :=
  if kind = p.serving then p.misled else .semantic (p.unknown kind)

theorem rejection_serving (p : Position) : p.rejection p.serving = p.misled :=
  if_pos rfl

theorem rejection_of_ne {p : Position} {kind : String} (h : kind ≠ p.serving) :
    p.rejection kind = .semantic (p.unknown kind) :=
  if_neg h

theorem isOverKind_rejection (p : Position) (kind : String) :
    (p.rejection kind).isOverKind = true := by
  unfold rejection
  cases p with
  | _ => split <;> rfl

/-- The failure tells the position and the kind. -/
theorem rejection_inj {p q : Position} {kind kind' : String}
    (h : p.rejection kind = q.rejection kind') : p = q ∧ kind = kind' := by
  by_cases hkind : kind = p.serving
  · by_cases hkind' : kind' = q.serving
    · rw [hkind, hkind', rejection_serving, rejection_serving] at h
      have hsame : p = q := by
        cases p <;> cases q <;> first | rfl | cases h
      rw [hkind, hkind', hsame]
      exact ⟨rfl, rfl⟩
    · rw [hkind, rejection_serving, rejection_of_ne hkind'] at h
      cases p <;> cases h
  · by_cases hkind' : kind' = q.serving
    · rw [rejection_of_ne hkind, hkind', rejection_serving] at h
      cases q <;> cases h
    · rw [rejection_of_ne hkind, rejection_of_ne hkind'] at h
      cases p <;> cases q <;> cases h <;> exact ⟨rfl, rfl⟩

end Position

/-- A computation that never fails over a kind. -/
def Unkinded {α : Type} (m : Check α) : Prop :=
  ∀ (ctx last : Context) (failure : Failure), m.run ctx = .error failure last →
    failure.isOverKind = false

namespace Unkinded

variable {α β : Type}

theorem pure (a : α) : Unkinded (Pure.pure a) := by
  intro ctx last failure h
  cases h

theorem throw {failure : Failure} (h : failure.isOverKind = false) :
    Unkinded (throw failure : Check α) := by
  intro ctx last failure' hrun
  cases hrun
  exact h

theorem reject {error : SemanticError} (h : (Failure.semantic error).isOverKind = false) :
    Unkinded (Check.reject error : Check α) :=
  throw h

theorem modify (f : Context → Context) : Unkinded (modify f : Check Unit) := by
  intro ctx last failure h
  cases h

theorem bind {m : Check α} {k : α → Check β} (hm : Unkinded m) (hk : ∀ a, Unkinded (k a)) :
    Unkinded (m >>= k) := by
  intro ctx last failure h
  rcases error_cases_of_bind h with h | ⟨a, next, -, h⟩
  · exact hm ctx last failure h
  · exact hk a next last failure h

theorem counted (ops : List String) (ty : Option Ty) :
    Unkinded (do countOps ops; return ty) :=
  (modify _).bind fun _ => pure ty

theorem expect (level : String) (expected : Ty) (got : Option Ty) :
    Unkinded (Check.expect level expected got) := by
  unfold Check.expect
  split
  · exact pure ()
  · exact reject rfl

theorem expectNumeric (got : Option Ty) : Unkinded (Check.expectNumeric got) := by
  unfold Check.expectNumeric
  split
  · exact throw rfl
  · split
    · exact pure ()
    · exact reject rfl

theorem get : Unkinded (get : Check Context) := by
  intro ctx last failure h
  cases h

theorem lookup (name : String) : Unkinded (Check.lookup name) := by
  refine get.bind fun ctx => ?_
  rw [Table.lookup]
  cases ctx.symbols.find? name with
  | none => exact reject rfl
  | some entry =>
      cases entry with
      | none => exact reject rfl
      | some ty => exact pure ty

theorem declare (name : String) (ty : Ty) : Unkinded (Check.declare name ty) := by
  refine get.bind fun ctx => ?_
  rw [Context.declare, Table.declare]
  cases ctx.symbols.contains name with
  | true => exact reject rfl
  | false =>
      intro ctx last failure h
      cases h

theorem nameOf (n : Node) : Unkinded (Check.nameOf n) := by
  rw [Check.nameOf]
  cases n.name? with
  | none => exact throw rfl
  | some name => exact pure name

theorem checkDeclaration (typeName : String) (ident : Node) :
    Unkinded (Check.checkDeclaration typeName ident) := by
  unfold Check.checkDeclaration
  cases Ty.ofKeyword? typeName with
  | none => exact (nameOf ident).bind fun _ => reject rfl
  | some ty => exact (nameOf ident).bind fun name => declare name ty

end Unkinded

/-! ## Nodes with and without a rule -/

theorem foreignType_of_not_mem_kinds {kind : String} (h : kind ∉ Position.expr.kinds) :
    foreignType kind = throw (Position.expr.rejection kind) := by
  simp only [Position.kinds, List.mem_cons, List.not_mem_nil, or_false, not_or] at h
  have hpart : firstPart? kind = none := by
    simp [firstPart?, List.lookup_eq_none_iff, h]
  rw [foreignType, hpart]
  simp only [h, if_false]
  rw [Position.rejection, apply_ite (throw : Failure → Check (Option Ty))]
  rfl

theorem foreignStmt_of_not_mem_kinds {kind : String} (h : kind ∉ Position.stmt.kinds) :
    foreignStmt kind = throw (Position.stmt.rejection kind) := by
  simp only [Position.kinds, List.mem_cons, List.not_mem_nil, or_false, not_or] at h
  have hpart : firstStmtPart? kind = none := by
    simp [firstStmtPart?, List.lookup_eq_none_iff, h]
  rw [foreignStmt, hpart]
  rw [Position.rejection, apply_ite (throw : Failure → Check Unit)]
  rfl

/-- Under the name of a known kind a foreign expression is a literal or lacks its parts. -/
theorem unkinded_foreignType {kind : String} (h : kind ∈ Position.expr.kinds) :
    Unkinded (foreignType kind) := by
  have hknown : (firstPart? kind).isSome = true ∨ kind = "IntValue" ∨ kind = "BoolValue" := by
    revert kind
    decide
  unfold foreignType
  rcases hknown with hpart | rfl | rfl
  · obtain ⟨part, hpart⟩ := Option.isSome_iff_exists.mp hpart
    rw [hpart]
    exact Unkinded.throw rfl
  · exact Unkinded.pure _
  · exact Unkinded.pure _

/-- Under the name of a known kind a foreign statement lacks its parts. -/
theorem unkinded_foreignStmt {kind : String} (h : kind ∈ Position.stmt.kinds) :
    Unkinded (foreignStmt kind) := by
  have hknown : (firstStmtPart? kind).isSome = true := by
    revert kind
    decide
  unfold foreignStmt
  obtain ⟨part, hpart⟩ := Option.isSome_iff_exists.mp hknown
  rw [hpart]
  exact Unkinded.throw rfl

/-- An expression of an unknown kind is rejected at once. -/
theorem typeOf_of_not_mem_kinds {n : Node} (h : n.kindName ∉ Position.expr.kinds) :
    typeOf n = throw (Position.expr.rejection n.kindName) := by
  cases n with
  | foreign kind =>
      rw [typeOf]
      exact foreignType_of_not_mem_kinds h
  | datum d =>
      simp only [typeOf]
      cases d with
      | _ => rfl
  | program _ | block _ | declaration _ _ | assignment _ _ | branch _ _ _ | loop _ _ | absent
  | list _ =>
      simp only [typeOf]
      rfl
  | _ => simp [Node.kindName, Position.kinds] at h

/-- A statement of an unknown kind is rejected at once. -/
theorem checkStmt_of_not_mem_kinds {n : Node} (h : n.kindName ∉ Position.stmt.kinds) :
    checkStmt n = throw (Position.stmt.rejection n.kindName) := by
  cases n with
  | foreign kind =>
      rw [checkStmt]
      exact foreignStmt_of_not_mem_kinds h
  | datum d =>
      simp only [checkStmt]
      cases d with
      | _ => rfl
  | identifier _ | logical _ _ | comparison _ _ _ | addition _ _ | multiplication _ _
  | signed _ _ | negated _ _ | value _ | int _ | truth _ | absent | list _ =>
      simp only [checkStmt]
      rfl
  | _ => simp [Node.kindName, Position.kinds] at h

theorem Visit.failsWith_rejection {v : Visit} (h : v.node.kindName ∉ v.position.kinds) :
    v.FailsWith (v.position.rejection v.node.kindName) v.context := by
  obtain ⟨position, n, ctx⟩ := v
  cases position with
  | stmt =>
      rw [FailsWith, checkStmt_of_not_mem_kinds h]
      rfl
  | expr =>
      rw [FailsWith, typeOf_of_not_mem_kinds h]
      rfl

/-! ## Where a failure comes from -/

/-- Statements in order fail at one of them, and those before it do not fail. -/
theorem exists_of_checkStmts_error : ∀ {stmts : List Node} {ctx last : Context}
    {failure : Failure}, (checkStmts stmts).run ctx = .error failure last →
      ∃ (front : List Node) (stmt : Node) (rest : List Node) (next : Context),
        stmts = front ++ stmt :: rest ∧ (checkStmts front).run ctx = .ok () next ∧
          (checkStmt stmt).run next = .error failure last
  | [], _, _, _, h => by
      rw [checkStmts_nil] at h
      cases h
  | stmt :: rest, ctx, last, failure, h => by
      rw [checkStmts_cons] at h
      rcases error_cases_of_bind h with hstmt | ⟨⟨⟩, mid, hstmt, hrest⟩
      · exact ⟨[], stmt, rest, ctx, rfl, by rw [checkStmts_nil]; rfl, hstmt⟩
      · obtain ⟨front, stmt', rest', next, rfl, hfront, hstmt'⟩ := exists_of_checkStmts_error hrest
        refine ⟨stmt :: front, stmt', rest', next, rfl, ?_, hstmt'⟩
        rw [checkStmts_cons, run_bind_of_ok hstmt, hfront]

theorem operandsType_singleton_error {operand : Node} {ops : List String} {level : String}
    {expected : Ty} {first : Option Ty} {ctx last : Context} {failure : Failure}
    (h : (operandsType [operand] ops level expected first).run ctx = .error failure last) :
    failure.isOverKind = false ∨ (typeOf operand).run ctx = .error failure last := by
  rw [operandsType] at h
  rcases error_cases_of_bind h with hoperand | ⟨ty, next, -, htype⟩
  · exact .inr hoperand
  · left
    simp only [operandsType] at htype
    split at htype
    · exact ((Unkinded.expect level expected ty).bind fun _ => Unkinded.pure ty) _ _ _ htype
    · exact Unkinded.pure ty _ _ _ htype

/-- Operands fail at one of them, or over the type of one. -/
theorem exists_of_operandsType_error : ∀ {operands : List Node} {ops : List String}
    {level : String} {expected : Ty} {first : Option Ty} {ctx last : Context}
    {failure : Failure},
    (operandsType operands ops level expected first).run ctx = .error failure last →
      failure.isOverKind = false ∨
        ∃ (front : List Node) (operand : Node) (rest : List Node) (ty : Option Ty)
          (next : Context), operands = front ++ operand :: rest ∧
            (operandsType front ops level expected first).run ctx = .ok ty next ∧
            (typeOf operand).run next = .error failure last
  | [], _, _, _, _, _, _, _, h => by
      rw [operandsType] at h
      cases h
  | operand :: rest, ops, level, expected, first, ctx, last, failure, h => by
      rw [← List.singleton_append, operandsType_append] at h
      rcases error_cases_of_bind h with hfirst | ⟨ty, mid, hfirst, hrest⟩
      · rcases operandsType_singleton_error hfirst with hother | hoperand
        · exact .inl hother
        · exact .inr ⟨[], operand, rest, first, ctx, rfl, by rw [operandsType]; rfl, hoperand⟩
      · rcases exists_of_operandsType_error hrest with hother |
          ⟨front, operand', rest', ty', next, rfl, hfront, hoperand'⟩
        · exact .inl hother
        · refine .inr ⟨operand :: front, operand', rest', ty', next, rfl, ?_, hoperand'⟩
          rw [← List.singleton_append, operandsType_append, run_bind_of_ok hfirst, hfront]

namespace Visit

/-- Where a failure at a node comes from: the node is of an unknown kind, or the failure has
come up from a node below it, or it is not over a kind at all. -/
inductive Origin (v : Visit) (failure : Failure) (last : Context) : Prop
  | unknown (hkind : v.node.kindName ∉ v.position.kinds)
      (hfailure : failure = v.position.rejection v.node.kindName) (hlast : last = v.context)
  | below {w : Visit} (hleads : v.Leads w) (hw : w.FailsWith failure last)
  | other (h : failure.isOverKind = false)

/-- A computation that is part of the check of a node, in some state: it fails for no other
reason than a failure at that node can have. -/
def Traces {α : Type} (v : Visit) (m : Check α) (ctx : Context) : Prop :=
  ∀ (failure : Failure) (last : Context), m.run ctx = .error failure last →
    v.Origin failure last

namespace Traces

variable {α β : Type} {v : Visit} {ctx : Context}

theorem unkinded {m : Check α} (h : Unkinded m) : v.Traces m ctx :=
  fun failure last hrun => .other (h ctx last failure hrun)

theorem bind {m : Check α} {k : α → Check β} (hm : v.Traces m ctx)
    (hk : ∀ a next, m.run ctx = .ok a next → v.Traces (k a) next) : v.Traces (m >>= k) ctx := by
  intro failure last h
  rcases error_cases_of_bind h with hfirst | ⟨a, next, hfirst, hsecond⟩
  · exact hm failure last hfirst
  · exact hk a next hfirst failure last hsecond

theorem typeOf {n : Node} (h : v.Leads ⟨.expr, n, ctx⟩) : v.Traces (typeOf n) ctx :=
  fun _ _ hrun => .below h hrun

theorem checkStmt {n : Node} (h : v.Leads ⟨.stmt, n, ctx⟩) : v.Traces (checkStmt n) ctx :=
  fun _ _ hrun => .below h hrun

theorem checkCondition {n : Node} (h : v.Leads ⟨.expr, n, ctx⟩) :
    v.Traces (checkCondition n) ctx := by
  refine (typeOf h).bind fun ty next _ => unkinded ?_
  split
  · exact Unkinded.reject rfl
  · exact Unkinded.pure ()

theorem checkStmts {stmts : List Node}
    (h : ∀ {front rest : List Node} {stmt : Node} {next : Context},
      stmts = front ++ stmt :: rest → (checkStmts front).run ctx = .ok () next →
        v.Leads ⟨.stmt, stmt, next⟩) : v.Traces (checkStmts stmts) ctx := by
  intro failure last hrun
  obtain ⟨front, stmt, rest, next, heq, hfront, hstmt⟩ := exists_of_checkStmts_error hrun
  exact .below (h heq hfront) hstmt

theorem operandsType {operands : List Node} {ops : List String} {level : String}
    {expected : Ty} {first : Option Ty}
    (h : ∀ {front rest : List Node} {operand : Node} {ty : Option Ty} {next : Context},
      operands = front ++ operand :: rest →
      (operandsType front ops level expected first).run ctx = .ok ty next →
        v.Leads ⟨.expr, operand, next⟩) :
    v.Traces (operandsType operands ops level expected first) ctx := by
  intro failure last hrun
  rcases exists_of_operandsType_error hrun with hother |
    ⟨front, operand, rest, ty, next, heq, hfront, hoperand⟩
  · exact .other hother
  · exact .below (h heq hfront) hoperand

end Traces

theorem traces_typeOf (n : Node) (ctx : Context) : Traces ⟨.expr, n, ctx⟩ (typeOf n) ctx := by
  by_cases hkind : n.kindName ∈ Position.expr.kinds
  case neg =>
    intro failure last h
    rw [typeOf_of_not_mem_kinds hkind] at h
    cases h
    exact .unknown hkind rfl rfl
  cases n with
  | logical operands ops =>
      rw [typeOf]
      refine (Traces.operandsType ?_).bind fun ty next _ => .unkinded (.counted ops _)
      rintro front rest operand ty next rfl hfront
      exact .logical hfront
  | addition operands ops =>
      rw [typeOf]
      refine (Traces.operandsType ?_).bind fun ty next _ => .unkinded (.counted ops _)
      rintro front rest operand ty next rfl hfront
      exact .addition hfront
  | multiplication operands ops =>
      rw [typeOf]
      refine (Traces.operandsType ?_).bind fun ty next _ => .unkinded (.counted ops _)
      rintro front rest operand ty next rfl hfront
      exact .multiplication hfront
  | comparison left op right =>
      cases op with
      | none =>
          rw [typeOf]
          exact .typeOf .left
      | some op =>
          have hcount : Unkinded (do count .operators; return some Ty.bool) :=
            (Unkinded.modify _).bind fun _ => Unkinded.pure _
          rw [typeOf]
          refine (Traces.typeOf .left).bind fun ty next hleft => ?_
          cases hop : comparisonOf? op with
          | none => exact .unkinded ((Unkinded.reject rfl).bind fun _ => hcount)
          | some kind =>
              cases kind with
              | equality =>
                  have hright : Traces _ (Check.typeOf right) _ :=
                    .typeOf (.rightOfEquality hleft hop)
                  exact hright.bind fun _ _ _ => .unkinded hcount
              | order =>
                  refine (Traces.unkinded (Unkinded.expect _ _ _)).bind fun _ next' hnumber => ?_
                  obtain ⟨rfl, rfl⟩ := eq_of_run_expect hnumber
                  have hright : Traces _ (Check.typeOf right) _ :=
                    .typeOf (.rightOfOrder hleft hop)
                  refine hright.bind fun ty' _ _ => .unkinded ?_
                  exact (Unkinded.expect _ _ _).bind fun _ => hcount
  | signed operand ops =>
      rw [typeOf]
      refine (Traces.typeOf .signed).bind fun ty next _ => .unkinded ?_
      cases ops with
      | nil => exact Unkinded.pure ty
      | cons op ops => exact (Unkinded.expectNumeric ty).bind fun _ => Unkinded.counted _ _
  | negated operand ops =>
      rw [typeOf]
      refine (Traces.typeOf .negated).bind fun ty next _ => .unkinded ?_
      cases ops with
      | nil => exact Unkinded.pure ty
      | cons op ops => exact (Unkinded.expect _ _ _).bind fun _ => Unkinded.counted _ _
  | value inner =>
      rw [typeOf]
      exact .typeOf .inner
  | identifier name =>
      rw [typeOf]
      exact .unkinded ((Unkinded.lookup name).bind fun ty => Unkinded.pure _)
  | int _ | truth _ =>
      rw [typeOf]
      exact .unkinded (Unkinded.pure _)
  | foreign kind =>
      rw [typeOf]
      exact .unkinded (unkinded_foreignType hkind)
  | datum d => cases d <;> simp [Node.kindName, Datum.kindName, Position.kinds] at hkind
  | _ => simp [Node.kindName, Position.kinds] at hkind

theorem traces_checkStmt (n : Node) (ctx : Context) :
    Traces ⟨.stmt, n, ctx⟩ (checkStmt n) ctx := by
  by_cases hkind : n.kindName ∈ Position.stmt.kinds
  case neg =>
    intro failure last h
    rw [checkStmt_of_not_mem_kinds hkind] at h
    cases h
    exact .unknown hkind rfl rfl
  cases n with
  | program stmts =>
      rw [checkStmt]
      refine (Traces.checkStmts ?_).bind fun _ _ _ => .unkinded (Unkinded.modify _)
      rintro front rest stmt next rfl hfront
      exact .program hfront
  | block stmts =>
      rw [checkStmt]
      apply Traces.checkStmts
      rintro front rest stmt next rfl hfront
      exact .block hfront
  | declaration typeName ident =>
      rw [checkStmt]
      exact .unkinded (Unkinded.checkDeclaration typeName ident)
  | assignment target value =>
      rw [checkStmt]
      refine (Traces.unkinded (Unkinded.nameOf target)).bind fun name next hname => ?_
      obtain ⟨rfl, rfl⟩ := eq_of_run_nameOf hname
      refine (Traces.unkinded (Unkinded.lookup name)).bind fun wanted next htarget => ?_
      refine (Traces.typeOf (.assigned htarget)).bind fun ty _ _ => .unkinded ?_
      split
      · exact Unkinded.reject rfl
      · exact Unkinded.pure ()
  | branch cond body alt =>
      rw [checkStmt]
      refine (Traces.checkCondition .branchCond).bind fun _ mid hcond => ?_
      refine (Traces.checkStmt (.branchBody hcond)).bind fun _ next hbody => ?_
      cases halt : alt.isAbsent with
      | true => exact .unkinded (Unkinded.modify _)
      | false =>
          refine (Traces.checkStmt (.branchAlt hcond hbody halt)).bind fun _ _ _ => ?_
          exact .unkinded (Unkinded.modify _)
  | loop cond body =>
      rw [checkStmt]
      refine (Traces.checkCondition .loopCond).bind fun _ next hcond => ?_
      refine (Traces.checkStmt (.loopBody hcond)).bind fun _ _ _ => ?_
      exact .unkinded (Unkinded.modify _)
  | foreign kind =>
      rw [checkStmt]
      exact .unkinded (unkinded_foreignStmt hkind)
  | datum d => cases d <;> simp [Node.kindName, Datum.kindName, Position.kinds] at hkind
  | _ => simp [Node.kindName, Position.kinds] at hkind

/-- Each failure of a check has its origin at the node or below it. -/
theorem FailsWith.origin {v : Visit} {failure : Failure} {last : Context}
    (h : v.FailsWith failure last) : v.Origin failure last := by
  obtain ⟨position, n, ctx⟩ := v
  cases position with
  | stmt => exact traces_checkStmt n ctx failure last h
  | expr => exact traces_typeOf n ctx failure last h

/-- A failure over a kind comes from a node of an unknown kind that has been reached, in the
state that is left. -/
theorem FailsWith.exists_unknown {v : Visit} {failure : Failure} {last : Context}
    (h : v.FailsWith failure last) (hkind : failure.isOverKind = true) :
    ∃ w, v.Reaches w ∧ w.node.kindName ∉ w.position.kinds ∧
      failure = w.position.rejection w.node.kindName ∧ last = w.context := by
  cases h.origin with
  | unknown hunknown hfailure hlast => exact ⟨v, .refl, hunknown, hfailure, hlast⟩
  | @below child hleads hchild =>
      have hsize := Node.sizeOf_lt_of_mem_children hleads.mem_children
      obtain ⟨w, hreaches, hw⟩ := hchild.exists_unknown hkind
      exact ⟨w, .head hleads hreaches, hw⟩
  | other hother =>
      rw [hother] at hkind
      cases hkind
termination_by sizeOf v.node

end Visit

theorem check_eq_rejection_iff {tree : Node} {p : Position} {kind : String} {ctx : Context} :
    check tree = ⟨some (p.rejection kind), ctx⟩ ↔
      kind ∉ p.kinds ∧ ∃ node : Node, node.kindName = kind ∧
        Visit.Reaches ⟨.stmt, tree, {}⟩ ⟨p, node, ctx⟩ := by
  rw [check_eq_iff_failsWith]
  constructor
  · intro h
    obtain ⟨⟨q, node, last⟩, hreaches, hkind, hfailure, rfl⟩ :=
      h.exists_unknown (p.isOverKind_rejection kind)
    obtain ⟨rfl, rfl⟩ := Position.rejection_inj hfailure
    exact ⟨hkind, node, rfl, hreaches⟩
  · rintro ⟨hkind, node, rfl, hreaches⟩
    have hnode : Visit.FailsWith ⟨p, node, ctx⟩ (p.rejection node.kindName) ctx :=
      Visit.failsWith_rejection hkind
    exact hreaches.failsWith hnode

/-- A check ends with the error for an unknown kind exactly if it gets to a node of that kind,
at whatever depth, with no failure before, and it leaves the state in which it has got there.
The error tells the position and the kind.  One name at each position is an exception: a node
under the name of the serving rule misleads the check. -/
theorem check_rejects_unknown_iff (tree : Node) (p : Position) (ctx : Context) :
    (∀ kind : String, kind ≠ p.serving →
      (check tree = ⟨some (.semantic (p.unknown kind)), ctx⟩ ↔
        kind ∉ p.kinds ∧ ∃ node : Node, node.kindName = kind ∧
          Visit.Reaches ⟨.stmt, tree, {}⟩ ⟨p, node, ctx⟩)) ∧
    (∀ kind : String, (p.unknown kind).message = p.complaint ++ kind) ∧
    (check tree = ⟨some p.misled, ctx⟩ ↔
      ∃ node : Node, node.kindName = p.serving ∧
        Visit.Reaches ⟨.stmt, tree, {}⟩ ⟨p, node, ctx⟩) := by
  refine ⟨?_, p.message_unknown, ?_⟩
  · intro kind hkind
    rw [← Position.rejection_of_ne hkind]
    exact check_eq_rejection_iff
  · have hserving : p.serving ∉ p.kinds := by
      cases p <;> decide
    rw [← p.rejection_serving, check_eq_rejection_iff, and_iff_right hserving]

/-- The program `num a; while (a < 1) { a = 2 + stray; }` with a node of some kind for the
last operand. -/
def strayOperand (kind : String) : Node :=
  .program [.declaration "num" (.identifier "a"),
    .loop (.comparison (.identifier "a") (some "<") (.int 1))
      (.block [.assignment (.identifier "a") (.addition [.int 2, .foreign kind] ["+"])])]

/-- The state in which the check gets to the last operand. -/
def strayContext : Context where
  symbols := ⟨[("a", some .number)]⟩
  counters := ⟨1, 0, 0, 1⟩

theorem reaches_strayOperand (kind : String) :
    Visit.Reaches ⟨.stmt, strayOperand kind, {}⟩ ⟨.expr, .foreign kind, strayContext⟩ := by
  have hdeclaration : (checkStmts [.declaration "num" (.identifier "a")]).run {} =
      .ok () ⟨⟨[("a", some .number)]⟩, ⟨1, 0, 0, 0⟩, []⟩ := rfl
  have hcond : (checkCondition (.comparison (.identifier "a") (some "<") (.int 1))).run
      ⟨⟨[("a", some .number)]⟩, ⟨1, 0, 0, 0⟩, []⟩ = .ok () strayContext := rfl
  have hnone : (checkStmts []).run strayContext = .ok () strayContext := rfl
  have htarget : (lookup "a").run strayContext = .ok .number strayContext := rfl
  have hoperand : (operandsType [.int 2] ["+"] Level.addition .number none).run strayContext =
      .ok (some .number) strayContext := rfl
  refine .head (.program hdeclaration) (.head (.loopBody hcond) (.head (.block hnone) ?_))
  exact .head (.assigned htarget) (.single (.addition hoperand))

theorem check_rejects_unknown_iff_lambda :
    "Lambda" ≠ Position.expr.serving ∧
      check (strayOperand "Lambda") =
        ⟨some (.semantic (.unknownExpression "Lambda")), strayContext⟩ := by
  have hserving : "Lambda" ≠ Position.expr.serving := by decide
  have hkind : "Lambda" ∉ Position.expr.kinds := by decide
  have hcheck := (check_rejects_unknown_iff (strayOperand "Lambda") .expr strayContext).1
  refine ⟨hserving, (hcheck "Lambda" hserving).mpr ⟨hkind, .foreign "Lambda", rfl, ?_⟩⟩
  exact reaches_strayOperand "Lambda"

/-- Not every unknown kind is told to be unknown: the rule for lists of operands is called for a
node under its name, and breaks off. -/
theorem check_misled_by_operands :
    check (strayOperand "operands") = ⟨some .missingArguments, strayContext⟩ ∧
    ¬ ∀ (tree node : Node) (p : Position) (ctx : Context), node.kindName ∉ p.kinds →
      Visit.Reaches ⟨.stmt, tree, {}⟩ ⟨p, node, ctx⟩ →
        check tree = ⟨some (.semantic (p.unknown node.kindName)), ctx⟩ := by
  have hcheck : check (strayOperand "operands") = ⟨some .missingArguments, strayContext⟩ := rfl
  refine ⟨hcheck, fun h => ?_⟩
  have hunknown := h _ _ _ _ (by decide) (reaches_strayOperand "operands")
  rw [hcheck] at hunknown
  cases hunknown

end Check

end NumBool
