import NumBool.Proofs.Check.Concatenation
import NumBool.Proofs.Check.Safety
import NumBool.Proofs.Tree.Nodes

/-!
# The counts of a tree

What a check has counted can be compared with what there is to count in the tree.  Each node
has its share of the counts (`Node.amount`), and `Node.total` adds the shares of all nodes up.
A check that ends early has counted no more than that, and one that passes has counted all
of it but what a comparison without an operator holds on its right side, which is never looked
at (`Node.pruned`).

The steps of a check account for the nodes that they belong to (`Accounts`): they add up to
the shares of these nodes, and to less only where a node breaks the check off.  This holds of
every tree, so it holds wherever a check can end.
-/

namespace NumBool

/-- One of the counts. -/
def Counters.get (c : Counters) : Counters.Field → Int
  | .declarations => c.declarations
  | .whiles => c.whiles
  | .ifs => c.ifs
  | .operators => c.operators

/-- What a node by itself adds to a count. -/
def Node.amount (field : Counters.Field) : Node → Nat
  | .declaration _ _ => if field = .declarations then 1 else 0
  | .loop _ _ => if field = .whiles then 1 else 0
  | .branch _ _ _ => if field = .ifs then 1 else 0
  | .logical _ ops => if field = .operators then ops.length else 0
  | .comparison _ (some _) _ => if field = .operators then 1 else 0
  | .addition _ ops => if field = .operators then ops.length else 0
  | .multiplication _ ops => if field = .operators then ops.length else 0
  | .signed _ ops => if field = .operators then ops.length else 0
  | .negated _ ops => if field = .operators then ops.length else 0
  | _ => 0

/-- What all nodes of a tree add up to in a count. -/
def Node.total (field : Counters.Field) (n : Node) : Nat :=
  (n.nodes.map (Node.amount field)).sum

/-- What all nodes of some trees add up to in a count. -/
def totals (field : Counters.Field) (nodes : List Node) : Nat :=
  (nodes.map (Node.total field)).sum

@[simp] theorem totals_nil (field : Counters.Field) : totals field [] = 0 := rfl

@[simp] theorem totals_cons (field : Counters.Field) (node : Node) (rest : List Node) :
    totals field (node :: rest) = node.total field + totals field rest := by
  rw [totals, totals, List.map_cons, List.sum_cons]

@[simp] theorem Node.total_absent (field : Counters.Field) : Node.absent.total field = 0 := rfl

theorem sum_amount_flatMap_nodes (field : Counters.Field) (nodes : List Node) :
    ((nodes.flatMap Node.nodes).map (Node.amount field)).sum = totals field nodes := by
  induction nodes with
  | nil => rfl
  | cons node rest ih =>
      rw [List.flatMap_cons, List.map_append, List.sum_append, ih, totals_cons, Node.total]

/-- What the children of a node add, and what it adds by itself. -/
theorem Node.total_eq (field : Counters.Field) (n : Node) :
    n.total field = totals field n.children + n.amount field := by
  rw [total, nodes_eq_cons, List.map_cons, List.sum_cons, sum_amount_flatMap_nodes,
    Nat.add_comm]

mutual

/-- A tree in which comparisons without an operator have lost their right side. -/
def Node.pruned : Node → Node
  | .program stmts => .program (prunedNodes stmts)
  | .block stmts => .block (prunedNodes stmts)
  | .declaration typeName ident => .declaration typeName ident.pruned
  | .assignment target value => .assignment target.pruned value.pruned
  | .branch cond body alt => .branch cond.pruned body.pruned alt.pruned
  | .loop cond body => .loop cond.pruned body.pruned
  | .logical operands ops => .logical (prunedNodes operands) ops
  | .comparison left none _ => .comparison left.pruned none .absent
  | .comparison left (some op) right => .comparison left.pruned (some op) right.pruned
  | .addition operands ops => .addition (prunedNodes operands) ops
  | .multiplication operands ops => .multiplication (prunedNodes operands) ops
  | .signed operand ops => .signed operand.pruned ops
  | .negated operand ops => .negated operand.pruned ops
  | .value inner => .value inner.pruned
  | .list items => .list (prunedNodes items)
  | node => node

/-- Some trees with the unused sides of comparisons left out. -/
def prunedNodes : List Node → List Node
  | [] => []
  | node :: rest => node.pruned :: prunedNodes rest

end

namespace Check

/-- A step that counts adds nothing negative, and only steps that declare count declarations. -/
def Step.Tidy : Step → Prop
  | .tally field n => field ≠ .declarations ∧ 0 ≤ n
  | _ => True

/-- Some steps account for a part of a tree: they add up to no more than `bound`, and to
`sum` if none of them breaks the check off. -/
structure Accounts (field : Counters.Field) (steps : List Step) (bound sum : Nat) : Prop where
  tidy : ∀ step ∈ steps, step.Tidy
  le : amounts field steps ≤ bound
  eq : (∀ failure, Step.breakdown failure ∉ steps) → amounts field steps = sum

namespace Accounts

variable {field : Counters.Field} {xs ys : List Step} {bound sum bound' sum' : Nat}

theorem nil : Accounts field [] 0 0 where
  tidy := List.forall_mem_nil _
  le := Int.le_refl 0
  eq := fun _ => rfl

theorem append (hxs : Accounts field xs bound sum) (hys : Accounts field ys bound' sum') :
    Accounts field (xs ++ ys) (bound + bound') (sum + sum') where
  tidy := List.forall_mem_append.mpr ⟨hxs.tidy, hys.tidy⟩
  le := by
    have hle := hxs.le
    have hle' := hys.le
    rw [Grammar.amounts_append]
    omega
  eq := by
    intro hnone
    have heq := hxs.eq fun failure hmem => hnone failure (List.mem_append_left ys hmem)
    have heq' := hys.eq fun failure hmem => hnone failure (List.mem_append_right xs hmem)
    rw [Grammar.amounts_append, heq, heq', Int.natCast_add]

theorem weaken (h : Accounts field xs bound sum) (hbound : bound ≤ bound') (hsum : sum = sum') :
    Accounts field xs bound' sum' where
  tidy := h.tidy
  le := by
    have hle := h.le
    omega
  eq := by
    rw [← hsum]
    exact h.eq

/-- One step that does not break the check off. -/
theorem single {step : Step} {n : Nat} (htidy : step.Tidy) (h : step.amount field = n) :
    Accounts field [step] n n where
  tidy := List.forall_mem_singleton.mpr htidy
  le := by
    rw [Grammar.amounts_singleton, h]
  eq := by
    intro _
    rw [Grammar.amounts_singleton, h]

theorem breakdown (failure : Failure) (bound sum : Nat) :
    Accounts field [.breakdown failure] bound sum where
  tidy := List.forall_mem_singleton.mpr trivial
  le := Int.natCast_nonneg bound
  eq := fun hnone => absurd List.mem_cons_self (hnone failure)

theorem tally {counted : Counters.Field} (n : Nat) (h : counted ≠ .declarations) :
    Accounts field [.tally counted n] (if field = counted then n else 0)
      (if field = counted then n else 0) := by
  apply single
  · exact ⟨h, Int.natCast_nonneg n⟩
  · rw [Step.amount]
    split <;> rfl

end Accounts

theorem accounts_foreignTrace (field : Counters.Field) (kind : String) :
    Accounts field (foreignTrace kind) 0 0 := by
  unfold foreignTrace
  cases firstPart? kind with
  | some part => exact Accounts.breakdown _ _ _
  | none =>
      by_cases hliteral : kind = "IntValue" ∨ kind = "BoolValue"
      · simp only [hliteral, if_true]
        exact Accounts.nil
      · by_cases hoperands : kind = "operands"
        · simp only [hoperands]
          exact Accounts.breakdown _ _ _
        · simp only [hliteral, hoperands, if_false]
          exact Accounts.breakdown _ _ _

/-- Next to operators an operand is checked, which counts nothing. -/
theorem accounts_operand (field : Counters.Field) (ops : List String) (level : String)
    (expected : Ty) (got : Reading) :
    Accounts field (if ops.isEmpty then [] else [.operand level expected got]) 0 0 := by
  cases ops with
  | nil => exact Accounts.nil
  | cons op ops => exact Accounts.single trivial rfl

/-- Signs and negation marks are counted after their operand is checked. -/
theorem accounts_checked (field : Counters.Field) (ops : List String) (level : String)
    (expected : Ty) (got : Reading) :
    Accounts field
      (if ops.isEmpty then [] else [.operand level expected got, .tally .operators ops.length])
      (if field = .operators then ops.length else 0)
      (if field = .operators then ops.length else 0) := by
  cases ops with
  | nil => exact Accounts.nil.weaken (Nat.zero_le _) (by simp)
  | cons op ops =>
      have hcheck : Accounts field [.operand level expected got] 0 0 :=
        Accounts.single trivial rfl
      exact (hcheck.append (Accounts.tally _ (by decide))).weaken (by simp) (by simp)

mutual

/-- The steps for an expression account for its nodes. -/
theorem accounts_trace (field : Counters.Field) : ∀ n : Node,
    Accounts field (trace n) (n.total field) (n.pruned.total field)
  | .logical operands ops => by
      have hoperands := accounts_operandsTrace field operands ops Level.logical .bool
      rw [trace, Node.pruned, Node.total_eq, Node.total_eq]
      exact hoperands.append (Accounts.tally _ (by decide))
  | .comparison left none right => by
      have hleft := accounts_trace field left
      rw [trace, Node.pruned, Node.total_eq, Node.total_eq]
      -- the right side is there and is not looked at
      exact hleft.weaken (by simp [Node.children]; omega) (by simp [Node.children, Node.amount])
  | .comparison left (some op) right => by
      have hleft := accounts_trace field left
      have hright := accounts_trace field right
      have hcheck : ∀ got : Reading,
          Accounts field [.operand Level.comparison .number got] 0 0 := fun _ =>
        Accounts.single trivial rfl
      have htally : Accounts field [.tally .operators 1] _ _ := Accounts.tally 1 (by decide)
      rw [trace, Node.pruned, Node.total_eq, Node.total_eq]
      simp only [Node.children, Node.amount, totals_cons, totals_nil, Nat.add_assoc]
      cases comparisonOf? op with
      | none => exact hleft.append (Accounts.breakdown _ _ _)
      | some kind =>
          cases kind with
          | equality =>
              exact (hleft.append (hright.append htally)).weaken (by omega) (by omega)
          | order =>
              have hrest := hright.append ((hcheck (reading right)).append htally)
              exact (hleft.append ((hcheck (reading left)).append hrest)).weaken (by omega)
                (by omega)
  | .addition operands ops => by
      have hoperands := accounts_operandsTrace field operands ops Level.addition .number
      rw [trace, Node.pruned, Node.total_eq, Node.total_eq]
      exact hoperands.append (Accounts.tally _ (by decide))
  | .multiplication operands ops => by
      have hoperands := accounts_operandsTrace field operands ops Level.multiplication .number
      rw [trace, Node.pruned, Node.total_eq, Node.total_eq]
      exact hoperands.append (Accounts.tally _ (by decide))
  | .signed operand ops => by
      have hoperand := accounts_trace field operand
      rw [trace, Node.pruned, Node.total_eq, Node.total_eq]
      exact hoperand.append (accounts_checked field ops _ _ _)
  | .negated operand ops => by
      have hoperand := accounts_trace field operand
      rw [trace, Node.pruned, Node.total_eq, Node.total_eq]
      exact hoperand.append (accounts_checked field ops _ _ _)
  | .value inner => by
      have hinner := accounts_trace field inner
      rw [trace, Node.pruned, Node.total_eq, Node.total_eq]
      exact hinner
  | .foreign kind => accounts_foreignTrace field kind
  | .identifier _ => Accounts.single trivial rfl
  | .int _ | .truth _ => Accounts.nil
  | .program _ | .block _ | .declaration _ _ | .assignment _ _ | .branch _ _ _ | .loop _ _
  | .absent | .datum _ | .list _ => Accounts.breakdown _ _ _

theorem accounts_operandsTrace (field : Counters.Field) : ∀ (operands : List Node)
    (ops : List String) (level : String) (expected : Ty),
    Accounts field (operandsTrace operands ops level expected) (totals field operands)
      (totals field (prunedNodes operands))
  | [], _, _, _ => by
      rw [operandsTrace, prunedNodes]
      exact Accounts.nil
  | operand :: rest, ops, level, expected => by
      have hoperand := accounts_trace field operand
      have hrest := accounts_operandsTrace field rest ops level expected
      have hcheck := accounts_operand field ops level expected (reading operand)
      rw [operandsTrace, prunedNodes, totals_cons, totals_cons]
      exact (hoperand.append (hcheck.append hrest)).weaken (by omega) (by omega)

end

theorem accounts_foreignStmtTrace (field : Counters.Field) (kind : String) :
    Accounts field (foreignStmtTrace kind) 0 0 := by
  unfold foreignStmtTrace
  cases firstStmtPart? kind with
  | some part => exact Accounts.breakdown _ _ _
  | none =>
      by_cases hstmt : kind = "stmt"
      · simp only [hstmt, if_true]
        exact Accounts.breakdown _ _ _
      · simp only [hstmt, if_false]
        exact Accounts.breakdown _ _ _

/-- What is no identifier has no name, and the check breaks off. -/
theorem accounts_declaration (field : Counters.Field) (typeName : String) (ident : Node) :
    Accounts field (stmtTrace (.declaration typeName ident))
      ((Node.declaration typeName ident).total field)
      ((Node.declaration typeName ident).pruned.total field) := by
  rw [stmtTrace, Node.pruned, Node.total_eq, Node.total_eq]
  cases ident with
  | identifier name =>
      cases Ty.ofKeyword? typeName with
      | none => exact Accounts.breakdown _ _ _
      | some ty =>
          have hone : Accounts field [.declare name ty]
              (if field = .declarations then 1 else 0)
              (if field = .declarations then 1 else 0) := by
            apply Accounts.single
            · trivial
            · rw [Step.amount]
              split <;> rfl
          exact hone.weaken (Nat.le_add_left _ _) (Nat.zero_add _).symm
  | _ => exact Accounts.breakdown _ _ _

theorem accounts_assignment (field : Counters.Field) (target value : Node) :
    Accounts field (stmtTrace (.assignment target value))
      ((Node.assignment target value).total field)
      ((Node.assignment target value).pruned.total field) := by
  have hvalue := accounts_trace field value
  rw [stmtTrace, Node.pruned, Node.total_eq, Node.total_eq]
  cases target with
  | identifier name =>
      have huse : Accounts field [.use name] 0 0 := Accounts.single trivial rfl
      have hassign : Accounts field [.assign name (reading value)] 0 0 :=
        Accounts.single trivial rfl
      have hname : (Node.identifier name).total field = 0 := rfl
      simp only [Node.pruned, Node.children, Node.amount, totals_cons, totals_nil, hname]
      exact (huse.append (hvalue.append hassign)).weaken (by omega) (by omega)
  | _ => exact Accounts.breakdown _ _ _

/-- An alternative that is absent has no steps, and nothing to count. -/
theorem accounts_alternative {field : Counters.Field} {alt : Node}
    (h : Accounts field (stmtTrace alt) (alt.total field) (alt.pruned.total field)) :
    Accounts field (if alt.isAbsent then [] else stmtTrace alt) (alt.total field)
      (alt.pruned.total field) := by
  cases alt with
  | absent => exact Accounts.nil
  | _ => exact h

mutual

/-- The steps for a statement account for its nodes. -/
theorem accounts_stmtTrace (field : Counters.Field) : ∀ n : Node,
    Accounts field (stmtTrace n) (n.total field) (n.pruned.total field)
  | .program stmts => by
      have hstmts := accounts_stmtsTrace field stmts
      rw [stmtTrace, Node.pruned, Node.total_eq, Node.total_eq]
      exact hstmts.append (Accounts.single trivial rfl)
  | .block stmts => by
      have hstmts := accounts_stmtsTrace field stmts
      rw [stmtTrace, Node.pruned, Node.total_eq, Node.total_eq]
      exact hstmts
  | .declaration typeName ident => accounts_declaration field typeName ident
  | .assignment target value => accounts_assignment field target value
  | .branch cond body alt => by
      have hcond := accounts_trace field cond
      have hcheck : Accounts field [.condition (reading cond)] 0 0 := Accounts.single trivial rfl
      have hbody := accounts_stmtTrace field body
      have halt := accounts_alternative (accounts_stmtTrace field alt)
      have htally : Accounts field [.tally .ifs 1] _ _ := Accounts.tally 1 (by decide)
      rw [stmtTrace, Node.pruned, Node.total_eq, Node.total_eq]
      simp only [Node.children, Node.amount, totals_cons, totals_nil]
      have hrest := hcheck.append (hbody.append (halt.append htally))
      exact (hcond.append hrest).weaken (by omega) (by omega)
  | .loop cond body => by
      have hcond := accounts_trace field cond
      have hcheck : Accounts field [.condition (reading cond)] 0 0 := Accounts.single trivial rfl
      have hbody := accounts_stmtTrace field body
      have htally : Accounts field [.tally .whiles 1] _ _ := Accounts.tally 1 (by decide)
      rw [stmtTrace, Node.pruned, Node.total_eq, Node.total_eq]
      simp only [Node.children, Node.amount, totals_cons, totals_nil]
      have hrest := hcheck.append (hbody.append htally)
      exact (hcond.append hrest).weaken (by omega) (by omega)
  | .foreign kind => accounts_foreignStmtTrace field kind
  | .identifier _ | .logical _ _ | .comparison _ _ _ | .addition _ _ | .multiplication _ _
  | .signed _ _ | .negated _ _ | .value _ | .int _ | .truth _ | .absent | .datum _
  | .list _ => Accounts.breakdown _ _ _

theorem accounts_stmtsTrace (field : Counters.Field) : ∀ stmts : List Node,
    Accounts field (stmtsTrace stmts) (totals field stmts) (totals field (prunedNodes stmts))
  | [] => Accounts.nil
  | stmt :: rest => by
      rw [stmtsTrace, prunedNodes, totals_cons, totals_cons]
      exact (accounts_stmtTrace field stmt).append (accounts_stmtsTrace field rest)

end

/-! ## Where a check can end -/

/-- A check ends behind some steps of its trace that hold, and behind all of them if it
passes. -/
theorem exists_check_context (tree : Node) :
    ∃ before after : List Step, stmtTrace tree = before ++ after ∧ AllHold before ∧
      (check tree).context = contextOf before ∧ ((check tree).failure = none → after = []) := by
  by_cases hholds : AllHold (stmtTrace tree)
  · rw [check_eq_of_allHold hholds]
    exact ⟨stmtTrace tree, [], by simp, hholds, rfl, fun _ => rfl⟩
  · obtain ⟨before, step, after, hsteps, hbefore, hfails⟩ := exists_first_violation hholds
    rw [check_eq_of_violation hsteps hbefore hfails]
    exact ⟨before, step :: after, hsteps, hbefore, rfl, fun hnone => by simp at hnone⟩

theorem countersOf_get (field : Counters.Field) (steps : List Step) :
    (countersOf steps).get field = amounts field steps := by
  cases field <;> rfl

theorem amounts_nonneg {field : Counters.Field} {steps : List Step}
    (h : ∀ step ∈ steps, step.Tidy) : 0 ≤ amounts field steps := by
  induction steps with
  | nil => exact Int.le_refl 0
  | cons step steps ih =>
      rw [List.forall_mem_cons] at h
      have hsteps := ih h.2
      have hstep : 0 ≤ step.amount field := by
        cases step with
        | declare name ty =>
            rw [Step.amount]
            split <;> decide
        | tally counted n =>
            rw [Step.amount]
            split
            · exact h.1.2
            · exact Int.le_refl 0
        | _ => exact Int.le_refl 0
      exact Int.add_nonneg hstep hsteps

/-- The count of declarations is their number. -/
theorem amounts_declarations {steps : List Step} (h : ∀ step ∈ steps, step.Tidy) :
    amounts .declarations steps = (declared steps).length := by
  induction steps with
  | nil => rfl
  | cons step steps ih =>
      rw [List.forall_mem_cons] at h
      have hstep : step.amount .declarations = (declared [step]).length := by
        cases step with
        | tally counted n =>
            rw [Step.amount, if_neg h.1.1.symm]
            rfl
        | _ => rfl
      have hdeclared : declared (step :: steps) = declared [step] ++ declared steps :=
        declared_append [step] steps
      rw [amounts, hdeclared, List.length_append, hstep, ih h.2, Int.natCast_add]

theorem AllHold.breakdown_notMem {steps : List Step} (h : AllHold steps) (failure : Failure) :
    Step.breakdown failure ∉ steps := by
  intro hmem
  obtain ⟨before, after, hsteps⟩ := List.append_of_mem hmem
  have hholds := h before (.breakdown failure) after hsteps
  simp [Step.holds] at hholds

/-- The counts and the variables of a check agree with its tree, however it ends.  There are
as many declarations counted as variables in the table, whose names are distinct and have
types.  No count exceeds what the nodes of the tree add up to, and if the check passes all
counts are equal to it, leaving out the right sides of comparisons without an operator. -/
theorem check_agrees_with_tree (tree : Node) :
    ((check tree).context.counters.declarations = (check tree).context.symbols.size ∧
      (check tree).context.symbols.names.Nodup ∧
      ∀ entry ∈ (check tree).context.symbols.entries,
        entry.2 = some .number ∨ entry.2 = some .bool) ∧
    (∀ field, (check tree).context.counters.get field ≤ tree.total field) ∧
    ((check tree).failure = none →
      ∀ field, (check tree).context.counters.get field = tree.pruned.total field) := by
  obtain ⟨before, after, hsteps, hbefore, hcontext, hafter⟩ := exists_check_context tree
  have haccounts : ∀ field, Accounts field (before ++ after) (tree.total field)
      (tree.pruned.total field) := by
    intro field
    rw [← hsteps]
    exact accounts_stmtTrace field tree
  have htidy := List.forall_mem_append.mp (haccounts .declarations).tidy
  rw [hcontext, contextOf_counters, contextOf_symbols, names_tableOf]
  refine ⟨⟨?_, hbefore.nodup, ?_⟩, ?_, ?_⟩
  · rw [tableOf, Table.size, List.length_map]
    exact amounts_declarations htidy.1
  · intro entry hentry
    obtain ⟨decl, -, rfl⟩ := List.mem_map.mp hentry
    cases decl.2 with
    | number => exact .inl rfl
    | bool => exact .inr rfl
  · intro field
    have hle := (haccounts field).le
    have hrest : 0 ≤ amounts field after := amounts_nonneg htidy.2
    rw [Grammar.amounts_append] at hle
    rw [countersOf_get]
    omega
  · intro hpasses field
    obtain rfl := hafter hpasses
    have heq := (haccounts field).eq
    rw [List.append_nil] at heq
    rw [countersOf_get]
    exact heq hbefore.breakdown_notMem

/-- A program in a program, with an assignment whose value has a side that is not used. -/
def unusedSide : Node :=
  .program [.declaration "num" (.identifier "a"),
    .program [.assignment (.identifier "a") (.comparison (.int 1) none (.addition [] ["+", "-"]))],
    .loop (.logical [] ["&&"]) (.block [])]

theorem check_agrees_with_tree_unusedSide :
    (check unusedSide).failure = none ∧ unusedSide.total .operators = 3 ∧
      (check unusedSide).context.counters.get .operators = 1 ∧
      ∀ field, (check unusedSide).context.counters.get field = unusedSide.pruned.total field := by
  have hpasses : (check unusedSide).failure = none := by decide +kernel
  have hcounts := (check_agrees_with_tree unusedSide).2.2 hpasses
  have hpruned : unusedSide.pruned.total .operators = 1 := by decide +kernel
  refine ⟨hpasses, by decide +kernel, ?_, hcounts⟩
  rw [hcounts, hpruned]
  rfl

end Check

end NumBool
