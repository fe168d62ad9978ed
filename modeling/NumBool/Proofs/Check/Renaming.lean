import NumBool.Proofs.Check.Simulation

/-!
# Renamed trees

A check compares names with each other and does nothing else with them.  So a tree in which
every name has been replaced is checked like the tree itself, as long as different names stay
different: the same rules hold and break at the same places, and wherever a failure or the
table of variables shows a name, it shows the new one.

Renaming goes through traces.  The trace of a renamed tree is the trace of the tree with every
step renamed (`stmtTrace_rename`), and a step is judged alike before and after
(`Step.holds_rename`).  Only the lookup of a name needs that the map is injective
(`lookup_renameDecls`).  A map that is not injective makes one of two declarations the second
one of its name, so for no such map are all trees checked alike.
-/

namespace NumBool

mutual

/-- A tree with every name replaced. -/
def Node.rename (r : String → String) : Node → Node
  | .program stmts => .program (renameNodes r stmts)
  | .block stmts => .block (renameNodes r stmts)
  | .identifier name => .identifier (r name)
  | .declaration typeName ident => .declaration typeName (ident.rename r)
  | .assignment target value => .assignment (target.rename r) (value.rename r)
  | .branch cond body alt => .branch (cond.rename r) (body.rename r) (alt.rename r)
  | .loop cond body => .loop (cond.rename r) (body.rename r)
  | .logical operands ops => .logical (renameNodes r operands) ops
  | .comparison left op right => .comparison (left.rename r) op (right.rename r)
  | .addition operands ops => .addition (renameNodes r operands) ops
  | .multiplication operands ops => .multiplication (renameNodes r operands) ops
  | .signed operand ops => .signed (operand.rename r) ops
  | .negated operand ops => .negated (operand.rename r) ops
  | .value inner => .value (inner.rename r)
  | .list items => .list (renameNodes r items)
  | node => node

/-- Some trees with every name replaced. -/
def renameNodes (r : String → String) : List Node → List Node
  | [] => []
  | node :: rest => node.rename r :: renameNodes r rest

end

/-- A semantic error about renamed variables. -/
def SemanticError.rename (r : String → String) : SemanticError → SemanticError
  | .undefined name => .undefined (r name)
  | .duplicate name => .duplicate (r name)
  | .assignment name => .assignment (r name)
  | .unknownType typeName name => .unknownType typeName (r name)
  | error => error

/-- A failure on a renamed tree. -/
def Failure.rename (r : String → String) : Failure → Failure
  | .semantic error => .semantic (error.rename r)
  | failure => failure

/-- A table with every name replaced, in the same order. -/
def Table.rename (r : String → String) (t : Table) : Table :=
  ⟨t.entries.map fun entry => (r entry.1, entry.2)⟩

/-- The state of a check with every name replaced. -/
def Context.rename (r : String → String) (ctx : Context) : Context :=
  { ctx with symbols := ctx.symbols.rename r }

theorem Node.isAbsent_rename (r : String → String) (n : Node) :
    (n.rename r).isAbsent = n.isAbsent := by
  cases n with
  | _ => rfl

theorem Node.name?_rename (r : String → String) (n : Node) :
    (n.rename r).name? = n.name?.map r := by
  cases n with
  | _ => rfl

theorem Node.kindName_rename (r : String → String) (n : Node) :
    (n.rename r).kindName = n.kindName := by
  cases n with
  | _ => rfl

namespace Check

/-- A reading of a renamed variable. -/
def Reading.rename (r : String → String) : Reading → Reading
  | .declared name => .declared (r name)
  | got => got

/-- A step of the check of a renamed tree. -/
def Step.rename (r : String → String) : Step → Step
  | .declare name ty => .declare (r name) ty
  | .use name => .use (r name)
  | .operand level expected got => .operand level expected (got.rename r)
  | .condition got => .condition (got.rename r)
  | .assign target got => .assign (r target) (got.rename r)
  | .tally field n => .tally field n
  | .report => .report
  | .breakdown failure => .breakdown (failure.rename r)

/-- Declarations of renamed variables. -/
def renameDecls (r : String → String) (decls : List (String × Ty)) : List (String × Ty) :=
  decls.map fun decl => (r decl.1, decl.2)

/-! ## Traces of renamed trees -/

mutual

theorem reading_rename (r : String → String) : ∀ n : Node,
    reading (n.rename r) = (reading n).rename r
  | .logical operands ops => by
      rw [Node.rename, reading, reading, lastReading_rename r operands]
      cases ops <;> rfl
  | .comparison left none right => by
      rw [Node.rename, reading, reading, reading_rename r left]
  | .comparison left (some op) right => by
      rw [Node.rename, reading, reading]
      rfl
  | .addition operands ops => by
      rw [Node.rename, reading, reading, lastReading_rename r operands]
      cases ops <;> rfl
  | .multiplication operands ops => by
      rw [Node.rename, reading, reading, lastReading_rename r operands]
      cases ops <;> rfl
  | .signed operand ops => by
      rw [Node.rename, reading, reading, reading_rename r operand]
      cases ops <;> rfl
  | .negated operand ops => by
      rw [Node.rename, reading, reading, reading_rename r operand]
      cases ops <;> rfl
  | .value inner => by
      rw [Node.rename, reading, reading, reading_rename r inner]
  | .foreign kind => by
      rw [Node.rename, reading]
      · split
        · rfl
        · split <;> rfl
      all_goals simp
  | .identifier _ | .int _ | .truth _ | .program _ | .block _ | .declaration _ _
  | .assignment _ _ | .branch _ _ _ | .loop _ _ | .absent | .datum _ | .list _ => rfl

theorem lastReading_rename (r : String → String) : ∀ operands : List Node,
    lastReading (renameNodes r operands) = (lastReading operands).rename r
  | [] => rfl
  | [operand] => by
      have hoperand := reading_rename r operand
      simpa only [renameNodes, lastReading] using hoperand
  | _ :: next :: rest => by
      have hrest := lastReading_rename r (next :: rest)
      simpa only [renameNodes, lastReading] using hrest

end

theorem foreignTrace_rename (r : String → String) (kind : String) :
    (foreignTrace kind).map (Step.rename r) = foreignTrace kind := by
  unfold foreignTrace
  repeat' split
  all_goals rfl

mutual

theorem trace_rename (r : String → String) : ∀ n : Node,
    trace (n.rename r) = (trace n).map (Step.rename r)
  | .logical operands ops => by
      rw [Node.rename, trace, trace, operandsTrace_rename r operands, List.map_append]
      rfl
  | .comparison left none right => by
      rw [Node.rename, trace, trace, trace_rename r left]
  | .comparison left (some op) right => by
      have hleft := reading_rename r left
      have hright := reading_rename r right
      rw [Node.rename, trace, trace, trace_rename r left, List.map_append]
      congr 1
      split
      · rfl
      · rw [trace_rename r right, List.map_append]
        rfl
      · rw [trace_rename r right, hleft, hright, List.map_cons, List.map_append]
        rfl
  | .addition operands ops => by
      rw [Node.rename, trace, trace, operandsTrace_rename r operands, List.map_append]
      rfl
  | .multiplication operands ops => by
      rw [Node.rename, trace, trace, operandsTrace_rename r operands, List.map_append]
      rfl
  | .signed operand ops => by
      rw [Node.rename, trace, trace, trace_rename r operand, reading_rename r operand,
        List.map_append]
      cases ops <;> rfl
  | .negated operand ops => by
      rw [Node.rename, trace, trace, trace_rename r operand, reading_rename r operand,
        List.map_append]
      cases ops <;> rfl
  | .value inner => by
      rw [Node.rename, trace, trace, trace_rename r inner]
  | .foreign kind => by
      have hforeign := foreignTrace_rename r kind
      simpa only [Node.rename, trace] using hforeign.symm
  | .identifier _ | .int _ | .truth _ | .program _ | .block _ | .declaration _ _
  | .assignment _ _ | .branch _ _ _ | .loop _ _ | .absent | .datum _ | .list _ => rfl

theorem operandsTrace_rename (r : String → String) : ∀ (operands : List Node)
    (ops : List String) (level : String) (expected : Ty),
    operandsTrace (renameNodes r operands) ops level expected =
      (operandsTrace operands ops level expected).map (Step.rename r)
  | [], _, _, _ => rfl
  | operand :: rest, ops, level, expected => by
      rw [renameNodes, operandsTrace, operandsTrace, trace_rename r operand,
        operandsTrace_rename r rest, reading_rename r operand, List.map_append, List.map_append]
      cases ops <;> rfl

end

theorem foreignStmtTrace_rename (r : String → String) (kind : String) :
    (foreignStmtTrace kind).map (Step.rename r) = foreignStmtTrace kind := by
  unfold foreignStmtTrace
  repeat' split
  all_goals rfl

theorem namelessTrace_rename (r : String → String) (n : Node) :
    namelessTrace (n.rename r) = (namelessTrace n).map (Step.rename r) := by
  rw [namelessTrace, Node.kindName_rename]
  rfl

mutual

/-- The trace of a renamed tree is the renamed trace. -/
theorem stmtTrace_rename (r : String → String) : ∀ n : Node,
    stmtTrace (n.rename r) = (stmtTrace n).map (Step.rename r)
  | .program stmts => by
      rw [Node.rename, stmtTrace, stmtTrace, stmtsTrace_rename r stmts, List.map_append]
      rfl
  | .block stmts => by
      rw [Node.rename, stmtTrace, stmtTrace, stmtsTrace_rename r stmts]
  | .declaration typeName ident => by
      rw [Node.rename, stmtTrace, stmtTrace, Node.name?_rename]
      cases ident.name? with
      | none => exact namelessTrace_rename r ident
      | some name => cases Ty.ofKeyword? typeName <;> rfl
  | .assignment target value => by
      rw [Node.rename, stmtTrace, stmtTrace, Node.name?_rename, trace_rename, reading_rename]
      cases target.name? with
      | none => exact namelessTrace_rename r target
      | some name =>
          rw [List.map_cons, List.map_append]
          rfl
  | .branch cond body alt => by
      rw [Node.rename, stmtTrace, stmtTrace, trace_rename, reading_rename,
        stmtTrace_rename r body, stmtTrace_rename r alt, Node.isAbsent_rename, List.map_append,
        List.map_cons, List.map_append, List.map_append]
      cases alt.isAbsent <;> rfl
  | .loop cond body => by
      rw [Node.rename, stmtTrace, stmtTrace, trace_rename, reading_rename,
        stmtTrace_rename r body, List.map_append, List.map_cons, List.map_append]
      rfl
  | .foreign kind => by
      have hforeign := foreignStmtTrace_rename r kind
      simpa only [Node.rename, stmtTrace] using hforeign.symm
  | .identifier _ | .logical _ _ | .comparison _ _ _ | .addition _ _ | .multiplication _ _
  | .signed _ _ | .negated _ _ | .value _ | .int _ | .truth _ | .absent | .datum _
  | .list _ => rfl

theorem stmtsTrace_rename (r : String → String) : ∀ stmts : List Node,
    stmtsTrace (renameNodes r stmts) = (stmtsTrace stmts).map (Step.rename r)
  | [] => rfl
  | stmt :: rest => by
      rw [renameNodes, stmtsTrace, stmtsTrace, stmtTrace_rename r stmt, stmtsTrace_rename r rest,
        List.map_append]

end

/-! ## What renamed steps do -/

theorem declaration?_rename (r : String → String) (step : Step) :
    (step.rename r).declaration? = step.declaration?.map fun decl => (r decl.1, decl.2) := by
  cases step <;> rfl

theorem declared_rename (r : String → String) (steps : List Step) :
    declared (steps.map (Step.rename r)) = renameDecls r (declared steps) := by
  rw [declared, declared, renameDecls, List.filterMap_map, List.map_filterMap]
  congr 1
  funext step
  exact declaration?_rename r step

theorem after_rename (r : String → String) (ctx : Context) (step : Step) :
    (step.rename r).after (ctx.rename r) = (step.after ctx).rename r := by
  cases step with
  | declare name ty =>
      simp [Step.rename, Step.after, Context.rename, Table.rename, Context.increase]
  | _ => rfl

theorem foldl_after_rename (r : String → String) (steps : List Step) (ctx : Context) :
    (steps.map (Step.rename r)).foldl Step.after (ctx.rename r) =
      (steps.foldl Step.after ctx).rename r := by
  induction steps generalizing ctx with
  | nil => rfl
  | cons step steps ih =>
      rw [List.map_cons, List.foldl_cons, List.foldl_cons, after_rename, ih]

theorem contextOf_rename (r : String → String) (steps : List Step) :
    contextOf (steps.map (Step.rename r)) = (contextOf steps).rename r :=
  foldl_after_rename r steps {}

section Injective

variable {r : String → String} (hr : Function.Injective r)

include hr

/-- Renamed declarations give a renamed variable the type that it had. -/
theorem lookup_renameDecls (decls : List (String × Ty)) (name : String) :
    (renameDecls r decls).lookup (r name) = decls.lookup name := by
  induction decls with
  | nil => rfl
  | cons decl decls ih =>
      have hcons : renameDecls r (decl :: decls) = (r decl.1, decl.2) :: renameDecls r decls := rfl
      rw [hcons, List.lookup_cons, List.lookup_cons, ih]
      by_cases hname : name = decl.1
      · simp [hname]
      · have hnew : r name ≠ r decl.1 := fun h => hname (hr h)
        simp [beq_false_of_ne hname, beq_false_of_ne hnew]

theorem type_rename (decls : List (String × Ty)) (got : Reading) :
    (got.rename r).type (renameDecls r decls) = got.type decls := by
  cases got with
  | fixed ty => rfl
  | declared name => exact lookup_renameDecls hr decls name
  | missing => rfl

/-- A step holds after renaming exactly if it did before. -/
theorem Step.holds_rename (decls : List (String × Ty)) (step : Step) :
    (step.rename r).holds (renameDecls r decls) = step.holds decls := by
  cases step with
  | declare name ty => rw [rename, holds, holds, lookup_renameDecls hr]
  | use name => rw [rename, holds, holds, lookup_renameDecls hr]
  | operand level expected got => rw [rename, holds, holds, type_rename hr]
  | condition got => rw [rename, holds, holds, type_rename hr]
  | assign target got => rw [rename, holds, holds, type_rename hr, lookup_renameDecls hr]
  | tally field n => rfl
  | report => rfl
  | breakdown failure => rfl

theorem Step.failure_rename (decls : List (String × Ty)) (step : Step) :
    (step.rename r).failure (renameDecls r decls) = (step.failure decls).rename r := by
  cases step with
  | operand level expected got =>
      rw [rename, failure, failure, type_rename hr]
      split <;> rfl
  | _ => rfl

/-- The first step that does not hold stays the first. -/
theorem firstViolation?_rename (done steps : List Step) :
    firstViolation? (done.map (Step.rename r)) (steps.map (Step.rename r)) =
      (firstViolation? done steps).map fun violation =>
        (violation.1.map (Step.rename r), violation.2.rename r) := by
  induction steps generalizing done with
  | nil => rfl
  | cons step steps ih =>
      have hdone : done.map (Step.rename r) ++ [step.rename r] =
          (done ++ [step]).map (Step.rename r) := by simp
      rw [List.map_cons, firstViolation?, firstViolation?, declared_rename,
        Step.holds_rename hr, hdone, ih]
      split <;> rfl

/-- The check of a renamed tree ends like the check of the tree, under the new names. -/
theorem check_rename (tree : Node) :
    check (tree.rename r) =
      ⟨(check tree).failure.map (Failure.rename r), (check tree).context.rename r⟩ := by
  have hfirst := firstViolation?_rename hr [] (stmtTrace tree)
  rw [List.map_nil] at hfirst
  rw [check_eq, check_eq, stmtTrace_rename, hfirst]
  cases firstViolation? [] (stmtTrace tree) with
  | none =>
      rw [contextOf_rename]
      rfl
  | some violation =>
      obtain ⟨before, step⟩ := violation
      simp only [Option.map_some, declared_rename, Step.failure_rename hr, contextOf_rename]

end Injective

/-- The program `num a; num b;` for any two names. -/
def twoDeclarations (a b : String) : Node :=
  .program [.declaration "num" (.identifier a), .declaration "num" (.identifier b)]

theorem check_twoDeclarations_failure (a b : String) :
    (check (twoDeclarations a b)).failure =
      if a = b then some (.semantic (.duplicate b)) else none := by
  have hsteps : stmtTrace (twoDeclarations a b) =
      [.declare a .number, .declare b .number, .report] := rfl
  rw [check_eq, hsteps]
  by_cases h : a = b
  · simp [firstViolation?, Step.holds, declared, Step.declaration?, Step.failure, h]
  · have hne : (b == a) = false := beq_false_of_ne (Ne.symm h)
    simp [firstViolation?, Step.holds, declared, Step.declaration?, List.lookup_cons, h, hne]

/-- The injective maps are those under which all trees are checked alike.  A renamed tree
passes exactly if the tree does, with the same counts and reports and with the renamed table
in the same order; and where the tree fails, the renamed tree fails in the same way, about the
new names, and in the same state. -/
theorem injective_iff_check_rename (r : String → String) :
    Function.Injective r ↔
      ∀ tree : Node,
        (check (tree.rename r)).failure = (check tree).failure.map (Failure.rename r) ∧
        (check (tree.rename r)).context.counters = (check tree).context.counters ∧
        (check (tree.rename r)).context.symbols = (check tree).context.symbols.rename r ∧
        (check (tree.rename r)).context.reports = (check tree).context.reports := by
  constructor
  · intro hr tree
    rw [check_rename hr]
    exact ⟨rfl, rfl, rfl, rfl⟩
  · intro h a b hab
    have hrenamed : (twoDeclarations a b).rename r = twoDeclarations (r a) (r b) := rfl
    have hfailure := (h (twoDeclarations a b)).1
    rw [hrenamed, check_twoDeclarations_failure, check_twoDeclarations_failure,
      if_pos hab] at hfailure
    by_cases hne : a = b
    · exact hne
    · simp [hne] at hfailure

end Check

end NumBool
