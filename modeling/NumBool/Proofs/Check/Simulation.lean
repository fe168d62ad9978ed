import NumBool.Proofs.Check.Trace

/-!
# A check performs its trace

`RunsFrom done m steps result` ties a computation of the checker to a list of steps:
in the state that the steps `done` have led to, `m` performs `steps` in order, and
stops with the failure of the first one that does not hold.  The rule for one
computation after another (`RunsFrom.bind`) carries this from the primitives of the
checker to expressions and statements, and so to whole trees (`check_eq`).
-/

namespace NumBool.Check

/-- After the steps `done`, the computation `m` performs the steps `steps`: it reaches
`result` if they all hold, and otherwise stops at the first that does not. -/
def RunsFrom {α : Type} (done : List Step) (m : Check α) (steps : List Step) (result : α) :
    Prop :=
  m.run (contextOf done) =
    match firstViolation? done steps with
    | none => .ok result (contextOf (done ++ steps))
    | some (before, step) => .error (step.failure (declared before)) (contextOf before)

namespace RunsFrom

variable {α β : Type} {done xs ys : List Step}

theorem pure (done : List Step) (a : α) : RunsFrom done (Pure.pure a : Check α) [] a := by
  simp [RunsFrom, firstViolation?]

/-- Two computations one after the other perform their steps one after the other. -/
theorem bind {m : Check α} {k : α → Check β} {a : α} {b : β} (hm : RunsFrom done m xs a)
    (hk : firstViolation? done xs = none → RunsFrom (done ++ xs) (k a) ys b) :
    RunsFrom done (m >>= k) (xs ++ ys) b := by
  rw [RunsFrom, firstViolation?_append, EStateM.run_bind, hm]
  cases h : firstViolation? done xs with
  | none =>
      have hrun := hk h
      rw [RunsFrom, List.append_assoc] at hrun
      exact hrun
  | some violation => rfl

theorem cons {m : Check α} {k : α → Check β} {step : Step} {a : α} {b : β}
    (hm : RunsFrom done m [step] a)
    (hk : firstViolation? done [step] = none → RunsFrom (done ++ [step]) (k a) ys b) :
    RunsFrom done (m >>= k) (step :: ys) b :=
  hm.bind hk

/-- A computation that performs one step. -/
theorem single {m : Check α} {step : Step} {a : α}
    (hholds : step.holds (declared done) = true →
      m.run (contextOf done) = .ok a (step.after (contextOf done)))
    (hfails : step.holds (declared done) = false →
      m.run (contextOf done) = .error (step.failure (declared done)) (contextOf done)) :
    RunsFrom done m [step] a := by
  rw [RunsFrom, firstViolation?]
  cases h : step.holds (declared done) with
  | true =>
      rw [hholds h]
      simp [firstViolation?, contextOf_append]
  | false =>
      rw [hfails h]
      simp

theorem lookup {name : String} {ty : Ty} (h : (declared done).lookup name = some ty) :
    RunsFrom done (Check.lookup name) [.use name] ty := by
  apply single
  · intro _
    simp [Check.lookup, contextOf_lookup, h, Step.after]
  · intro hfails
    simp [Step.holds, h] at hfails

theorem lookup_bind_of_undeclared {name : String} (k : Ty → Check β) (b : β)
    (h : (declared done).lookup name = none) (steps : List Step) :
    RunsFrom done (Check.lookup name >>= k) (.use name :: steps) b := by
  have hfails : (Step.use name).holds (declared done) = false := by simp [Step.holds, h]
  simp only [RunsFrom, firstViolation?, hfails, Check.lookup, EStateM.run_bind, EStateM.run_get,
    contextOf_lookup, h]
  rfl

theorem expect {level : String} (expected : Ty) {got : Reading} {ty : Option Ty}
    (hty : got.type (declared done) = ty) (hlevel : level ≠ Level.sign) :
    RunsFrom done (Check.expect level expected ty) [.operand level expected got] () := by
  apply single
  · intro hholds
    simp only [Step.holds, hty, decide_eq_true_eq] at hholds
    simp [Check.expect, hholds, Step.after]
  · intro hfails
    simp only [Step.holds, hty, decide_eq_false_iff_not] at hfails
    simp [Check.expect, hfails, Step.failure, hty, hlevel, reject]

theorem expectNumeric {got : Reading} {ty : Option Ty} (hty : got.type (declared done) = ty) :
    RunsFrom done (Check.expectNumeric ty) [.operand Level.sign .number got] () := by
  apply single
  · intro hholds
    simp only [Step.holds, hty, decide_eq_true_eq] at hholds
    simp [Check.expectNumeric, hholds, Ty.isNumeric, Step.after]
  · intro hfails
    simp only [Step.holds, hty, decide_eq_false_iff_not] at hfails
    -- what has no type cannot be asked whether it is numeric
    rcases ty with _ | _ | _
    · simp [Check.expectNumeric, Step.failure, hty]
    · simp at hfails
    · simp [Check.expectNumeric, Ty.isNumeric, Step.failure, hty, reject]

/-- A computation that performs one step that always holds. -/
theorem always {m : Check α} {step : Step} {a : α} (hholds : step.holds (declared done) = true)
    (hrun : m.run (contextOf done) = .ok a (step.after (contextOf done))) :
    RunsFrom done m [step] a := by
  apply single
  · intro _
    exact hrun
  · intro hfails
    rw [hholds] at hfails
    cases hfails

theorem countOps (done : List Step) (ops : List String) :
    RunsFrom done (Check.countOps ops) [.tally .operators ops.length] () :=
  always rfl rfl

theorem count (done : List Step) (field : Counters.Field) :
    RunsFrom done (Check.count field) [.tally field 1] () :=
  always rfl rfl

theorem map {m : Check α} {a : α} (h : RunsFrom done m xs a) (f : α → β) :
    RunsFrom done (do return f (← m)) xs (f a) := by
  have hbind := h.bind (k := fun x => Pure.pure (f x)) fun _ => pure (done ++ xs) (f a)
  rwa [List.append_nil] at hbind

theorem breakdown (failure : Failure) (steps : List Step) (a : α) :
    RunsFrom done (throw failure : Check α) (.breakdown failure :: steps) a := by
  simp only [RunsFrom, firstViolation?, Step.holds]
  rfl

end RunsFrom

theorem runsFrom_foreignType (kind : String) (done : List Step) :
    RunsFrom done (foreignType kind) (foreignTrace kind)
      ((reading (.foreign kind)).type (declared done)) := by
  unfold foreignType foreignTrace
  cases hpart : firstPart? kind with
  | some part => exact RunsFrom.breakdown _ _ _
  | none =>
      by_cases hint : kind = "IntValue"
      · simp only [hint, reading]
        exact RunsFrom.pure done _
      · by_cases hbool : kind = "BoolValue"
        · simp only [hbool, reading]
          exact RunsFrom.pure done _
        · by_cases hoperands : kind = "operands"
          · simp only [hoperands]
            exact RunsFrom.breakdown _ _ _
          · simp only [hint, hbool, hoperands, or_self, if_false]
            exact RunsFrom.breakdown _ _ _

theorem declared_append_trace (done : List Step) (n : Node) :
    declared (done ++ trace n) = declared done := by
  rw [declared_append, declared_trace, List.append_nil]

theorem declared_append_operand (done : List Step) (level : String) (expected : Ty)
    (got : Reading) : declared (done ++ [.operand level expected got]) = declared done := by
  rw [declared_append]
  exact List.append_nil _

/-- The type of the last of some operands, or `last` if there are none. -/
def lastType (decls : List (String × Ty)) (last : Option Ty) : List Node → Option Ty
  | [] => last
  | operand :: rest => (lastReading (operand :: rest)).type decls

theorem lastType_cons (decls : List (String × Ty)) (last : Option Ty) (operand : Node)
    (rest : List Node) :
    lastType decls last (operand :: rest) =
      lastType decls ((reading operand).type decls) rest := by
  cases rest with
  | nil => simp [lastType, lastReading]
  | cons next rest => simp [lastType, lastReading]

theorem lastType_none (decls : List (String × Ty)) (operands : List Node) :
    lastType decls none operands = (lastReading operands).type decls := by
  cases operands with
  | nil => simp [lastType, lastReading, Reading.type]
  | cons operand rest => rfl

/-- The operators of a node are counted after its operands, and then fix its type. -/
theorem runsFrom_chain {done : List Step} {operands : List Node} {ops : List String}
    {level : String} {expected ty : Ty}
    (h : RunsFrom done (operandsType operands ops level expected none)
      (operandsTrace operands ops level expected) (lastType (declared done) none operands)) :
    RunsFrom done
      (do
        let last ← operandsType operands ops level expected none
        countOps ops
        return if ops.isEmpty then last else some ty)
      (operandsTrace operands ops level expected ++ [.tally .operators ops.length])
      ((if ops.isEmpty then lastReading operands else .fixed ty).type (declared done)) := by
  rw [lastType_none] at h
  refine h.bind fun _ => ?_
  have hcount := (RunsFrom.countOps (done ++ operandsTrace operands ops level expected) ops).map
    fun _ => if ops.isEmpty then (lastReading operands).type (declared done) else some ty
  cases ops with
  | nil => exact hcount
  | cons op ops => exact hcount

mutual

/-- Finding the type of an expression performs its trace. -/
theorem runsFrom_typeOf : ∀ (n : Node) (done : List Step),
    RunsFrom done (typeOf n) (trace n) ((reading n).type (declared done))
  | .logical operands ops, done => by
      rw [typeOf, trace, reading]
      exact runsFrom_chain (runsFrom_operandsType operands ops _ _ none done (by decide))
  | .comparison left none right, done => by
      rw [typeOf, trace, reading]
      exact runsFrom_typeOf left done
  | .comparison left (some op) right, done => by
      have hleft := runsFrom_typeOf left done
      have hright := runsFrom_typeOf right
      have hcount := fun before : List Step =>
        (RunsFrom.count before .operators).map fun _ => some Ty.bool
      rw [typeOf, trace, reading]
      refine hleft.bind fun _ => ?_
      cases comparisonOf? op with
      | none => exact RunsFrom.breakdown _ _ _
      | some comparison =>
          cases comparison with
          | equality => exact (hright _).bind fun _ => hcount _
          | order =>
              have hlevel : Level.comparison ≠ Level.sign := by decide
              have hexpect := RunsFrom.expect .number
                (congrArg (reading left).type (declared_append_trace done left)) hlevel
              refine hexpect.cons fun _ => ?_
              refine (hright _).bind fun _ => ?_
              refine RunsFrom.cons (RunsFrom.expect _ ?_ hlevel) fun _ => hcount _
              rw [declared_append_trace]
  | .addition operands ops, done => by
      rw [typeOf, trace, reading]
      exact runsFrom_chain (runsFrom_operandsType operands ops _ _ none done (by decide))
  | .multiplication operands ops, done => by
      rw [typeOf, trace, reading]
      exact runsFrom_chain (runsFrom_operandsType operands ops _ _ none done (by decide))
  | .signed operand ops, done => by
      have hoperand := runsFrom_typeOf operand done
      have hdecls := declared_append_trace done operand
      rw [typeOf, trace]
      refine hoperand.bind fun _ => ?_
      cases ops with
      | nil => exact RunsFrom.pure _ _
      | cons op ops =>
          refine (RunsFrom.expectNumeric (by rw [hdecls])).cons fun _ => ?_
          exact (RunsFrom.countOps _ _).map fun _ => some Ty.number
  | .negated operand ops, done => by
      have hoperand := runsFrom_typeOf operand done
      have hdecls := declared_append_trace done operand
      rw [typeOf, trace]
      refine hoperand.bind fun _ => ?_
      cases ops with
      | nil => exact RunsFrom.pure _ _
      | cons op ops =>
          refine (RunsFrom.expect .bool (by rw [hdecls]) (by decide)).cons fun _ => ?_
          exact (RunsFrom.countOps _ _).map fun _ => some Ty.bool
  | .value inner, done => by
      rw [typeOf, trace, reading]
      exact runsFrom_typeOf inner done
  | .identifier name, done => by
      rw [typeOf, trace]
      cases h : (declared done).lookup name with
      | none => exact RunsFrom.lookup_bind_of_undeclared _ _ h []
      | some ty =>
          have hmap := (RunsFrom.lookup h).map some
          rwa [← h] at hmap
  | .int _, done => by
      rw [typeOf, trace]
      exact RunsFrom.pure done _
  | .truth _, done => by
      rw [typeOf, trace]
      exact RunsFrom.pure done _
  | .foreign kind, done => by
      rw [typeOf, trace]
      exact runsFrom_foreignType kind done
  | .program _, _ | .block _, _ | .declaration _ _, _ | .assignment _ _, _ | .branch _ _ _, _
  | .loop _ _, _ | .absent, _ | .datum _, _ | .list _, _ => by
      simp only [typeOf, trace]
      exact RunsFrom.breakdown _ _ _

theorem runsFrom_operandsType : ∀ (operands : List Node) (ops : List String) (level : String)
    (expected : Ty) (last : Option Ty) (done : List Step), level ≠ Level.sign →
    RunsFrom done (operandsType operands ops level expected last)
      (operandsTrace operands ops level expected) (lastType (declared done) last operands)
  | [], ops, level, expected, last, done, _ => by
      rw [operandsType, operandsTrace]
      exact RunsFrom.pure done last
  | operand :: rest, ops, level, expected, last, done, hlevel => by
      have hoperand := runsFrom_typeOf operand done
      have hdecls := declared_append_trace done operand
      have hrest := fun before : List Step => runsFrom_operandsType rest ops level expected
        ((reading operand).type (declared done)) before hlevel
      rw [operandsType, operandsTrace, lastType_cons]
      refine hoperand.bind fun _ => ?_
      cases ops with
      | nil =>
          have hlast := hrest (done ++ trace operand)
          rw [hdecls] at hlast
          exact hlast
      | cons op ops =>
          refine (RunsFrom.expect expected (by rw [hdecls]) hlevel).cons fun _ => ?_
          have hlast := hrest (done ++ trace operand ++ [.operand level expected (reading operand)])
          rw [declared_append_operand, hdecls] at hlast
          exact hlast

end

theorem runsFrom_foreignStmt (kind : String) (done : List Step) :
    RunsFrom done (foreignStmt kind) (foreignStmtTrace kind) () := by
  unfold foreignStmt foreignStmtTrace
  cases hpart : firstStmtPart? kind with
  | some part => exact RunsFrom.breakdown _ _ _
  | none =>
      by_cases hstmt : kind = "stmt"
      · simp only [hstmt, if_true]
        exact RunsFrom.breakdown _ _ _
      · simp only [hstmt, if_false]
        exact RunsFrom.breakdown _ _ _

theorem runsFrom_checkCondition (cond : Node) (done : List Step) :
    RunsFrom done (checkCondition cond) (trace cond ++ [.condition (reading cond)]) () := by
  unfold checkCondition
  refine (runsFrom_typeOf cond done).bind fun _ => ?_
  have hdecls := declared_append_trace done cond
  apply RunsFrom.single
  · intro hholds
    simp only [Step.holds, hdecls, decide_eq_true_eq] at hholds
    simp [hholds, Step.after]
  · intro hfails
    simp only [Step.holds, hdecls, decide_eq_false_iff_not] at hfails
    simp [hfails, Step.failure, reject]

/-- A node without a name stops what its name is asked for. -/
theorem runsFrom_nameOf_bind_of_none {n : Node} (h : n.name? = none) {α : Type}
    (k : String → Check α) (a : α) (done : List Step) :
    RunsFrom done (nameOf n >>= k) (namelessTrace n) a := by
  simp only [RunsFrom, namelessTrace, firstViolation?, Step.holds, nameOf, h]
  rfl

theorem nameOf_bind_of_some {n : Node} {name : String} (h : n.name? = some name) {α : Type}
    (k : String → Check α) : nameOf n >>= k = k name := by
  simp only [nameOf, h, pure_bind]

theorem runsFrom_declare (name : String) (ty : Ty) (done : List Step) :
    RunsFrom done (declare name ty) [.declare name ty] () := by
  have hcontains := contextOf_contains done name
  apply RunsFrom.single
  · intro hholds
    simp only [Step.holds, Option.isNone_iff_eq_none] at hholds
    rw [hholds] at hcontains
    simp [declare, Context.declare, Table.declare, hcontains, Step.after]
  · intro hfails
    simp only [Step.holds, Option.isNone_eq_false_iff] at hfails
    rw [hfails] at hcontains
    simp [declare, Context.declare, Table.declare, hcontains, Step.failure, reject]

theorem runsFrom_checkDeclaration (typeName : String) (ident : Node) (done : List Step) :
    RunsFrom done (checkDeclaration typeName ident) (stmtTrace (.declaration typeName ident))
      () := by
  rw [stmtTrace]
  unfold checkDeclaration
  cases hname : ident.name? with
  | none =>
      cases Ty.ofKeyword? typeName with
      | _ => exact runsFrom_nameOf_bind_of_none hname _ _ done
  | some name =>
      cases Ty.ofKeyword? typeName with
      | none =>
          simp only [nameOf_bind_of_some hname]
          exact RunsFrom.breakdown _ _ _
      | some ty =>
          simp only [nameOf_bind_of_some hname]
          exact runsFrom_declare name ty done

theorem runsFrom_checkAssignment (target value : Node) (done : List Step) :
    RunsFrom done (checkAssignment target value) (stmtTrace (.assignment target value)) () := by
  rw [stmtTrace]
  unfold checkAssignment
  cases hname : target.name? with
  | none => exact runsFrom_nameOf_bind_of_none hname _ _ done
  | some name =>
  rw [nameOf_bind_of_some hname]
  cases hwanted : (declared done).lookup name with
  | none => exact RunsFrom.lookup_bind_of_undeclared _ _ hwanted _
  | some wanted =>
      have huse : declared (done ++ [.use name]) = declared done := by
        rw [declared_append]
        exact List.append_nil _
      have hdecls := declared_append_trace (done ++ [.use name]) value
      rw [huse] at hdecls
      refine (RunsFrom.lookup hwanted).cons fun _ => ?_
      have hvalue := runsFrom_typeOf value (done ++ [.use name])
      rw [huse] at hvalue
      refine hvalue.bind fun _ => ?_
      apply RunsFrom.single
      · intro hholds
        simp only [Step.holds, hdecls, hwanted, decide_eq_true_eq] at hholds
        simp [hholds, Step.after]
      · intro hfails
        simp only [Step.holds, hdecls, hwanted, decide_eq_false_iff_not] at hfails
        simp [hfails, Step.failure, reject]

mutual

/-- Checking a statement performs its trace. -/
theorem runsFrom_checkStmt : ∀ (n : Node) (done : List Step),
    RunsFrom done (checkStmt n) (stmtTrace n) ()
  | .program stmts, done => by
      rw [checkStmt, stmtTrace]
      exact (runsFrom_checkStmts stmts done).bind fun _ => RunsFrom.always rfl rfl
  | .block stmts, done => by
      rw [checkStmt, stmtTrace]
      exact runsFrom_checkStmts stmts done
  | .declaration typeName ident, done => by
      rw [checkStmt]
      exact runsFrom_checkDeclaration typeName ident done
  | .assignment target value, done => by
      rw [checkStmt]
      exact runsFrom_checkAssignment target value done
  | .branch cond body alt, done => by
      have hbody := runsFrom_checkStmt body
      have halt := runsFrom_checkStmt alt
      rw [checkStmt, stmtTrace, ← List.singleton_append, ← List.append_assoc]
      refine (runsFrom_checkCondition cond done).bind fun _ => ?_
      refine (hbody _).bind fun _ => ?_
      cases alt.isAbsent with
      | true => exact RunsFrom.count _ _
      | false => exact (halt _).bind fun _ => RunsFrom.count _ _
  | .loop cond body, done => by
      have hbody := runsFrom_checkStmt body
      rw [checkStmt, stmtTrace, ← List.singleton_append, ← List.append_assoc]
      refine (runsFrom_checkCondition cond done).bind fun _ => ?_
      exact (hbody _).bind fun _ => RunsFrom.count _ _
  | .foreign kind, done => by
      rw [checkStmt, stmtTrace]
      exact runsFrom_foreignStmt kind done
  | .identifier _, _ | .logical _ _, _ | .comparison _ _ _, _ | .addition _ _, _
  | .multiplication _ _, _ | .signed _ _, _ | .negated _ _, _ | .value _, _ | .int _, _
  | .truth _, _ | .absent, _ | .datum _, _ | .list _, _ => by
      simp only [checkStmt, stmtTrace]
      exact RunsFrom.breakdown _ _ _

theorem runsFrom_checkStmts : ∀ (stmts : List Node) (done : List Step),
    RunsFrom done (checkStmts stmts) (stmtsTrace stmts) ()
  | [], done => by
      rw [checkStmts, stmtsTrace]
      exact RunsFrom.pure done ()
  | stmt :: rest, done => by
      have hrest := runsFrom_checkStmts rest
      rw [checkStmts, stmtsTrace]
      exact (runsFrom_checkStmt stmt done).bind fun _ => hrest _

end

/-- The check of a tree is the run of its trace. -/
theorem check_eq (tree : Node) :
    check tree =
      match firstViolation? [] (stmtTrace tree) with
      | none => ⟨none, contextOf (stmtTrace tree)⟩
      | some (before, step) => ⟨some (step.failure (declared before)), contextOf before⟩ := by
  have h : (checkStmt tree).run {} = _ := runsFrom_checkStmt tree []
  rw [check, h]
  cases firstViolation? [] (stmtTrace tree) with
  | none => rfl
  | some violation => rfl

end NumBool.Check
