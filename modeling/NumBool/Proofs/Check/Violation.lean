import NumBool.Proofs.Check.Shape
import NumBool.Proofs.Check.Simulation

/-!
# The first violation

A check fails exactly if some step of its trace does not hold after the steps before
it.  The first such step decides the failure, and the state at that moment is the one
that the steps before it have made: their declarations are in the table, and what they
have completed is counted.

A step of a parsed program that does not hold is always a violation of a rule of the
language: the trace is grounded, so the names whose types it reads have been used
before, and where these uses hold the types are there.
-/

namespace NumBool.Check

/-- Every step holds after those before it. -/
def AllHold (steps : List Step) : Prop :=
  ∀ (before : List Step) (step : Step) (after : List Step),
    steps = before ++ step :: after → step.holds (declared before) = true

theorem firstViolation?_eq_none_iff {done steps : List Step} :
    firstViolation? done steps = none ↔
      ∀ (before : List Step) (step : Step) (after : List Step),
        steps = before ++ step :: after → step.holds (declared (done ++ before)) = true := by
  induction steps generalizing done with
  | nil => simp [firstViolation?]
  | cons first rest ih =>
      rw [firstViolation?]
      cases hfirst : first.holds (declared done) with
      | false =>
          constructor
          · intro h
            simp at h
          · intro h
            have hholds := h [] first rest rfl
            rw [List.append_nil, hfirst] at hholds
            exact absurd hholds (by simp)
      | true =>
          rw [if_pos rfl, ih]
          constructor
          · intro h before step after hsteps
            cases before with
            | nil =>
                obtain ⟨rfl, -⟩ := List.cons.inj hsteps
                rwa [List.append_nil]
            | cons head before =>
                obtain ⟨rfl, hrest⟩ := List.cons.inj hsteps
                have hholds := h before step after hrest
                rwa [List.append_assoc] at hholds
          · intro h before step after hsteps
            have hholds := h (first :: before) step after (congrArg (first :: ·) hsteps)
            rwa [List.append_assoc]

theorem allHold_iff {steps : List Step} : AllHold steps ↔ firstViolation? [] steps = none := by
  rw [firstViolation?_eq_none_iff]
  exact Iff.rfl

theorem firstViolation?_of_allHold {before after : List Step} {step : Step}
    (hbefore : AllHold before) (hstep : step.holds (declared before) = false) :
    firstViolation? [] (before ++ step :: after) = some (before, step) := by
  rw [firstViolation?_append, allHold_iff.mp hbefore, List.nil_append, firstViolation?, hstep]
  rfl

/-- A check succeeds exactly if all its steps hold, and has then performed all of them. -/
theorem check_eq_of_allHold {tree : Node} (h : AllHold (stmtTrace tree)) :
    check tree = ⟨none, contextOf (stmtTrace tree)⟩ := by
  rw [check_eq, allHold_iff.mp h]

/-- A check stops at the first step that does not hold. -/
theorem check_eq_of_violation {tree : Node} {before after : List Step} {step : Step}
    (hsteps : stmtTrace tree = before ++ step :: after) (hbefore : AllHold before)
    (hstep : step.holds (declared before) = false) :
    check tree = ⟨some (step.failure (declared before)), contextOf before⟩ := by
  rw [check_eq, hsteps, firstViolation?_of_allHold hbefore hstep]

theorem check_failure_eq_none_iff {tree : Node} :
    (check tree).failure = none ↔ AllHold (stmtTrace tree) := by
  rw [allHold_iff, check_eq]
  cases firstViolation? [] (stmtTrace tree) with
  | none => simp
  | some violation => simp

/-! ## The state of the work done -/

/-- What a step adds to a count. -/
def Step.amount (field : Counters.Field) : Step → Int
  | .declare _ _ => if field = .declarations then 1 else 0
  | .tally counted n => if field = counted then n else 0
  | _ => 0

/-- What some steps add up to in a count. -/
def amounts (field : Counters.Field) : List Step → Int
  | [] => 0
  | step :: rest => step.amount field + amounts field rest

/-- The counts of the work that some steps have done. -/
def countersOf (steps : List Step) : Counters where
  declarations := amounts .declarations steps
  whiles := amounts .whiles steps
  ifs := amounts .ifs steps
  operators := amounts .operators steps

theorem counters_after (ctx : Context) (step : Step) :
    (step.after ctx).counters =
      ⟨ctx.counters.declarations + step.amount .declarations,
        ctx.counters.whiles + step.amount .whiles, ctx.counters.ifs + step.amount .ifs,
        ctx.counters.operators + step.amount .operators⟩ := by
  cases step with
  | tally field n => cases field <;> simp [Step.after, Context.increase, Counters.increase,
      Step.amount]
  | declare name ty => simp [Step.after, Context.increase, Counters.increase, Step.amount]
  | _ => simp [Step.after, Context.report, Step.amount]

/-- The counts after some steps are those of the work they have done. -/
theorem contextOf_counters (steps : List Step) :
    (contextOf steps).counters = countersOf steps := by
  have h : ∀ (steps : List Step) (ctx : Context), (steps.foldl Step.after ctx).counters =
      ⟨ctx.counters.declarations + amounts .declarations steps,
        ctx.counters.whiles + amounts .whiles steps, ctx.counters.ifs + amounts .ifs steps,
        ctx.counters.operators + amounts .operators steps⟩ := by
    intro steps
    induction steps with
    | nil =>
        intro ctx
        simp [amounts]
    | cons step steps ih =>
        intro ctx
        rw [List.foldl_cons, ih, counters_after]
        simp [amounts, Int.add_assoc]
  have hcounters := h steps {}
  simp only [Int.zero_add] at hcounters
  exact hcounters

/-! ## Violations of a parsed program -/

/-- The rule that is broken by a step of the language that does not hold. -/
def Step.error? (decls : List (String × Ty)) : Step → Option SemanticError
  | .declare name _ => some (.duplicate name)
  | .use name => some (.undefined name)
  | .operand level expected got => some (.operand level (got.type decls) (some expected))
  | .condition _ => some .condition
  | .assign target _ => some (.assignment target)
  | _ => none

/-- A declaration stays what it is when others follow. -/
theorem lookup_declared_append {before : List Step} {name : String} (after : List Step)
    (h : ((declared before).lookup name).isSome = true) :
    (declared (before ++ after)).lookup name = (declared before).lookup name := by
  obtain ⟨ty, hty⟩ := Option.isSome_iff_exists.mp h
  rw [declared_append, List.lookup_append, hty, Option.some_or]

/-- Every name is declared before it is used. -/
def UsesDeclared (steps : List Step) : Prop :=
  ∀ (before : List Step) (name : String) (after : List Step),
    steps = before ++ .use name :: after → ((declared before).lookup name).isSome = true

theorem AllHold.usesDeclared {steps : List Step} (h : AllHold steps) : UsesDeclared steps := by
  intro before name after hsteps
  exact h before (.use name) after hsteps

/-- The names that some steps have used stay declared. -/
theorem UsesDeclared.lookup_isSome {steps : List Step} (h : UsesDeclared steps) {name : String}
    (hname : name ∈ usedNames steps) : ((declared steps).lookup name).isSome = true := by
  rcases List.mem_filterMap.mp hname with ⟨step, hmem, huse⟩
  obtain ⟨before, after, rfl⟩ := List.append_of_mem hmem
  cases step with
  | use used =>
      obtain rfl := Option.some.inj huse
      have hused := h before used after rfl
      rwa [lookup_declared_append _ hused]
  | _ => simp [Step.use?] at huse

theorem AllHold.type_ne_none {steps : List Step} (h : AllHold steps) {got : Reading}
    (hgot : got.GroundedIn (usedNames steps)) : got.type (declared steps) ≠ none := by
  cases got with
  | fixed ty => simp [Reading.type]
  | declared name =>
      have hsome := h.usesDeclared.lookup_isSome hgot
      rw [Reading.type]
      exact Option.isSome_iff_ne_none.mp hsome
  | missing => exact hgot.elim

/-- A grounded step that does not hold breaks a rule of the language. -/
theorem AllHold.exists_error {before : List Step} {step : Step} (h : AllHold before)
    (hstep : step.GroundedIn (usedNames before)) (hfails : step.holds (declared before) = false) :
    ∃ error, step.error? (declared before) = some error ∧
      step.failure (declared before) = .semantic error := by
  cases step with
  | declare name ty => exact ⟨_, rfl, rfl⟩
  | use name => exact ⟨_, rfl, rfl⟩
  | operand level expected got =>
      have htype := h.type_ne_none hstep
      refine ⟨_, rfl, ?_⟩
      rw [Step.failure, if_neg fun hnone => htype hnone.2]
  | condition got => exact ⟨_, rfl, rfl⟩
  | assign target got => exact ⟨_, rfl, rfl⟩
  | tally field n => simp [Step.holds] at hfails
  | report => simp [Step.holds] at hfails
  | breakdown failure => exact hstep.elim

/-- The check of a parsed program reports its first violation.  The trace of a program
has no steps but check points of the language and counts.  The check fails exactly if
some check point does not hold after the steps before it; the first of them gives the
error, the table holds the declarations before it, and what was complete before it is
counted. -/
theorem check_reports_first_violation (program : Phrase.Program) :
    (∀ failure, Step.breakdown failure ∉ stmtTrace program.toNode) ∧
    ((check program.toNode).failure ≠ none ↔
      ∃ (before : List Step) (step : Step) (after : List Step),
        stmtTrace program.toNode = before ++ step :: after ∧
          step.holds (declared before) = false) ∧
    ∀ (before : List Step) (step : Step) (after : List Step),
      stmtTrace program.toNode = before ++ step :: after → AllHold before →
      step.holds (declared before) = false →
      ∃ error, step.error? (declared before) = some error ∧
        (check program.toNode).failure = some (.semantic error) ∧
        (check program.toNode).context.symbols = tableOf (declared before) ∧
        (check program.toNode).context.counters = countersOf before := by
  have hgrounded := grounded_program program
  refine ⟨?_, ?_, ?_⟩
  · intro failure hmem
    obtain ⟨before, after, hsteps⟩ := List.append_of_mem hmem
    rw [hsteps] at hgrounded
    exact hgrounded.step
  · rw [Ne, check_failure_eq_none_iff, AllHold]
    simp
  · intro before step after hsteps hbefore hfails
    rw [hsteps] at hgrounded
    obtain ⟨error, herror, hfailure⟩ := hbefore.exists_error hgrounded.step hfails
    have hcheck := check_eq_of_violation hsteps hbefore hfails
    refine ⟨error, herror, ?_, ?_, ?_⟩
    · rw [hcheck, hfailure]
    · rw [hcheck, contextOf_symbols]
    · rw [hcheck, contextOf_counters]

/-- The program `num x; while (x < 1 + 2) { x = true; }`. -/
def wrongAssignment : Phrase.Program where
  stmts := [.declare .number "x",
    .loop (.single (.binary (.single (.single (.mk [] (.mk 0 (.ident "x"))))) .lt
        (.chain (.single (.single (.mk [] (.mk 0 (.int 1))))) .plus
          (.single (.mk [] (.mk 0 (.int 2)))))))
      [.assign "x" (.single (.single (.single (.single (.mk [] (.mk 0 (.truth true)))))))]]

/-- The loop is not complete, but its condition is: both operators are counted. -/
theorem check_wrongAssignment :
    (check wrongAssignment.toNode).failure = some (.semantic (.assignment "x")) ∧
      (check wrongAssignment.toNode).context.symbols = tableOf [("x", .number)] ∧
      (check wrongAssignment.toNode).context.counters = ⟨1, 0, 0, 2⟩ := by
  have hsteps : stmtTrace wrongAssignment.toNode =
      (stmtTrace wrongAssignment.toNode).take 18 ++
        .assign "x" (.fixed .bool) :: [.tally .whiles 1, .report] := by decide +kernel
  obtain ⟨error, herror, hcheck⟩ := (check_reports_first_violation wrongAssignment).2.2 _ _ _ hsteps
    (allHold_iff.mpr (by decide +kernel)) (by decide +kernel)
  obtain rfl := Option.some.inj herror
  exact hcheck

end NumBool.Check
