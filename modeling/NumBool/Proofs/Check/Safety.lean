import NumBool.Proofs.Check.Violation
import NumBool.Proofs.Tree.Written

/-!
# Parsed trees are safe to check

The check has an answer to every open tree, and to many of them it is that a node, an
operator or a type is unknown, or the check breaks off.  None of this happens on trees of
the shape of a program: the check passes, or the tree breaks one of the five rules of the
language, and where an operand is at fault both the type it has and the one it should
have are known.
-/

namespace NumBool

/-- One of the rules of the language is broken, and not only an unknown node found. -/
def SemanticError.IsViolation : SemanticError → Prop
  | .undefined _ | .duplicate _ | .condition | .assignment _ => True
  | .operand _ got expected => ∃ ty ty' : Ty, got = some ty ∧ expected = some ty' ∧ ty ≠ ty'
  | .unknownExpression _ | .unknownStatement _ | .unknownComparison _ | .unknownType _ _ => False

namespace Check

/-- Where some step does not hold there is a first such step. -/
theorem exists_first_violation {steps : List Step} (h : ¬ AllHold steps) :
    ∃ (before : List Step) (step : Step) (after : List Step),
      steps = before ++ step :: after ∧ AllHold before ∧
        step.holds (declared before) = false := by
  induction steps using List.reverseRecOn with
  | nil => exact absurd (allHold_iff.mpr rfl) h
  | append_singleton steps last ih =>
      by_cases hsteps : AllHold steps
      · refine ⟨steps, last, [], rfl, hsteps, ?_⟩
        rw [allHold_iff, firstViolation?_append, allHold_iff.mp hsteps] at h
        cases hlast : last.holds (declared steps) with
        | false => rfl
        | true => simp [firstViolation?, hlast] at h
      · obtain ⟨before, step, after, rfl, hbefore, hfails⟩ := ih hsteps
        exact ⟨before, step, after ++ [last], by simp, hbefore, hfails⟩

/-- A grounded step that does not hold after steps that do breaks one of the rules. -/
theorem AllHold.failure_isViolation {before : List Step} {step : Step} (h : AllHold before)
    (hstep : step.GroundedIn (usedNames before)) (hfails : step.holds (declared before) = false) :
    ∃ error : SemanticError, step.failure (declared before) = .semantic error ∧
      error.IsViolation := by
  obtain ⟨error, herror, hfailure⟩ := h.exists_error hstep hfails
  refine ⟨error, hfailure, ?_⟩
  cases step with
  | operand level expected got =>
      obtain rfl := Option.some.inj herror
      obtain ⟨ty, hty⟩ := Option.ne_none_iff_exists'.mp (h.type_ne_none hstep)
      refine ⟨ty, expected, hty, rfl, ?_⟩
      rintro rfl
      simp [Step.holds, hty] at hfails
  | declare name ty =>
      obtain rfl := Option.some.inj herror
      trivial
  | use name =>
      obtain rfl := Option.some.inj herror
      trivial
  | condition got =>
      obtain rfl := Option.some.inj herror
      trivial
  | assign target got =>
      obtain rfl := Option.some.inj herror
      trivial
  | tally field n => simp [Step.error?] at herror
  | report => simp [Step.error?] at herror
  | breakdown failure => simp [Step.error?] at herror

/-- A tree of the shape of a program passes the check or breaks one of the rules. -/
theorem check_result_of_shaped {tree : Node} (h : Grammar.Shaped .program tree) :
    (∃ counters, (check tree).result = .ok counters) ∨
      ∃ error : SemanticError, (check tree).result = .error (.semantic error) ∧
        error.IsViolation := by
  obtain ⟨program, -, rfl⟩ := Grammar.shaped_program_iff.mp h
  by_cases hholds : AllHold (stmtTrace program.toNode)
  · rw [check_eq_of_allHold hholds]
    exact .inl ⟨_, rfl⟩
  · obtain ⟨before, step, after, hsteps, hbefore, hfails⟩ := exists_first_violation hholds
    have hgrounded := grounded_program program
    rw [hsteps] at hgrounded
    obtain ⟨error, hfailure, hviolation⟩ := hbefore.failure_isViolation hgrounded.step hfails
    rw [check_eq_of_violation hsteps hbefore hfails, hfailure]
    exact .inr ⟨error, rfl, hviolation⟩

/-- What is parsed is safe to check.  The tree of a text has the shape of a program, and
any checker passes it or reports that it breaks one of the rules of the language. -/
theorem parsed_tree_safe {source : String} {program : Phrase.Program}
    (h : Phrase.parse source = .ok program) :
    Grammar.Shaped .program program.toNode ∧
      ∀ checker : Checker,
        (∃ counters, (checker.check program.toNode).1 = .ok counters) ∨
          ∃ error : SemanticError,
            (checker.check program.toNode).1 = .error (.semantic error) ∧ error.IsViolation := by
  have hshaped := Grammar.shaped_of_parse h
  exact ⟨hshaped, fun _ => check_result_of_shaped hshaped⟩

/-- The program `num x; if (1 < !x) { }`. -/
def negatedNumber : Phrase.Program where
  stmts := [.declare .number "x",
    .branch (.single (.binary (.single (.single (.mk [] (.mk 0 (.int 1))))) .lt
      (.single (.single (.mk [] (.mk 1 (.ident "x"))))))) [] .absent]

theorem parsed_tree_safe_negatedNumber :
    Phrase.parse "num x; if (1 < !x) \x7b \x7d" = .ok negatedNumber ∧
      (Checker.check {} negatedNumber.toNode).1 =
        .error (.semantic (.operand Level.negation (some .number) (some .bool))) ∧
      Grammar.Shaped .program negatedNumber.toNode ∧
        ((∃ counters, (Checker.check {} negatedNumber.toNode).1 = .ok counters) ∨
          ∃ error : SemanticError,
            (Checker.check {} negatedNumber.toNode).1 = .error (.semantic error) ∧
              error.IsViolation) := by
  have hparse : Phrase.parse "num x; if (1 < !x) \x7b \x7d" = .ok negatedNumber :=
    Phrase.parse_eq_ok_iff.mpr ⟨by decide +kernel, by decide +kernel⟩
  have hfailure : (check negatedNumber.toNode).failure =
      some (.semantic (.operand Level.negation (some .number) (some .bool))) := by
    rw [check_eq]
    decide +kernel
  have hsafe := parsed_tree_safe hparse
  refine ⟨hparse, ?_, hsafe.1, hsafe.2 {}⟩
  simp only [Checker.check, Outcome.result, hfailure]

end Check

end NumBool
