import Mathlib.Data.List.Induction
import Mathlib.Data.List.Nodup
import NumBool.Proofs.Check.Typing

/-!
# Order-free checking

The rules of the language can be said without any order of work.  `declarations` lists
all declarations of a tree from left to right, and this one list is the table for the
whole tree.  That every name is declared before it is used is a condition on the list
of all occurrences of names.

A check works with the table of the moment instead.  The two views agree because a
declaration never changes: where names are declared before they are used, a type that
is read off the table of the moment is the one in the final table.
-/

namespace NumBool.Check

/-- A name as it is met in a tree. -/
inductive Occurrence where
  | declared (name : String) (ty : Ty)
  | used (name : String)
  deriving DecidableEq, Repr

def Occurrence.declaration? : Occurrence → Option (String × Ty)
  | declared name ty => some (name, ty)
  | used _ => none

mutual

/-- The identifiers in an expression, from left to right. -/
def identifiers : Node → List String
  | .logical operands _ => operandsIdentifiers operands
  | .comparison left _ right => identifiers left ++ identifiers right
  | .addition operands _ => operandsIdentifiers operands
  | .multiplication operands _ => operandsIdentifiers operands
  | .signed operand _ => identifiers operand
  | .negated operand _ => identifiers operand
  | .value inner => identifiers inner
  | .identifier name => [name]
  | _ => []

def operandsIdentifiers : List Node → List String
  | [] => []
  | operand :: rest => identifiers operand ++ operandsIdentifiers rest

end

mutual

/-- The names in a statement, declared, assigned or used, from left to right and
through all bodies and alternatives. -/
def occurrences : Node → List Occurrence
  | .program stmts => stmtsOccurrences stmts
  | .block stmts => stmtsOccurrences stmts
  | .declaration typeName ident =>
    match Ty.ofKeyword? typeName with
    | some ty => ident.name?.toList.map (.declared · ty)
    | none => []
  | .assignment target value => target.name?.toList.map .used ++ (identifiers value).map .used
  | .branch cond body alt =>
    (identifiers cond).map .used ++ (occurrences body ++ occurrences alt)
  | .loop cond body => (identifiers cond).map .used ++ occurrences body
  | _ => []

def stmtsOccurrences : List Node → List Occurrence
  | [] => []
  | stmt :: rest => occurrences stmt ++ stmtsOccurrences rest

end

/-- All declarations of a tree, in order. -/
def declarations (tree : Node) : List (String × Ty) :=
  (occurrences tree).filterMap Occurrence.declaration?

/-! ## The names that the steps meet -/

/-- The occurrence of a name that a step checks. -/
def Step.occurrence? : Step → Option Occurrence
  | .declare name ty => some (.declared name ty)
  | .use name => some (.used name)
  | _ => none

def stepOccurrences (steps : List Step) : List Occurrence :=
  steps.filterMap Step.occurrence?

@[simp] theorem stepOccurrences_nil : stepOccurrences [] = [] := rfl

@[simp] theorem stepOccurrences_append (xs ys : List Step) :
    stepOccurrences (xs ++ ys) = stepOccurrences xs ++ stepOccurrences ys := by
  simp [stepOccurrences]

theorem stepOccurrences_cons (step : Step) (steps : List Step) :
    stepOccurrences (step :: steps) = step.occurrence?.toList ++ stepOccurrences steps := by
  cases h : step.occurrence? with
  | none => simp [stepOccurrences, h]
  | some occurrence => simp [stepOccurrences, h]

/-- The declarations among some steps are those among the occurrences. -/
theorem declared_eq_filterMap (steps : List Step) :
    declared steps = (stepOccurrences steps).filterMap Occurrence.declaration? := by
  rw [stepOccurrences, List.filterMap_filterMap, declared]
  congr 1
  funext step
  cases step <;> rfl

theorem stepOccurrences_operandsTrace {operands : List Node} {ops : List String}
    {level : String} {expected : Ty}
    (h : ∀ n ∈ operands, stepOccurrences (trace n) = (identifiers n).map .used) :
    stepOccurrences (operandsTrace operands ops level expected) =
      (operandsIdentifiers operands).map .used := by
  induction operands with
  | nil => simp [operandsTrace, operandsIdentifiers]
  | cons operand rest ih =>
      have hoperand := h operand List.mem_cons_self
      have hrest := ih fun n hn => h n (List.mem_cons_of_mem operand hn)
      rw [operandsTrace, operandsIdentifiers, stepOccurrences_append, stepOccurrences_append,
        hoperand, hrest, List.map_append]
      cases ops with
      | nil => rfl
      | cons op ops => rfl

/-- An expression meets exactly its identifiers. -/
theorem IsExpr.stepOccurrences_trace {n : Node} (h : IsExpr n) :
    stepOccurrences (trace n) = (identifiers n).map .used := by
  induction h with
  | logical _ _ ih | addition _ _ ih | multiplication _ _ ih =>
      rw [trace, identifiers, stepOccurrences_append, stepOccurrences_operandsTrace ih]
      exact List.append_nil _
  | comparisonOne _ ih =>
      rw [trace, identifiers, ih]
      simp [identifiers]
  | @comparison left right op hop _ _ ihleft ihright =>
      rw [trace, identifiers, stepOccurrences_append, ihleft, List.map_append, ← ihright]
      cases hkind : comparisonOf? op with
      | none => exact absurd hkind hop
      | some kind =>
          cases kind with
          | equality => simp [stepOccurrences_cons, Step.occurrence?]
          | order => simp [stepOccurrences_cons, Step.occurrence?]
  | @signed operand ops _ ih | @negated operand ops _ ih =>
      rw [trace, identifiers, stepOccurrences_append, ih]
      cases ops with
      | nil => exact List.append_nil _
      | cons op ops => exact List.append_nil _
  | value _ ih =>
      rw [trace, identifiers]
      exact ih
  | identifier name =>
      rw [trace, identifiers]
      rfl
  | int value =>
      simp [trace, identifiers]
  | truth value =>
      simp [trace, identifiers]

theorem stepOccurrences_stmtsTrace {stmts : List Node}
    (h : ∀ s ∈ stmts, stepOccurrences (stmtTrace s) = occurrences s) :
    stepOccurrences (stmtsTrace stmts) = stmtsOccurrences stmts := by
  induction stmts with
  | nil => rw [stmtsTrace, stmtsOccurrences, stepOccurrences_nil]
  | cons stmt rest ih =>
      have hstmt := h stmt List.mem_cons_self
      have hrest := ih fun s hs => h s (List.mem_cons_of_mem stmt hs)
      rw [stmtsTrace, stmtsOccurrences, stepOccurrences_append, hstmt, hrest]

/-- A statement meets exactly its occurrences of names. -/
theorem IsStmt.stepOccurrences_stmtTrace {n : Node} (h : IsStmt n) :
    stepOccurrences (stmtTrace n) = occurrences n := by
  induction h with
  | declaration ty name =>
      rw [stmtTrace, occurrences, Ty.ofKeyword?_keyword]
      rfl
  | assignment target hvalue =>
      rw [stmtTrace, occurrences, ← hvalue.stepOccurrences_trace]
      simp [Node.name?, stepOccurrences_cons, Step.occurrence?]
  | branch hcond _ ihbody =>
      rw [stmtTrace, occurrences, ← hcond.stepOccurrences_trace, ← ihbody]
      simp [stepOccurrences_cons, Step.occurrence?, occurrences, Node.isAbsent]
  | branchElse hcond _ halt ihbody ihalt =>
      rw [stmtTrace, occurrences, ← hcond.stepOccurrences_trace, ← ihbody, ← ihalt,
        halt.isAbsent_eq_false]
      simp [stepOccurrences_cons, Step.occurrence?]
  | loop hcond _ ihbody =>
      rw [stmtTrace, occurrences, ← hcond.stepOccurrences_trace, ← ihbody]
      simp [stepOccurrences_cons, Step.occurrence?]
  | block _ ih =>
      rw [stmtTrace, occurrences]
      exact stepOccurrences_stmtsTrace ih

theorem stepOccurrences_program (program : Phrase.Program) :
    stepOccurrences (stmtTrace program.toNode) = occurrences program.toNode := by
  rw [Phrase.Program.toNode, stmtTrace, occurrences, stepOccurrences_append,
    stepOccurrences_stmtsTrace]
  · exact List.append_nil _
  · intro s hs
    exact (Phrase.isStmt_of_mem program.stmts s hs).stepOccurrences_stmtTrace

theorem declared_program (program : Phrase.Program) :
    declared (stmtTrace program.toNode) = declarations program.toNode := by
  rw [declared_eq_filterMap, stepOccurrences_program, declarations]

/-! ## One table for all steps -/

theorem lookup_isSome_iff_exists_mem {decls : List (String × Ty)} {name : String} :
    (decls.lookup name).isSome = true ↔ ∃ ty, (name, ty) ∈ decls := by
  rw [List.lookup_isSome_iff]
  constructor
  · intro h
    rcases h with ⟨⟨first, ty⟩, hmem, hname⟩
    have heq : name = first := eq_of_beq hname
    exact ⟨ty, heq ▸ hmem⟩
  · intro h
    rcases h with ⟨ty, hmem⟩
    exact ⟨(name, ty), hmem, beq_self_eq_true name⟩

theorem lookup_eq_none_iff_notMem {decls : List (String × Ty)} {name : String} :
    decls.lookup name = none ↔ name ∉ decls.map Prod.fst := by
  rw [← Option.not_isSome_iff_eq_none, lookup_isSome_iff_exists_mem]
  simp

theorem mem_declared_iff {steps : List Step} {name : String} {ty : Ty} :
    (name, ty) ∈ declared steps ↔ .declared name ty ∈ stepOccurrences steps := by
  rw [declared_eq_filterMap, List.mem_filterMap]
  constructor
  · intro h
    rcases h with ⟨occurrence, hmem, hdeclaration⟩
    cases occurrence with
    | declared first kind =>
        obtain ⟨rfl, rfl⟩ := Prod.mk.inj (Option.some.inj hdeclaration)
        exact hmem
    | used first => simp [Occurrence.declaration?] at hdeclaration
  · intro hmem
    exact ⟨_, hmem, rfl⟩

theorem AllHold.of_append {xs ys : List Step} (h : AllHold (xs ++ ys)) : AllHold xs := by
  rintro before step after rfl
  exact h before step (after ++ ys) (by simp)

/-- Where all steps hold no name is declared twice. -/
theorem AllHold.nodup {steps : List Step} (h : AllHold steps) :
    ((declared steps).map Prod.fst).Nodup := by
  induction steps using List.reverseRecOn with
  | nil => exact List.nodup_nil
  | append_singleton steps step ih =>
      have hsteps := ih h.of_append
      rw [declared_append, List.map_append]
      cases step with
      | declare name ty =>
          have hfresh := h steps (.declare name ty) [] rfl
          rw [Step.holds, Option.isNone_iff_eq_none, lookup_eq_none_iff_notMem] at hfresh
          have hname : (declared [Step.declare name ty]).map Prod.fst = [name] := rfl
          rw [hname, ← List.concat_eq_append]
          exact hsteps.concat hfresh
      | _ =>
          change ((declared steps).map Prod.fst ++ []).Nodup
          rwa [List.append_nil]

theorem UsesDeclared.of_append {xs ys : List Step} (h : UsesDeclared (xs ++ ys)) :
    UsesDeclared xs := by
  rintro before name after rfl
  exact h before name (after ++ ys) (by simp)

/-- A type that is read off the table of the moment is the one in the final table. -/
theorem UsesDeclared.type_eq {before : List Step} (h : UsesDeclared before) {got : Reading}
    (hgot : got.GroundedIn (usedNames before)) (after : List Step) :
    got.type (declared (before ++ after)) = got.type (declared before) := by
  cases got with
  | fixed ty => rfl
  | declared name => exact lookup_declared_append after (h.lookup_isSome hgot)
  | missing => rfl

/-- A step that only compares types does not depend on the declarations after it. -/
theorem UsesDeclared.fits_eq_holds {before : List Step} (h : UsesDeclared before) {step : Step}
    (hstep : step.GroundedIn (usedNames before)) (hnames : step.occurrence? = none)
    (after : List Step) :
    step.fits (declared (before ++ after)) = step.holds (declared before) := by
  cases step with
  | declare name ty => simp [Step.occurrence?] at hnames
  | use name => simp [Step.occurrence?] at hnames
  | operand level expected got => simp only [Step.fits, Step.holds, h.type_eq hstep after]
  | condition got => simp only [Step.fits, Step.holds, h.type_eq hstep after]
  | assign target got =>
      have htarget := lookup_declared_append after (h.lookup_isSome hstep.1)
      simp only [Step.fits, Step.holds, h.type_eq hstep.2 after, htarget]
  | tally field n => rfl
  | report => rfl
  | breakdown failure => rfl

/-- All steps hold one after the other exactly if names are declared once, and before
they are used, and every step fits the table of all declarations. -/
theorem Grounded.allHold_iff {steps : List Step} (hgrounded : Grounded [] steps) :
    AllHold steps ↔
      ((declared steps).map Prod.fst).Nodup ∧ UsesDeclared steps ∧
        ∀ step ∈ steps, step.fits (declared steps) = true := by
  constructor
  · intro h
    refine ⟨h.nodup, h.usesDeclared, ?_⟩
    intro step hmem
    obtain ⟨before, after, rfl⟩ := List.append_of_mem hmem
    have hholds := h before step after rfl
    have huses := h.usesDeclared.of_append
    cases hnames : step.occurrence? with
    | none => rwa [huses.fits_eq_holds hgrounded.step hnames]
    | some occurrence =>
        cases step with
        | declare name ty => rfl
        | use name =>
            have hlookup := lookup_declared_append (.use name :: after) hholds
            simpa [Step.fits, Step.holds, hlookup] using hholds
        | _ => simp [Step.occurrence?] at hnames
  · rintro ⟨hnodup, huses, hfits⟩ before step after rfl
    cases hnames : step.occurrence? with
    | none =>
        have hstep := hfits step (List.mem_append_right before List.mem_cons_self)
        rwa [huses.of_append.fits_eq_holds hgrounded.step hnames] at hstep
    | some occurrence =>
        cases step with
        | declare name ty =>
            rw [declared_append, List.map_append] at hnodup
            have hdisjoint := List.disjoint_of_nodup_append hnodup
            rw [Step.holds, Option.isNone_iff_eq_none, lookup_eq_none_iff_notMem]
            intro hmem
            exact hdisjoint hmem List.mem_cons_self
        | use name => exact huses before name after rfl
        | _ => simp [Step.occurrence?] at hnames

/-- The order of declarations and uses can be seen from the occurrences alone. -/
theorem usesDeclared_iff {steps : List Step} :
    UsesDeclared steps ↔
      ∀ (before : List Occurrence) (name : String) (after : List Occurrence),
        stepOccurrences steps = before ++ .used name :: after →
          ∃ ty, .declared name ty ∈ before := by
  constructor
  · intro h before name after hsteps
    -- the step of this use, and the steps without names that stand before it
    obtain ⟨xs, rest, rfl, rfl, hrest⟩ := List.filterMap_eq_append_iff.mp hsteps
    obtain ⟨skipped, step, ys, rfl, hskipped, hstep, -⟩ := List.filterMap_eq_cons_iff.mp hrest
    have huse : step = .use name := by
      cases step <;> simp_all [Step.occurrence?]
    subst huse
    have hsome := h (xs ++ skipped) name ys (by simp)
    rcases lookup_isSome_iff_exists_mem.mp hsome with ⟨ty, hty⟩
    have hnone : stepOccurrences skipped = [] := List.filterMap_eq_nil_iff.mpr hskipped
    rw [mem_declared_iff, stepOccurrences_append, hnone, List.append_nil] at hty
    exact ⟨ty, hty⟩
  · rintro h before name after rfl
    rcases h (stepOccurrences before) name (stepOccurrences after)
      (by simp [stepOccurrences_cons, Step.occurrence?]) with ⟨ty, hty⟩
    exact lookup_isSome_iff_exists_mem.mpr ⟨ty, mem_declared_iff.mpr hty⟩

/-- A check decides the order-free rules.  With all declarations of a parsed program as
the table, it succeeds exactly if no name is declared twice, every name that is assigned
or used has been declared before, and the program is well typed under this one table;
the table it has then built is this one. -/
theorem check_iff_wellTyped (program : Phrase.Program) :
    ((check program.toNode).failure = none ↔
      ((declarations program.toNode).map Prod.fst).Nodup ∧
      (∀ (before : List Occurrence) (name : String) (after : List Occurrence),
        occurrences program.toNode = before ++ .used name :: after →
          ∃ ty, .declared name ty ∈ before) ∧
      WellTyped (declarations program.toNode) program.toNode) ∧
    ((check program.toNode).failure = none →
      (check program.toNode).context.symbols = tableOf (declarations program.toNode)) := by
  constructor
  · rw [check_failure_eq_none_iff, (grounded_program program).allHold_iff, usesDeclared_iff,
      stepOccurrences_program, declared_program, wellTyped_program_iff]
  · intro h
    have hcheck := check_eq_of_allHold (check_failure_eq_none_iff.mp h)
    rw [hcheck, contextOf_symbols, declared_program]

/-- The program `{ num x; } if (x == true) { bool b; } else { b = x < 2; }`. -/
def scatteredDeclarations : Phrase.Program where
  stmts := [.block [.declare .number "x"],
    .branch (.single (.binary (.single (.single (.mk [] (.mk 0 (.ident "x"))))) .eq
        (.single (.single (.mk [] (.mk 0 (.truth true)))))))
      [.declare .bool "b"]
      (.block [.assign "b" (.single (.binary (.single (.single (.mk [] (.mk 0 (.ident "x"))))) .lt
        (.single (.single (.mk [] (.mk 0 (.int 2)))))))])]

/-- A declaration counts for all that follows it, also outside its block. -/
theorem check_scatteredDeclarations :
    WellTyped [("x", .number), ("b", .bool)] scatteredDeclarations.toNode ∧
      (check scatteredDeclarations.toNode).context.symbols =
        tableOf [("x", .number), ("b", .bool)] := by
  have hcheck : (check scatteredDeclarations.toNode).failure = none := by decide +kernel
  have hdecls : declarations scatteredDeclarations.toNode = [("x", .number), ("b", .bool)] := by
    decide +kernel
  have h := check_iff_wellTyped scatteredDeclarations
  rw [hdecls] at h
  exact ⟨(h.1.mp hcheck).2.2, h.2 hcheck⟩

end NumBool.Check
