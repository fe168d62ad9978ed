import NumBool.Proofs.Check.Violation

/-!
# Typing under a fixed table

`HasType` and `WellTyped` are the typing rules of the language under one list of
declarations.  They say nothing about when a name is declared.

A step of a trace fits a list of declarations if it holds under it, where a
declaration itself always fits.  The main result is `wellTyped_program_iff`: a program
is well typed under a list of declarations exactly if all steps of its trace fit it.
-/

namespace NumBool.Check

/-- Under the declarations `decls` the expression has this type, and every operand in
it has the type that its level allows. -/
inductive HasType (decls : List (String × Ty)) : Node → Ty → Prop
  | identifier {name : String} {ty : Ty} (h : decls.lookup name = some ty) :
      HasType decls (.identifier name) ty
  | int (value : Int) : HasType decls (.int value) .number
  | truth (value : Bool) : HasType decls (.truth value) .bool
  | value {inner : Node} {ty : Ty} (h : HasType decls inner ty) :
      HasType decls (.value inner) ty
  | logicalOne {operand : Node} {ty : Ty} (h : HasType decls operand ty) :
      HasType decls (.logical [operand] []) ty
  | logical {operands : List Node} {ops : List String} (hops : ops ≠ [])
      (h : ∀ n ∈ operands, HasType decls n .bool) :
      HasType decls (.logical operands ops) .bool
  | comparisonOne {left right : Node} {ty : Ty} (h : HasType decls left ty) :
      HasType decls (.comparison left none right) ty
  | equality {left right : Node} {op : String} {a b : Ty} (hop : op ∈ ["==", "!="])
      (hleft : HasType decls left a) (hright : HasType decls right b) :
      HasType decls (.comparison left (some op) right) .bool
  | order {left right : Node} {op : String} (hop : op ∈ ["<", "<=", ">", ">="])
      (hleft : HasType decls left .number) (hright : HasType decls right .number) :
      HasType decls (.comparison left (some op) right) .bool
  | additionOne {operand : Node} {ty : Ty} (h : HasType decls operand ty) :
      HasType decls (.addition [operand] []) ty
  | addition {operands : List Node} {ops : List String} (hops : ops ≠ [])
      (h : ∀ n ∈ operands, HasType decls n .number) :
      HasType decls (.addition operands ops) .number
  | multiplicationOne {operand : Node} {ty : Ty} (h : HasType decls operand ty) :
      HasType decls (.multiplication [operand] []) ty
  | multiplication {operands : List Node} {ops : List String} (hops : ops ≠ [])
      (h : ∀ n ∈ operands, HasType decls n .number) :
      HasType decls (.multiplication operands ops) .number
  | signedPlain {operand : Node} {ty : Ty} (h : HasType decls operand ty) :
      HasType decls (.signed operand []) ty
  | signed {operand : Node} {ops : List String} (hops : ops ≠ [])
      (h : HasType decls operand .number) : HasType decls (.signed operand ops) .number
  | negatedPlain {operand : Node} {ty : Ty} (h : HasType decls operand ty) :
      HasType decls (.negated operand []) ty
  | negated {operand : Node} {ops : List String} (hops : ops ≠ [])
      (h : HasType decls operand .bool) : HasType decls (.negated operand ops) .bool

/-- Under the declarations `decls` every condition in the statement is a truth value
and every assigned expression has exactly the type of its target. -/
inductive WellTyped (decls : List (String × Ty)) : Node → Prop
  | declaration (typeName name : String) :
      WellTyped decls (.declaration typeName (.identifier name))
  | assignment {target : String} {value : Node} {ty : Ty} (htarget : decls.lookup target = some ty)
      (hvalue : HasType decls value ty) :
      WellTyped decls (.assignment (.identifier target) value)
  | branch {cond body : Node} (hcond : HasType decls cond .bool) (hbody : WellTyped decls body) :
      WellTyped decls (.branch cond body .absent)
  | branchElse {cond body alt : Node} (hcond : HasType decls cond .bool)
      (hbody : WellTyped decls body) (halt : WellTyped decls alt) :
      WellTyped decls (.branch cond body alt)
  | loop {cond body : Node} (hcond : HasType decls cond .bool) (hbody : WellTyped decls body) :
      WellTyped decls (.loop cond body)
  | block {stmts : List Node} (h : ∀ s ∈ stmts, WellTyped decls s) : WellTyped decls (.block stmts)
  | program {stmts : List Node} (h : ∀ s ∈ stmts, WellTyped decls s) :
      WellTyped decls (.program stmts)

theorem comparisonOf?_eq_equality_iff {op : String} :
    comparisonOf? op = some .equality ↔ op ∈ ["==", "!="] := by
  unfold comparisonOf?
  by_cases h : op = "==" ∨ op = "!="
  · simp [h]
  · by_cases hrest : op = "<" || op = "<=" || op = ">" || op = ">="
    · simp [h, hrest]
    · simp [h, hrest]

theorem comparisonOf?_eq_order_iff {op : String} :
    comparisonOf? op = some .order ↔ op ∈ ["<", "<=", ">", ">="] := by
  constructor
  · intro h
    unfold comparisonOf? at h
    split at h
    · simp at h
    · split at h
      · next horder => simpa [or_assoc] using horder
      · simp at h
  · intro h
    simp only [List.mem_cons, List.not_mem_nil, or_false] at h
    rcases h with rfl | rfl | rfl | rfl <;> rfl

/-- Whether a step holds under the table of the whole tree, apart from the order of
the declarations. -/
def Step.fits (decls : List (String × Ty)) : Step → Bool
  | .declare _ _ => true
  | step => step.holds decls

theorem mem_operandsTrace {operands : List Node} {ops : List String} {level : String}
    {expected : Ty} {step : Step} :
    step ∈ operandsTrace operands ops level expected ↔
      ∃ n ∈ operands, step ∈ trace n ∨ ops ≠ [] ∧ step = .operand level expected (reading n) := by
  induction operands with
  | nil => simp [operandsTrace]
  | cons operand rest ih =>
      rw [operandsTrace, List.mem_append, List.mem_append, ih]
      cases ops with
      | nil => simp
      | cons op ops => simp [or_assoc]

/-- The type of an expression is the one that is read off. -/
theorem HasType.type_reading {decls : List (String × Ty)} {n : Node} {ty : Ty}
    (h : HasType decls n ty) : (reading n).type decls = some ty := by
  induction h with
  | identifier h =>
      rw [reading]
      exact h
  | int value =>
      rw [reading]
      rfl
  | truth value =>
      rw [reading]
      rfl
  | value _ ih =>
      rw [reading]
      exact ih
  | comparisonOne _ ih =>
      rw [reading]
      exact ih
  | equality _ _ _ =>
      rw [reading]
      rfl
  | order _ _ _ =>
      rw [reading]
      rfl
  | logicalOne _ ih | additionOne _ ih | multiplicationOne _ ih =>
      rw [reading, List.isEmpty_nil, if_pos rfl, lastReading]
      exact ih
  | signedPlain _ ih | negatedPlain _ ih =>
      rw [reading, List.isEmpty_nil, if_pos rfl]
      exact ih
  | logical hops _ | addition hops _ | multiplication hops _ | signed hops _
  | negated hops _ =>
      rw [reading, if_neg (by simpa using hops)]
      rfl

/-- The operands of a level that all have the type it requires. -/
theorem fits_operandsTrace {decls : List (String × Ty)} {operands : List Node}
    {ops : List String} {level : String} {expected : Ty}
    (htypes : ops ≠ [] → ∀ n ∈ operands, (reading n).type decls = some expected)
    (hfits : ∀ n ∈ operands, ∀ step ∈ trace n, step.fits decls = true) :
    ∀ step ∈ operandsTrace operands ops level expected ++ [.tally .operators ops.length],
      step.fits decls = true := by
  intro step hstep
  rw [List.mem_append, List.mem_singleton, mem_operandsTrace] at hstep
  rcases hstep with ⟨n, hn, hstep | ⟨hops, rfl⟩⟩ | rfl
  · exact hfits n hn step hstep
  · simp [Step.fits, Step.holds, htypes hops n hn]
  · rfl

/-- All steps for an expression that has a type hold under the table. -/
theorem HasType.fits {decls : List (String × Ty)} {n : Node} {ty : Ty}
    (h : HasType decls n ty) : ∀ step ∈ trace n, step.fits decls = true := by
  induction h with
  | identifier h =>
      rw [trace]
      simp [Step.fits, Step.holds, h]
  | int value | truth value => simp [trace]
  | value _ ih | comparisonOne _ ih =>
      rw [trace]
      exact ih
  | equality hop _ _ ihleft ihright =>
      rw [trace, comparisonOf?_eq_equality_iff.mpr hop]
      simp only [List.forall_mem_append, List.forall_mem_singleton]
      exact ⟨ihleft, ihright, rfl⟩
  | order hop hleft hright ihleft ihright =>
      rw [trace, comparisonOf?_eq_order_iff.mpr hop]
      simp only [List.forall_mem_append, List.forall_mem_cons]
      refine ⟨ihleft, ?_, ihright, ?_, rfl, List.forall_mem_nil _⟩
      · simp [Step.fits, Step.holds, hleft.type_reading]
      · simp [Step.fits, Step.holds, hright.type_reading]
  | logicalOne _ ih | additionOne _ ih | multiplicationOne _ ih =>
      rw [trace]
      exact fits_operandsTrace (fun hops => absurd rfl hops) (by simpa using ih)
  | logical hops h ih | addition hops h ih | multiplication hops h ih =>
      rw [trace]
      exact fits_operandsTrace (fun _ n hn => (h n hn).type_reading) ih
  | signedPlain _ ih | negatedPlain _ ih =>
      rw [trace]
      simpa using ih
  | signed hops h ih | negated hops h ih =>
      rw [trace, if_neg (by simpa using hops)]
      simp only [List.forall_mem_append, List.forall_mem_cons]
      refine ⟨ih, ?_, rfl, List.forall_mem_nil _⟩
      simp [Step.fits, Step.holds, h.type_reading]

/-- An expression has no type but the one that is read off. -/
theorem HasType.of_type_reading {decls : List (String × Ty)} {n : Node}
    (h : ∃ ty, HasType decls n ty) {expected : Ty}
    (hreading : (reading n).type decls = some expected) : HasType decls n expected := by
  rcases h with ⟨ty, hty⟩
  have heq : ty = expected := Option.some.inj (hty.type_reading.symm.trans hreading)
  rwa [← heq]

theorem hasType_of_fits_operand {decls : List (String × Ty)} {n : Node} {level : String}
    {expected : Ty} (h : ∃ ty, HasType decls n ty)
    (hstep : (Step.operand level expected (reading n)).fits decls = true) :
    HasType decls n expected := by
  apply HasType.of_type_reading h
  simpa [Step.fits, Step.holds] using hstep

/-- The operands of a level whose steps all hold: next to operators they have the type
that the level requires, and a single operand has some type. -/
theorem hasType_operands {decls : List (String × Ty)} {operands : List Node}
    {ops : List String} {level : String} {expected : Ty}
    (ih : ∀ n ∈ operands, (∀ step ∈ trace n, step.fits decls = true) → ∃ ty, HasType decls n ty)
    (hfits : ∀ step ∈ operandsTrace operands ops level expected, step.fits decls = true)
    {n : Node} (hn : n ∈ operands) :
    (∃ ty, HasType decls n ty) ∧ (ops ≠ [] → HasType decls n expected) := by
  have htype : ∃ ty, HasType decls n ty := by
    apply ih n hn
    intro step hstep
    exact hfits step (mem_operandsTrace.mpr ⟨n, hn, .inl hstep⟩)
  refine ⟨htype, ?_⟩
  intro hops
  exact hasType_of_fits_operand htype
    (hfits _ (mem_operandsTrace.mpr ⟨n, hn, .inr ⟨hops, rfl⟩⟩))

/-- The rules for a level whose operands are a chain, from the steps for the chain. -/
theorem exists_hasType_chain {decls : List (String × Ty)} {n : Node} {operands : List Node}
    {ops : List String} {level : String} {expected : Ty}
    (htrace : trace n = operandsTrace operands ops level expected ++ [.tally .operators ops.length])
    (hlength : operands.length = ops.length + 1)
    (ih : ∀ n ∈ operands, (∀ step ∈ trace n, step.fits decls = true) → ∃ ty, HasType decls n ty)
    (hone : ∀ operand ty, operands = [operand] → ops = [] → HasType decls operand ty →
      HasType decls n ty)
    (hmany : ops ≠ [] → (∀ m ∈ operands, HasType decls m expected) → HasType decls n expected)
    (hfits : ∀ step ∈ trace n, step.fits decls = true) : ∃ ty, HasType decls n ty := by
  rw [htrace, List.forall_mem_append] at hfits
  have hoperands := fun m (hm : m ∈ operands) => hasType_operands ih hfits.1 hm
  by_cases hops : ops = []
  · subst hops
    obtain ⟨operand, rfl⟩ := List.length_eq_one_iff.mp hlength
    rcases (hoperands operand List.mem_cons_self).1 with ⟨ty, hty⟩
    exact ⟨ty, hone operand ty rfl rfl hty⟩
  · exact ⟨expected, hmany hops fun m hm => (hoperands m hm).2 hops⟩

/-- The rules for a level with one operand, from the steps for it. -/
theorem exists_hasType_checked {decls : List (String × Ty)} {n operand : Node}
    {ops : List String} {level : String} {expected : Ty}
    (htrace : trace n = trace operand ++
      if ops.isEmpty then [] else [.operand level expected (reading operand),
        .tally .operators ops.length])
    (ih : (∀ step ∈ trace operand, step.fits decls = true) → ∃ ty, HasType decls operand ty)
    (hplain : ∀ ty, ops = [] → HasType decls operand ty → HasType decls n ty)
    (hchecked : ops ≠ [] → HasType decls operand expected → HasType decls n expected)
    (hfits : ∀ step ∈ trace n, step.fits decls = true) : ∃ ty, HasType decls n ty := by
  rw [htrace, List.forall_mem_append] at hfits
  have htype := ih hfits.1
  by_cases hops : ops = []
  · rcases htype with ⟨ty, hty⟩
    exact ⟨ty, hplain ty hops hty⟩
  · rw [if_neg (by simpa using hops), List.forall_mem_cons] at hfits
    exact ⟨expected, hchecked hops (hasType_of_fits_operand htype hfits.2.1)⟩

/-- An expression whose steps all hold under the table has a type. -/
theorem IsExpr.exists_hasType {decls : List (String × Ty)} {n : Node} (h : IsExpr n)
    (hfits : ∀ step ∈ trace n, step.fits decls = true) : ∃ ty, HasType decls n ty := by
  induction h with
  | logical hlength _ ih =>
      refine exists_hasType_chain (by rw [trace]) hlength ih ?_ HasType.logical hfits
      rintro operand ty rfl rfl hty
      exact .logicalOne hty
  | comparisonOne _ ih =>
      rw [trace] at hfits
      rcases ih hfits with ⟨ty, hty⟩
      exact ⟨ty, .comparisonOne hty⟩
  | @comparison left right op hop _ _ ihleft ihright =>
      rw [trace, List.forall_mem_append] at hfits
      have hleft := ihleft hfits.1
      have hrest := hfits.2
      cases hkind : comparisonOf? op with
      | none => exact absurd hkind hop
      | some kind =>
          rw [hkind] at hrest
          cases kind with
          | equality =>
              have hright := ihright (List.forall_mem_append.mp hrest).1
              rcases hleft with ⟨a, ha⟩
              rcases hright with ⟨b, hb⟩
              exact ⟨.bool, .equality (comparisonOf?_eq_equality_iff.mp hkind) ha hb⟩
          | order =>
              simp only [List.forall_mem_cons, List.forall_mem_append] at hrest
              have hright := ihright hrest.2.1
              exact ⟨.bool, .order (comparisonOf?_eq_order_iff.mp hkind)
                (hasType_of_fits_operand hleft hrest.1)
                (hasType_of_fits_operand hright hrest.2.2.1)⟩
  | addition hlength _ ih =>
      refine exists_hasType_chain (by rw [trace]) hlength ih ?_ HasType.addition hfits
      rintro operand ty rfl rfl hty
      exact .additionOne hty
  | multiplication hlength _ ih =>
      refine exists_hasType_chain (by rw [trace]) hlength ih ?_ HasType.multiplication hfits
      rintro operand ty rfl rfl hty
      exact .multiplicationOne hty
  | signed _ ih =>
      refine exists_hasType_checked (by rw [trace]) ih ?_ HasType.signed hfits
      rintro ty rfl hty
      exact .signedPlain hty
  | negated _ ih =>
      refine exists_hasType_checked (by rw [trace]) ih ?_ HasType.negated hfits
      rintro ty rfl hty
      exact .negatedPlain hty
  | value _ ih =>
      rw [trace] at hfits
      rcases ih hfits with ⟨ty, hty⟩
      exact ⟨ty, .value hty⟩
  | identifier name =>
      rw [trace, List.forall_mem_singleton] at hfits
      rcases Option.isSome_iff_exists.mp hfits with ⟨ty, hty⟩
      exact ⟨ty, .identifier hty⟩
  | int value => exact ⟨.number, .int value⟩
  | truth value => exact ⟨.bool, .truth value⟩

/-- An expression has a type exactly if all its steps hold under the table and this is
the type that is read off. -/
theorem IsExpr.hasType_iff {decls : List (String × Ty)} {n : Node} (h : IsExpr n) {ty : Ty} :
    HasType decls n ty ↔
      (∀ step ∈ trace n, step.fits decls = true) ∧ (reading n).type decls = some ty := by
  constructor
  · intro hty
    exact ⟨hty.fits, hty.type_reading⟩
  · intro h
    rcases h with ⟨hfits, hreading⟩
    exact .of_type_reading (h.exists_hasType hfits) hreading

theorem mem_stmtsTrace {stmts : List Node} {step : Step} :
    step ∈ stmtsTrace stmts ↔ ∃ s ∈ stmts, step ∈ stmtTrace s := by
  induction stmts with
  | nil => simp [stmtsTrace]
  | cons stmt rest ih =>
      rw [stmtsTrace, List.mem_append, ih]
      simp

theorem fits_condition_iff {decls : List (String × Ty)} {got : Reading} :
    (Step.condition got).fits decls = true ↔ got.type decls = some .bool := by
  simp [Step.fits, Step.holds]

theorem fits_assign_iff {decls : List (String × Ty)} {target : String} {got : Reading} :
    (Step.assign target got).fits decls = true ↔ got.type decls = decls.lookup target := by
  simp [Step.fits, Step.holds]

theorem wellTyped_stmts_iff {decls : List (String × Ty)} {stmts : List Node}
    (h : ∀ s ∈ stmts, (WellTyped decls s ↔ ∀ step ∈ stmtTrace s, step.fits decls = true)) :
    (∀ s ∈ stmts, WellTyped decls s) ↔ ∀ step ∈ stmtsTrace stmts, step.fits decls = true := by
  constructor
  · intro hstmts step hstep
    rcases mem_stmtsTrace.mp hstep with ⟨s, hs, hmem⟩
    exact (h s hs).mp (hstmts s hs) step hmem
  · intro hfits s hs
    apply (h s hs).mpr
    intro step hstep
    exact hfits step (mem_stmtsTrace.mpr ⟨s, hs, hstep⟩)

/-- A statement is well typed exactly if all its steps hold under the table. -/
theorem IsStmt.wellTyped_iff {decls : List (String × Ty)} {n : Node} (h : IsStmt n) :
    WellTyped decls n ↔ ∀ step ∈ stmtTrace n, step.fits decls = true := by
  induction h with
  | declaration ty name =>
      simp only [stmtTrace, Node.name?, Ty.ofKeyword?_keyword, List.forall_mem_singleton]
      exact ⟨fun _ => rfl, fun _ => .declaration _ name⟩
  | assignment target hvalue =>
      simp only [stmtTrace, Node.name?, List.forall_mem_cons, List.forall_mem_append,
        fits_assign_iff]
      constructor
      · intro h
        cases h with
        | assignment htarget hty =>
            have hparts := hvalue.hasType_iff.mp hty
            refine ⟨?_, hparts.1, ?_, List.forall_mem_nil _⟩
            · simp [Step.fits, Step.holds, htarget]
            · rw [hparts.2, htarget]
      · intro h
        rcases h with ⟨htarget, hfits, hassign, -⟩
        rcases Option.isSome_iff_exists.mp htarget with ⟨ty, hty⟩
        exact .assignment hty (hvalue.hasType_iff.mpr ⟨hfits, hassign.trans hty⟩)
  | branch hcond _ ihbody =>
      simp only [stmtTrace, List.forall_mem_cons, List.forall_mem_append, fits_condition_iff,
        ← ihbody]
      constructor
      · intro h
        cases h with
        | branch hty hbody =>
            have hparts := hcond.hasType_iff.mp hty
            exact ⟨hparts.1, hparts.2, hbody, List.forall_mem_nil _, rfl, List.forall_mem_nil _⟩
        | branchElse _ _ halt => cases halt
      · intro h
        rcases h with ⟨hfits, hreading, hbody, -⟩
        exact .branch (hcond.hasType_iff.mpr ⟨hfits, hreading⟩) hbody
  | branchElse hcond _ halt ihbody ihalt =>
      simp only [stmtTrace, halt.isAbsent_eq_false, Bool.false_eq_true, if_false,
        List.forall_mem_cons, List.forall_mem_append, fits_condition_iff, ← ihbody, ← ihalt]
      constructor
      · intro h
        cases h with
        | branch hty hbody => cases halt
        | branchElse hty hbody halt =>
            have hparts := hcond.hasType_iff.mp hty
            exact ⟨hparts.1, hparts.2, hbody, halt, rfl, List.forall_mem_nil _⟩
      · intro h
        rcases h with ⟨hfits, hreading, hbody, halt, -⟩
        exact .branchElse (hcond.hasType_iff.mpr ⟨hfits, hreading⟩) hbody halt
  | loop hcond _ ihbody =>
      simp only [stmtTrace, List.forall_mem_cons, List.forall_mem_append, fits_condition_iff,
        ← ihbody]
      constructor
      · intro h
        cases h with
        | loop hty hbody =>
            have hparts := hcond.hasType_iff.mp hty
            exact ⟨hparts.1, hparts.2, hbody, rfl, List.forall_mem_nil _⟩
      · intro h
        rcases h with ⟨hfits, hreading, hbody, -⟩
        exact .loop (hcond.hasType_iff.mpr ⟨hfits, hreading⟩) hbody
  | block _ ih =>
      rw [stmtTrace, ← wellTyped_stmts_iff ih]
      constructor
      · intro h
        cases h with
        | block hstmts => exact hstmts
      · exact .block

/-- A parsed program is well typed exactly if all its steps hold under the table. -/
theorem wellTyped_program_iff (decls : List (String × Ty)) (program : Phrase.Program) :
    WellTyped decls program.toNode ↔
      ∀ step ∈ stmtTrace program.toNode, step.fits decls = true := by
  have hstmts : ∀ s ∈ Phrase.stmtNodes program.stmts,
      (WellTyped decls s ↔ ∀ step ∈ stmtTrace s, step.fits decls = true) := by
    intro s hs
    exact (Phrase.isStmt_of_mem program.stmts s hs).wellTyped_iff
  rw [Phrase.Program.toNode, stmtTrace, List.forall_mem_append, ← wellTyped_stmts_iff hstmts]
  constructor
  · intro h
    cases h with
    | program h => exact ⟨h, by simp [Step.fits, Step.holds]⟩
  · intro h
    rcases h with ⟨h, -⟩
    exact .program h

end NumBool.Check
