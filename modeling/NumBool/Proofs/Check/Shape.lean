import NumBool.Proofs.Check.Trace
import NumBool.Proofs.Grammar

/-!
# Trees of the language and their traces

`IsExpr` and `IsStmt` are the trees that only hold nodes of the language in their
places, with one operand more than operators at a level and known comparisons.  The
trees of phrases are such trees.

Their traces are grounded: no step breaks off, every type can be read somewhere, and
a type that is read off a declaration belongs to a name that has been used, hence
looked up, before.  So a step of such a trace never asks for a type that is not there
once the steps before it hold.
-/

namespace NumBool.Check

/-- The trees of expressions. -/
inductive IsExpr : Node → Prop
  | logical {operands : List Node} {ops : List String}
      (hlength : operands.length = ops.length + 1) (hoperands : ∀ n ∈ operands, IsExpr n) :
      IsExpr (.logical operands ops)
  | comparisonOne {left : Node} (hleft : IsExpr left) : IsExpr (.comparison left none .absent)
  | comparison {left right : Node} {op : String} (hop : comparisonOf? op ≠ none)
      (hleft : IsExpr left) (hright : IsExpr right) :
      IsExpr (.comparison left (some op) right)
  | addition {operands : List Node} {ops : List String}
      (hlength : operands.length = ops.length + 1) (hoperands : ∀ n ∈ operands, IsExpr n) :
      IsExpr (.addition operands ops)
  | multiplication {operands : List Node} {ops : List String}
      (hlength : operands.length = ops.length + 1) (hoperands : ∀ n ∈ operands, IsExpr n) :
      IsExpr (.multiplication operands ops)
  | signed {operand : Node} {ops : List String} (hoperand : IsExpr operand) :
      IsExpr (.signed operand ops)
  | negated {operand : Node} {ops : List String} (hoperand : IsExpr operand) :
      IsExpr (.negated operand ops)
  | value {inner : Node} (hinner : IsExpr inner) : IsExpr (.value inner)
  | identifier (name : String) : IsExpr (.identifier name)
  | int (value : Int) : IsExpr (.int value)
  | truth (value : Bool) : IsExpr (.truth value)

/-- The trees of statements. -/
inductive IsStmt : Node → Prop
  | declaration (ty : Ty) (name : String) :
      IsStmt (.declaration ty.keyword (.identifier name))
  | assignment (target : String) {value : Node} (hvalue : IsExpr value) :
      IsStmt (.assignment (.identifier target) value)
  | branch {cond body : Node} (hcond : IsExpr cond) (hbody : IsStmt body) :
      IsStmt (.branch cond body .absent)
  | branchElse {cond body alt : Node} (hcond : IsExpr cond) (hbody : IsStmt body)
      (halt : IsStmt alt) : IsStmt (.branch cond body alt)
  | loop {cond body : Node} (hcond : IsExpr cond) (hbody : IsStmt body) :
      IsStmt (.loop cond body)
  | block {stmts : List Node} (hstmts : ∀ s ∈ stmts, IsStmt s) : IsStmt (.block stmts)

theorem IsStmt.isAbsent_eq_false {n : Node} (h : IsStmt n) : n.isAbsent = false := by
  cases h <;> rfl

theorem comparisonOf?_text_ne_none (op : CompareOp) : comparisonOf? op.text ≠ none := by
  cases op <;> decide

end NumBool.Check

namespace NumBool.Phrase

open NumBool.Check

mutual

theorem Logical.isExpr_operands : ∀ e : Logical, ∀ n ∈ e.operands, IsExpr n
  | .single only => by
      rw [Logical.operands]
      exact List.forall_mem_singleton.mpr only.isExpr
  | .chain first op last => by
      rw [Logical.operands]
      exact forall_mem_append_singleton first.isExpr_operands last.isExpr

theorem Comparison.isExpr : ∀ e : Comparison, IsExpr e.toNode
  | .single only => by
      rw [Comparison.toNode]
      exact .comparisonOne (.addition only.length_operands only.isExpr_operands)
  | .binary left op right => by
      rw [Comparison.toNode]
      exact .comparison (comparisonOf?_text_ne_none op)
        (.addition left.length_operands left.isExpr_operands)
        (.addition right.length_operands right.isExpr_operands)

theorem Addition.isExpr_operands : ∀ e : Addition, ∀ n ∈ e.operands, IsExpr n
  | .single only => by
      rw [Addition.operands]
      exact List.forall_mem_singleton.mpr
        (.multiplication only.length_operands only.isExpr_operands)
  | .chain first op last => by
      rw [Addition.operands]
      exact forall_mem_append_singleton first.isExpr_operands
        (.multiplication last.length_operands last.isExpr_operands)

theorem Multiplication.isExpr_operands : ∀ e : Multiplication, ∀ n ∈ e.operands, IsExpr n
  | .single only => by
      rw [Multiplication.operands]
      exact List.forall_mem_singleton.mpr only.isExpr
  | .chain first op last => by
      rw [Multiplication.operands]
      exact forall_mem_append_singleton first.isExpr_operands last.isExpr

theorem Signed.isExpr : ∀ e : Signed, IsExpr e.toNode
  | .mk signs (.mk marks operand) => by
      rw [Signed.toNode, Negation.toNode]
      exact .signed (.negated operand.isExpr)

theorem Atom.isExpr : ∀ e : Atom, IsExpr e.toNode
  | .ident name => by
      rw [Atom.toNode]
      exact .value (.identifier name)
  | .int value => by
      rw [Atom.toNode]
      exact .value (.int value)
  | .truth value => by
      rw [Atom.toNode]
      exact .value (.truth value)
  | .paren inner => by
      rw [Atom.toNode]
      exact .value (.logical inner.length_operands inner.isExpr_operands)

end

theorem Logical.isExpr (e : Logical) : IsExpr e.toNode := by
  rw [Logical.toNode]
  exact .logical e.length_operands e.isExpr_operands

mutual

theorem Stmt.isStmt : ∀ s : Stmt, IsStmt s.toNode
  | .declare ty name => by
      rw [Stmt.toNode]
      exact .declaration ty name
  | .assign name value => by
      rw [Stmt.toNode]
      exact .assignment name value.isExpr
  | .branch cond body alt => by
      rw [Stmt.toNode]
      exact alt.isStmt cond body (.block (isStmt_of_mem body))
  | .loop cond body => by
      rw [Stmt.toNode]
      exact .loop cond.isExpr (.block (isStmt_of_mem body))
  | .block body => by
      rw [Stmt.toNode]
      exact .block (isStmt_of_mem body)

theorem Alternative.isStmt : ∀ (alt : Alternative) (cond : Logical) (body : List Stmt),
    IsStmt (.block (stmtNodes body)) →
      IsStmt (.branch cond.toNode (.block (stmtNodes body)) alt.toNode)
  | .absent, cond, body, hbody => by
      rw [Alternative.toNode]
      exact .branch cond.isExpr hbody
  | .block other, cond, body, hbody => by
      rw [Alternative.toNode]
      exact .branchElse cond.isExpr hbody (.block (isStmt_of_mem other))
  | .branch next other alt, cond, body, hbody => by
      rw [Alternative.toNode]
      exact .branchElse cond.isExpr hbody (alt.isStmt next other (.block (isStmt_of_mem other)))

theorem isStmt_of_mem : ∀ stmts : List Stmt, ∀ n ∈ stmtNodes stmts, IsStmt n
  | [], n, hn => by
      rw [stmtNodes] at hn
      exact absurd hn List.not_mem_nil
  | stmt :: rest, n, hn => by
      rw [stmtNodes, List.mem_cons] at hn
      rcases hn with hn | hn
      · rw [hn]
        exact stmt.isStmt
      · exact isStmt_of_mem rest n hn

end

end NumBool.Phrase

/-!
# Grounded traces
-/

namespace NumBool.Check

/-- The type is fixed, or it belongs to one of these names. -/
def Reading.GroundedIn (names : List String) : Reading → Prop
  | .fixed _ => True
  | .declared name => name ∈ names
  | .missing => False

/-- What a step reads is fixed or belongs to one of these names. -/
def Step.GroundedIn (names : List String) : Step → Prop
  | .operand _ _ got => got.GroundedIn names
  | .condition got => got.GroundedIn names
  | .assign target got => target ∈ names ∧ got.GroundedIn names
  | .breakdown _ => False
  | _ => True

/-- The name that a step uses. -/
def Step.use? : Step → Option String
  | .use name => some name
  | _ => none

/-- The names that some steps use, in order. -/
def usedNames (steps : List Step) : List String :=
  steps.filterMap Step.use?

/-- Every step reads only what the steps before it, or `names`, have provided. -/
def Grounded : (names : List String) → List Step → Prop
  | _, [] => True
  | names, step :: rest => step.GroundedIn names ∧ Grounded (names ++ usedNames [step]) rest

theorem usedNames_append (xs ys : List Step) :
    usedNames (xs ++ ys) = usedNames xs ++ usedNames ys := by
  simp [usedNames]

theorem grounded_append {names : List String} {xs ys : List Step} :
    Grounded names (xs ++ ys) ↔
      Grounded names xs ∧ Grounded (names ++ usedNames xs) ys := by
  induction xs generalizing names with
  | nil => simp [Grounded, usedNames]
  | cons step xs ih =>
      have hused : usedNames (step :: xs) = usedNames [step] ++ usedNames xs :=
        usedNames_append [step] xs
      rw [List.cons_append, Grounded, Grounded, ih, hused, and_assoc, List.append_assoc]

/-- The last of some steps, if the steps before it are grounded. -/
theorem grounded_append_singleton {names : List String} {xs : List Step} {step : Step}
    (hxs : Grounded names xs) (hstep : step.GroundedIn (names ++ usedNames xs)) :
    Grounded names (xs ++ [step]) :=
  grounded_append.mpr ⟨hxs, hstep, trivial⟩

/-- A step of a grounded list reads what the steps before it have provided. -/
theorem Grounded.step {before after : List Step} {step : Step}
    (h : Grounded [] (before ++ step :: after)) : step.GroundedIn (usedNames before) := by
  have hstep := (grounded_append.mp h).2.1
  rwa [List.nil_append] at hstep

/-- The steps of an expression are grounded, and so is its type after them. -/
def GroundedExpr (n : Node) : Prop :=
  ∀ names : List String,
    Grounded names (trace n) ∧ (reading n).GroundedIn (names ++ usedNames (trace n))

theorem grounded_operandsTrace {operands : List Node} (ops : List String) (level : String)
    (expected : Ty) (h : ∀ n ∈ operands, GroundedExpr n) (names : List String) :
    Grounded names (operandsTrace operands ops level expected) := by
  induction operands generalizing names with
  | nil =>
      rw [operandsTrace]
      trivial
  | cons operand rest ih =>
      have hoperand := h operand List.mem_cons_self names
      have hrest := ih fun n hn => h n (List.mem_cons_of_mem operand hn)
      rw [operandsTrace]
      refine grounded_append.mpr ⟨hoperand.1, grounded_append.mpr ⟨?_, hrest _⟩⟩
      cases ops with
      | nil => trivial
      | cons op ops => exact ⟨hoperand.2, trivial⟩

theorem groundedIn_lastReading {operands : List Node} {ops : List String} {level : String}
    {expected ty : Ty} (hlength : operands.length = ops.length + 1)
    (h : ∀ n ∈ operands, GroundedExpr n) (names : List String) :
    (if ops.isEmpty then lastReading operands else .fixed ty).GroundedIn
      (names ++ usedNames (operandsTrace operands ops level expected ++
        [.tally .operators ops.length])) := by
  cases ops with
  | cons op ops => trivial
  | nil =>
      obtain ⟨operand, rfl⟩ := List.length_eq_one_iff.mp hlength
      have hused : usedNames (operandsTrace [operand] [] level expected ++
          [.tally .operators ([] : List String).length]) = usedNames (trace operand) := by
        rw [operandsTrace, operandsTrace, usedNames_append, usedNames_append]
        change usedNames (trace operand) ++ [] ++ [] = _
        rw [List.append_nil, List.append_nil]
      rw [hused]
      change (lastReading [operand]).GroundedIn _
      rw [lastReading]
      exact (h operand List.mem_cons_self names).2

theorem GroundedExpr.chain {n : Node} {operands : List Node} {ops : List String}
    {level : String} {expected ty : Ty}
    (htrace : trace n = operandsTrace operands ops level expected ++ [.tally .operators ops.length])
    (hreading : reading n = if ops.isEmpty then lastReading operands else .fixed ty)
    (hlength : operands.length = ops.length + 1) (h : ∀ n ∈ operands, GroundedExpr n) :
    GroundedExpr n := by
  intro names
  rw [htrace, hreading]
  constructor
  · exact grounded_append_singleton (grounded_operandsTrace ops level expected h names) trivial
  · exact groundedIn_lastReading hlength h names

theorem GroundedExpr.checked {n operand : Node} {ops : List String} {level : String}
    {expected ty : Ty}
    (htrace : trace n = trace operand ++
      if ops.isEmpty then [] else [.operand level expected (reading operand),
        .tally .operators ops.length])
    (hreading : reading n = if ops.isEmpty then reading operand else .fixed ty)
    (h : GroundedExpr operand) : GroundedExpr n := by
  intro names
  rw [htrace, hreading]
  cases ops with
  | nil =>
      have hoperand := h names
      simpa using hoperand
  | cons op ops => exact ⟨grounded_append.mpr ⟨(h names).1, (h names).2, trivial, trivial⟩, trivial⟩

theorem IsExpr.grounded {n : Node} (h : IsExpr n) : GroundedExpr n := by
  induction h with
  | logical hlength _ ih => exact .chain (by rw [trace]) (by rw [reading]) hlength ih
  | comparisonOne _ ih =>
      intro names
      rw [trace, reading]
      exact ih names
  | comparison hop _ _ ihleft ihright =>
      intro names
      rw [trace, reading]
      refine ⟨grounded_append.mpr ⟨(ihleft names).1, ?_⟩, trivial⟩
      cases hkind : comparisonOf? _ with
      | none => exact absurd hkind hop
      | some kind =>
          cases kind with
          | equality => exact grounded_append_singleton (ihright _).1 trivial
          | order =>
              refine ⟨(ihleft names).2, grounded_append.mpr ⟨(ihright _).1, ?_⟩⟩
              exact ⟨(ihright _).2, trivial, trivial⟩
  | addition hlength _ ih => exact .chain (by rw [trace]) (by rw [reading]) hlength ih
  | multiplication hlength _ ih => exact .chain (by rw [trace]) (by rw [reading]) hlength ih
  | signed _ ih => exact ih.checked (by rw [trace]) (by rw [reading])
  | negated _ ih => exact ih.checked (by rw [trace]) (by rw [reading])
  | value _ ih =>
      intro names
      rw [trace, reading]
      exact ih names
  | identifier name =>
      intro names
      rw [trace, reading]
      exact ⟨⟨trivial, trivial⟩, List.mem_append_right names List.mem_cons_self⟩
  | int value =>
      intro names
      rw [trace, reading]
      exact ⟨trivial, trivial⟩
  | truth value =>
      intro names
      rw [trace, reading]
      exact ⟨trivial, trivial⟩

theorem grounded_stmtsTrace {stmts : List Node}
    (h : ∀ s ∈ stmts, ∀ names, Grounded names (stmtTrace s)) (names : List String) :
    Grounded names (stmtsTrace stmts) := by
  induction stmts generalizing names with
  | nil =>
      rw [stmtsTrace]
      trivial
  | cons stmt rest ih =>
      have hstmt := h stmt List.mem_cons_self names
      have hrest := ih fun s hs => h s (List.mem_cons_of_mem stmt hs)
      rw [stmtsTrace]
      exact grounded_append.mpr ⟨hstmt, hrest _⟩

/-- The steps of a statement are grounded. -/
theorem IsStmt.grounded {n : Node} (h : IsStmt n) : ∀ names, Grounded names (stmtTrace n) := by
  induction h with
  | declaration ty name =>
      intro names
      rw [stmtTrace, Ty.ofKeyword?_keyword]
      exact ⟨trivial, trivial⟩
  | assignment target hvalue =>
      intro names
      have hvalue := hvalue.grounded (names ++ [target])
      rw [stmtTrace]
      refine ⟨trivial, grounded_append_singleton hvalue.1 ⟨?_, hvalue.2⟩⟩
      exact List.mem_append_left _ (List.mem_append_right names List.mem_cons_self)
  | branch hcond _ ihbody =>
      intro names
      have hcond := hcond.grounded names
      rw [stmtTrace]
      refine grounded_append.mpr ⟨hcond.1, hcond.2, grounded_append.mpr ⟨ihbody _, ?_⟩⟩
      exact ⟨trivial, trivial⟩
  | branchElse hcond _ halt ihbody ihalt =>
      intro names
      have hcond := hcond.grounded names
      rw [stmtTrace, halt.isAbsent_eq_false]
      refine grounded_append.mpr ⟨hcond.1, hcond.2, grounded_append.mpr ⟨ihbody _, ?_⟩⟩
      exact grounded_append_singleton (ihalt _) trivial
  | loop hcond _ ihbody =>
      intro names
      have hcond := hcond.grounded names
      rw [stmtTrace]
      refine grounded_append.mpr ⟨hcond.1, hcond.2, ?_⟩
      exact grounded_append_singleton (ihbody _) trivial
  | block _ ih =>
      intro names
      rw [stmtTrace]
      exact grounded_stmtsTrace ih names

/-- The steps of a parsed program are grounded. -/
theorem grounded_program (program : Phrase.Program) :
    Grounded [] (stmtTrace program.toNode) := by
  rw [Phrase.Program.toNode, stmtTrace]
  refine grounded_append_singleton (grounded_stmtsTrace ?_ []) trivial
  intro s hs
  exact (Phrase.isStmt_of_mem program.stmts s hs).grounded

end NumBool.Check
