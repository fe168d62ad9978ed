import NumBool.Check.Checker

/-!
# The trace of a check

A check does the same things in the same order whatever it finds, until a check point
fails.  `trace` and `stmtTrace` list these steps for a tree without running anything:
the check points, and between them the counts that are taken when a node is complete.

The type of an expression need not be computed for that.  It can be read off the
outermost operator, off a literal, or off the declaration of an identifier, and
`reading` says which of them.  What a reading gives depends only on the declarations
made so far, so a step is judged by the steps before it (`Step.holds`).

Traces exist for all trees, also for those that no text has produced.  Where a check
breaks off at a node that it does not know, the trace has a step that never holds.
-/

namespace NumBool.Check

/-- Where the type of an expression is read off. -/
inductive Reading where
  /-- An operator or a literal fixes the type. -/
  | fixed (ty : Ty)
  /-- The declaration of this name gives the type. -/
  | declared (name : String)
  /-- There is no type. -/
  | missing
  deriving DecidableEq, Repr

/-- The type that a reading gives under some declarations. -/
def Reading.type (decls : List (String × Ty)) : Reading → Option Ty
  | .fixed ty => some ty
  | .declared name => decls.lookup name
  | .missing => none

/-- One step of a check. -/
inductive Step where
  /-- A name is declared; it must not be declared before. -/
  | declare (name : String) (ty : Ty)
  /-- A name is used; it must be declared before. -/
  | use (name : String)
  /-- An operand next to an operator must have the type that the level requires. -/
  | operand (level : String) (expected : Ty) (got : Reading)
  /-- A condition must be a truth value. -/
  | condition (got : Reading)
  /-- An assigned value must have the type of its target. -/
  | assign (target : String) (got : Reading)
  /-- A node is complete and is counted. -/
  | tally (field : Counters.Field) (n : Int)
  /-- A program is complete and reports its counts. -/
  | report
  /-- A node that the language does not know has been reached. -/
  | breakdown (failure : Failure)
  deriving DecidableEq, Repr

namespace Step

/-- The declaration that a step makes. -/
def declaration? : Step → Option (String × Ty)
  | declare name ty => some (name, ty)
  | _ => none

/-- Whether a step succeeds under the declarations made before it. -/
def holds (decls : List (String × Ty)) : Step → Bool
  | declare name _ => (decls.lookup name).isNone
  | use name => (decls.lookup name).isSome
  | operand _ expected got => got.type decls = some expected
  | condition got => got.type decls = some .bool
  | assign target got => got.type decls = decls.lookup target
  | tally _ _ => true
  | report => true
  | breakdown _ => false

/-- The failure of a step that does not hold.  A sign before an operand without any
type breaks the check off. -/
def failure (decls : List (String × Ty)) : Step → Failure
  | declare name _ => .semantic (.duplicate name)
  | use name => .semantic (.undefined name)
  | operand level expected got =>
    if level = Level.sign ∧ got.type decls = none then .untyped
    else .semantic (.operand level (got.type decls) (some expected))
  | condition _ => .semantic .condition
  | assign target _ => .semantic (.assignment target)
  -- these two always hold
  | tally _ _ => .untyped
  | report => .untyped
  | breakdown failure => failure

/-- Whether a step can belong to an expression, which declares, assigns and reports
nothing. -/
def isInner : Step → Bool
  | use _ | operand _ _ _ | tally _ _ | breakdown _ => true
  | declare _ _ | condition _ | assign _ _ | report => false

/-- The state after a step that holds. -/
def after (ctx : Context) : Step → Context
  | declare name ty =>
    { ctx with symbols := ⟨ctx.symbols.entries ++ [(name, some ty)]⟩ }.increase .declarations 1
  | tally field n => ctx.increase field n
  | report => ctx.report
  | _ => ctx

end Step

/-- The declarations among some steps, in order. -/
def declared (steps : List Step) : List (String × Ty) :=
  steps.filterMap Step.declaration?

/-- The state after some steps that hold. -/
def contextOf (steps : List Step) : Context :=
  steps.foldl Step.after {}

/-- The first step that does not hold, with the steps before it. -/
def firstViolation? (done : List Step) : List Step → Option (List Step × Step)
  | [] => none
  | step :: rest =>
    if step.holds (declared done) then firstViolation? (done ++ [step]) rest
    else some (done, step)

mutual

/-- Where the type of an expression is read off. -/
def reading : Node → Reading
  | .logical operands ops => if ops.isEmpty then lastReading operands else .fixed .bool
  | .comparison left none _ => reading left
  | .comparison _ (some _) _ => .fixed .bool
  | .addition operands ops => if ops.isEmpty then lastReading operands else .fixed .number
  | .multiplication operands ops => if ops.isEmpty then lastReading operands else .fixed .number
  | .signed operand ops => if ops.isEmpty then reading operand else .fixed .number
  | .negated operand ops => if ops.isEmpty then reading operand else .fixed .bool
  | .value inner => reading inner
  | .identifier name => .declared name
  | .int _ => .fixed .number
  | .truth _ => .fixed .bool
  | .foreign kind =>
    if kind = "IntValue" then .fixed .number
    else if kind = "BoolValue" then .fixed .bool
    else .missing
  | _ => .missing

/-- Where the type of the last of some operands is read off. -/
def lastReading : List Node → Reading
  | [] => .missing
  | [operand] => reading operand
  | _ :: rest => lastReading rest

end

/-- The steps for a node from outside the language. -/
def foreignTrace (kind : String) : List Step :=
  match firstPart? kind with
  | some part => [.breakdown (.missingPart kind part)]
  | none =>
    if kind = "IntValue" ∨ kind = "BoolValue" then []
    else if kind = "operands" then [.breakdown .missingArguments]
    else [.breakdown (.semantic (.unknownExpression kind))]

mutual

/-- The steps for an expression. -/
def trace : Node → List Step
  | .logical operands ops =>
    operandsTrace operands ops Level.logical .bool ++ [.tally .operators ops.length]
  | .comparison left none _ => trace left
  | .comparison left (some op) right =>
    trace left ++
      match comparisonOf? op with
      | none => [.breakdown (.semantic (.unknownComparison op))]
      | some .equality => trace right ++ [.tally .operators 1]
      | some .order =>
        .operand Level.comparison .number (reading left) ::
          (trace right ++
            [.operand Level.comparison .number (reading right), .tally .operators 1])
  | .addition operands ops =>
    operandsTrace operands ops Level.addition .number ++ [.tally .operators ops.length]
  | .multiplication operands ops =>
    operandsTrace operands ops Level.multiplication .number ++ [.tally .operators ops.length]
  | .signed operand ops =>
    trace operand ++
      if ops.isEmpty then []
      else [.operand Level.sign .number (reading operand), .tally .operators ops.length]
  | .negated operand ops =>
    trace operand ++
      if ops.isEmpty then []
      else [.operand Level.negation .bool (reading operand), .tally .operators ops.length]
  | .value inner => trace inner
  | .identifier name => [.use name]
  | .int _ => []
  | .truth _ => []
  | .foreign kind => foreignTrace kind
  | node => [.breakdown (.semantic (.unknownExpression node.kindName))]

/-- The steps for some operands; next to operators each is checked before the next one
is looked at. -/
def operandsTrace : List Node → (ops : List String) → (level : String) → (expected : Ty) →
    List Step
  | [], _, _, _ => []
  | operand :: rest, ops, level, expected =>
    trace operand ++
      ((if ops.isEmpty then [] else [.operand level expected (reading operand)]) ++
        operandsTrace rest ops level expected)

end

/-- The steps for a statement from outside the language. -/
def foreignStmtTrace (kind : String) : List Step :=
  match firstStmtPart? kind with
  | some part => [.breakdown (.missingPart kind part)]
  | none =>
    if kind = "stmt" then [.breakdown .endless]
    else [.breakdown (.semantic (.unknownStatement kind))]

/-- The steps where a name is asked of a node that has none. -/
def namelessTrace (n : Node) : List Step :=
  [.breakdown (.missingPart n.kindName "name")]

mutual

/-- The steps for a statement. -/
def stmtTrace : Node → List Step
  | .program stmts => stmtsTrace stmts ++ [.report]
  | .block stmts => stmtsTrace stmts
  | .declaration typeName ident =>
    match ident.name? with
    | none => namelessTrace ident
    | some name =>
      match Ty.ofKeyword? typeName with
      | none => [.breakdown (.semantic (.unknownType typeName name))]
      | some ty => [.declare name ty]
  | .assignment target value =>
    match target.name? with
    | none => namelessTrace target
    | some name => .use name :: (trace value ++ [.assign name (reading value)])
  | .branch cond body alt =>
    trace cond ++
      (.condition (reading cond) ::
        (stmtTrace body ++
          ((if alt.isAbsent then [] else stmtTrace alt) ++ [.tally .ifs 1])))
  | .loop cond body =>
    trace cond ++ (.condition (reading cond) :: (stmtTrace body ++ [.tally .whiles 1]))
  | .foreign kind => foreignStmtTrace kind
  | node => [.breakdown (.semantic (.unknownStatement node.kindName))]

/-- The steps for some statements. -/
def stmtsTrace : List Node → List Step
  | [] => []
  | stmt :: rest => stmtTrace stmt ++ stmtsTrace rest

end

theorem isInner_of_mem_foreignTrace (kind : String) :
    ∀ step ∈ foreignTrace kind, step.isInner = true := by
  unfold foreignTrace
  repeat' split
  all_goals simp [Step.isInner]

mutual

theorem isInner_of_mem_trace : ∀ n : Node, ∀ step ∈ trace n, step.isInner = true
  | .logical operands ops => by
      have hoperands := isInner_of_mem_operandsTrace operands ops Level.logical .bool
      rw [trace, List.forall_mem_append]
      exact ⟨hoperands, by simp [Step.isInner]⟩
  | .comparison left none _ => by
      rw [trace]
      exact isInner_of_mem_trace left
  | .comparison left (some op) right => by
      have hleft := isInner_of_mem_trace left
      have hright := isInner_of_mem_trace right
      rw [trace, List.forall_mem_append]
      refine ⟨hleft, ?_⟩
      split
      · simp [Step.isInner]
      · rw [List.forall_mem_append]
        exact ⟨hright, by simp [Step.isInner]⟩
      · rw [List.forall_mem_cons, List.forall_mem_append]
        exact ⟨rfl, hright, by simp [Step.isInner]⟩
  | .addition operands ops => by
      have hoperands := isInner_of_mem_operandsTrace operands ops Level.addition .number
      rw [trace, List.forall_mem_append]
      exact ⟨hoperands, by simp [Step.isInner]⟩
  | .multiplication operands ops => by
      have hoperands := isInner_of_mem_operandsTrace operands ops Level.multiplication .number
      rw [trace, List.forall_mem_append]
      exact ⟨hoperands, by simp [Step.isInner]⟩
  | .signed operand ops => by
      have hoperand := isInner_of_mem_trace operand
      rw [trace, List.forall_mem_append]
      refine ⟨hoperand, ?_⟩
      cases ops <;> simp [Step.isInner]
  | .negated operand ops => by
      have hoperand := isInner_of_mem_trace operand
      rw [trace, List.forall_mem_append]
      refine ⟨hoperand, ?_⟩
      cases ops <;> simp [Step.isInner]
  | .value inner => by
      rw [trace]
      exact isInner_of_mem_trace inner
  | .foreign kind => by
      rw [trace]
      exact isInner_of_mem_foreignTrace kind
  | .identifier _ | .int _ | .truth _ | .program _ | .block _ | .declaration _ _
  | .assignment _ _ | .branch _ _ _ | .loop _ _ | .absent | .datum _ | .list _ => by
      simp [trace, Step.isInner]

theorem isInner_of_mem_operandsTrace : ∀ (operands : List Node) (ops : List String)
    (level : String) (expected : Ty),
    ∀ step ∈ operandsTrace operands ops level expected, step.isInner = true
  | [], _, _, _ => by simp [operandsTrace]
  | operand :: rest, ops, level, expected => by
      have hoperand := isInner_of_mem_trace operand
      have hrest := isInner_of_mem_operandsTrace rest ops level expected
      rw [operandsTrace, List.forall_mem_append, List.forall_mem_append]
      refine ⟨hoperand, ?_, hrest⟩
      cases ops <;> simp [Step.isInner]

end

/-- The table that some declarations make. -/
def tableOf (decls : List (String × Ty)) : Table :=
  ⟨decls.map fun decl => (decl.1, some decl.2)⟩

theorem tableOf_find? (decls : List (String × Ty)) (name : String) :
    (tableOf decls).find? name = (decls.lookup name).map some := by
  induction decls with
  | nil => rfl
  | cons decl decls ih =>
      obtain ⟨first, ty⟩ := decl
      simp only [tableOf, Table.find?, List.map_cons, List.lookup_cons] at ih ⊢
      cases h : name == first with
      | true => rfl
      | false => exact ih

theorem declared_append (xs ys : List Step) : declared (xs ++ ys) = declared xs ++ declared ys := by
  simp [declared]

/-- An expression declares nothing. -/
theorem declared_trace (n : Node) : declared (trace n) = [] := by
  rw [declared, List.filterMap_eq_nil_iff]
  intro step hstep
  have hinner := isInner_of_mem_trace n step hstep
  cases step with
  | declare name ty => simp [Step.isInner] at hinner
  | _ => rfl

theorem contextOf_append (xs ys : List Step) :
    contextOf (xs ++ ys) = ys.foldl Step.after (contextOf xs) := by
  simp [contextOf]

theorem symbols_after (ctx : Context) (step : Step) :
    (step.after ctx).symbols.entries =
      ctx.symbols.entries ++ (declared [step]).map fun decl => (decl.1, some decl.2) := by
  cases step <;> simp [Step.after, declared, Step.declaration?, Context.increase, Context.report]

/-- The table after some steps holds the declarations among them. -/
theorem contextOf_symbols (steps : List Step) :
    (contextOf steps).symbols = tableOf (declared steps) := by
  have h : ∀ (steps : List Step) (ctx : Context), (steps.foldl Step.after ctx).symbols.entries =
      ctx.symbols.entries ++ (declared steps).map fun decl => (decl.1, some decl.2) := by
    intro steps
    induction steps with
    | nil =>
        intro ctx
        simp [declared]
    | cons step steps ih =>
        intro ctx
        have happend : declared (step :: steps) = declared [step] ++ declared steps :=
          declared_append [step] steps
        rw [List.foldl_cons, ih, symbols_after, happend, List.map_append, List.append_assoc]
  have hentries := h steps {}
  rw [List.nil_append] at hentries
  exact congrArg Table.mk hentries

theorem contextOf_lookup (steps : List Step) (name : String) :
    (contextOf steps).symbols.lookup name =
      match (declared steps).lookup name with
      | some ty => .ok ty
      | none => .error (.undefined name) := by
  rw [contextOf_symbols, Table.lookup, tableOf_find?]
  cases (declared steps).lookup name with
  | none => rfl
  | some ty => rfl

theorem contextOf_contains (steps : List Step) (name : String) :
    (contextOf steps).symbols.contains name = ((declared steps).lookup name).isSome := by
  rw [contextOf_symbols, Table.contains, tableOf_find?, Option.isSome_map]

theorem firstViolation?_append (done xs ys : List Step) :
    firstViolation? done (xs ++ ys) =
      match firstViolation? done xs with
      | none => firstViolation? (done ++ xs) ys
      | some violation => some violation := by
  induction xs generalizing done with
  | nil => simp [firstViolation?]
  | cons step xs ih =>
      rw [List.cons_append, firstViolation?, firstViolation?]
      cases h : step.holds (declared done) with
      | true => simp [ih]
      | false => simp

end NumBool.Check
