import NumBool.Proofs.Check.Violation
import NumBool.Proofs.Parse

/-!
# The statistics of a text

The counts of a check are those of the tokens of the text, class by class.  Two things
have to be right for that: the actions of the grammar neither drop nor double an
operator or a word, and each level of the check counts the operators of its own nodes
once.  Both are read off the derivation of the tree: `Symbol.steps` are the steps that the
value of a symbol stands for, and every production keeps them counting as much as its
tokens do (`Derives.amounts_eq`).
-/

namespace NumBool

/-- The classes of the tokens that a count is about. -/
def Counters.Field.labels : Counters.Field → List String
  | .declarations => ["NUM_TYPE", "BOOL_TYPE"]
  | .whiles => ["WHILE"]
  | .ifs => ["IF"]
  | .operators =>
    ["PLUS", "MINUS", "TIMES", "DIV", "MOD", "LT", "GT", "LE", "GE", "EQ", "NE", "AND", "OR",
      "NOT"]

/-- The number of tokens of the classes that a count is about. -/
def Token.Scan.count (scan : Token.Scan) (field : Counters.Field) : Nat :=
  scan.tokens.countP fun token => field.labels.contains token.kind.label

/-- The counts of the tokens of a text. -/
def Token.Scan.statistics (scan : Token.Scan) : Counters where
  declarations := scan.count .declarations
  whiles := scan.count .whiles
  ifs := scan.count .ifs
  operators := scan.count .operators

namespace Grammar

open NumBool.Check

/-- What a token adds to a count. -/
def tokenAmount (field : Counters.Field) (kind : TokenKind) : Int :=
  if field.labels.contains kind.label then 1 else 0

/-- What some tokens add up to in a count. -/
def tokenAmounts (field : Counters.Field) : List TokenKind → Int
  | [] => 0
  | kind :: kinds => tokenAmount field kind + tokenAmounts field kinds

@[simp] theorem tokenAmounts_nil (field : Counters.Field) : tokenAmounts field [] = 0 := rfl

@[simp] theorem tokenAmounts_cons (field : Counters.Field) (kind : TokenKind)
    (kinds : List TokenKind) :
    tokenAmounts field (kind :: kinds) = tokenAmount field kind + tokenAmounts field kinds := rfl

@[simp] theorem tokenAmounts_append (field : Counters.Field) (xs ys : List TokenKind) :
    tokenAmounts field (xs ++ ys) = tokenAmounts field xs + tokenAmounts field ys := by
  induction xs with
  | nil => simp
  | cons kind xs ih =>
      rw [List.cons_append, tokenAmounts_cons, tokenAmounts_cons, ih, Int.add_assoc]

theorem tokenAmounts_eq_countP (field : Counters.Field) (kinds : List TokenKind) :
    tokenAmounts field kinds = kinds.countP fun kind => field.labels.contains kind.label := by
  induction kinds with
  | nil => rfl
  | cons kind kinds ih =>
      rw [tokenAmounts_cons, ih, List.countP_cons, tokenAmount]
      split <;> omega

@[simp] theorem tokenAmount_ident (field : Counters.Field) (name : String) :
    tokenAmount field (.ident name) = 0 := by
  cases field <;> rfl

@[simp] theorem tokenAmount_int (field : Counters.Field) (value : Nat) :
    tokenAmount field (.int value) = 0 := by
  cases field <;> rfl

@[simp] theorem tokenAmount_mark (field : Counters.Field) (mark : Mark) :
    tokenAmount field (.mark mark) = 0 := by
  cases field <;> cases mark <;> decide

@[simp] theorem tokenAmount_otherwise (field : Counters.Field) :
    tokenAmount field (.keyword .otherwise) = 0 := by
  cases field <;> rfl

@[simp] theorem tokenAmount_truth (field : Counters.Field) (value : Bool) :
    tokenAmount field (.keyword (.truth value)) = 0 := by
  cases field <;> cases value <;> rfl

@[simp] theorem tokenAmount_type (field : Counters.Field) (ty : Ty) :
    tokenAmount field (.keyword (.type ty)) = if field = .declarations then 1 else 0 := by
  cases field <;> cases ty <;> rfl

@[simp] theorem tokenAmount_branch (field : Counters.Field) :
    tokenAmount field (.keyword .branch) = if field = .ifs then 1 else 0 := by
  cases field <;> rfl

@[simp] theorem tokenAmount_loop (field : Counters.Field) :
    tokenAmount field (.keyword .loop) = if field = .whiles then 1 else 0 := by
  cases field <;> rfl

@[simp] theorem tokenAmount_op (field : Counters.Field) (op : Op) :
    tokenAmount field (.op op) = if field = .operators then 1 else 0 := by
  cases op with
  | logic op => cases field <;> cases op <;> rfl
  | compare op => cases field <;> cases op <;> rfl
  | sum op => cases field <;> cases op <;> rfl
  | product op => cases field <;> cases op <;> rfl
  | not => cases field <;> rfl

@[simp] theorem amounts_append (field : Counters.Field) (xs ys : List Step) :
    amounts field (xs ++ ys) = amounts field xs + amounts field ys := by
  induction xs with
  | nil => simp [amounts]
  | cons step xs ih => rw [List.cons_append, amounts, amounts, ih, Int.add_assoc]

@[simp] theorem amounts_singleton (field : Counters.Field) (step : Step) :
    amounts field [step] = step.amount field := by
  simp [amounts]

/-- What the steps for some operands add up to, whatever operators join them. -/
def operandAmounts (field : Counters.Field) : List Node → Int
  | [] => 0
  | operand :: rest => amounts field (trace operand) + operandAmounts field rest

theorem operandAmounts_append_singleton (field : Counters.Field) (operands : List Node)
    (operand : Node) :
    operandAmounts field (operands ++ [operand]) =
      operandAmounts field operands + amounts field (trace operand) := by
  induction operands with
  | nil => simp [operandAmounts]
  | cons first rest ih =>
      rw [List.cons_append, operandAmounts, operandAmounts, ih, Int.add_assoc]

theorem amounts_operandsTrace (field : Counters.Field) (operands : List Node)
    (ops : List String) (level : String) (expected : Ty) :
    amounts field (operandsTrace operands ops level expected) =
      operandAmounts field operands := by
  induction operands with
  | nil =>
      rw [operandsTrace]
      rfl
  | cons operand rest ih =>
      have hchecks : amounts field
          (if ops.isEmpty then [] else [.operand level expected (reading operand)]) = 0 := by
        cases ops <;> simp [amounts, Step.amount]
      rw [operandsTrace, amounts_append, amounts_append, hchecks, ih, operandAmounts, Int.zero_add]

theorem amount_tally_append_singleton (field : Counters.Field) (ops : List String) (op : Op)
    (text : String) :
    (Step.tally .operators (ops ++ [text]).length).amount field =
      (Step.tally .operators ops.length).amount field + tokenAmount field (.op op) := by
  by_cases h : field = .operators
  · simp [Step.amount, h]
  · simp [Step.amount, h]

/-- A chain with one more operator and one more operand. -/
theorem amounts_chain_append_singleton (field : Counters.Field) (operands : List Node)
    (operand : Node) (ops : List String) (op : Op) (text level : String) (expected : Ty) :
    amounts field (operandsTrace (operands ++ [operand]) (ops ++ [text]) level expected ++
        [.tally .operators (ops ++ [text]).length]) =
      amounts field (operandsTrace operands ops level expected ++
        [.tally .operators ops.length]) +
        (tokenAmount field (.op op) + amounts field (trace operand)) := by
  rw [amounts_append, amounts_append, amounts_operandsTrace, amounts_operandsTrace,
    operandAmounts_append_singleton, amounts_singleton, amounts_singleton,
    amount_tally_append_singleton field ops op text]
  omega

theorem amounts_chain_singleton (field : Counters.Field) (operand : Node) (level : String)
    (expected : Ty) :
    amounts field (operandsTrace [operand] [] level expected ++
        [.tally .operators ([] : List String).length]) = amounts field (trace operand) := by
  rw [amounts_append, amounts_operandsTrace, amounts_singleton]
  simp [operandAmounts, Step.amount]

/-- A value behind signs or negation marks. -/
theorem amounts_checked (field : Counters.Field) (operand : Node) (ops : List String)
    (level : String) (expected : Ty) :
    amounts field (trace operand ++
        if ops.isEmpty then []
        else [.operand level expected (reading operand), .tally .operators ops.length]) =
      (Step.tally .operators ops.length).amount field + amounts field (trace operand) := by
  cases ops with
  | nil => simp [Step.amount]
  | cons op ops => simp [amounts, Step.amount, Int.add_comm]

/-- Both kinds of comparison count one operator after their right side. -/
theorem amounts_comparison (field : Counters.Field) (left right : Node) (op : CompareOp) :
    amounts field (trace (.comparison left (some op.text) right)) =
      amounts field (trace left) +
        (tokenAmount field (.op (.compare op)) + amounts field (trace right)) := by
  rw [trace, amounts_append]
  cases hkind : comparisonOf? op.text with
  | none => exact absurd hkind (comparisonOf?_text_ne_none op)
  | some kind =>
      cases kind with
      | equality =>
          simp only [amounts_append, amounts, Step.amount, tokenAmount_op]
          omega
      | order =>
          simp only [amounts_append, amounts, Step.amount, tokenAmount_op]
          omega

/-- The steps that the value of a symbol stands for. -/
def Symbol.steps : (symbol : Symbol) → symbol.Value → List Step
  | .program, node | .stmt, node | .declaration, node | .assignment, node | .branch, node
  | .loop, node | .block, node => stmtTrace node
  | .stmts, nodes => stmtsTrace nodes
  | .alternative, node => if node.isAbsent then [] else stmtTrace node
  | .expr, node | .logical, node | .comparison, node | .addition, node
  | .multiplication, node | .signed, node | .negated, node | .value, node => trace node
  | .signs, ops | .marks, ops => [.tally .operators ops.length]

theorem isAbsent_of_derives_block {xs : List TokenKind} {body : Node}
    (h : Derives .block xs body) : body.isAbsent = false := by
  obtain ⟨stmts, -, rfl⟩ := h.hasPhrase
  rfl

theorem isAbsent_of_derives_branch {xs : List TokenKind} {stmt : Node}
    (h : Derives .branch xs stmt) : stmt.isAbsent = false := by
  obtain ⟨cond, body, alt, -, rfl⟩ := h.hasPhrase
  rw [Phrase.Stmt.toNode]
  rfl

theorem amounts_stmtsTrace_append_singleton (field : Counters.Field) (stmts : List Node)
    (stmt : Node) :
    amounts field (stmtsTrace (stmts ++ [stmt])) =
      amounts field (stmtsTrace stmts) + amounts field (stmtTrace stmt) := by
  induction stmts with
  | nil => simp [stmtsTrace, amounts]
  | cons first rest ih =>
      rw [List.cons_append, stmtsTrace, stmtsTrace, amounts_append, amounts_append, ih,
        Int.add_assoc]

/-- The steps of a symbol's value count as much as its tokens. -/
theorem Derives.amounts_eq (field : Counters.Field) {symbol : Symbol} {kinds : List TokenKind}
    {value : symbol.Value} (h : Derives symbol kinds value) :
    amounts field (symbol.steps value) = tokenAmounts field kinds := by
  induction h with
  | program _ ih =>
      simp only [Symbol.steps] at ih ⊢
      rw [stmtTrace, amounts_append, ih]
      simp [Step.amount]
  | programEmpty =>
      simp [Symbol.steps, stmtTrace, stmtsTrace, Step.amount]
  | stmtsMore _ _ ihfront ihlast =>
      simp only [Symbol.steps] at ihfront ihlast ⊢
      rw [amounts_stmtsTrace_append_singleton, ihfront, ihlast, tokenAmounts_append]
  | stmtsOne _ ih =>
      simp only [Symbol.steps] at ih ⊢
      simpa [stmtsTrace] using ih
  | stmtDeclaration _ ih => exact ih
  | stmtAssignment _ ih => exact ih
  | stmtBranch _ ih => exact ih
  | stmtLoop _ ih => exact ih
  | stmtBlock _ ih => exact ih
  | declaration ty name =>
      simp [Symbol.steps, stmtTrace, Node.name?, Step.amount]
  | assignment name _ ih =>
      simp only [Symbol.steps] at ih ⊢
      simp [stmtTrace, Node.name?, amounts, ih, Step.amount]
  | branch _ _ _ ihcond ihbody ihalt =>
      simp only [Symbol.steps] at ihcond ihbody ihalt ⊢
      simp only [stmtTrace, amounts_append, amounts, ihcond, ihbody, ihalt, Step.amount,
        tokenAmounts_append, tokenAmounts_cons, tokenAmount_branch, tokenAmount_mark]
      omega
  | alternativeBlock h ih =>
      simp only [Symbol.steps] at ih ⊢
      simpa [isAbsent_of_derives_block h] using ih
  | alternativeBranch h ih =>
      simp only [Symbol.steps] at ih ⊢
      simpa [isAbsent_of_derives_branch h] using ih
  | alternativeEmpty => rfl
  | loop _ _ ihcond ihbody =>
      simp only [Symbol.steps] at ihcond ihbody ⊢
      simp only [stmtTrace, amounts_append, amounts, ihcond, ihbody, Step.amount,
        tokenAmounts_append, tokenAmounts_cons, tokenAmount_loop, tokenAmount_mark]
      omega
  | block _ ih =>
      simp only [Symbol.steps] at ih ⊢
      simp [stmtTrace, ih]
  | blockEmpty => simp [Symbol.steps, stmtTrace, stmtsTrace, amounts]
  | expr _ ih => exact ih
  | logicalMore op _ _ ihfirst ihlast =>
      simp only [Symbol.steps, trace] at ihfirst ihlast ⊢
      rw [amounts_chain_append_singleton field _ _ _ (.logic op), ihfirst, ihlast]
      simp
  | logicalOne _ ih =>
      simp only [Symbol.steps, trace] at ih ⊢
      rw [amounts_chain_singleton, ih]
  | comparisonBinary op _ _ ihleft ihright =>
      simp only [Symbol.steps] at ihleft ihright ⊢
      rw [amounts_comparison, ihleft, ihright]
      simp
  | comparisonOne _ ih =>
      simp only [Symbol.steps, trace] at ih ⊢
      exact ih
  | additionMore op _ _ ihfirst ihlast =>
      simp only [Symbol.steps, trace] at ihfirst ihlast ⊢
      rw [amounts_chain_append_singleton field _ _ _ (.sum op), ihfirst, ihlast]
      simp
  | additionOne _ ih =>
      simp only [Symbol.steps, trace] at ih ⊢
      rw [amounts_chain_singleton, ih]
  | multiplicationMore op _ _ ihfirst ihlast =>
      simp only [Symbol.steps, trace] at ihfirst ihlast ⊢
      rw [amounts_chain_append_singleton field _ _ _ (.product op), ihfirst, ihlast]
      simp
  | multiplicationOne _ ih =>
      simp only [Symbol.steps, trace] at ih ⊢
      rw [amounts_chain_singleton, ih]
  | signedSigns _ _ ihsigns ihlast =>
      simp only [Symbol.steps, trace, amounts_singleton] at ihsigns ihlast ⊢
      rw [amounts_checked, ihsigns, ihlast, tokenAmounts_append]
  | signedPlain _ ih =>
      simp only [Symbol.steps, trace] at ih ⊢
      rw [amounts_checked, ih]
      simp [Step.amount]
  | signsMore op _ ih =>
      simp only [Symbol.steps, amounts_singleton] at ih ⊢
      rw [amount_tally_append_singleton field _ (.sum op), ih]
      simp
  | signsOne op => simp [Symbol.steps, Step.amount]
  | negatedMarks _ _ ihmarks ihlast =>
      simp only [Symbol.steps, trace, amounts_singleton] at ihmarks ihlast ⊢
      rw [amounts_checked, ihmarks, ihlast, tokenAmounts_append]
  | negatedPlain _ ih =>
      simp only [Symbol.steps, trace] at ih ⊢
      rw [amounts_checked, ih]
      simp [Step.amount]
  | marksMore _ ih =>
      simp only [Symbol.steps, amounts_singleton] at ih ⊢
      rw [amount_tally_append_singleton field _ .not, ih]
      simp
  | marksOne => simp [Symbol.steps, Step.amount]
  | valueIdent name => simp [Symbol.steps, trace, Step.amount]
  | valueInt value => simp [Symbol.steps, trace, amounts]
  | valueTruth value => simp [Symbol.steps, trace, amounts]
  | valueParen _ ih =>
      simp only [Symbol.steps, trace] at ih ⊢
      simp [ih]

end Grammar

namespace Check

theorem check_eq_of_checker_ok {checker after : Checker} {tree : Node} {counters : Counters}
    (h : checker.check tree = (.ok counters, after)) :
    AllHold (stmtTrace tree) ∧ counters = countersOf (stmtTrace tree) := by
  have hresult : (check tree).result = .ok counters := congrArg Prod.fst h
  have hholds : AllHold (stmtTrace tree) := by
    apply check_failure_eq_none_iff.mp
    cases hfailure : (check tree).failure with
    | none => rfl
    | some failure => simp [Outcome.result, hfailure] at hresult
  rw [check_eq_of_allHold hholds] at hresult
  exact ⟨hholds, by rw [← contextOf_counters, ← Except.ok.inj hresult]⟩

theorem countersOf_of_parse {source : String} {program : Phrase.Program}
    (h : Phrase.parse source = .ok program) :
    countersOf (stmtTrace program.toNode) = (Token.scan source).statistics := by
  have hfield : ∀ field : Counters.Field,
      amounts field (stmtTrace program.toNode) = (Token.scan source).count field := by
    intro field
    have htokens : program.tokens = (Token.scan source).kinds := (Phrase.parse_eq_ok_iff.mp h).2
    have hderives := program.derives.amounts_eq field
    rw [htokens, Grammar.tokenAmounts_eq_countP, Token.Scan.kinds, List.countP_map] at hderives
    exact hderives
  rw [countersOf, Token.Scan.statistics, hfield, hfield, hfield, hfield]

/-- The counts of a text that is parsed and checked are those of its tokens: words that
declare a variable, words that open a loop, words that open a branch, and operators. -/
theorem counters_eq_statistics {source : String} {program : Phrase.Program}
    {checker after : Checker} {counters : Counters}
    (hparse : Phrase.parse source = .ok program)
    (hcheck : checker.check program.toNode = (.ok counters, after)) :
    counters = (Token.scan source).statistics := by
  rw [(check_eq_of_checker_ok hcheck).2, countersOf_of_parse hparse]

/-- A text with two branches, one of them an alternative to the other. -/
def countedText : String :=
  "bool b; while (!b) \x7b if (1 + -2 < 3) \x7b \x7d else if (b) \x7b \x7d \x7d"

/-- The program of `countedText`. -/
def countedProgram : Phrase.Program where
  stmts := [.declare .bool "b",
    .loop (.single (.single (.single (.single (.mk [] (.mk 1 (.ident "b")))))))
      [.branch (.single (.binary
          (.chain (.single (.single (.mk [] (.mk 0 (.int 1))))) .plus
            (.single (.mk [.minus] (.mk 0 (.int 2))))) .lt
          (.single (.single (.mk [] (.mk 0 (.int 3)))))))
        [] (.branch (.single (.single (.single (.single (.mk [] (.mk 0 (.ident "b")))))))
          [] .absent)]]

theorem counters_eq_statistics_countedText :
    Phrase.parse countedText = .ok countedProgram ∧
      (Checker.check {} countedProgram.toNode).1 = .ok ⟨1, 1, 2, 4⟩ ∧
      (⟨1, 1, 2, 4⟩ : Counters) = (Token.scan countedText).statistics := by
  have hparse : Phrase.parse countedText = .ok countedProgram :=
    Phrase.parse_eq_ok_iff.mpr ⟨by decide +kernel, by decide +kernel⟩
  have hcheck : NumBool.check countedProgram.toNode =
      ⟨none, contextOf (stmtTrace countedProgram.toNode)⟩ :=
    check_eq_of_allHold (allHold_iff.mpr (by decide +kernel))
  have hcounters : (contextOf (stmtTrace countedProgram.toNode)).counters = ⟨1, 1, 2, 4⟩ := by
    decide +kernel
  have hresult : (Checker.check {} countedProgram.toNode).1 = .ok ⟨1, 1, 2, 4⟩ := by
    simp only [Checker.check, hcheck, Outcome.result, hcounters]
  exact ⟨hparse, hresult, counters_eq_statistics hparse (Prod.ext hresult rfl)⟩

end Check

end NumBool
