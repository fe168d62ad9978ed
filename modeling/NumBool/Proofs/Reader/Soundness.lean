import NumBool.Phrase.Parse
import NumBool.Phrase.Tokens

/-!
# What the reader has read

A state of the reader determines the tokens that lead to it: the statements of every
open body, the words before every open brace, and the unfinished expression are all
kept.  `State.tokens` writes them out again.  Every step adds its token at the end
(`State.tokens_of_step?`), so a run that reads some tokens ends in a state with
exactly these tokens, and a program that is finished there is written with them.
-/

namespace NumBool.Phrase

/-- The tokens of one arm. -/
def Arm.tokens (arm : Arm) : List TokenKind :=
  .keyword .branch :: (conditionTokens arm.cond ++ braced (stmtsTokens arm.body))

/-- The tokens of some arms, the nearest first, each with the word that opens the next
alternative. -/
def armsTokens : List Arm → List TokenKind
  | [] => []
  | arm :: earlier => armsTokens earlier ++ (arm.tokens ++ [.keyword .otherwise])

theorem branchOf_tokens (last : Arm) (earlier : List Arm) (alt : Alternative) :
    (branchOf last earlier alt).tokens = armsTokens earlier ++ (last.tokens ++ alt.tokens) := by
  induction earlier generalizing last alt with
  | nil => simp [branchOf, armsTokens, Arm.tokens, Stmt.tokens]
  | cons arm earlier ih =>
      rw [branchOf, ih, Alternative.tokens]
      simp [armsTokens, Arm.tokens]

/-- The tokens before a condition. -/
def Head.tokens : Head → List TokenKind
  | .branch earlier => armsTokens earlier ++ [.keyword .branch]
  | .loop => [.keyword .loop]

/-- The tokens before an expression. -/
def Goal.tokens : Goal → List TokenKind
  | .assign name => [.ident name, .mark .assign]
  | .condition head => head.tokens ++ [.mark .openParen]

/-- The tokens of a part that ends with an operator, if there is one. -/
def pendingTokens {α β : Type} (tokens : α → List TokenKind) (op : β → Op) :
    Option (α × β) → List TokenKind
  | none => []
  | some (first, last) => tokens first ++ [.op (op last)]

/-- The tokens of an expression up to an awaited operand. -/
def Awaiting.tokens (a : Awaiting) : List TokenKind :=
  pendingTokens Logical.tokens .logic a.logical ++
    (pendingTokens Addition.tokens .compare a.comparison ++
      (pendingTokens Addition.tokens .sum a.addition ++
        (pendingTokens Multiplication.tokens .product a.multiplication ++
          (a.signs.map (fun op => .op (.sum op)) ++ List.replicate a.marks (.op .not)))))

/-- The tokens of an expression up to the end of an operand. -/
def Supplied.tokens (s : Supplied) : List TokenKind :=
  pendingTokens Logical.tokens .logic s.logical ++
    (pendingTokens Addition.tokens .compare s.comparison ++
      (pendingTokens Addition.tokens .sum s.addition ++ s.multiplication.tokens))

theorem Awaiting.tokens_supply (a : Awaiting) (atom : Atom) :
    (a.supply atom).tokens = a.tokens ++ atom.tokens := by
  cases h : a.multiplication with
  | none =>
      simp [supply, h, tokens, Supplied.tokens, pendingTokens, Multiplication.tokens,
        Signed.tokens, Negation.tokens]
  | some part =>
      obtain ⟨first, op⟩ := part
      simp [supply, h, tokens, Supplied.tokens, pendingTokens, Multiplication.tokens,
        Signed.tokens, Negation.tokens]

theorem Awaiting.tokens_of_sign? {a b : Awaiting} {op : SumOp} (h : a.sign? op = some b) :
    b.tokens = a.tokens ++ [.op (.sum op)] := by
  rw [sign?] at h
  split at h
  · next hmarks =>
      obtain rfl := Option.some.inj h
      simp [tokens, hmarks]
  · simp at h

theorem Awaiting.tokens_mark (a : Awaiting) : a.mark.tokens = a.tokens ++ [.op .not] := by
  simp [mark, tokens, List.replicate_succ']

theorem Supplied.tokens_toAddition (s : Supplied) :
    s.toAddition.tokens =
      pendingTokens Addition.tokens .sum s.addition ++ s.multiplication.tokens := by
  cases h : s.addition with
  | none => simp [toAddition, h, Addition.tokens, pendingTokens]
  | some part => simp [toAddition, h, Addition.tokens, pendingTokens]

theorem Supplied.tokens_toComparison (s : Supplied) :
    s.toComparison.tokens =
      pendingTokens Addition.tokens .compare s.comparison ++ s.toAddition.tokens := by
  cases h : s.comparison with
  | none => simp [toComparison, h, Comparison.tokens, pendingTokens]
  | some part => simp [toComparison, h, Comparison.tokens, pendingTokens]

theorem Supplied.tokens_toLogical (s : Supplied) : s.toLogical.tokens = s.tokens := by
  have h : s.toLogical.tokens =
      pendingTokens Logical.tokens .logic s.logical ++ s.toComparison.tokens := by
    cases h : s.logical with
    | none => simp [toLogical, h, Logical.tokens, pendingTokens]
    | some part => simp [toLogical, h, Logical.tokens, pendingTokens]
  rw [h, tokens_toComparison, tokens_toAddition, tokens]

theorem Supplied.tokens_of_continue? {s : Supplied} {op : Op} {a : Awaiting}
    (h : s.continue? op = some a) : a.tokens = s.tokens ++ [.op op] := by
  cases op with
  | logic op =>
      obtain rfl := Option.some.inj h
      simp [Awaiting.tokens, pendingTokens, tokens_toLogical]
  | compare op =>
      cases hc : s.comparison with
      | none =>
          rw [continue?, hc] at h
          obtain rfl := Option.some.inj h
          simp [Awaiting.tokens, tokens, pendingTokens, hc, tokens_toAddition]
      | some part => simp [continue?, hc] at h
  | sum op =>
      obtain rfl := Option.some.inj h
      simp [Awaiting.tokens, tokens, pendingTokens, tokens_toAddition]
  | product op =>
      obtain rfl := Option.some.inj h
      simp [Awaiting.tokens, tokens, pendingTokens]
  | not => simp [continue?] at h

/-- The tokens of the surroundings of an expression, up to its innermost open
parenthesis. -/
def outerTokens : List Awaiting → List TokenKind
  | [] => []
  | a :: outer => outerTokens outer ++ (a.tokens ++ [.mark .openParen])

/-- The tokens of an unfinished statement. -/
def Mode.tokens : Mode → List TokenKind
  | .statement => []
  | .declareName ty => [.keyword (.type ty)]
  | .declareEnd ty name => [.keyword (.type ty), .ident name]
  | .assignMark name => [.ident name]
  | .conditionOpen head => head.tokens
  | .operand goal outer inner => goal.tokens ++ (outerTokens outer ++ inner.tokens)
  | .operator goal outer inner => goal.tokens ++ (outerTokens outer ++ inner.tokens)
  | .bodyOpen head cond => head.tokens ++ conditionTokens cond
  | .afterArm last earlier => armsTokens earlier ++ last.tokens
  | .alternative last earlier => armsTokens (last :: earlier)

/-- The tokens of a statement before the brace that opens a body of it. -/
def Role.tokens : Role → List TokenKind
  | .block => []
  | .loop cond => .keyword .loop :: conditionTokens cond
  | .arm cond earlier => armsTokens earlier ++ .keyword .branch :: conditionTokens cond
  | .alternative last earlier => armsTokens (last :: earlier)

/-- The tokens up to and with the innermost open brace. -/
def framesTokens : List Frame → List TokenKind
  | [] => []
  | frame :: frames =>
      framesTokens frames ++
        (stmtsTokens frame.before.reverse ++ (frame.role.tokens ++ [.mark .openBrace]))

namespace State

/-- The tokens that lead to a state. -/
def tokens (s : State) : List TokenKind :=
  framesTokens s.frames ++ (stmtsTokens s.before.reverse ++ s.mode.tokens)

@[simp] theorem tokens_start : start.tokens = [] := by
  simp [start, tokens, framesTokens, Mode.tokens]

theorem tokens_add (s : State) (stmt : Stmt) :
    (s.add stmt).tokens =
      framesTokens s.frames ++ (stmtsTokens s.before.reverse ++ stmt.tokens) := by
  simp [add, tokens, Mode.tokens]

theorem tokens_openBody (s : State) (role : Role) :
    (s.openBody role).tokens =
      framesTokens s.frames ++
        (stmtsTokens s.before.reverse ++ (role.tokens ++ [.mark .openBrace])) := by
  simp [openBody, tokens, framesTokens, Mode.tokens]

theorem tokens_of_closeBody? {s next : State} (hmode : s.mode = .statement)
    (h : s.closeBody? = some next) : next.tokens = s.tokens ++ [.mark .closeBrace] := by
  obtain ⟨frames, before, mode⟩ := s
  subst hmode
  cases frames with
  | nil => simp [closeBody?] at h
  | cons frame frames =>
      obtain ⟨role, outer⟩ := frame
      cases role with
      | block =>
          obtain rfl := Option.some.inj h
          rw [tokens_add]
          simp [tokens, framesTokens, Role.tokens, Mode.tokens, Stmt.tokens, braced]
      | loop cond =>
          obtain rfl := Option.some.inj h
          rw [tokens_add]
          simp [tokens, framesTokens, Role.tokens, Mode.tokens, Stmt.tokens, braced]
      | arm cond earlier =>
          obtain rfl := Option.some.inj h
          simp [tokens, framesTokens, Role.tokens, Mode.tokens, Arm.tokens, braced]
      | alternative last earlier =>
          obtain rfl := Option.some.inj h
          rw [tokens_add, branchOf_tokens]
          simp [tokens, framesTokens, Role.tokens, Mode.tokens, armsTokens, Alternative.tokens,
            braced]

theorem tokens_of_startStatement? {s next : State} {kind : TokenKind}
    (hmode : s.mode = .statement) (h : s.startStatement? kind = some next) :
    next.tokens = s.tokens ++ [kind] := by
  unfold startStatement? at h
  split at h
  · obtain rfl := Option.some.inj h
    simp [tokens, hmode, Mode.tokens]
  · obtain rfl := Option.some.inj h
    simp [tokens, hmode, Mode.tokens]
  · obtain rfl := Option.some.inj h
    simp [tokens, hmode, Mode.tokens, Head.tokens, armsTokens]
  · obtain rfl := Option.some.inj h
    simp [tokens, hmode, Mode.tokens, Head.tokens]
  · obtain rfl := Option.some.inj h
    rw [tokens_openBody]
    simp [tokens, hmode, Mode.tokens, Role.tokens]
  · exact tokens_of_closeBody? hmode h
  · simp at h

theorem tokens_of_operand? {s next : State} {goal : Goal} {outer : List Awaiting}
    {inner : Awaiting} {kind : TokenKind} (hmode : s.mode = .operand goal outer inner)
    (h : s.operand? goal outer inner kind = some next) : next.tokens = s.tokens ++ [kind] := by
  unfold operand? at h
  split at h
  · obtain rfl := Option.some.inj h
    simp [tokens, hmode, Mode.tokens, Awaiting.tokens_supply, Atom.tokens]
  · obtain rfl := Option.some.inj h
    simp [tokens, hmode, Mode.tokens, Awaiting.tokens_supply, Atom.tokens]
  · obtain rfl := Option.some.inj h
    simp [tokens, hmode, Mode.tokens, Awaiting.tokens_supply, Atom.tokens]
  · obtain rfl := Option.some.inj h
    simp [tokens, hmode, Mode.tokens, outerTokens, Awaiting.tokens, pendingTokens]
  · obtain ⟨signed, hsign, rfl⟩ := Option.map_eq_some_iff.mp h
    simp [tokens, hmode, Mode.tokens, Awaiting.tokens_of_sign? hsign]
  · obtain rfl := Option.some.inj h
    simp [tokens, hmode, Mode.tokens, Awaiting.tokens_mark]
  · simp at h

theorem tokens_of_operator? {s next : State} {goal : Goal} {outer : List Awaiting}
    {inner : Supplied} {kind : TokenKind} (hmode : s.mode = .operator goal outer inner)
    (h : s.operator? goal outer inner kind = some next) : next.tokens = s.tokens ++ [kind] := by
  unfold operator? at h
  split at h
  · obtain ⟨awaiting, hcontinue, rfl⟩ := Option.map_eq_some_iff.mp h
    simp [tokens, hmode, Mode.tokens, Supplied.tokens_of_continue? hcontinue]
  · split at h
    · obtain rfl := Option.some.inj h
      simp [tokens, hmode, Mode.tokens, outerTokens, Awaiting.tokens_supply, Atom.tokens,
        Supplied.tokens_toLogical]
    · obtain rfl := Option.some.inj h
      simp [tokens, hmode, Mode.tokens, outerTokens, Goal.tokens, conditionTokens,
        Supplied.tokens_toLogical]
    · simp at h
  · split at h
    · obtain rfl := Option.some.inj h
      rw [tokens_add]
      simp [tokens, hmode, Mode.tokens, outerTokens, Goal.tokens, Stmt.tokens,
        Supplied.tokens_toLogical]
    · simp at h
  · simp at h

/-- Every step adds its token to those that lead to the state. -/
theorem tokens_of_step? {s next : State} {kind : TokenKind} (h : s.step? kind = some next) :
    next.tokens = s.tokens ++ [kind] := by
  unfold step? at h
  split at h
  · next hmode => exact tokens_of_startStatement? hmode h
  · next ty hmode =>
      split at h
      · obtain rfl := Option.some.inj h
        simp [tokens, hmode, Mode.tokens]
      · simp at h
  · next ty name hmode =>
      obtain ⟨rfl, hnext⟩ := Option.ite_none_right_eq_some.mp h
      obtain rfl := Option.some.inj hnext
      rw [tokens_add]
      simp [tokens, hmode, Mode.tokens, Stmt.tokens]
  · next name hmode =>
      obtain ⟨rfl, hnext⟩ := Option.ite_none_right_eq_some.mp h
      obtain rfl := Option.some.inj hnext
      simp [tokens, hmode, Mode.tokens, Goal.tokens, outerTokens, Awaiting.tokens, pendingTokens]
  · next head hmode =>
      obtain ⟨rfl, hnext⟩ := Option.ite_none_right_eq_some.mp h
      obtain rfl := Option.some.inj hnext
      simp [tokens, hmode, Mode.tokens, Goal.tokens, outerTokens, Awaiting.tokens, pendingTokens]
  · next goal outer inner hmode => exact tokens_of_operand? hmode h
  · next goal outer inner hmode => exact tokens_of_operator? hmode h
  · next head cond hmode =>
      obtain ⟨rfl, hnext⟩ := Option.ite_none_right_eq_some.mp h
      obtain rfl := Option.some.inj hnext
      rw [tokens_openBody]
      cases head with
      | branch earlier => simp [tokens, hmode, Mode.tokens, Head.tokens, roleOf, Role.tokens]
      | loop => simp [tokens, hmode, Mode.tokens, Head.tokens, roleOf, Role.tokens]
  · next last earlier hmode =>
      split at h
      · next hkind =>
          obtain rfl := Option.some.inj h
          simp [tokens, hmode, hkind, Mode.tokens, armsTokens]
      · rw [tokens_of_startStatement? rfl h, tokens_add, branchOf_tokens]
        simp [tokens, hmode, Mode.tokens, Alternative.tokens]
  · next last earlier hmode =>
      split at h
      · next hkind =>
          obtain rfl := Option.some.inj h
          simp [tokens, hmode, hkind, Mode.tokens, Head.tokens]
      · obtain ⟨rfl, hnext⟩ := Option.ite_none_right_eq_some.mp h
        obtain rfl := Option.some.inj hnext
        rw [tokens_openBody]
        simp [tokens, hmode, Mode.tokens, Role.tokens]

/-- A program that ends in a state is written with the tokens that lead there. -/
theorem tokens_of_finish? {s : State} {program : Program} (h : s.finish? = some program) :
    program.tokens = s.tokens := by
  unfold finish? at h
  split at h
  · next hframes hmode =>
      obtain rfl := Option.some.inj h
      simp [Program.tokens, tokens, hframes, hmode, framesTokens, Mode.tokens]
  · next last earlier hframes hmode =>
      obtain rfl := Option.some.inj h
      simp [Program.tokens, tokens, hframes, hmode, framesTokens, Mode.tokens, branchOf_tokens,
        Alternative.tokens]
  · simp at h

/-- The state after some tokens, unless one of them is refused. -/
def read? (s : State) (kinds : List TokenKind) : Option State :=
  kinds.foldlM step? s

@[simp] theorem read?_nil (s : State) : s.read? [] = some s := rfl

theorem read?_cons (s : State) (kind : TokenKind) (kinds : List TokenKind) :
    s.read? (kind :: kinds) = (s.step? kind).bind fun next => next.read? kinds := by
  simp [read?, List.foldlM_cons]

theorem read?_append (s : State) (xs ys : List TokenKind) :
    s.read? (xs ++ ys) = (s.read? xs).bind fun next => next.read? ys := by
  simp [read?, List.foldlM_append]

/-- A run adds the tokens that it reads to those that lead to the state. -/
theorem tokens_of_read? {s last : State} {kinds : List TokenKind}
    (h : s.read? kinds = some last) : last.tokens = s.tokens ++ kinds := by
  induction kinds generalizing s with
  | nil =>
      obtain rfl := Option.some.inj h
      simp
  | cons kind kinds ih =>
      rw [read?_cons] at h
      obtain ⟨next, hstep, hrest⟩ := Option.bind_eq_some_iff.mp h
      rw [ih hrest, tokens_of_step? hstep]
      simp

end State

end NumBool.Phrase
