import NumBool.Proofs.Grammar
import NumBool.Proofs.Reader.Completeness

/-!
# Viable token sequences

A sequence of tokens is viable if some program starts with it.  The reader never
holds a state that it cannot leave: from every state some tokens lead to the end of a
program, since open parentheses and braces can be closed one after the other and
every statement that has been started can be ended.  So the tokens that the reader
has taken are viable, and a token is refused only where no program goes on with it.
-/

namespace NumBool.Phrase

namespace State

/-- Some tokens lead from this state to the end of a program. -/
def Completable (s : State) : Prop :=
  ∃ (kinds : List TokenKind) (program : Program), (s.read? kinds).bind finish? = some program

theorem Completable.of_step? {s next : State} (h : next.Completable) (kind : TokenKind)
    (hstep : s.step? kind = some next) : s.Completable := by
  obtain ⟨kinds, program, hread⟩ := h
  refine ⟨kind :: kinds, program, ?_⟩
  rw [read?_cons, hstep, Option.bind_some, hread]

/-- A branch that waits for an alternative can go without one. -/
theorem Completable.of_settle {s : State} (hmode : s.settle.mode = .statement)
    (h : s.settle.Completable) : s.Completable := by
  obtain ⟨kinds, program, hread⟩ := h
  cases kinds with
  | nil =>
      refine ⟨[], program, ?_⟩
      rw [read?_nil, Option.bind_some] at hread ⊢
      rw [← finish?_settle, hread]
  | cons kind kinds =>
      refine ⟨kind :: kinds, program, ?_⟩
      have hkind : kind ≠ .keyword .otherwise := by
        rintro rfl
        simp [read?_cons, step?, hmode, startStatement?] at hread
      rw [read?_cons, step?_settle s hkind] at hread
      rw [read?_cons, hread]

/-- Between two statements all open bodies can be closed. -/
theorem completable_statement (frames : List Frame) :
    ∀ before : List Stmt, Completable ⟨frames, before, .statement⟩ := by
  induction frames with
  | nil =>
      intro before
      exact ⟨[], ⟨before.reverse⟩, rfl⟩
  | cons frame frames ih =>
      intro before
      obtain ⟨role, outer⟩ := frame
      cases role with
      | block => exact (ih _).of_step? (.mark .closeBrace) rfl
      | loop cond => exact (ih _).of_step? (.mark .closeBrace) rfl
      | arm cond earlier =>
          -- the closed arm still waits for an alternative, and goes without one
          have hafter : Completable ⟨frames, outer, .afterArm ⟨cond, before.reverse⟩ earlier⟩ :=
            Completable.of_settle rfl (ih _)
          exact hafter.of_step? (.mark .closeBrace) rfl
      | alternative last earlier => exact (ih _).of_step? (.mark .closeBrace) rfl

/-- A statement that waits for its body can get an empty one. -/
theorem completable_bodyOpen (frames : List Frame) (before : List Stmt) (head : Head)
    (cond : Logical) : Completable ⟨frames, before, .bodyOpen head cond⟩ :=
  (completable_statement _ _).of_step? (.mark .openBrace) rfl

/-- After an operand the open parentheses can be closed from the inside out. -/
theorem completable_operator (frames : List Frame) (before : List Stmt) (goal : Goal)
    (outer : List Awaiting) :
    ∀ inner : Supplied, Completable ⟨frames, before, .operator goal outer inner⟩ := by
  induction outer with
  | nil =>
      intro inner
      cases goal with
      | assign name => exact (completable_statement _ _).of_step? (.mark .semicolon) rfl
      | condition head => exact (completable_bodyOpen _ _ _ _).of_step? (.mark .closeParen) rfl
  | cons around outer ih =>
      intro inner
      exact (ih _).of_step? (.mark .closeParen) rfl

theorem completable_operand (frames : List Frame) (before : List Stmt) (goal : Goal)
    (outer : List Awaiting) (inner : Awaiting) :
    Completable ⟨frames, before, .operand goal outer inner⟩ :=
  (completable_operator _ _ _ _ _).of_step? (.int 0) rfl

theorem completable_conditionOpen (frames : List Frame) (before : List Stmt) (head : Head) :
    Completable ⟨frames, before, .conditionOpen head⟩ :=
  (completable_operand _ _ _ _ _).of_step? (.mark .openParen) rfl

theorem completable_declareEnd (frames : List Frame) (before : List Stmt) (ty : Ty)
    (name : String) : Completable ⟨frames, before, .declareEnd ty name⟩ :=
  (completable_statement _ _).of_step? (.mark .semicolon) rfl

/-- Every state of the reader can be completed. -/
theorem completable (s : State) : s.Completable := by
  obtain ⟨frames, before, mode⟩ := s
  cases mode with
  | statement => exact completable_statement frames before
  | declareName ty => exact (completable_declareEnd _ _ ty "x").of_step? (.ident "x") rfl
  | declareEnd ty name => exact completable_declareEnd frames before ty name
  | assignMark name => exact (completable_operand _ _ _ _ _).of_step? (.mark .assign) rfl
  | conditionOpen head => exact completable_conditionOpen frames before head
  | operand goal outer inner => exact completable_operand frames before goal outer inner
  | operator goal outer inner => exact completable_operator frames before goal outer inner
  | bodyOpen head cond => exact completable_bodyOpen frames before head cond
  | afterArm last earlier => exact Completable.of_settle rfl (completable_statement _ _)
  | alternative last earlier =>
      exact (completable_statement _ _).of_step? (.mark .openBrace) rfl

end State

end NumBool.Phrase

namespace NumBool.Grammar

open NumBool.Phrase

/-- Some program starts with these tokens. -/
def Viable (kinds : List TokenKind) : Prop :=
  ∃ (rest : List TokenKind) (tree : Node), Derives .program (kinds ++ rest) tree

/-- The viable sequences are those that the reader takes whole. -/
theorem viable_iff_read?_isSome {kinds : List TokenKind} :
    Viable kinds ↔ (State.start.read? kinds).isSome := by
  constructor
  · intro h
    rcases h with ⟨rest, tree, h⟩
    obtain ⟨program, htokens, -⟩ := derives_program_iff.mp h
    have hread := program.read
    rw [htokens, State.read?_append, Option.bind_assoc] at hread
    obtain ⟨s, hs, -⟩ := Option.bind_eq_some_iff.mp hread
    rw [hs]
    rfl
  · intro h
    obtain ⟨s, hs⟩ := Option.isSome_iff_exists.mp h
    obtain ⟨rest, program, hrest⟩ := s.completable
    refine ⟨rest, program.toNode, derives_program_iff.mpr ⟨program, ?_, rfl⟩⟩
    rw [← read?_bind_finish?_eq_some_iff, State.read?_append, hs, Option.bind_some, hrest]

end NumBool.Grammar
