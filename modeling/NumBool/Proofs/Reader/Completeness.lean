import NumBool.Proofs.Reader.Soundness

/-!
# The reader reads every phrase

`Reads kinds a s` says that the tokens `kinds` take an expression from the awaited
operand `a` to the supplied operand `s`, wherever the expression stands.  An
expression of a level is read from an awaited operand that has nothing pending at
that level or below, and what has been supplied at the end reaches up to that level.

A branch without an alternative is complete before the reader knows it: it waits for
the word that opens an alternative, and any other token settles it.  So statements
are followed up to `State.settle`, and a settled state accepts every token that does
not open an alternative in the same way.
-/

namespace NumBool.Phrase

/-- The operand that was awaited has been read with its signs and negation marks. -/
def Awaiting.supplySigned (a : Awaiting) (operand : Signed) : Supplied where
  logical := a.logical
  comparison := a.comparison
  addition := a.addition
  multiplication :=
    match a.multiplication with
    | none => .single operand
    | some (first, op) => .chain first op operand

theorem Awaiting.supply_eq_supplySigned (a : Awaiting) (atom : Atom) :
    a.supply atom = a.supplySigned (.mk a.signs (.mk a.marks atom)) := rfl

/-- The tokens `kinds` supply what `a` awaits, with the result `s`. -/
def Reads (kinds : List TokenKind) (a : Awaiting) (s : Supplied) : Prop :=
  ∀ (frames : List Frame) (before : List Stmt) (goal : Goal) (outer : List Awaiting),
    State.read? ⟨frames, before, .operand goal outer a⟩ kinds =
      some ⟨frames, before, .operator goal outer s⟩

namespace Reads

theorem ident (name : String) (a : Awaiting) :
    Reads [.ident name] a (a.supply (.ident name)) := by
  intro frames before goal outer
  rfl

theorem int (value : Nat) (a : Awaiting) : Reads [.int value] a (a.supply (.int value)) := by
  intro frames before goal outer
  rfl

theorem truth (value : Bool) (a : Awaiting) :
    Reads [.keyword (.truth value)] a (a.supply (.truth value)) := by
  intro frames before goal outer
  rfl

/-- Inside a parenthesis an expression starts afresh. -/
theorem paren {kinds : List TokenKind} {s : Supplied} (h : Reads kinds {} s) (a : Awaiting) :
    Reads (.mark .openParen :: (kinds ++ [.mark .closeParen])) a
      (a.supply (.paren s.toLogical)) := by
  intro frames before goal outer
  rw [State.read?_cons]
  change State.read? ⟨frames, before, .operand goal (a :: outer) {}⟩ _ = _
  rw [State.read?_append, h]
  rfl

theorem sign {kinds : List TokenKind} {a : Awaiting} {s : Supplied} {op : SumOp}
    (hmarks : a.marks = 0) (h : Reads kinds { a with signs := a.signs ++ [op] } s) :
    Reads (.op (.sum op) :: kinds) a s := by
  intro frames before goal outer
  have hstep : State.step? ⟨frames, before, .operand goal outer a⟩ (.op (.sum op)) =
      some ⟨frames, before, .operand goal outer { a with signs := a.signs ++ [op] }⟩ := by
    simp [State.step?, State.operand?, Awaiting.sign?, hmarks]
  rw [State.read?_cons, hstep]
  exact h frames before goal outer

theorem signs {kinds : List TokenKind} {a : Awaiting} {s : Supplied} (hmarks : a.marks = 0)
    (ops : List SumOp) (h : Reads kinds { a with signs := a.signs ++ ops } s) :
    Reads (ops.map (fun op => .op (.sum op)) ++ kinds) a s := by
  induction ops generalizing a with
  | nil => simpa using h
  | cons op ops ih => exact sign hmarks (ih hmarks (by simpa using h))

theorem mark {kinds : List TokenKind} {a : Awaiting} {s : Supplied}
    (h : Reads kinds a.mark s) : Reads (.op .not :: kinds) a s := by
  intro frames before goal outer
  rw [State.read?_cons]
  exact h frames before goal outer

theorem marks {kinds : List TokenKind} {a : Awaiting} {s : Supplied} (n : Nat)
    (h : Reads kinds { a with marks := a.marks + n } s) :
    Reads (List.replicate n (.op .not) ++ kinds) a s := by
  induction n generalizing a with
  | zero => simpa using h
  | succ n ih =>
      refine mark (ih ?_)
      simpa [Awaiting.mark, Nat.add_assoc, Nat.add_comm 1 n] using h

/-- An operator leads from a supplied operand to the next one that is awaited. -/
theorem chain {xs ys : List TokenKind} {a b : Awaiting} {s t : Supplied} {op : Op}
    (hfirst : Reads xs a s) (hop : s.continue? op = some b) (hlast : Reads ys b t) :
    Reads (xs ++ .op op :: ys) a t := by
  intro frames before goal outer
  have hstep : State.step? ⟨frames, before, .operator goal outer s⟩ (.op op) =
      some ⟨frames, before, .operand goal outer b⟩ := by
    simp [State.step?, State.operator?, hop]
  rw [State.read?_append, hfirst, Option.bind_some, State.read?_cons, hstep]
  exact hlast frames before goal outer

end Reads

mutual

/-- A logical phrase is read from the start of an expression. -/
theorem Logical.reads : ∀ e : Logical, ∃ s : Supplied, s.toLogical = e ∧ Reads e.tokens {} s
  | .single only => by
      obtain ⟨s, hlogical, honly, hreads⟩ := only.reads none
      refine ⟨s, by simp [Supplied.toLogical, hlogical, honly], ?_⟩
      rw [Logical.tokens]
      exact hreads
  | .chain first op last => by
      obtain ⟨s, hs, hfirst⟩ := first.reads
      obtain ⟨t, hlogical, hlast, hreads⟩ := last.reads (some (first, op))
      refine ⟨t, by simp [Supplied.toLogical, hlogical, hlast], ?_⟩
      rw [Logical.tokens]
      exact hfirst.chain (by simp [Supplied.continue?, hs]) hreads

theorem Comparison.reads : ∀ (e : Comparison) (l : Option (Logical × LogicOp)),
    ∃ s : Supplied, s.logical = l ∧ s.toComparison = e ∧ Reads e.tokens { logical := l } s
  | .single only, l => by
      obtain ⟨s, hlogical, hcomparison, honly, hreads⟩ := only.reads l none
      refine ⟨s, hlogical, by simp [Supplied.toComparison, hcomparison, honly], ?_⟩
      rw [Comparison.tokens]
      exact hreads
  | .binary left op right, l => by
      obtain ⟨s, hslogical, hscomparison, hleft, hfirst⟩ := left.reads l none
      obtain ⟨t, hlogical, hcomparison, hright, hreads⟩ := right.reads l (some (left, op))
      refine ⟨t, hlogical, by simp [Supplied.toComparison, hcomparison, hright], ?_⟩
      rw [Comparison.tokens]
      refine hfirst.chain ?_ hreads
      simp [Supplied.continue?, hscomparison, hslogical, hleft]

theorem Addition.reads : ∀ (e : Addition) (l : Option (Logical × LogicOp))
    (c : Option (Addition × CompareOp)),
    ∃ s : Supplied, s.logical = l ∧ s.comparison = c ∧ s.toAddition = e ∧
      Reads e.tokens { logical := l, comparison := c } s
  | .single only, l, c => by
      refine ⟨⟨l, c, none, only⟩, rfl, rfl, rfl, ?_⟩
      rw [Addition.tokens]
      exact only.reads l c none
  | .chain first op last, l, c => by
      obtain ⟨s, hlogical, hcomparison, hs, hfirst⟩ := first.reads l c
      refine ⟨⟨l, c, some (first, op), last⟩, rfl, rfl, rfl, ?_⟩
      rw [Addition.tokens]
      refine hfirst.chain ?_ (last.reads l c (some (first, op)))
      simp [Supplied.continue?, hlogical, hcomparison, hs]

theorem Multiplication.reads : ∀ (e : Multiplication) (l : Option (Logical × LogicOp))
    (c : Option (Addition × CompareOp)) (d : Option (Addition × SumOp)),
    Reads e.tokens { logical := l, comparison := c, addition := d } ⟨l, c, d, e⟩
  | .single only, l, c, d => by
      rw [Multiplication.tokens]
      exact only.reads { logical := l, comparison := c, addition := d } rfl rfl
  | .chain first op last, l, c, d => by
      rw [Multiplication.tokens]
      refine (first.reads l c d).chain rfl ?_
      exact last.reads
        { logical := l, comparison := c, addition := d, multiplication := some (first, op) } rfl rfl

theorem Signed.reads : ∀ (e : Signed) (a : Awaiting), a.signs = [] → a.marks = 0 →
    Reads e.tokens a (a.supplySigned e)
  | .mk signs operand, a, hsigns, hmarks => by
      have h := operand.reads { a with signs := a.signs ++ signs } hmarks
      have hsupply : Awaiting.supplySigned { a with signs := a.signs ++ signs }
          (.mk (a.signs ++ signs) operand) = a.supplySigned (.mk signs operand) := by
        rw [hsigns, List.nil_append]
        rfl
      rw [hsupply] at h
      rw [Signed.tokens]
      exact Reads.signs hmarks signs h

theorem Negation.reads : ∀ (e : Negation) (a : Awaiting), a.marks = 0 →
    Reads e.tokens a (a.supplySigned (.mk a.signs e))
  | .mk marks operand, a, hmarks => by
      have h := operand.reads { a with marks := a.marks + marks }
      rw [Awaiting.supply_eq_supplySigned] at h
      have hsupply : Awaiting.supplySigned { a with marks := a.marks + marks }
          (.mk a.signs (.mk (a.marks + marks) operand)) =
            a.supplySigned (.mk a.signs (.mk marks operand)) := by
        rw [hmarks, Nat.zero_add]
        rfl
      rw [hsupply] at h
      rw [Negation.tokens]
      exact Reads.marks marks h

theorem Atom.reads : ∀ (e : Atom) (a : Awaiting), Reads e.tokens a (a.supply e)
  | .ident name, a => by
      rw [Atom.tokens]
      exact Reads.ident name a
  | .int value, a => by
      rw [Atom.tokens]
      exact Reads.int value a
  | .truth value, a => by
      rw [Atom.tokens]
      exact Reads.truth value a
  | .paren inner, a => by
      obtain ⟨s, hs, hreads⟩ := inner.reads
      have h := hreads.paren a
      rw [hs] at h
      rw [Atom.tokens]
      exact h

end

namespace State

/-- The state in which a branch that waits for an alternative goes without one. -/
def settle (s : State) : State :=
  match s.mode with
  | .afterArm last earlier => s.add (branchOf last earlier .absent)
  | _ => s

theorem finish?_settle (s : State) : s.settle.finish? = s.finish? := by
  obtain ⟨frames, before, mode⟩ := s
  cases mode with
  | afterArm last earlier =>
      cases frames with
      | nil => simp [settle, finish?, add]
      | cons frame frames => simp [settle, finish?, add]
  | _ => rfl

/-- A token that opens no alternative settles the branch before it. -/
theorem step?_settle (s : State) {kind : TokenKind} (hkind : kind ≠ .keyword .otherwise) :
    s.settle.step? kind = s.step? kind := by
  obtain ⟨frames, before, mode⟩ := s
  cases mode with
  | afterArm last earlier => simp [settle, step?, add, hkind]
  | _ => rfl

/-- The state between two statements, once a branch before it is settled. -/
def Between (s : State) (frames : List Frame) (before : List Stmt) : Prop :=
  s.settle = ⟨frames, before, .statement⟩

theorem Between.step? {s : State} {frames : List Frame} {before : List Stmt}
    (h : s.Between frames before) {kind : TokenKind} (hkind : kind ≠ .keyword .otherwise) :
    s.step? kind = State.step? ⟨frames, before, .statement⟩ kind := by
  rw [← step?_settle s hkind, h]

theorem Between.read?_cons {s : State} {frames : List Frame} {before : List Stmt}
    (h : s.Between frames before) {kind : TokenKind} (hkind : kind ≠ .keyword .otherwise)
    (kinds : List TokenKind) :
    s.read? (kind :: kinds) = State.read? ⟨frames, before, .statement⟩ (kind :: kinds) := by
  rw [State.read?_cons, State.read?_cons, h.step? hkind]

theorem Between.finish? {s : State} {before : List Stmt} (h : s.Between [] before) :
    s.finish? = some ⟨before.reverse⟩ := by
  rw [← finish?_settle, h]
  rfl

/-- A condition is read between its parentheses. -/
theorem read?_condition (frames : List Frame) (before : List Stmt) (head : Head)
    (cond : Logical) :
    State.read? ⟨frames, before, .conditionOpen head⟩ (conditionTokens cond) =
      some ⟨frames, before, .bodyOpen head cond⟩ := by
  obtain ⟨s, hs, hreads⟩ := cond.reads
  have hopen : State.step? ⟨frames, before, .conditionOpen head⟩ (.mark .openParen) =
      some ⟨frames, before, .operand (.condition head) [] {}⟩ := rfl
  have hclose : State.step? ⟨frames, before, .operator (.condition head) [] s⟩
      (.mark .closeParen) = some ⟨frames, before, .bodyOpen head s.toLogical⟩ := rfl
  rw [conditionTokens, read?_cons, hopen, Option.bind_some, read?_append, hreads,
    Option.bind_some, read?_cons, hclose, hs]
  rfl

/-- A body is read between its braces, if its statements are read after the first one. -/
theorem read?_braced {s : State} {role : Role} {frames : List Frame} {before : List Stmt}
    {body : List Stmt}
    (hopen : s.step? (.mark .openBrace) = some ⟨⟨role, before⟩ :: frames, [], .statement⟩)
    (hbody : ∃ last, State.read? ⟨⟨role, before⟩ :: frames, [], .statement⟩ (stmtsTokens body) =
      some last ∧ last.Between (⟨role, before⟩ :: frames) (body.reverse ++ [])) :
    s.read? (braced (stmtsTokens body)) =
      closeBody? ⟨⟨role, before⟩ :: frames, body.reverse, .statement⟩ := by
  obtain ⟨last, hread, hlast⟩ := hbody
  rw [List.append_nil] at hlast
  have hclose : last.step? (.mark .closeBrace) =
      closeBody? ⟨⟨role, before⟩ :: frames, body.reverse, .statement⟩ := by
    rw [hlast.step? (by simp)]
    rfl
  rw [braced, read?_cons, hopen, Option.bind_some, read?_append, hread, Option.bind_some,
    read?_cons, hclose]
  simp

end State

theorem Stmt.exists_tokens_eq_cons (stmt : Stmt) :
    ∃ kind kinds, stmt.tokens = kind :: kinds ∧ kind ≠ .keyword .otherwise := by
  cases stmt with
  | declare ty name => exact ⟨_, _, by rw [Stmt.tokens], by simp⟩
  | assign name value => exact ⟨_, _, by rw [Stmt.tokens], by simp⟩
  | branch cond body alt => exact ⟨_, _, by rw [Stmt.tokens], by simp⟩
  | loop cond body => exact ⟨_, _, by rw [Stmt.tokens], by simp⟩
  | block body => exact ⟨_, _, by rw [Stmt.tokens, braced], by simp⟩

mutual

theorem Stmt.read : ∀ (stmt : Stmt) (frames : List Frame) (before : List Stmt),
    ∃ last, State.read? ⟨frames, before, .statement⟩ stmt.tokens = some last ∧
      last.Between frames (stmt :: before)
  | .declare ty name, frames, before => by
      rw [Stmt.tokens]
      exact ⟨_, rfl, rfl⟩
  | .assign name value, frames, before => by
      obtain ⟨s, hs, hreads⟩ := value.reads
      have hname : State.step? ⟨frames, before, .statement⟩ (.ident name) =
          some ⟨frames, before, .assignMark name⟩ := rfl
      have hmark : State.step? ⟨frames, before, .assignMark name⟩ (.mark .assign) =
          some ⟨frames, before, .operand (.assign name) [] {}⟩ := rfl
      have hend : State.step? ⟨frames, before, .operator (.assign name) [] s⟩
          (.mark .semicolon) = some ⟨frames, .assign name s.toLogical :: before, .statement⟩ := rfl
      rw [hs] at hend
      refine ⟨⟨frames, .assign name value :: before, .statement⟩, ?_, rfl⟩
      rw [Stmt.tokens, State.read?_cons, hname, Option.bind_some, State.read?_cons, hmark,
        Option.bind_some, State.read?_append, hreads, Option.bind_some, State.read?_cons, hend]
      rfl
  | .branch cond body alt, frames, before => by
      have hhead : State.step? ⟨frames, before, .statement⟩ (.keyword .branch) =
          some ⟨frames, before, .conditionOpen (.branch [])⟩ := rfl
      have hbody : State.read? ⟨frames, before, .bodyOpen (.branch []) cond⟩
          (braced (stmtsTokens body)) = some ⟨frames, before, .afterArm ⟨cond, body⟩ []⟩ := by
        rw [State.read?_braced rfl (stmts_read body _ _ _ rfl)]
        simp [State.closeBody?, State.roleOf]
      obtain ⟨last, hread, hlast⟩ := alt.read ⟨cond, body⟩ [] frames before
      refine ⟨last, ?_, hlast⟩
      rw [Stmt.tokens, State.read?_cons, hhead, Option.bind_some, List.append_assoc,
        State.read?_append, State.read?_condition, Option.bind_some, State.read?_append, hbody,
        Option.bind_some, hread]
  | .loop cond body, frames, before => by
      have hhead : State.step? ⟨frames, before, .statement⟩ (.keyword .loop) =
          some ⟨frames, before, .conditionOpen .loop⟩ := rfl
      have hbody : State.read? ⟨frames, before, .bodyOpen .loop cond⟩
          (braced (stmtsTokens body)) = some ⟨frames, .loop cond body :: before, .statement⟩ := by
        rw [State.read?_braced rfl (stmts_read body _ _ _ rfl)]
        simp [State.closeBody?, State.roleOf, State.add]
      refine ⟨⟨frames, .loop cond body :: before, .statement⟩, ?_, rfl⟩
      rw [Stmt.tokens, State.read?_cons, hhead, Option.bind_some, State.read?_append,
        State.read?_condition, Option.bind_some, hbody]
  | .block body, frames, before => by
      refine ⟨⟨frames, .block body :: before, .statement⟩, ?_, rfl⟩
      rw [Stmt.tokens, State.read?_braced rfl (stmts_read body _ _ _ rfl)]
      simp [State.closeBody?, State.add]

theorem Alternative.read : ∀ (alt : Alternative) (last : Arm) (earlier : List Arm)
    (frames : List Frame) (before : List Stmt),
    ∃ s, State.read? ⟨frames, before, .afterArm last earlier⟩ alt.tokens = some s ∧
      s.Between frames (branchOf last earlier alt :: before)
  | .absent, last, earlier, frames, before => by
      rw [Alternative.tokens]
      exact ⟨_, rfl, rfl⟩
  | .block body, last, earlier, frames, before => by
      have hword : State.step? ⟨frames, before, .afterArm last earlier⟩ (.keyword .otherwise) =
          some ⟨frames, before, .alternative last earlier⟩ := rfl
      refine ⟨⟨frames, branchOf last earlier (.block body) :: before, .statement⟩, ?_, rfl⟩
      rw [Alternative.tokens, State.read?_cons, hword, Option.bind_some,
        State.read?_braced rfl (stmts_read body _ _ _ rfl)]
      simp [State.closeBody?, State.add]
  | .branch cond body alt, last, earlier, frames, before => by
      have hword : State.step? ⟨frames, before, .afterArm last earlier⟩ (.keyword .otherwise) =
          some ⟨frames, before, .alternative last earlier⟩ := rfl
      have hhead : State.step? ⟨frames, before, .alternative last earlier⟩ (.keyword .branch) =
          some ⟨frames, before, .conditionOpen (.branch (last :: earlier))⟩ := rfl
      have hbody : State.read? ⟨frames, before, .bodyOpen (.branch (last :: earlier)) cond⟩
          (braced (stmtsTokens body)) =
            some ⟨frames, before, .afterArm ⟨cond, body⟩ (last :: earlier)⟩ := by
        rw [State.read?_braced rfl (stmts_read body _ _ _ rfl)]
        simp [State.closeBody?, State.roleOf]
      obtain ⟨s, hread, hs⟩ := alt.read ⟨cond, body⟩ (last :: earlier) frames before
      refine ⟨s, ?_, hs⟩
      rw [Alternative.tokens, State.read?_cons, hword, Option.bind_some, State.read?_cons, hhead,
        Option.bind_some, List.append_assoc, State.read?_append, State.read?_condition,
        Option.bind_some, State.read?_append, hbody, Option.bind_some, hread]

theorem stmts_read : ∀ (stmts : List Stmt) (s : State) (frames : List Frame)
    (before : List Stmt), s.Between frames before →
    ∃ last, s.read? (stmtsTokens stmts) = some last ∧
      last.Between frames (stmts.reverse ++ before)
  | [], s, frames, before, h => by
      rw [stmtsTokens]
      exact ⟨s, rfl, h⟩
  | stmt :: rest, s, frames, before, h => by
      obtain ⟨kind, kinds, htokens, hkind⟩ := stmt.exists_tokens_eq_cons
      obtain ⟨mid, hstmt, hmid⟩ := stmt.read frames before
      obtain ⟨last, hrest, hlast⟩ := stmts_read rest mid frames (stmt :: before) hmid
      have hfirst : s.read? stmt.tokens = some mid := by
        rw [htokens, h.read?_cons hkind, ← htokens, hstmt]
      refine ⟨last, ?_, by simpa using hlast⟩
      rw [stmtsTokens, State.read?_append, hfirst, Option.bind_some, hrest]

end

/-- Reading the tokens of a program gives that program. -/
theorem Program.read (program : Program) :
    (State.start.read? program.tokens).bind State.finish? = some program := by
  obtain ⟨last, hread, hlast⟩ := stmts_read program.stmts State.start [] [] rfl
  rw [List.append_nil] at hlast
  rw [Program.tokens, hread, Option.bind_some, hlast.finish?, List.reverse_reverse]

/-- A program is read from some tokens exactly if it is written with them. -/
theorem read?_bind_finish?_eq_some_iff {kinds : List TokenKind} {program : Program} :
    (State.start.read? kinds).bind State.finish? = some program ↔ program.tokens = kinds := by
  constructor
  · intro h
    obtain ⟨last, hread, hfinish⟩ := Option.bind_eq_some_iff.mp h
    rw [State.tokens_of_finish? hfinish, State.tokens_of_read? hread, State.tokens_start,
      List.nil_append]
  · rintro rfl
    exact program.read

end NumBool.Phrase
