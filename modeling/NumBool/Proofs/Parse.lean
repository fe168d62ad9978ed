import NumBool.Proofs.Reader.Viable

/-!
# What parsing a text gives

The reader works on tokens with their places, the grammar on their kinds alone.  The
two are tied together by `State.run_eq_ok_iff` and `State.run_eq_error_iff`: a run
that succeeds has read the kinds of all tokens, and a run that fails has read those
before the reported token and refuses that one.  The grammar then tells which of the
outcomes of `parse` a text has.
-/

namespace NumBool

/-- The kinds of the tokens before the scanner stopped. -/
def Token.Scan.kinds (scan : Token.Scan) : List TokenKind :=
  scan.tokens.map Token.kind

namespace Phrase

open NumBool.Grammar

namespace State

theorem run_eq_ok_iff {s last : State} {tokens : List Token} :
    s.run tokens = .ok last ↔ s.read? (tokens.map Token.kind) = some last := by
  induction tokens generalizing s with
  | nil => simp
  | cons token rest ih =>
      rw [run_cons, List.map_cons, read?_cons]
      cases h : s.step? token.kind with
      | none => simp
      | some next =>
          rw [Option.bind_some]
          exact ih

theorem run_eq_error_iff {s : State} {tokens : List Token} {token : Token} :
    s.run tokens = .error token ↔
      ∃ (before after : List Token) (mid : State), tokens = before ++ token :: after ∧
        s.read? (before.map Token.kind) = some mid ∧ mid.step? token.kind = none := by
  induction tokens generalizing s with
  | nil => simp
  | cons first rest ih =>
      rw [run_cons]
      cases h : s.step? first.kind with
      | none =>
          constructor
          · intro herror
            obtain rfl := Except.error.inj herror
            exact ⟨[], rest, s, rfl, rfl, h⟩
          · intro h
            rcases h with ⟨before, after, mid, htokens, hread, hstep⟩
            cases before with
            | nil =>
                obtain ⟨rfl, -⟩ := List.cons.inj htokens
                rfl
            | cons kind before =>
                obtain ⟨rfl, -⟩ := List.cons.inj htokens
                rw [List.map_cons, read?_cons, h] at hread
                simp at hread
      | some next =>
          constructor
          · intro herror
            obtain ⟨before, after, mid, rfl, hread, hstep⟩ := ih.mp herror
            refine ⟨first :: before, after, mid, rfl, ?_, hstep⟩
            rw [List.map_cons, read?_cons, h, Option.bind_some, hread]
          · intro h
            rcases h with ⟨before, after, mid, htokens, hread, hstep⟩
            cases before with
            | nil =>
                obtain ⟨rfl, -⟩ := List.cons.inj htokens
                obtain rfl := Option.some.inj hread
                rw [h] at hstep
                simp at hstep
            | cons kind before =>
                obtain ⟨rfl, rfl⟩ := List.cons.inj htokens
                rw [List.map_cons, read?_cons, h, Option.bind_some] at hread
                exact ih.mpr ⟨before, after, mid, rfl, hread, hstep⟩

/-- The reader does not look at the places of tokens. -/
theorem run_map {f : Token → Token} (hf : ∀ token, (f token).kind = token.kind) (s : State)
    (tokens : List Token) : s.run (tokens.map f) = (s.run tokens).mapError f := by
  induction tokens generalizing s with
  | nil => rfl
  | cons token tokens ih =>
      rw [List.map_cons, run_cons, run_cons, hf]
      cases s.step? token.kind with
      | none => rfl
      | some next => exact ih next

end State

/-- Other places of the tokens, and of what stopped the scanner, change a parse by no more than
the places in its error. -/
theorem parseScan_map (f : Token → Token) (g : ParseError → ParseError) {scan other : Token.Scan}
    (hf : ∀ token, (f token).kind = token.kind)
    (hunexpected : ∀ token, g (.unexpected token) = .unexpected (f token))
    (hend : g .unexpectedEnd = .unexpectedEnd) (htokens : other.tokens = scan.tokens.map f)
    (hending : ParseError.ofEnding? other.ending = (ParseError.ofEnding? scan.ending).map g) :
    parseScan other = (parseScan scan).mapError g := by
  rw [parseScan, parseScan, htokens, State.run_map hf, hending]
  cases State.start.run scan.tokens with
  | error token => exact congrArg Except.error (hunexpected token).symm
  | ok last =>
      have hlast : (Except.ok last : Except Token State).mapError f = .ok last := rfl
      rw [hlast]
      cases ParseError.ofEnding? scan.ending with
      | some error => rfl
      | none =>
          simp only [Option.map_none]
          cases last.finish? with
          | none => exact congrArg Except.error hend.symm
          | some program => rfl

theorem viable_nil : Viable [] :=
  viable_iff_read?_isSome.mpr rfl

/-- The tokens before a place are viable if no earlier token breaks viability. -/
theorem viable_take {kinds : List TokenKind} {i : Nat}
    (h : ∀ j < i, Viable (kinds.take (j + 1))) : Viable (kinds.take i) := by
  cases i with
  | zero => exact viable_nil
  | succ i => exact h i (Nat.lt_succ_self i)

/-- The reader refuses the first token after which no program goes on. -/
theorem run_eq_error_of_not_viable {tokens : List Token} {i : Nat} {token : Token}
    (htoken : tokens[i]? = some token)
    (hnot : ¬ Viable ((tokens.map Token.kind).take (i + 1)))
    (hbefore : Viable ((tokens.map Token.kind).take i)) :
    State.start.run tokens = .error token := by
  obtain ⟨hi, rfl⟩ := List.getElem?_eq_some_iff.mp htoken
  obtain ⟨mid, hmid⟩ := Option.isSome_iff_exists.mp (viable_iff_read?_isSome.mp hbefore)
  have hsplit : tokens = tokens.take i ++ tokens[i] :: tokens.drop (i + 1) := by simp
  have htake : (tokens.map Token.kind).take (i + 1) =
      (tokens.map Token.kind).take i ++ [tokens[i].kind] := by
    rw [List.take_succ_eq_append_getElem (by simpa using hi), List.getElem_map]
  have hstep : mid.step? tokens[i].kind = none := by
    rw [viable_iff_read?_isSome, htake, State.read?_append, hmid, Option.bind_some,
      State.read?_cons] at hnot
    cases h : mid.step? tokens[i].kind with
    | none => rfl
    | some next => simp [h] at hnot
  rw [← List.map_take] at hmid
  exact State.run_eq_error_iff.mpr ⟨_, _, mid, hsplit, hmid, hstep⟩

/-- A text holds a program exactly if the scanner reaches its end and the program is
written with its tokens. -/
theorem parse_eq_ok_iff {source : String} {program : Program} :
    parse source = .ok program ↔
      ParseError.ofEnding? (Token.scan source).ending = none ∧
        program.tokens = (Token.scan source).kinds := by
  rw [← read?_bind_finish?_eq_some_iff, Token.Scan.kinds, parse, parseScan]
  cases hrun : State.start.run (Token.scan source).tokens with
  | error token =>
      obtain ⟨before, after, mid, htokens, hread, hstep⟩ := State.run_eq_error_iff.mp hrun
      have hnone : State.start.read? ((Token.scan source).tokens.map Token.kind) = none := by
        rw [htokens, List.map_append, State.read?_append, hread, Option.bind_some,
          List.map_cons, State.read?_cons, hstep, Option.bind_none]
      simp [hnone]
  | ok last =>
      rw [State.run_eq_ok_iff.mp hrun, Option.bind_some]
      cases hending : ParseError.ofEnding? (Token.scan source).ending with
      | some error => simp
      | none =>
          cases hfinish : last.finish? with
          | none => simp [hfinish]
          | some result => simp [hfinish]

/-- Where all tokens are viable, the outcome is what stopped the scanner, or else the
program or the lack of one. -/
theorem parse_eq_of_viable {source : String} (h : Viable (Token.scan source).kinds) :
    (∀ error, ParseError.ofEnding? (Token.scan source).ending = some error →
      parse source = .error error) ∧
    (ParseError.ofEnding? (Token.scan source).ending = none →
      (∃ program : Program, program.tokens = (Token.scan source).kinds ∧
        parse source = .ok program) ∨
      ((¬ ∃ program : Program, program.tokens = (Token.scan source).kinds) ∧
        parse source = .error .unexpectedEnd)) := by
  obtain ⟨last, hlast⟩ := Option.isSome_iff_exists.mp (viable_iff_read?_isSome.mp h)
  have hrun : State.start.run (Token.scan source).tokens = .ok last :=
    State.run_eq_ok_iff.mpr hlast
  constructor
  · intro error herror
    simp [parse, parseScan, hrun, herror]
  · intro hending
    cases hfinish : last.finish? with
    | some program =>
        refine .inl ⟨program, ?_, by simp [parse, parseScan, hrun, hending, hfinish]⟩
        rw [← read?_bind_finish?_eq_some_iff, hlast, Option.bind_some, hfinish]
    | none =>
        refine .inr ⟨?_, by simp [parse, parseScan, hrun, hending, hfinish]⟩
        intro h
        rcases h with ⟨program, htokens⟩
        rw [← read?_bind_finish?_eq_some_iff, hlast, Option.bind_some, hfinish] at htokens
        simp at htokens

/-- Two derivations of the same tokens build the same tree. -/
theorem eq_of_derives_program {kinds : List TokenKind} {t u : Node}
    (ht : Derives .program kinds t) (hu : Derives .program kinds u) : t = u := by
  obtain ⟨p, hp, rfl⟩ := derives_program_iff.mp ht
  obtain ⟨q, hq, rfl⟩ := derives_program_iff.mp hu
  have hread := p.read
  rw [hp, ← hq, q.read] at hread
  rw [Option.some.inj hread]

/-- Parsing is the grammar.  A text that the scanner reads to its end is parsed to a
tree exactly if its tokens derive that tree from the start symbol; and no sequence of
tokens derives two trees. -/
theorem parse_iff_derives_program :
    (∀ (source : String) (line : Nat), (Token.scan source).ending = .finished line →
      ∀ tree : Node, (parse source).map Program.toNode = .ok tree ↔
        Derives .program (Token.scan source).kinds tree) ∧
    ∀ (kinds : List TokenKind) (t u : Node),
      Derives .program kinds t → Derives .program kinds u → t = u := by
  constructor
  · intro source line hscan tree
    have hending : ParseError.ofEnding? (Token.scan source).ending = none := by
      rw [hscan]
      rfl
    rw [derives_program_iff]
    constructor
    · intro h
      cases hparse : parse source with
      | error error =>
          rw [hparse] at h
          simp [Except.map] at h
      | ok program =>
          rw [hparse] at h
          exact ⟨program, (parse_eq_ok_iff.mp hparse).2, Except.ok.inj h⟩
    · intro h
      rcases h with ⟨program, htokens, rfl⟩
      rw [parse_eq_ok_iff.mpr ⟨hending, htokens⟩]
      rfl
  · intro kinds t u
    exact eq_of_derives_program

/-- The tree of a difference whose second operand has a sign. -/
theorem derives_program_of_difference :
    (Token.scan "x = 1 - -y;").ending = .finished 1 ∧
    Derives .program (Token.scan "x = 1 - -y;").kinds
      (.program [.assignment (.identifier "x") (.logical [.comparison (.addition
        [.multiplication [.signed (.negated (.value (.int 1)) []) []] [],
          .multiplication [.signed (.negated (.value (.identifier "y")) []) ["-"]] []] ["-"])
        none .absent] [])]) := by
  have hscan : (Token.scan "x = 1 - -y;").ending = .finished 1 := by decide +kernel
  have hparse : parse "x = 1 - -y;" = .ok ⟨[.assign "x" (.single (.single (.chain
      (.single (.single (.mk [] (.mk 0 (.int 1))))) .minus
      (.single (.mk [.minus] (.mk 0 (.ident "y")))))))]⟩ :=
    parse_eq_ok_iff.mpr ⟨by rw [hscan]; rfl, by decide +kernel⟩
  refine ⟨hscan, (parse_iff_derives_program.1 _ 1 hscan _).mp ?_⟩
  rw [hparse]
  rfl

/-- The outcome of parsing any text.  The first token with which the tokens read so
far are no longer viable is reported with its value, its class and its line, whatever
stops the scanner behind it.  Where all tokens are viable, what stopped the scanner is
reported; at the end of the text the tokens have to derive a program. -/
theorem parse_outcome (source : String) :
    (∀ (i : Nat) (token : Token), (Token.scan source).tokens[i]? = some token →
      ¬ Viable ((Token.scan source).kinds.take (i + 1)) →
      (∀ j < i, Viable ((Token.scan source).kinds.take (j + 1))) →
      parse source = .error (.unexpected token) ∧
        (ParseError.unexpected token).message =
          s!"Syntax error at '{token.kind.text}' (type: {token.kind.label}) on line {token.line}") ∧
    ((∀ i < (Token.scan source).tokens.length,
        Viable ((Token.scan source).kinds.take (i + 1))) →
      (∀ char line, (Token.scan source).ending = .illegal char line →
        parse source = .error (.illegal char line)) ∧
      (∀ digits line, (Token.scan source).ending = .tooManyDigits digits line →
        parse source = .error (.tooManyDigits digits)) ∧
      (∀ line, (Token.scan source).ending = .finished line →
        ((¬ ∃ tree, Derives .program (Token.scan source).kinds tree) →
          parse source = .error .unexpectedEnd ∧
            ParseError.unexpectedEnd.message = "Syntax error at EOF") ∧
        (∀ tree, Derives .program (Token.scan source).kinds tree →
          (parse source).map Program.toNode = .ok tree))) := by
  constructor
  · intro i token htoken hnot hbefore
    have hrun := run_eq_error_of_not_viable htoken hnot (viable_take hbefore)
    exact ⟨by simp [parse, parseScan, hrun], rfl⟩
  · intro hviable
    have hall : Viable (Token.scan source).kinds := by
      have h := viable_take hviable
      rwa [List.take_of_length_le (by simp [Token.Scan.kinds])] at h
    obtain ⟨hstopped, hfinished⟩ := parse_eq_of_viable hall
    refine ⟨?_, ?_, ?_⟩
    · intro char line hending
      exact hstopped _ (by rw [hending]; rfl)
    · intro digits line hending
      exact hstopped _ (by rw [hending]; rfl)
    · intro line hending
      have hnone : ParseError.ofEnding? (Token.scan source).ending = none := by
        rw [hending]
        rfl
      constructor
      · intro hnot
        rcases hfinished hnone with ⟨program, htokens, -⟩ | ⟨-, hparse⟩
        · exact absurd ⟨_, derives_program_iff.mpr ⟨program, htokens, rfl⟩⟩ hnot
        · exact ⟨hparse, rfl⟩
      · intro tree htree
        obtain ⟨program, htokens, rfl⟩ := derives_program_iff.mp htree
        rw [parse_eq_ok_iff.mpr ⟨hnone, htokens⟩]
        rfl

/-- A second comparison is reported although an illegal character follows it. -/
theorem parse_outcome_second_comparison :
    (Token.scan "b = 1 < 2 < @").ending = .illegal '@' 1 ∧
      parse "b = 1 < 2 < @" = .error (.unexpected ⟨.op (.compare .lt), 1, 10⟩) := by
  have hread : ∀ j < 5, (State.start.read?
      ((Token.scan "b = 1 < 2 < @").kinds.take (j + 1))).isSome = true := by decide +kernel
  have hrefused : (State.start.read?
      ((Token.scan "b = 1 < 2 < @").kinds.take (5 + 1))).isSome = false := by decide +kernel
  refine ⟨by decide +kernel, ((parse_outcome "b = 1 < 2 < @").1 5 _ ?_ ?_ ?_).1⟩
  · decide +kernel
  · rw [viable_iff_read?_isSome, hrefused]
    simp
  · intro j hj
    exact viable_iff_read?_isSome.mpr (hread j hj)

end Phrase

end NumBool
