import NumBool.Proofs.RoundTrip
import NumBool.Proofs.Token.Seam

/-!
# Programs one below the other

Two texts that hold programs, with a line feed between them, hold the program of both.
The scanner could only go wrong at a comment that is left open, and its opening would be
a division and a multiplication next to each other, which no program has
(`not_interlocked_tokens`).  The reader could only go wrong at a branch that waits for an
alternative, but no program starts with one: the tokens of both programs in a row are
the tokens of one program, and no sequence of tokens has two programs.
-/

namespace NumBool.Phrase

/-- After a division the reader waits for an operand, which does not start with a
multiplication. -/
theorem State.step?_times_of_step?_div {s next : State}
    (h : s.step? (.op (.product .div)) = some next) :
    next.step? (.op (.product .times)) = none := by
  cases hmode : s.mode with
  | operator goal outer inner =>
      -- the one mode that takes a division
      simp only [step?, hmode, operator?, Supplied.continue?, Option.map_some] at h
      obtain rfl := Option.some.inj h
      rfl
  | _ => simp [step?, hmode, startStatement?, operand?] at h

/-- The reader refuses a multiplication right behind a division. -/
theorem State.read?_of_interlocked {kinds : List TokenKind} (h : Token.Interlocked kinds)
    (s : State) : s.read? kinds = none := by
  obtain ⟨before, after, rfl⟩ := h
  rw [State.read?_append]
  cases s.read? before with
  | none => rfl
  | some mid =>
      rw [Option.bind_some, State.read?_cons]
      cases hdiv : mid.step? (.op (.product .div)) with
      | none => rfl
      | some next =>
          rw [Option.bind_some, State.read?_cons, State.step?_times_of_step?_div hdiv,
            Option.bind_none]

/-- No program has a multiplication right behind a division. -/
theorem not_interlocked_tokens (program : Program) : ¬ Token.Interlocked program.tokens := by
  intro h
  have hread := program.read
  rw [State.read?_of_interlocked h] at hread
  simp at hread

/-- The program of two texts one below the other. -/
theorem parse_append_of_parse {above below : String} {first second : Program}
    (habove : parse above = .ok first) (hbelow : parse below = .ok second) :
    parse (above ++ "\n" ++ below) = .ok ⟨first.stmts ++ second.stmts⟩ := by
  obtain ⟨hfinished, htokens⟩ := parse_eq_ok_iff.mp habove
  obtain ⟨hfinished', htokens'⟩ := parse_eq_ok_iff.mp hbelow
  have hclosed : ¬ Token.Interlocked (Token.scan above).kinds := by
    rw [← htokens]
    exact not_interlocked_tokens first
  obtain ⟨hending, hkinds⟩ := Token.scan_append_newline hfinished hfinished' hclosed
  refine parse_eq_ok_iff.mpr ⟨hending, ?_⟩
  rw [hkinds, ← htokens, ← htokens']
  exact stmtsTokens_append first.stmts second.stmts

/-- Texts one below the other have the statements of both, in order. -/
theorem parse_append_newline {above below : String} {xs ys : List Node}
    (habove : (parse above).map Program.toNode = .ok (.program xs))
    (hbelow : (parse below).map Program.toNode = .ok (.program ys)) :
    (parse (above ++ "\n" ++ below)).map Program.toNode = .ok (.program (xs ++ ys)) := by
  obtain ⟨first, hfirst, htree⟩ := exists_program_of_map_toNode habove
  obtain ⟨second, hsecond, htree'⟩ := exists_program_of_map_toNode hbelow
  obtain rfl := Node.program.inj htree
  obtain rfl := Node.program.inj htree'
  rw [parse_append_of_parse hfirst hsecond]
  simp [Except.map, Program.toNode, stmtNodes_eq_map]

/-- A branch that may still have an alternative, then a comment up to the end of the
text, and below it a block. -/
theorem parse_append_newline_pendingBranch :
    (parse "if (true) \x7b \x7d // else").map Program.toNode =
      .ok (.program [.branch (.logical [.comparison (.addition [.multiplication
        [.signed (.negated (.value (.truth true)) []) []] []] []) none .absent] [])
        (.block []) .absent]) ∧
    (parse "\x7b num a; \x7d").map Program.toNode =
      .ok (.program [.block [.declaration "num" (.identifier "a")]]) ∧
    (parse ("if (true) \x7b \x7d // else" ++ "\n" ++ "\x7b num a; \x7d")).map Program.toNode =
      .ok (.program [.branch (.logical [.comparison (.addition [.multiplication
        [.signed (.negated (.value (.truth true)) []) []] []] []) none .absent] [])
        (.block []) .absent, .block [.declaration "num" (.identifier "a")]]) := by
  have hbranch : parse "if (true) \x7b \x7d // else" = .ok ⟨[.branch (.single (.single (.single
      (.single (.mk [] (.mk 0 (.truth true))))))) [] .absent]⟩ :=
    parse_eq_ok_iff.mpr ⟨by decide +kernel, by decide +kernel⟩
  have hblock : parse "\x7b num a; \x7d" = .ok ⟨[.block [.declare .number "a"]]⟩ :=
    parse_eq_ok_iff.mpr ⟨by decide +kernel, by decide +kernel⟩
  have habove := congrArg (Except.map Program.toNode) hbranch
  have hbelow := congrArg (Except.map Program.toNode) hblock
  exact ⟨habove, hbelow, parse_append_newline habove hbelow⟩

end NumBool.Phrase
