import NumBool.Proofs.Token.LineEnds

/-!
# Places in a text

The scanner goes along a text from piece to piece.  The places that it comes to are described
by what it has passed, a row of whole pieces, each judged before all of the text that follows
it (`Passes`).  What it finds behind such a place does not depend on how it got there, but for
the line and the offset, which are counted from what has been passed
(`Passes.exists_scanFrom`).  The places of the tokens and the place where the scanner stops are
all of this form (`exists_place_of_mem_tokens`, `ending_eq_at_iff`).

So all lines are exact: the line of a token, of an illegal character and of the end is one more
than the number of line feeds before it.  No rule has to look for them but the rules for line
feeds and for block comments, since no other piece has a line feed in it
(`scanByPiece_eq_scanFrom`).
-/

namespace NumBool.Token

/-- Whole pieces before the rest of a text, and the kinds of the tokens among them. -/
inductive Passes : (kinds : List TokenKind) → (passed rest : List Char) → Prop
  | nil {rest : List Char} : Passes [] [] rest
  | filler {kinds : List TokenKind} {piece passed rest : List Char}
      (hpiece : Filler piece (passed ++ rest)) (h : Passes kinds passed rest) :
      Passes kinds (piece ++ passed) rest
  | lexeme {kind : TokenKind} {kinds : List TokenKind} {text passed rest : List Char}
      (htext : Lexeme kind text (passed ++ rest)) (h : Passes kinds passed rest) :
      Passes (kind :: kinds) (text ++ passed) rest

/-- The scanner comes to the place between the two parts of a text. -/
def Reaches (passed rest : List Char) : Prop :=
  ∃ kinds, Passes kinds passed rest

theorem Passes.append {kinds kinds' : List TokenKind} {passed passed' rest : List Char}
    (h : Passes kinds passed (passed' ++ rest)) (h' : Passes kinds' passed' rest) :
    Passes (kinds ++ kinds') (passed ++ passed') rest := by
  generalize hbehind : passed' ++ rest = behind at h
  induction h with
  | nil => exact h'
  | filler hpiece _ ih =>
      subst hbehind
      rw [List.append_assoc]
      rw [← List.append_assoc] at hpiece
      exact .filler hpiece (ih rfl)
  | lexeme htext _ ih =>
      subst hbehind
      rw [List.append_assoc]
      rw [← List.append_assoc] at htext
      exact .lexeme htext (ih rfl)

theorem Filler.passes {piece rest : List Char} (h : Filler piece rest) : Passes [] piece rest := by
  rw [← List.append_nil piece]
  exact .filler h .nil

theorem Gap.passes {gap rest : List Char} (h : Gap gap rest) : Passes [] gap rest := by
  induction h with
  | nil => exact .nil
  | cons hpiece _ ih => exact .filler hpiece ih

theorem Divided.passes {last rest : List Char} {parts : List Part}
    (h : Divided (last ++ rest) parts) (hlast : Gap last rest) :
    Passes (parts.map Part.kind) (partsText parts last) rest := by
  induction h with
  | nil => exact hlast.passes
  | cons hgap hlexeme _ ih =>
      rw [partsText_append] at hgap hlexeme
      rw [← List.append_assoc] at hgap
      exact hgap.passes.append (.lexeme hlexeme ih)

/-- What a division passes before it ends. -/
theorem Division.Valid.passes {d : Division} (h : d.Valid) :
    Passes (d.parts.map Part.kind) (partsText d.parts d.last) d.rest :=
  h.parts.passes h.last

/-! ## Scanning up to a place -/

/-- The same scan after more tokens in front. -/
def Scan.prepend (tokens : List Token) (scan : Scan) : Scan :=
  { scan with tokens := tokens ++ scan.tokens }

/-- The scanner finds the tokens among what it passes, and then goes on behind it on the line
and at the offset to which the passed characters lead. -/
theorem Passes.exists_scanFrom {kinds : List TokenKind} {passed rest : List Char}
    (h : Passes kinds passed rest) (line offset : Nat) :
    ∃ tokens : List Token, tokens.map Token.kind = kinds ∧
      (∀ token ∈ tokens, token.offset < offset + passed.length) ∧
      scanFrom (passed ++ rest) 0 line offset =
        (scanFrom rest 0 (line + passed.count '\n') (offset + passed.length)).prepend tokens := by
  induction h generalizing line offset with
  | nil => exact ⟨[], rfl, by simp, rfl⟩
  | @filler kinds piece passed rest hpiece _ ih =>
      obtain ⟨tokens, hkinds, hoffsets, hscan⟩ :=
        ih (line + piece.count '\n') (offset + piece.length)
      rw [Nat.add_assoc, Nat.add_assoc, ← List.length_append, ← List.count_append] at hscan
      rw [Nat.add_assoc, ← List.length_append] at hoffsets
      refine ⟨tokens, hkinds, hoffsets, ?_⟩
      rw [List.append_assoc, scanFrom_filler hpiece, hscan]
  | @lexeme kind kinds text passed rest htext _ ih =>
      obtain ⟨tokens, hkinds, hoffsets, hscan⟩ :=
        ih (line + text.count '\n') (offset + text.length)
      rw [Nat.add_assoc, Nat.add_assoc, ← List.length_append, ← List.count_append] at hscan
      rw [Nat.add_assoc, ← List.length_append] at hoffsets
      refine ⟨⟨kind, line, offset⟩ :: tokens, congrArg (kind :: ·) hkinds, ?_, ?_⟩
      · intro token htoken
        rcases List.mem_cons.mp htoken with rfl | htoken
        · obtain ⟨c, more, rfl, -⟩ := pieceAt_of_lexeme htext
          simp
        · exact hoffsets token htoken
      · rw [List.append_assoc, scanFrom_lexeme htext, hscan]
        rfl

/-! ## The places of tokens and of the end -/

theorem exists_place_of_mem_tokensOf {tail : List Char} {parts : List Part}
    (h : Divided tail parts) {line offset : Nat} {token : Token}
    (htoken : token ∈ tokensOf parts line offset) :
    ∃ before lexeme after, partsText parts tail = before ++ (lexeme ++ after) ∧
      Reaches before (lexeme ++ after) ∧ Lexeme token.kind lexeme after ∧
      token.line = line + before.count '\n' ∧ token.offset = offset + before.length := by
  induction h generalizing line offset with
  | nil => simp [tokensOf] at htoken
  | @cons part parts hgap hlexeme _ ih =>
      rw [tokensOf] at htoken
      rcases List.mem_cons.mp htoken with rfl | htoken
      · exact ⟨part.gap, part.lexeme, partsText parts tail, rfl, ⟨_, hgap.passes⟩, hlexeme, rfl,
          rfl⟩
      · obtain ⟨before, lexeme, after, hparts, ⟨kinds, hbefore⟩, hplace, hline, hoffset⟩ :=
          ih htoken
        rw [hparts] at hgap hlexeme
        rw [← List.append_assoc] at hgap
        have hpassed := hgap.passes.append (.lexeme hlexeme hbefore)
        refine ⟨part.gap ++ (part.lexeme ++ before), lexeme, after, ?_, ⟨_, hpassed⟩, hplace,
          ?_, ?_⟩
        · rw [partsText_cons, hparts, List.append_assoc, List.append_assoc]
        · rw [hline, List.count_append, List.count_append, Nat.add_assoc, Nat.add_assoc]
        · rw [hoffset, List.length_append, List.length_append, Nat.add_assoc, Nat.add_assoc]

/-- Every token stands at a place that the scanner comes to, on the line and at the offset of
that place. -/
theorem exists_place_of_mem_tokens {source : String} {token : Token}
    (h : token ∈ (scan source).tokens) :
    ∃ before lexeme after, source.toList = before ++ (lexeme ++ after) ∧
      Reaches before (lexeme ++ after) ∧ Lexeme token.kind lexeme after ∧
      token.line = 1 + before.count '\n' ∧ token.offset = before.length := by
  obtain ⟨d, htext, hd⟩ := exists_division source.toList
  rw [scan, ← htext, hd.scanFrom_eq] at h
  obtain ⟨before, lexeme, after, hparts, hplace, hlexeme, hline, hoffset⟩ :=
    exists_place_of_mem_tokensOf hd.parts h
  rw [Nat.zero_add] at hoffset
  exact ⟨before, lexeme, after, htext.symm.trans hparts, hplace, hlexeme, hline, hoffset⟩

theorem Halt.line_at (halt : Halt) (line : Nat) : (halt.at line).line = line := by
  cases halt with
  | finished | illegal _ | tooManyDigits _ => rfl

theorem Halt.at_inj {halt halt' : Halt} {line line' : Nat} (h : halt.at line = halt'.at line') :
    halt = halt' ∧ line = line' := by
  have hline := congrArg Ending.line h
  rw [line_at, line_at] at hline
  exact ⟨eq_of_at_eq h, hline⟩

/-- The scanner stops at the one place that it comes to and where it can go no further. -/
theorem ending_eq_at_iff {source : String} (halt : Halt) {line : Nat} :
    (scan source).ending = halt.at line ↔
      ∃ before after, source.toList = before ++ after ∧ Reaches before after ∧
        Halts after halt ∧ line = 1 + before.count '\n' := by
  constructor
  · intro h
    obtain ⟨d, htext, hd⟩ := exists_division source.toList
    rw [scan, ← htext, hd.scanFrom_eq] at h
    obtain ⟨rfl, rfl⟩ := Halt.at_inj h
    refine ⟨partsText d.parts d.last, d.rest, ?_, ⟨_, hd.passes⟩, hd.halts, rfl⟩
    rw [← htext, Division.text, partsText_append]
  · rintro ⟨before, after, htext, ⟨kinds, hbefore⟩, hhalts, rfl⟩
    obtain ⟨tokens, -, -, hscan⟩ := hbefore.exists_scanFrom 1 0
    rw [scan, htext, hscan, scanFrom_halts hhalts]
    rfl

theorem illegal_iff {source : String} {char : Char} {line : Nat} :
    (scan source).ending = .illegal char line ↔
      ∃ before after, source.toList = before ++ char :: after ∧ Reaches before (char :: after) ∧
        Halts (char :: after) (.illegal char) ∧ line = 1 + before.count '\n' := by
  refine (ending_eq_at_iff (.illegal char)).trans ?_
  constructor
  · rintro ⟨before, rest, htext, hplace, hhalts, hline⟩
    cases hhalts with
    | illegal hblank hdigit hword hsymbol =>
        exact ⟨before, _, htext, hplace, .illegal hblank hdigit hword hsymbol, hline⟩
  · rintro ⟨before, after, h⟩
    exact ⟨before, char :: after, h⟩

theorem line_of_finished {source : String} {line : Nat}
    (h : (scan source).ending = .finished line) : line = 1 + source.toList.count '\n' := by
  obtain ⟨before, rest, htext, -, hhalts, rfl⟩ := (ending_eq_at_iff .finished).mp h
  cases hhalts with
  | finished => rw [htext, List.append_nil]

theorem line_of_mem_tokens {source : String} {token : Token} (h : token ∈ (scan source).tokens) :
    token.line = 1 + (source.toList.take token.offset).count '\n' := by
  obtain ⟨before, lexeme, after, htext, -, -, hline, hoffset⟩ := exists_place_of_mem_tokens h
  rw [hline, hoffset, htext, List.take_left]

/-! ## Lines counted piece by piece -/

/-- The line feeds that are counted for a gap, which is a line feed itself or a block comment;
other blanks and line comments are not looked through. -/
def gapFeeds : List Char → Nat
  | '\n' :: _ => 1
  | '/' :: '*' :: rest => rest.count '\n'
  | _ => 0

theorem gapFeeds_of_filler {piece rest : List Char} (h : Filler piece rest) :
    gapFeeds piece = piece.count '\n' := by
  cases h with
  | blank hblank =>
      rcases isBlank_iff.mp hblank with rfl | rfl | rfl | rfl
      all_goals rfl
  | @lineComment body _ hrun =>
      have hbody : '\n' ∉ body := fun hmem => by simpa using hrun.inside _ hmem
      rw [List.count_cons_of_ne (by decide), List.count_cons_of_ne (by decide),
        List.count_eq_zero_of_not_mem hbody]
      rfl
  | blockComment _ =>
      rw [List.count_cons_of_ne (by decide), List.count_cons_of_ne (by decide)]
      rfl

/-- Scans the text and moves the line once for each gap.  Tokens leave the line alone. -/
def scanByPiece : List Char → (skip line offset : Nat) → Scan
  | [], _, line, _ => ⟨[], .finished line⟩
  | _ :: rest, skip + 1, line, offset => scanByPiece rest skip line (offset + 1)
  | c :: rest, 0, line, offset =>
    match pieceAt c rest with
    | .gap more => scanByPiece rest more (line + gapFeeds (c :: rest.take more)) (offset + 1)
    | .lexeme kind more => (scanByPiece rest more line (offset + 1)).cons ⟨kind, line, offset⟩
    | .tooManyDigits digits => ⟨[], .tooManyDigits digits line⟩
    | .illegal => ⟨[], .illegal c line⟩

/-- Counting line feeds piece by piece, ahead of the characters still to be skipped, or
character by character gives the same lines. -/
theorem scanByPiece_eq_scanFrom : ∀ (text : List Char) (skip line offset : Nat),
    scanByPiece text skip (line + (text.take skip).count '\n') offset =
      scanFrom text skip line offset
  | [], skip, line, offset => by
      rw [scanByPiece, scanFrom_nil, List.take_nil]
      rfl
  | c :: rest, skip + 1, line, offset => by
      have ih := scanByPiece_eq_scanFrom rest skip (lineAfter line c) (offset + 1)
      rw [lineAfter_add_count] at ih
      rw [scanByPiece, scanFrom_succ, List.take_succ_cons]
      exact ih
  | c :: rest, 0, line, offset => by
      have ih := fun more => scanByPiece_eq_scanFrom rest more (lineAfter line c) (offset + 1)
      rw [scanByPiece, scanFrom_zero, List.take_zero, List.count_nil, Nat.add_zero]
      cases hpiece : pieceAt c rest with
      | gap more =>
          have hfeeds := gapFeeds_of_filler (filler_of_pieceAt hpiece)
          have hmore := ih more
          rw [lineAfter_add_count, ← hfeeds] at hmore
          exact hmore
      | lexeme kind more =>
          -- a lexeme has no line feed in it
          have hfeeds := List.count_eq_zero_of_not_mem
            (lexeme_of_pieceAt hpiece).lineEnds_notMem.2
          have hmore := ih more
          rw [lineAfter_add_count, hfeeds, Nat.add_zero] at hmore
          exact congrArg (Scan.cons ⟨kind, line, offset⟩) hmore
      | tooManyDigits digits => rfl
      | illegal => rfl

end NumBool.Token

namespace NumBool.Phrase

open NumBool.Grammar NumBool.Token

/-- What is behind an error: a token that the reader refuses, what stopped the scanner, or the
end of the text. -/
theorem parse_error_cases {source : String} {error : ParseError} (h : parse source = .error error) :
    (∃ token, State.start.run (scan source).tokens = .error token ∧ error = .unexpected token) ∨
    ParseError.ofEnding? (scan source).ending = some error ∨
    error = .unexpectedEnd := by
  rw [parse, parseScan] at h
  cases hrun : State.start.run (scan source).tokens with
  | error token =>
      rw [hrun] at h
      exact .inl ⟨token, rfl, (Except.error.inj h).symm⟩
  | ok last =>
      rw [hrun] at h
      cases hending : ParseError.ofEnding? (scan source).ending with
      | some stopped =>
          rw [hending] at h
          exact .inr (.inl (congrArg some (Except.error.inj h)))
      | none =>
          rw [hending] at h
          cases hfinish : last.finish? with
          | none => simp_all
          | some program => simp [hfinish] at h

/-- The token of a syntax error is the first with which the tokens are no longer viable. -/
theorem exists_of_parse_unexpected {source : String} {token : Token}
    (h : parse source = .error (.unexpected token)) :
    ∃ before after, (scan source).tokens = before ++ token :: after ∧
      Viable (before.map Token.kind) ∧ ¬ Viable ((before ++ [token]).map Token.kind) := by
  have hrun : State.start.run (scan source).tokens = .error token := by
    rcases parse_error_cases h with ⟨first, hrun, hfirst⟩ | hending | hend
    · rw [hrun, ParseError.unexpected.inj hfirst]
    · cases hstop : (scan source).ending with
      | finished _ | illegal _ _ | tooManyDigits _ _ =>
          simp [hstop, ParseError.ofEnding?] at hending
    · simp at hend
  obtain ⟨before, after, mid, htokens, hread, hstep⟩ := State.run_eq_error_iff.mp hrun
  refine ⟨before, after, htokens, ?_, ?_⟩
  · rw [viable_iff_read?_isSome, hread]
    rfl
  · rw [viable_iff_read?_isSome, List.map_append, State.read?_append, hread, Option.bind_some,
      List.map_singleton, State.read?_cons, hstep]
    simp

theorem ending_of_parse_illegal {source : String} {char : Char} {line : Nat}
    (h : parse source = .error (.illegal char line)) :
    (scan source).ending = .illegal char line := by
  rcases parse_error_cases h with ⟨first, -, hfirst⟩ | hending | hend
  · simp at hfirst
  · cases hstop : (scan source).ending with
    | finished _ | tooManyDigits _ _ => simp [hstop, ParseError.ofEnding?] at hending
    | illegal _ _ => simpa [hstop, ParseError.ofEnding?] using hending
  · simp at hend

/-- All lines are exact.  It makes no difference whether line feeds are counted one by one or
only those of line ends and block comments.  The line of a token is one more than the number of
line feeds before its offset; the scanner reports an illegal character on the line of the place
where it comes upon it, and at the end of the text it has counted all line feeds.  So a syntax
error tells the line of the token that is at fault. -/
theorem reported_lines_exact (source : String) :
    scanByPiece source.toList 0 1 0 = scan source ∧
    (∀ token ∈ (scan source).tokens,
      token.line = 1 + (source.toList.take token.offset).count '\n') ∧
    (∀ char line, (scan source).ending = .illegal char line ↔
      ∃ before after, source.toList = before ++ char :: after ∧ Reaches before (char :: after) ∧
        Halts (char :: after) (.illegal char) ∧ line = 1 + before.count '\n') ∧
    (∀ line, (scan source).ending = .finished line → line = 1 + source.toList.count '\n') ∧
    (∀ token, parse source = .error (.unexpected token) →
      ∃ earlier later line, (scan source).tokens = earlier ++ token :: later ∧
        Viable (earlier.map Token.kind) ∧ ¬ Viable ((earlier ++ [token]).map Token.kind) ∧
        line = 1 + (source.toList.take token.offset).count '\n' ∧
        (ParseError.unexpected token).message =
          s!"Syntax error at '{token.kind.text}' (type: {token.kind.label}) on line {line}") ∧
    (∀ char line, parse source = .error (.illegal char line) →
      (scan source).ending = .illegal char line ∧
        (ParseError.illegal char line).message =
          s!"Illegal character {Text.quoted (String.singleton char)} at line {line}") := by
  refine ⟨?_, ?_, ?_, ?_, ?_, ?_⟩
  · exact scanByPiece_eq_scanFrom source.toList 0 1 0
  · intro token htoken
    exact line_of_mem_tokens htoken
  · intro char line
    exact illegal_iff
  · intro line hending
    exact line_of_finished hending
  · intro token hparse
    obtain ⟨earlier, later, htokens, hviable, hnot⟩ := exists_of_parse_unexpected hparse
    have htoken : token ∈ (scan source).tokens := by simp [htokens]
    exact ⟨earlier, later, token.line, htokens, hviable, hnot, line_of_mem_tokens htoken, rfl⟩
  · intro char line hparse
    exact ⟨ending_of_parse_illegal hparse, rfl⟩

/-- A second assignment mark behind a carriage return, a block comment over two lines, a line
comment and an empty line. -/
def strayMark : String := "num a;\r\n/* 1\n 2 */ // 3\n\na = = 1;"

/-- An illegal character behind a line comment, and a block comment that ends on its line. -/
def strayCharacter : String := "num a; // @\n/* @\n*/\r@"

theorem reported_lines_exact_strays :
    (parse strayMark = .error (.unexpected ⟨.mark .assign, 5, 29⟩) ∧
      5 = 1 + (strayMark.toList.take 29).count '\n' ∧
      (scan strayMark).ending = .finished 5 ∧ 5 = 1 + strayMark.toList.count '\n') ∧
    (parse strayCharacter = .error (.illegal '@' 3) ∧
      ∃ before after, strayCharacter.toList = before ++ '@' :: after ∧
        Reaches before ('@' :: after) ∧ 3 = 1 + before.count '\n') := by
  have hmark : scan strayMark = ⟨[⟨.keyword (.type .number), 1, 0⟩, ⟨.ident "a", 1, 4⟩,
      ⟨.mark .semicolon, 1, 5⟩, ⟨.ident "a", 5, 25⟩, ⟨.mark .assign, 5, 27⟩,
      ⟨.mark .assign, 5, 29⟩, ⟨.int 1, 5, 31⟩, ⟨.mark .semicolon, 5, 32⟩], .finished 5⟩ := by
    decide +kernel
  have hcharacter : scan strayCharacter = ⟨[⟨.keyword (.type .number), 1, 0⟩,
      ⟨.ident "a", 1, 4⟩, ⟨.mark .semicolon, 1, 5⟩], .illegal '@' 3⟩ := by
    decide +kernel
  have hparse : parse strayMark = .error (.unexpected ⟨.mark .assign, 5, 29⟩) := by
    rw [parse, hmark]
    rfl
  have hillegal : parse strayCharacter = .error (.illegal '@' 3) := by
    rw [parse, hcharacter]
    rfl
  obtain ⟨-, htokens, -, hfinished, hunexpected, -⟩ := reported_lines_exact strayMark
  obtain ⟨earlier, later, line, hearlier, -⟩ := hunexpected _ hparse
  have htoken := htokens ⟨.mark .assign, 5, 29⟩ (by simp [hearlier])
  have hending : (scan strayMark).ending = .finished 5 := by rw [hmark]
  obtain ⟨-, -, hplace, -, -, hreported⟩ := reported_lines_exact strayCharacter
  obtain ⟨before, after, htext, hreached, -, hline⟩ := (hplace '@' 3).mp (hreported _ _ hillegal).1
  exact ⟨⟨hparse, htoken, hending, hfinished 5 hending⟩, hillegal, before, after, htext, hreached,
    hline⟩

end NumBool.Phrase
