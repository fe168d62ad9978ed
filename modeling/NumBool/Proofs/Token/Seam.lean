import NumBool.Proofs.Parse

/-!
# Texts one below the other

What stands behind a line feed does not change the pieces before it, with one exception:
a comment that is opened and not closed before the line feed may be closed behind it
(`pieceAt_append_newline`).  Where nothing closes such a comment, its opening is read as
two operators, a division and a multiplication next to each other (`Interlocked`).  So a
text is scanned in the same way wherever it stands, if no two operators are
interlocked in it (`scanFrom_append_newline`).

The kinds of tokens, and whether the scanner reaches the end, do not depend on the line
and the offset at which it starts (`scanFrom_anywhere`).
-/

namespace NumBool.Token

/-! ## Pieces before a line feed -/

theorem takeWhile_append_newline {p : Char → Bool} (h : p '\n' = false) (rest more : List Char) :
    (rest ++ '\n' :: more).takeWhile p = rest.takeWhile p := by
  induction rest with
  | nil => simp [h]
  | cons c rest ih =>
      rw [List.cons_append, List.takeWhile_cons, List.takeWhile_cons, ih]

/-- A comment that is closed stays as it is. -/
theorem lengthToClose?_append {rest : List Char} {n : Nat} (h : lengthToClose? rest = some n)
    (more : List Char) : lengthToClose? (rest ++ more) = some n := by
  fun_induction lengthToClose? rest generalizing n with
  | case1 => simp at h
  | case2 rest =>
      rw [List.cons_append, List.cons_append, lengthToClose?]
      exact h
  | case3 c rest hnot ih =>
      obtain ⟨m, hm, rfl⟩ := Option.map_eq_some_iff.mp h
      rw [List.cons_append, lengthToClose?, ih hm]
      · rfl
      · rintro tail rfl htail
        cases rest with
        | nil => simp [lengthToClose?] at hm
        | cons d rest =>
            obtain ⟨rfl, -⟩ := List.cons.inj htail
            exact hnot rest rfl rfl

/-- The text behind a slash opens a comment that nothing closes. -/
def Unclosed (rest : List Char) : Prop :=
  ∃ tail, rest = '*' :: tail ∧ lengthToClose? tail = none

theorem commentLength?_append_newline {rest : List Char} (h : ¬ Unclosed rest)
    (more : List Char) : commentLength? (rest ++ '\n' :: more) = commentLength? rest := by
  fun_cases commentLength? rest with
  | case1 tail =>
      rw [List.cons_append, commentLength?, takeWhile_append_newline (by simp)]
  | case2 tail =>
      cases hclose : lengthToClose? tail with
      | none => exact absurd ⟨tail, rfl, hclose⟩ h
      | some n => rw [List.cons_append, commentLength?, lengthToClose?_append hclose]
  | case3 _ hslash hstar =>
      cases rest with
      | nil => rfl
      | cons c tail =>
          rw [List.cons_append, commentLength?]
          · intro other heq
            obtain ⟨rfl, -⟩ := List.cons.inj heq
            exact hslash tail rfl
          · intro other heq
            obtain ⟨rfl, -⟩ := List.cons.inj heq
            exact hstar tail rfl

theorem symbolPiece_append_newline (c : Char) (rest more : List Char) :
    symbolPiece c (rest ++ '\n' :: more) = symbolPiece c rest := by
  unfold symbolPiece
  -- an operator of two characters does not have a line feed in it
  cases rest with
  | nil =>
      rw [List.nil_append]
      split
      all_goals simp_all
  | cons d rest =>
      rw [List.cons_append]
      split
      all_goals simp_all

/-- The piece at some place of a text does not depend on what follows behind a line feed,
unless a comment is opened there and not closed. -/
theorem pieceAt_append_newline {c : Char} {rest : List Char} (h : ¬ (c = '/' ∧ Unclosed rest))
    (more : List Char) : pieceAt c (rest ++ '\n' :: more) = pieceAt c rest := by
  unfold pieceAt
  split
  · rfl
  split
  · simp only [digitPiece, takeWhile_append_newline (p := Text.isDigit) (by decide +kernel)]
  split
  · simp only [wordPiece, takeWhile_append_newline (p := Text.isWordChar) (by decide +kernel)]
  split
  · next hslash =>
      have hclosed : ¬ Unclosed rest := fun hrest => h ⟨hslash, hrest⟩
      rw [commentLength?_append_newline hclosed, symbolPiece_append_newline]
  · exact symbolPiece_append_newline c rest more

/-! ## Pieces end inside the text -/

theorem lengthToClose?_le {rest : List Char} {n : Nat} (h : lengthToClose? rest = some n) :
    n ≤ rest.length := by
  fun_induction lengthToClose? rest generalizing n with
  | case1 => simp at h
  | case2 rest =>
      obtain rfl := Option.some.inj h
      simp
  | case3 c rest _ ih =>
      obtain ⟨m, hm, rfl⟩ := Option.map_eq_some_iff.mp h
      exact Nat.succ_le_succ (ih hm)

theorem commentLength?_le {rest : List Char} {n : Nat} (h : commentLength? rest = some n) :
    n ≤ rest.length := by
  fun_cases commentLength? rest with
  | case1 tail =>
      obtain rfl := Option.some.inj h
      have htake := (List.takeWhile_sublist (· != '\n') (l := tail)).length_le
      rw [List.length_cons]
      omega
  | case2 tail =>
      obtain ⟨m, hm, rfl⟩ := Option.map_eq_some_iff.mp h
      have hclose := lengthToClose?_le hm
      rw [List.length_cons]
      omega
  | case3 => simp [commentLength?, *] at h

/-- How many characters behind its first one a piece takes. -/
def Piece.more : Piece → Nat
  | .gap more => more
  | .lexeme _ more => more
  | .tooManyDigits _ => 0
  | .illegal => 0

theorem symbolPiece_more_le (c : Char) (rest : List Char) :
    (symbolPiece c rest).more ≤ rest.length := by
  unfold symbolPiece
  split
  all_goals simp [Piece.more]

theorem pieceAt_more_le (c : Char) (rest : List Char) :
    (pieceAt c rest).more ≤ rest.length := by
  unfold pieceAt
  split
  · simp [Piece.more]
  split
  · simp only [digitPiece]
    split
    · simp [Piece.more]
    · exact (List.takeWhile_sublist _).length_le
  split
  · exact (List.takeWhile_sublist _).length_le
  split
  · split
    · next more hcomment => exact commentLength?_le hcomment
    · exact symbolPiece_more_le c rest
  · exact symbolPiece_more_le c rest

/-! ## Scanning from anywhere -/

/-- Where the scanner starts changes the places of the tokens, but not their kinds, nor
whether it reaches the end of the text. -/
theorem scanFrom_anywhere : ∀ (text : List Char) (skip line offset line' offset' : Nat),
    (scanFrom text skip line offset).kinds = (scanFrom text skip line' offset').kinds ∧
      (ParseError.ofEnding? (scanFrom text skip line offset).ending = none ↔
        ParseError.ofEnding? (scanFrom text skip line' offset').ending = none)
  | [], skip, line, offset, line', offset' => by
      rw [scanFrom_nil, scanFrom_nil]
      exact ⟨rfl, Iff.rfl⟩
  | c :: rest, skip + 1, line, offset, line', offset' => by
      rw [scanFrom_succ, scanFrom_succ]
      exact scanFrom_anywhere rest skip _ _ _ _
  | c :: rest, 0, line, offset, line', offset' => by
      rw [scanFrom_zero, scanFrom_zero]
      split
      · exact scanFrom_anywhere rest _ _ _ _ _
      · next kind more hpiece =>
          have ih := scanFrom_anywhere rest more (lineAfter line c) (offset + 1)
            (lineAfter line' c) (offset' + 1)
          exact ⟨congrArg (kind :: ·) ih.1, ih.2⟩
      · exact ⟨rfl, by simp [ParseError.ofEnding?]⟩
      · exact ⟨rfl, by simp [ParseError.ofEnding?]⟩

/-- A multiplication follows a division at once. -/
def Interlocked (kinds : List TokenKind) : Prop :=
  ∃ before after, kinds = before ++ .op (.product .div) :: .op (.product .times) :: after

theorem Interlocked.cons {kinds : List TokenKind} (h : Interlocked kinds) (kind : TokenKind) :
    Interlocked (kind :: kinds) := by
  obtain ⟨before, after, rfl⟩ := h
  exact ⟨kind :: before, after, rfl⟩

/-- The opening of a comment that nothing closes is read as two operators. -/
theorem pieceAt_of_unclosed {tail : List Char} (h : lengthToClose? tail = none) :
    pieceAt '/' ('*' :: tail) = .lexeme (.op (.product .div)) 0 ∧
      pieceAt '*' tail = .lexeme (.op (.product .times)) 0 := by
  have hcomment : commentLength? ('*' :: tail) = none := by rw [commentLength?, h]; rfl
  have hblank : isBlank '/' = false := by decide +kernel
  have hdigit : Text.isDigit '/' = false := by decide +kernel
  have hword : Text.isWordStart '/' = false := by decide +kernel
  refine ⟨?_, rfl⟩
  simp only [pieceAt, hblank, hdigit, hword, hcomment]
  rfl

theorem interlocked_of_unclosed {rest : List Char} (h : Unclosed rest) (line offset : Nat) :
    Interlocked (scanFrom ('/' :: rest) 0 line offset).kinds := by
  obtain ⟨tail, rfl, hclose⟩ := h
  obtain ⟨hslash, hstar⟩ := pieceAt_of_unclosed hclose
  rw [scanFrom_zero, hslash]
  simp only
  rw [scanFrom_zero, hstar]
  exact ⟨[], _, rfl⟩

/-- A text that the scanner reads to its end is read in the same way with a line feed and
more text behind it, which is read as if it stood alone, if no comment is left open. -/
theorem scanFrom_append_newline (more : List Char) : ∀ (text : List Char) (skip line offset : Nat),
    skip ≤ text.length →
    ParseError.ofEnding? (scanFrom text skip line offset).ending = none →
    ¬ Interlocked (scanFrom text skip line offset).kinds →
    ∃ line' offset', scanFrom (text ++ '\n' :: more) skip line offset =
      ⟨(scanFrom text skip line offset).tokens ++ (scanFrom more 0 line' offset').tokens,
        (scanFrom more 0 line' offset').ending⟩
  | [], skip, line, offset, hskip, _, _ => by
      obtain rfl := Nat.le_zero.mp hskip
      refine ⟨line + 1, offset + 1, ?_⟩
      rw [List.nil_append, scanFrom_zero, scanFrom_nil]
      rfl
  | c :: rest, skip + 1, line, offset, hskip, hending, hkinds => by
      rw [scanFrom_succ] at hending hkinds ⊢
      rw [List.cons_append, scanFrom_succ]
      exact scanFrom_append_newline more rest skip _ _ (Nat.le_of_succ_le_succ hskip) hending hkinds
  | c :: rest, 0, line, offset, _, hending, hkinds => by
      have hclosed : ¬ (c = '/' ∧ Unclosed rest) := by
        rintro ⟨rfl, hrest⟩
        exact hkinds (interlocked_of_unclosed hrest line offset)
      have hmore := pieceAt_more_le c rest
      rw [scanFrom_zero] at hending hkinds ⊢
      rw [List.cons_append, scanFrom_zero, pieceAt_append_newline hclosed]
      cases hpiece : pieceAt c rest with
      | gap n =>
          rw [hpiece] at hending hkinds hmore
          exact scanFrom_append_newline more rest n _ _ hmore hending hkinds
      | lexeme kind n =>
          rw [hpiece] at hending hkinds hmore
          obtain ⟨line', offset', ih⟩ := scanFrom_append_newline more rest n (lineAfter line c)
            (offset + 1) hmore hending fun hrest => hkinds (hrest.cons kind)
          refine ⟨line', offset', ?_⟩
          simp only [ih]
          rfl
      | tooManyDigits digits =>
          rw [hpiece] at hending
          simp [ParseError.ofEnding?] at hending
      | illegal =>
          rw [hpiece] at hending
          simp [ParseError.ofEnding?] at hending

/-- The tokens of two texts one below the other are those of the first and then those of
the second. -/
theorem scan_append_newline {above below : String}
    (habove : ParseError.ofEnding? (scan above).ending = none)
    (hbelow : ParseError.ofEnding? (scan below).ending = none)
    (hkinds : ¬ Interlocked (scan above).kinds) :
    ParseError.ofEnding? (scan (above ++ "\n" ++ below)).ending = none ∧
      (scan (above ++ "\n" ++ below)).kinds = (scan above).kinds ++ (scan below).kinds := by
  obtain ⟨line, offset, hscan⟩ := scanFrom_append_newline below.toList above.toList 0 1 0
    (Nat.zero_le _) habove hkinds
  obtain ⟨hplaces, hending⟩ := scanFrom_anywhere below.toList 0 line offset 1 0
  have htext : (above ++ "\n" ++ below).toList = above.toList ++ '\n' :: below.toList := by simp
  rw [scan, htext, hscan]
  constructor
  · exact hending.mpr hbelow
  · rw [Scan.kinds, List.map_append]
    exact congrArg ((scan above).kinds ++ ·) hplaces

end NumBool.Token
