import NumBool.Proofs.Token.Pieces

/-!
# The division of a text into tokens

A division cuts a text into gaps and lexemes in turn, up to the place where the scanner
halts.  Each gap is made of blanks and comments and each lexeme is the text of its token,
both judged before all of the text that follows, so that nothing is cut too early.

Every text has a division (`exists_division`) and no text has two (`Division.Valid.unique`),
because the first characters tell what comes next.  The scanner gives the tokens of the
division, each on the line and at the offset at which its lexeme starts
(`Division.Valid.scanFrom_eq`).  What holds of the tokens of all texts can therefore be shown
on divisions, without a look at how the scanner moves along.
-/

namespace NumBool.Token

/-- Blanks and comments, one after the other, before the rest of a text. -/
inductive Gap : (gap rest : List Char) → Prop
  | nil {rest : List Char} : Gap [] rest
  | cons {piece gap rest : List Char} (hpiece : Filler piece (gap ++ rest)) (hgap : Gap gap rest) :
      Gap (piece ++ gap) rest

/-- A lexeme, the kind of its token, and the gap before it. -/
@[ext]
structure Part where
  gap : List Char
  lexeme : List Char
  kind : TokenKind
  deriving DecidableEq, Repr

/-- The text of some parts with more text behind them. -/
def partsText (parts : List Part) (tail : List Char) : List Char :=
  parts.foldr (fun part text => part.gap ++ (part.lexeme ++ text)) tail

@[simp]
theorem partsText_nil (tail : List Char) : partsText [] tail = tail := rfl

@[simp]
theorem partsText_cons (part : Part) (parts : List Part) (tail : List Char) :
    partsText (part :: parts) tail = part.gap ++ (part.lexeme ++ partsText parts tail) := rfl

theorem partsText_append (parts : List Part) (front back : List Char) :
    partsText parts (front ++ back) = partsText parts front ++ back := by
  induction parts with
  | nil => rfl
  | cons part parts ih => simp [ih]

/-- A gap and a lexeme for each token, then one more gap, and what is left of the text
where the scanner halts. -/
@[ext]
structure Division where
  parts : List Part
  last : List Char
  rest : List Char
  halt : Halt
  deriving DecidableEq, Repr

/-- Every part is a gap and a lexeme before the text that follows it. -/
inductive Divided (tail : List Char) : List Part → Prop
  | nil : Divided tail []
  | cons {part : Part} {parts : List Part}
      (hgap : Gap part.gap (part.lexeme ++ partsText parts tail))
      (hlexeme : Lexeme part.kind part.lexeme (partsText parts tail))
      (h : Divided tail parts) : Divided tail (part :: parts)

namespace Division

/-- The text that is divided. -/
def text (d : Division) : List Char :=
  partsText d.parts (d.last ++ d.rest)

/-- Gaps are gaps, lexemes are lexemes, and the scanner halts where the division ends. -/
structure Valid (d : Division) : Prop where
  parts : Divided (d.last ++ d.rest) d.parts
  last : Gap d.last d.rest
  halts : Halts d.rest d.halt

end Division

/-- The tokens of some parts, each at the place where its lexeme starts. -/
def tokensOf : List Part → (line offset : Nat) → List Token
  | [], _, _ => []
  | part :: parts, line, offset =>
    ⟨part.kind, line + part.gap.count '\n', offset + part.gap.length⟩ ::
      tokensOf parts (line + part.gap.count '\n' + part.lexeme.count '\n')
        (offset + part.gap.length + part.lexeme.length)

/-- The tokens of a division, and the halt on the line on which it ends. -/
def Division.scan (d : Division) (line offset : Nat) : Scan :=
  ⟨tokensOf d.parts line offset, d.halt.at (line + (partsText d.parts d.last).count '\n')⟩

/-! ## The scanner follows a division -/

theorem scanFrom_filler {piece rest : List Char} (h : Filler piece rest) (line offset : Nat) :
    scanFrom (piece ++ rest) 0 line offset =
      scanFrom rest 0 (line + piece.count '\n') (offset + piece.length) := by
  obtain ⟨c, more, rfl, hpiece⟩ := pieceAt_of_filler h
  have hskip := scanFrom_skip (c :: more) rest line offset
  rw [List.cons_append, List.length_cons, scanFrom_succ] at hskip
  rw [List.cons_append, scanFrom_zero, hpiece]
  exact hskip

theorem scanFrom_gap {gap rest : List Char} (h : Gap gap rest) (line offset : Nat) :
    scanFrom (gap ++ rest) 0 line offset =
      scanFrom rest 0 (line + gap.count '\n') (offset + gap.length) := by
  induction h generalizing line offset with
  | nil => rfl
  | cons hpiece _ ih =>
      rw [List.append_assoc, scanFrom_filler hpiece, ih, List.count_append, List.length_append,
        Nat.add_assoc, Nat.add_assoc]

theorem scanFrom_lexeme {kind : TokenKind} {text rest : List Char} (h : Lexeme kind text rest)
    (line offset : Nat) :
    scanFrom (text ++ rest) 0 line offset =
      (scanFrom rest 0 (line + text.count '\n') (offset + text.length)).cons
        ⟨kind, line, offset⟩ := by
  obtain ⟨c, more, rfl, hpiece⟩ := pieceAt_of_lexeme h
  have hskip := scanFrom_skip (c :: more) rest line offset
  rw [List.cons_append, List.length_cons, scanFrom_succ] at hskip
  rw [List.cons_append, scanFrom_zero, hpiece]
  exact congrArg (Scan.cons ⟨kind, line, offset⟩) hskip

theorem scanFrom_halts {rest : List Char} {halt : Halt} (h : Halts rest halt)
    (line offset : Nat) : scanFrom rest 0 line offset = ⟨[], halt.at line⟩ := by
  cases rest with
  | nil =>
      rw [scanFrom_nil, eq_finished_of_halts_nil h]
      rfl
  | cons c rest =>
      rw [scanFrom_zero]
      rcases pieceAt_of_halts h with ⟨rfl, hpiece⟩ | ⟨n, rfl, hpiece⟩
      · rw [hpiece]
        rfl
      · rw [hpiece]
        rfl

/-- The scanner gives the tokens of a division, and halts where it ends. -/
theorem scanFrom_divided {last rest : List Char} {halt : Halt} (hlast : Gap last rest)
    (hhalts : Halts rest halt) {parts : List Part} (h : Divided (last ++ rest) parts)
    (line offset : Nat) :
    scanFrom (partsText parts (last ++ rest)) 0 line offset =
      ⟨tokensOf parts line offset, halt.at (line + (partsText parts last).count '\n')⟩ := by
  induction h generalizing line offset with
  | nil =>
      rw [partsText_nil, scanFrom_gap hlast, scanFrom_halts hhalts]
      rfl
  | cons hgap hlexeme _ ih =>
      rw [partsText_cons, scanFrom_gap hgap, scanFrom_lexeme hlexeme, ih, partsText_cons,
        List.count_append, List.count_append, ← Nat.add_assoc, ← Nat.add_assoc]
      rfl

theorem Division.Valid.scanFrom_eq {d : Division} (h : d.Valid) (line offset : Nat) :
    scanFrom d.text 0 line offset = d.scan line offset :=
  scanFrom_divided h.last h.halts h.parts line offset

/-! ## Every text has a division -/

namespace Division

/-- One more blank or comment in front. -/
def pad (piece : List Char) (d : Division) : Division :=
  match d.parts with
  | [] => { d with last := piece ++ d.last }
  | part :: parts => { d with parts := { part with gap := piece ++ part.gap } :: parts }

theorem text_pad (piece : List Char) (d : Division) : (d.pad piece).text = piece ++ d.text := by
  unfold pad text
  cases d.parts with
  | nil => simp
  | cons part parts => simp

theorem Valid.pad {piece : List Char} {d : Division} (h : d.Valid)
    (hpiece : Filler piece d.text) : (d.pad piece).Valid := by
  obtain ⟨parts, last, rest, halt⟩ := d
  obtain ⟨hparts, hlast, hhalts⟩ := h
  cases hparts with
  | nil => exact ⟨.nil, .cons hpiece hlast, hhalts⟩
  | cons hgap hlexeme hrest => exact ⟨.cons (.cons hpiece hgap) hlexeme hrest, hlast, hhalts⟩

/-- One more token in front, with no gap before it. -/
theorem Valid.cons {kind : TokenKind} {lexeme : List Char} {d : Division} (h : d.Valid)
    (hlexeme : Lexeme kind lexeme d.text) :
    Valid { d with parts := ⟨[], lexeme, kind⟩ :: d.parts } :=
  ⟨.cons .nil hlexeme h.parts, h.last, h.halts⟩

end Division

theorem exists_division (text : List Char) : ∃ d : Division, d.text = text ∧ d.Valid := by
  induction hlength : text.length using Nat.strong_induction_on generalizing text with
  | _ n ih =>
  cases text with
  | nil => exact ⟨⟨[], [], [], .finished⟩, rfl, .nil, .nil, .finished⟩
  | cons c rest =>
      -- the first piece, and by induction the division of what is behind it
      have hbehind : ∀ more, ∃ d : Division, d.text = rest.drop more ∧ d.Valid := by
        intro more
        refine ih (rest.drop more).length ?_ (rest.drop more) rfl
        rw [← hlength, List.length_drop, List.length_cons]
        omega
      have hpiece := describes_pieceAt c rest
      cases hfound : pieceAt c rest with
      | gap more =>
          obtain ⟨d, htext, hd⟩ := hbehind more
          have hfiller := filler_of_pieceAt hfound
          rw [← htext] at hfiller
          refine ⟨d.pad (c :: rest.take more), ?_, hd.pad hfiller⟩
          rw [Division.text_pad, htext, List.cons_append, List.take_append_drop]
      | lexeme kind more =>
          obtain ⟨d, htext, hd⟩ := hbehind more
          have hlexeme := lexeme_of_pieceAt hfound
          rw [← htext] at hlexeme
          refine ⟨_, ?_, hd.cons hlexeme⟩
          change c :: rest.take more ++ d.text = c :: rest
          rw [htext, List.cons_append, List.take_append_drop]
      | tooManyDigits digits =>
          rw [hfound] at hpiece
          exact ⟨⟨[], [], c :: rest, _⟩, rfl, .nil, .nil, hpiece⟩
      | illegal =>
          rw [hfound] at hpiece
          exact ⟨⟨[], [], c :: rest, _⟩, rfl, .nil, .nil, hpiece⟩

/-! ## No text has two divisions -/

/-- No blank or comment starts at the text. -/
def Solid (text : List Char) : Prop :=
  ∀ piece rest, Filler piece rest → piece ++ rest ≠ text

theorem Lexeme.solid {kind : TokenKind} {text rest : List Char} (h : Lexeme kind text rest) :
    Solid (text ++ rest) := by
  intro piece tail hfiller heq
  obtain ⟨c, more, rfl, hpiece⟩ := pieceAt_of_filler hfiller
  obtain ⟨c', more', rfl, hpiece'⟩ := pieceAt_of_lexeme h
  rw [List.cons_append, List.cons_append] at heq
  obtain ⟨rfl, hmore⟩ := List.cons.inj heq
  rw [hmore, hpiece'] at hpiece
  simp at hpiece

theorem Halts.solid {rest : List Char} {halt : Halt} (h : Halts rest halt) : Solid rest := by
  intro piece tail hfiller heq
  obtain ⟨c, more, rfl, hpiece⟩ := pieceAt_of_filler hfiller
  rw [List.cons_append] at heq
  subst heq
  rcases pieceAt_of_halts h with ⟨-, hpiece'⟩ | ⟨n, -, hpiece'⟩
  · rw [hpiece'] at hpiece
    simp at hpiece
  · rw [hpiece'] at hpiece
    simp at hpiece

theorem Lexeme.not_halts {kind : TokenKind} {text rest : List Char} {halt : Halt}
    (h : Lexeme kind text rest) : ¬ Halts (text ++ rest) halt := by
  intro hhalts
  obtain ⟨c, more, rfl, hpiece⟩ := pieceAt_of_lexeme h
  rw [List.cons_append] at hhalts
  rcases pieceAt_of_halts hhalts with ⟨-, hpiece'⟩ | ⟨n, -, hpiece'⟩
  · rw [hpiece'] at hpiece
    simp at hpiece
  · rw [hpiece'] at hpiece
    simp at hpiece

theorem Filler.unique {piece rest piece' rest' : List Char} (h : Filler piece rest)
    (h' : Filler piece' rest') (heq : piece ++ rest = piece' ++ rest') :
    piece = piece' ∧ rest = rest' := by
  obtain ⟨c, more, rfl, hpiece⟩ := pieceAt_of_filler h
  obtain ⟨c', more', rfl, hpiece'⟩ := pieceAt_of_filler h'
  rw [List.cons_append, List.cons_append] at heq
  obtain ⟨rfl, hmore⟩ := List.cons.inj heq
  rw [hmore, hpiece'] at hpiece
  have hlength := Piece.gap.inj hpiece
  exact List.append_inj heq (by rw [List.length_cons, List.length_cons, hlength])

theorem Lexeme.unique {kind kind' : TokenKind} {text rest text' rest' : List Char}
    (h : Lexeme kind text rest) (h' : Lexeme kind' text' rest')
    (heq : text ++ rest = text' ++ rest') : kind = kind' ∧ text = text' ∧ rest = rest' := by
  obtain ⟨c, more, rfl, hpiece⟩ := pieceAt_of_lexeme h
  obtain ⟨c', more', rfl, hpiece'⟩ := pieceAt_of_lexeme h'
  rw [List.cons_append, List.cons_append] at heq
  obtain ⟨rfl, hmore⟩ := List.cons.inj heq
  rw [hmore, hpiece'] at hpiece
  obtain ⟨hkind, hlength⟩ := Piece.lexeme.inj hpiece
  exact ⟨hkind.symm, List.append_inj heq (by rw [List.length_cons, List.length_cons, hlength])⟩

theorem Gap.unique {gap rest gap' rest' : List Char} (h : Gap gap rest) (h' : Gap gap' rest')
    (hrest : Solid rest) (hrest' : Solid rest') (heq : gap ++ rest = gap' ++ rest') :
    gap = gap' ∧ rest = rest' := by
  induction h generalizing gap' with
  | nil =>
      cases h' with
      | nil => exact ⟨rfl, heq⟩
      | cons hpiece' _ =>
          rw [List.append_assoc] at heq
          exact absurd heq.symm (hrest _ _ hpiece')
  | cons hpiece _ ih =>
      cases h' with
      | nil =>
          rw [List.append_assoc] at heq
          exact absurd heq (hrest' _ _ hpiece)
      | cons hpiece' hgap' =>
          rw [List.append_assoc, List.append_assoc] at heq
          obtain ⟨rfl, hbehind⟩ := hpiece.unique hpiece' heq
          obtain ⟨rfl, rfl⟩ := ih hgap' hrest hbehind
          exact ⟨rfl, rfl⟩

/-- Two divisions of one text have the same parts and end at the same place. -/
theorem Divided.unique {last rest last' rest' : List Char} {halt halt' : Halt}
    (hlast : Gap last rest) (hhalts : Halts rest halt) (hlast' : Gap last' rest')
    (hhalts' : Halts rest' halt') {parts parts' : List Part} (h : Divided (last ++ rest) parts)
    (h' : Divided (last' ++ rest') parts')
    (heq : partsText parts (last ++ rest) = partsText parts' (last' ++ rest')) :
    parts = parts' ∧ last = last' ∧ rest = rest' := by
  induction h generalizing parts' with
  | nil =>
      cases h' with
      | nil => exact ⟨rfl, hlast.unique hlast' hhalts.solid hhalts'.solid heq⟩
      | cons hgap hlexeme _ =>
          obtain ⟨-, rfl⟩ := hlast.unique hgap hhalts.solid hlexeme.solid heq
          exact absurd hhalts hlexeme.not_halts
  | cons hgap hlexeme _ ih =>
      cases h' with
      | nil =>
          obtain ⟨-, rfl⟩ := hgap.unique hlast' hlexeme.solid hhalts'.solid heq
          exact absurd hhalts' hlexeme.not_halts
      | cons hgap' hlexeme' hbehind' =>
          obtain ⟨hsame, hbehind⟩ := hgap.unique hgap' hlexeme.solid hlexeme'.solid heq
          obtain ⟨hkind, hchars, hmore⟩ := hlexeme.unique hlexeme' hbehind
          obtain ⟨rfl, hends⟩ := ih hbehind' hmore
          exact ⟨congrArg (· :: _) (Part.ext hsame hchars hkind), hends⟩

theorem Division.Valid.unique {d d' : Division} (h : d.Valid) (h' : d'.Valid)
    (heq : d.text = d'.text) : d = d' := by
  obtain ⟨hparts, hlast, hrest⟩ :=
    h.parts.unique h.last h.halts h'.last h'.halts h'.parts heq
  exact Division.ext hparts hlast hrest (h.halts.unique (hrest ▸ h'.halts))

/-! ## The tokens of a text -/

theorem Halt.eq_of_at_eq {halt halt' : Halt} {line line' : Nat}
    (h : halt.at line = halt'.at line') : halt = halt' := by
  cases halt
  all_goals
    cases halt'
    all_goals simp_all [Halt.at]

/-- Every text is divided in exactly one way, and the scanner gives the tokens of this
division and stops for the reason for which the division halts. -/
theorem scan_unique_division (source : String) :
    (∃! d : Division, d.text = source.toList ∧ d.Valid) ∧
    ∀ d : Division, d.text = source.toList → d.Valid →
      (scan source).tokens = tokensOf d.parts 1 0 ∧
      ∀ halt, (∃ line, (scan source).ending = halt.at line) ↔ Halts d.rest halt := by
  constructor
  · obtain ⟨d, htext, hd⟩ := exists_division source.toList
    refine ⟨d, ⟨htext, hd⟩, ?_⟩
    rintro other ⟨htext', hother⟩
    exact hother.unique hd (htext'.trans htext.symm)
  · intro d htext hd
    have hscan : scan source = d.scan 1 0 := by rw [scan, ← htext, hd.scanFrom_eq]
    rw [hscan]
    refine ⟨rfl, fun halt => ?_⟩
    constructor
    · rintro ⟨line, hline⟩
      rw [← Halt.eq_of_at_eq hline]
      exact hd.halts
    · intro hhalts
      rw [hhalts.unique hd.halts]
      exact ⟨_, rfl⟩

/-- The division of `a<=/*/**/0x€`: an operator of two characters, a comment whose opening
is not part of its end, a number right before a word, and a character that starts nothing. -/
def boundaries : Division where
  parts := [⟨[], ['a'], .ident "a"⟩, ⟨[], ['<', '='], .op (.compare .le)⟩,
    ⟨['/', '*', '/', '*', '*', '/'], ['0'], .int 0⟩, ⟨[], ['x'], .ident "x"⟩]
  last := []
  rest := ['€']
  halt := .illegal '€'

theorem boundaries_valid : boundaries.Valid := by
  have ha : pieceAt 'a' "<=/*/**/0x€".toList = .lexeme (.ident "a") 0 := by decide +kernel
  have hle : pieceAt '<' "=/*/**/0x€".toList = .lexeme (.op (.compare .le)) 1 := by decide +kernel
  have hgap : pieceAt '/' "*/**/0x€".toList = .gap 5 := by decide +kernel
  have hzero : pieceAt '0' "x€".toList = .lexeme (.int 0) 0 := by decide +kernel
  have hx : pieceAt 'x' "€".toList = .lexeme (.ident "x") 0 := by decide +kernel
  have hhalt : pieceAt '€' [] = .illegal := by decide +kernel
  refine ⟨.cons .nil (lexeme_of_pieceAt ha) (.cons .nil (lexeme_of_pieceAt hle)
    (.cons (.cons (filler_of_pieceAt hgap) .nil) (lexeme_of_pieceAt hzero)
      (.cons .nil (lexeme_of_pieceAt hx) .nil))), .nil, ?_⟩
  have hdescribes := describes_pieceAt '€' []
  rwa [hhalt] at hdescribes

theorem scan_unique_division_boundaries :
    boundaries.text = "a<=/*/**/0x€".toList ∧ boundaries.Valid ∧
    (scan "a<=/*/**/0x€").tokens =
      [⟨.ident "a", 1, 0⟩, ⟨.op (.compare .le), 1, 1⟩, ⟨.int 0, 1, 9⟩, ⟨.ident "x", 1, 10⟩] ∧
    ∃ line, (scan "a<=/*/**/0x€").ending = .illegal '€' line := by
  have htext : boundaries.text = "a<=/*/**/0x€".toList := by decide +kernel
  obtain ⟨htokens, hending⟩ := (scan_unique_division _).2 boundaries htext boundaries_valid
  exact ⟨htext, boundaries_valid, htokens, (hending (.illegal '€')).mpr boundaries_valid.halts⟩

end NumBool.Token
