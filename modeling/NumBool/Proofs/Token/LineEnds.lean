import NumBool.Proofs.Token.Division
import NumBool.Text.Newline

/-!
# Carriage returns before line feeds

A text whose lines end in a carriage return and a line feed has the same tokens on the same
lines without its carriage returns.  A carriage return that is followed by a line feed can
only stand in a gap, and what stands before it ends there with or without it.  So dropping
the carriage returns from the gaps of a division gives a division of the text without them
(`Division.Valid.dropReturns`), with the same lexemes.

The condition is needed: without the line feed behind it, a dropped carriage return could
join two words or close a comment.
-/

namespace NumBool

namespace Text

/-- Every carriage return is followed by a line feed at once. -/
def Paired (text : List Char) : Prop :=
  ∀ before after, text = before ++ '\r' :: after → after.head? = some '\n'

/-- A text without its carriage returns. -/
def dropReturns (text : List Char) : List Char :=
  text.filter (· != '\r')

theorem Paired.of_append {front back : List Char} (h : Paired (front ++ back)) : Paired back := by
  intro before after hback
  refine h (front ++ before) after ?_
  rw [hback, List.append_assoc]

theorem Paired.tail {c : Char} {text : List Char} (h : Paired (c :: text)) : Paired text := by
  rw [← List.singleton_append] at h
  exact h.of_append

theorem Paired.head?_eq {text : List Char} (h : Paired ('\r' :: text)) :
    text.head? = some '\n' :=
  h [] text rfl

theorem paired_cons_iff {c : Char} {text : List Char} :
    Paired (c :: text) ↔ (c = '\r' → text.head? = some '\n') ∧ Paired text := by
  constructor
  · intro h
    refine ⟨?_, h.tail⟩
    rintro rfl
    exact h.head?_eq
  · rintro ⟨hc, h⟩ before after hsplit
    cases before with
    | nil =>
        obtain ⟨rfl, rfl⟩ := List.cons.inj hsplit
        exact hc rfl
    | cons d before => exact h before after (List.cons.inj hsplit).2

instance decidablePaired : (text : List Char) → Decidable (Paired text)
  | [] => .isTrue fun before after h => by simp at h
  | _ :: text =>
    have := decidablePaired text
    decidable_of_iff' _ paired_cons_iff

/-- The text up to some other character is paired as well. -/
theorem Paired.take {front back : List Char} {c : Char} (h : Paired (front ++ c :: back))
    (hc : c ≠ '\r') : Paired (front ++ [c]) := by
  intro before after hsplit
  have hwhole : front ++ c :: back = before ++ '\r' :: (after ++ back) := by
    rw [List.append_cons, hsplit, List.append_assoc, List.cons_append]
  cases after with
  | nil =>
      obtain ⟨-, hlast⟩ := List.append_inj' hsplit rfl
      exact absurd (List.cons.inj hlast).1 hc
  | cons d after => exact h before (d :: after ++ back) hwhole

@[simp]
theorem dropReturns_nil : dropReturns [] = [] := rfl

theorem dropReturns_return (text : List Char) : dropReturns ('\r' :: text) = dropReturns text := rfl

theorem dropReturns_cons {c : Char} (h : c ≠ '\r') (text : List Char) :
    dropReturns (c :: text) = c :: dropReturns text := by
  simp [dropReturns, h]

theorem dropReturns_append (front back : List Char) :
    dropReturns (front ++ back) = dropReturns front ++ dropReturns back :=
  List.filter_append ..

theorem dropReturns_eq_self {text : List Char} (h : '\r' ∉ text) : dropReturns text = text := by
  rw [dropReturns, List.filter_eq_self]
  intro c hc
  rw [bne_iff_ne]
  rintro rfl
  exact h hc

theorem count_dropReturns (text : List Char) :
    (dropReturns text).count '\n' = text.count '\n' :=
  List.count_filter (by decide)

/-- Reading a file with paired line ends drops its carriage returns. -/
theorem unifyNewlines_of_paired {text : List Char} (h : Paired text) :
    unifyNewlines text = dropReturns text := by
  fun_induction unifyNewlines text with
  | case1 => rfl
  | case2 rest ih => rw [dropReturns_return, dropReturns_cons (by decide), ih h.tail.tail]
  | case3 c rest hnot ih =>
      have hc : c ≠ '\r' := by
        rintro rfl
        obtain ⟨tail, rfl⟩ := List.head?_eq_some_iff.mp h.head?_eq
        exact hnot tail rfl rfl
      rw [if_neg hc, dropReturns_cons hc, ih h.tail]

/-- What the first character is like does not change, if a line feed is like this too. -/
theorem head?_dropReturns {q : Char → Prop} (hfeed : q '\n') {text : List Char} (h : Paired text)
    (htext : ∀ c ∈ text.head?, q c) : ∀ c ∈ (dropReturns text).head?, q c := by
  cases text with
  | nil => exact htext
  | cons d text =>
      by_cases hd : d = '\r'
      · subst hd
        obtain ⟨tail, rfl⟩ := List.head?_eq_some_iff.mp h.head?_eq
        rw [dropReturns_return, dropReturns_cons (by decide)]
        intro c hc
        obtain rfl := Option.some.inj hc
        exact hfeed
      · rw [dropReturns_cons hd]
        exact htext

/-- Characters other than line feeds that come first without the carriage returns come
first with them. -/
theorem prefix_of_prefix_dropReturns {chars text : List Char} (h : Paired text)
    (hchars : '\n' ∉ chars) (hstarts : chars <+: dropReturns text) : chars <+: text := by
  induction chars generalizing text with
  | nil => exact List.nil_prefix
  | cons x chars ih =>
      rw [List.mem_cons, not_or] at hchars
      cases text with
      | nil => simp at hstarts
      | cons d text =>
          by_cases hd : d = '\r'
          · subst hd
            obtain ⟨tail, rfl⟩ := List.head?_eq_some_iff.mp h.head?_eq
            rw [dropReturns_return, dropReturns_cons (by decide), List.cons_prefix_cons] at hstarts
            exact absurd hstarts.1.symm hchars.1
          · rw [dropReturns_cons hd, List.cons_prefix_cons] at hstarts
            exact List.cons_prefix_cons.mpr ⟨hstarts.1, ih h.tail hchars.2 hstarts.2⟩

end Text

namespace Token

open Text

theorem hasClose_of_hasClose_dropReturns {text : List Char} (h : Paired text)
    (hclose : HasClose (dropReturns text)) : HasClose text := by
  induction text with
  | nil => exact hclose
  | cons c text ih =>
      rw [hasClose_cons]
      by_cases hc : c = '\r'
      · subst hc
        exact .inr (ih h.tail hclose)
      · rw [dropReturns_cons hc, hasClose_cons] at hclose
        rcases hclose with ⟨hstar, hslash⟩ | hclose
        · obtain ⟨tail, htail⟩ := List.head?_eq_some_iff.mp hslash
          have hstarts : ['/'] <+: text :=
            prefix_of_prefix_dropReturns h.tail (by decide) ⟨tail, htail.symm⟩
          obtain ⟨rest, rfl⟩ := hstarts
          exact .inl ⟨hstar, rfl⟩
        · exact .inr (ih h.tail hclose)

theorem OpensComment.of_dropReturns {rest : List Char} (h : Paired rest)
    (hopens : OpensComment (dropReturns rest)) : OpensComment rest := by
  rcases hopens with ⟨tail, htail⟩ | ⟨tail, htail, hclose⟩
  · obtain ⟨more, rfl⟩ : ['/'] <+: rest :=
      prefix_of_prefix_dropReturns h (by decide) ⟨tail, htail.symm⟩
    exact .inl ⟨more, rfl⟩
  · obtain ⟨more, rfl⟩ : ['*'] <+: rest :=
      prefix_of_prefix_dropReturns h (by decide) ⟨tail, htail.symm⟩
    rw [List.singleton_append, dropReturns_cons (by decide)] at htail
    obtain rfl := (List.cons.inj htail).2
    exact .inr ⟨more, rfl, hasClose_of_hasClose_dropReturns h.tail hclose⟩

/-! ## Gaps -/

theorem Filler.dropReturns {piece rest : List Char} (h : Filler piece rest)
    (hpaired : Paired (piece ++ rest)) :
    piece = ['\r'] ∨ Filler (dropReturns piece) (dropReturns rest) := by
  cases h with
  | @blank c _ hblank =>
      by_cases hc : c = '\r'
      · exact .inl (congrArg (fun d => [d]) hc)
      · rw [dropReturns_cons hc]
        exact .inr (.blank hblank)
  | @lineComment body _ hrun =>
      rw [dropReturns_cons (by decide), dropReturns_cons (by decide)]
      refine .inr (.lineComment ⟨?_, ?_⟩)
      · intro c hc
        exact hrun.inside c (List.mem_filter.mp hc).1
      · exact head?_dropReturns (by decide) hpaired.of_append hrun.boundary
  | @blockComment body _ hbody =>
      rw [dropReturns_cons (by decide), dropReturns_cons (by decide), dropReturns_append]
      refine .inr (.blockComment fun hclose => hbody ?_)
      have hinner : Paired (body ++ '*' :: ('/' :: rest)) := by
        rw [List.cons_append, List.cons_append, List.append_assoc] at hpaired
        exact hpaired.tail.tail
      refine hasClose_of_hasClose_dropReturns (hinner.take (by decide)) ?_
      rw [dropReturns_append]
      exact hclose

theorem Gap.dropReturns {gap rest : List Char} (h : Gap gap rest)
    (hpaired : Paired (gap ++ rest)) : Gap (dropReturns gap) (dropReturns rest) := by
  induction h with
  | nil => exact .nil
  | cons hpiece _ ih =>
      rw [List.append_assoc] at hpaired
      have hgap := ih hpaired.of_append
      rcases hpiece.dropReturns hpaired with rfl | hfiller
      · exact hgap
      · rw [dropReturns_append] at hfiller ⊢
        exact .cons hfiller hgap

/-! ## Lexemes -/

theorem isWordChar_lineEnds : isWordChar '\r' = false ∧ isWordChar '\n' = false := by
  decide +kernel

theorem isDigit_lineEnds : isDigit '\r' = false ∧ isDigit '\n' = false := by
  decide +kernel

theorem lineEnds_notMem_of_inside {p : Char → Bool} (hp : p '\r' = false ∧ p '\n' = false)
    {run : List Char} (h : ∀ c ∈ run, p c = true) : '\r' ∉ run ∧ '\n' ∉ run := by
  constructor
  · intro hmem
    rw [h _ hmem] at hp
    simp at hp
  · intro hmem
    rw [h _ hmem] at hp
    simp at hp

theorem lineEnds_notMem_symbol {kind : TokenKind} (h : kind.IsSymbol) :
    '\r' ∉ kind.text.toList ∧ '\n' ∉ kind.text.toList := by
  cases kind with
  | ident _ | int _ | keyword _ => exact h.elim
  | op op =>
      rcases op with (_ | _) | (_ | _ | _ | _ | _ | _) | (_ | _) | (_ | _ | _) | _
      all_goals decide +kernel
  | mark mark =>
      cases mark
      all_goals decide +kernel

theorem Lexeme.lineEnds_notMem {kind : TokenKind} {text rest : List Char}
    (h : Lexeme kind text rest) : '\r' ∉ text ∧ '\n' ∉ text := by
  have hword : ∀ {text rest}, IsWord text rest → '\r' ∉ text ∧ '\n' ∉ text := by
    rintro _ _ ⟨first, run, rfl, hfirst, hrun⟩
    obtain ⟨hlo, -⟩ := toNat_of_isWordStart hfirst
    obtain ⟨hreturn, hfeed⟩ := lineEnds_notMem_of_inside isWordChar_lineEnds hrun.inside
    rw [List.mem_cons, List.mem_cons, not_or, not_or]
    refine ⟨⟨?_, hreturn⟩, ?_, hfeed⟩
    · rintro rfl
      exact absurd hlo (by decide)
    · rintro rfl
      exact absurd hlo (by decide)
  cases h with
  | number _ hrun _ => exact lineEnds_notMem_of_inside isDigit_lineEnds hrun.inside
  | keyword h _ => exact hword h
  | name h _ => exact hword h
  | symbol hkind _ _ => exact lineEnds_notMem_symbol hkind

theorem MaximalRun.dropReturns {p : Char → Bool} (hp : p '\n' = false) {run rest : List Char}
    (h : MaximalRun p run rest) (hrest : Paired rest) : MaximalRun p run (dropReturns rest) :=
  ⟨h.inside, head?_dropReturns hp hrest h.boundary⟩

theorem IsWord.dropReturns {text rest : List Char} (h : IsWord text rest) (hrest : Paired rest) :
    IsWord text (dropReturns rest) := by
  obtain ⟨first, run, rfl, hfirst, hrun⟩ := h
  exact ⟨first, run, rfl, hfirst, hrun.dropReturns isWordChar_lineEnds.2 hrest⟩

/-- A lexeme is one whether or not there are carriage returns behind it. -/
theorem Lexeme.dropReturns {kind : TokenKind} {text rest : List Char} (h : Lexeme kind text rest)
    (hpaired : Paired (text ++ rest)) : Lexeme kind text (dropReturns rest) := by
  have hrest := hpaired.of_append
  cases h with
  | number hne hrun hlength =>
      exact .number hne (hrun.dropReturns isDigit_lineEnds.2 hrest) hlength
  | keyword hword hreserved => exact .keyword (hword.dropReturns hrest) hreserved
  | name hword hfree => exact .name (hword.dropReturns hrest) hfree
  | symbol hkind hlongest hslash =>
      refine .symbol hkind ?_ fun hdiv hopens => hslash hdiv (hopens.of_dropReturns hrest)
      intro other hother hstarts
      refine hlongest other hother ?_
      refine prefix_of_prefix_dropReturns hpaired (lineEnds_notMem_symbol hother).2 ?_
      rwa [dropReturns_append, dropReturns_eq_self (lineEnds_notMem_symbol hkind).1]

theorem Halts.dropReturns {rest : List Char} {halt : Halt} (h : Halts rest halt)
    (hpaired : Paired rest) : Halts (dropReturns rest) halt := by
  cases h with
  | finished => exact .finished
  | @illegal c rest hblank hdigit hword hsymbol =>
      have hc : c ≠ '\r' := by
        rintro rfl
        simp [isBlank] at hblank
      rw [dropReturns_cons hc]
      refine .illegal hblank hdigit hword fun kind hkind hstarts => hsymbol kind hkind ?_
      refine prefix_of_prefix_dropReturns hpaired (lineEnds_notMem_symbol hkind).2 ?_
      rwa [dropReturns_cons hc]
  | @tooManyDigits digits rest hrun hlength =>
      have hdigits := (lineEnds_notMem_of_inside isDigit_lineEnds hrun.inside).1
      rw [dropReturns_append, dropReturns_eq_self hdigits]
      exact .tooManyDigits (hrun.dropReturns isDigit_lineEnds.2 hpaired.of_append) hlength

/-! ## Divisions -/

/-- A part without the carriage returns of its gap. -/
def Part.dropReturns (part : Part) : Part :=
  { part with gap := Text.dropReturns part.gap }

/-- A division without the carriage returns of its gaps and of what is left behind them. -/
def Division.dropReturns (d : Division) : Division where
  parts := d.parts.map Part.dropReturns
  last := Text.dropReturns d.last
  rest := Text.dropReturns d.rest
  halt := d.halt

theorem Divided.partsText_dropReturns {tail : List Char} {parts : List Part}
    (h : Divided tail parts) (last : List Char) :
    partsText (parts.map Part.dropReturns) (dropReturns last) =
      dropReturns (partsText parts last) := by
  induction h with
  | nil => rfl
  | cons hgap hlexeme _ ih =>
      rw [List.map_cons, partsText_cons, partsText_cons, ih, dropReturns_append,
        dropReturns_append, dropReturns_eq_self hlexeme.lineEnds_notMem.1]
      rfl

theorem Divided.dropReturns {tail : List Char} {parts : List Part} (h : Divided tail parts)
    (hpaired : Paired (partsText parts tail)) :
    Divided (dropReturns tail) (parts.map Part.dropReturns) := by
  induction h with
  | nil => exact .nil
  | @cons part parts hgap hlexeme hbehind ih =>
      rw [partsText_cons] at hpaired
      have hafter := hpaired.of_append
      have hgap' := hgap.dropReturns hpaired
      have hlexeme' := hlexeme.dropReturns hafter
      rw [dropReturns_append, dropReturns_eq_self hlexeme.lineEnds_notMem.1,
        ← hbehind.partsText_dropReturns] at hgap'
      rw [← hbehind.partsText_dropReturns] at hlexeme'
      exact .cons hgap' hlexeme' (ih hafter.of_append)

theorem Division.Valid.text_dropReturns {d : Division} (h : d.Valid) :
    d.dropReturns.text = Text.dropReturns d.text := by
  rw [Division.text, Division.text, ← h.parts.partsText_dropReturns, dropReturns_append]
  rfl

theorem Division.Valid.dropReturns {d : Division} (h : d.Valid) (hpaired : Paired d.text) :
    d.dropReturns.Valid := by
  have htail : Paired (d.last ++ d.rest) := by
    rw [Division.text, ← List.nil_append (d.last ++ d.rest), partsText_append] at hpaired
    exact hpaired.of_append
  have hparts := h.parts.dropReturns hpaired
  rw [dropReturns_append] at hparts
  exact ⟨hparts, h.last.dropReturns htail, h.halts.dropReturns htail.of_append⟩

/-! ## Tokens -/

/-- A token without its offset, which counts the characters before it. -/
def withoutOffset (token : Token) : Token :=
  { token with offset := 0 }

/-- A scan without the offsets of its tokens. -/
def Scan.withoutOffsets (scan : Scan) : Scan :=
  { scan with tokens := scan.tokens.map withoutOffset }

theorem tokensOf_dropReturns (parts : List Part) (line offset offset' : Nat) :
    (tokensOf (parts.map Part.dropReturns) line offset).map withoutOffset =
      (tokensOf parts line offset').map withoutOffset := by
  induction parts generalizing line offset offset' with
  | nil => rfl
  | cons part parts ih =>
      have hgap : (Part.dropReturns part).gap.count '\n' = part.gap.count '\n' :=
        count_dropReturns part.gap
      rw [List.map_cons, tokensOf, tokensOf, List.map_cons, List.map_cons, hgap]
      exact congrArg₂ List.cons rfl (ih ..)

/-- The scanner finds the same tokens on the same lines, and stops for the same reason on the
same line, if it is given the text without its carriage returns. -/
theorem scanFrom_dropReturns {text : List Char} (h : Paired text) (line offset : Nat) :
    (scanFrom (dropReturns text) 0 line offset).withoutOffsets =
      (scanFrom text 0 line offset).withoutOffsets := by
  obtain ⟨d, rfl, hd⟩ := exists_division text
  rw [← hd.text_dropReturns, (hd.dropReturns h).scanFrom_eq, hd.scanFrom_eq]
  have hlines : (partsText d.dropReturns.parts d.dropReturns.last).count '\n' =
      (partsText d.parts d.last).count '\n' := by
    rw [← count_dropReturns (partsText d.parts d.last), ← hd.parts.partsText_dropReturns]
    rfl
  rw [Division.scan, Division.scan, Scan.withoutOffsets, Scan.withoutOffsets, hlines]
  exact congrArg (Scan.mk · _) (tokensOf_dropReturns d.parts line offset offset)

end Token

end NumBool
