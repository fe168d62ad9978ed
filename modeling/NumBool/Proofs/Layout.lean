import NumBool.Proofs.RoundTrip
import NumBool.Proofs.Token.Places

/-!
# Layout carries no meaning

Blanks in front of a token can be added, and a comment can be replaced by a single space.  What
stands behind the edited place is scanned as before, on other lines.  What stands before it is
made of whole pieces, and each of them is still a piece: a run of digits or word characters ends
at a blank, no operator goes on with one, no line comment ends where something other than a line
feed follows, and an opening that nothing closed is not closed by blanks (`Separates`,
`Passes.of_separates`).

The reader never looks at the places of tokens, so with the same tokens it builds the same
program or refuses the same token (`parse_unplaced`).
-/

namespace NumBool

namespace Token

/-! ## What can stand in place of the rest of a text -/

/-- The text `other` can stand in place of `rest` behind whole pieces.  No line comment ends
before `rest`, nothing goes on into `other`, and `other` closes no more than `rest` does. -/
structure Separates (rest other : List Char) : Prop where
  starts : ∃ c ∈ rest.head?, c ≠ '\n'
  blank : ∀ c ∈ other.head?, isBlank c = true
  closes : ∀ front, HasClose (front ++ other) → HasClose (front ++ rest)

section

variable {rest other : List Char}

theorem Separates.head? (h : Separates rest other) {q : Char → Prop}
    (hblank : ∀ c, isBlank c = true → q c) {front : List Char}
    (hfront : ∀ c ∈ (front ++ rest).head?, q c) : ∀ c ∈ (front ++ other).head?, q c := by
  cases front with
  | nil =>
      intro c hc
      exact hblank c (h.blank c hc)
  | cons d front => exact hfront

/-- A character other than a blank does not come from `other`. -/
theorem Separates.exists_eq_cons (h : Separates rest other) {c : Char} (hc : isBlank c = false)
    {front tail : List Char} (htext : front ++ other = c :: tail) :
    ∃ more, front = c :: more ∧ more ++ other = tail := by
  cases front with
  | nil =>
      rw [List.nil_append] at htext
      have hblank := h.blank c (by rw [htext]; rfl)
      rw [hc] at hblank
      simp at hblank
  | cons d front =>
      obtain ⟨rfl, htail⟩ := List.cons.inj htext
      exact ⟨front, rfl, htail⟩

/-- A text without blanks that stands before `other` stands before `rest` too. -/
theorem Separates.isPrefix (h : Separates rest other) {chars front : List Char}
    (hchars : ∀ c ∈ chars, isBlank c = false) (hstarts : chars <+: front ++ other) :
    chars <+: front ++ rest := by
  induction chars generalizing front with
  | nil => exact List.nil_prefix
  | cons x chars ih =>
      obtain ⟨tail, htail⟩ := hstarts
      obtain ⟨more, rfl, hmore⟩ := h.exists_eq_cons (hchars x List.mem_cons_self) htail.symm
      rw [List.cons_append, List.cons_prefix_cons]
      exact ⟨rfl, ih (fun c hc => hchars c (List.mem_cons_of_mem x hc)) ⟨tail, hmore.symm⟩⟩

theorem Separates.opensComment (h : Separates rest other) {front : List Char}
    (hopens : OpensComment (front ++ other)) : OpensComment (front ++ rest) := by
  rcases hopens with ⟨tail, htail⟩ | ⟨tail, htail, hclose⟩
  · obtain ⟨more, rfl, -⟩ := h.exists_eq_cons (by decide) htail
    exact .inl ⟨more ++ rest, rfl⟩
  · obtain ⟨more, rfl, rfl⟩ := h.exists_eq_cons (by decide) htail
    exact .inr ⟨more ++ rest, rfl, h.closes more hclose⟩

theorem MaximalRun.of_separates {p : Char → Bool} (hp : ∀ c, isBlank c = true → p c = false)
    {run front : List Char} (h : MaximalRun p run (front ++ rest)) (hother : Separates rest other) :
    MaximalRun p run (front ++ other) :=
  ⟨h.inside, hother.head? hp h.boundary⟩

theorem isWordChar_of_isBlank {c : Char} (h : isBlank c = true) : Text.isWordChar c = false := by
  rcases isBlank_iff.mp h with rfl | rfl | rfl | rfl
  all_goals decide +kernel

theorem isBlank_of_mem_symbol {kind : TokenKind} (h : kind.IsSymbol) :
    ∀ c ∈ kind.text.toList, isBlank c = false := by
  have hall : kind.text.toList.all (!isBlank ·) = true := by
    cases kind with
    | ident _ | int _ | keyword _ => exact h.elim
    | op op =>
        rcases op with (_ | _) | (_ | _ | _ | _ | _ | _) | (_ | _) | (_ | _ | _) | _
        all_goals decide +kernel
    | mark mark =>
        cases mark
        all_goals decide +kernel
  simpa [List.all_eq_true] using hall

theorem IsWord.of_separates {text front : List Char} (h : IsWord text (front ++ rest))
    (hother : Separates rest other) : IsWord text (front ++ other) := by
  obtain ⟨first, run, rfl, hfirst, hrun⟩ := h
  exact ⟨first, run, rfl, hfirst, hrun.of_separates (fun _ => isWordChar_of_isBlank) hother⟩

theorem Lexeme.of_separates {kind : TokenKind} {text front : List Char}
    (h : Lexeme kind text (front ++ rest)) (hother : Separates rest other) :
    Lexeme kind text (front ++ other) := by
  cases h with
  | number hne hrun hlength =>
      exact .number hne (hrun.of_separates (fun _ => isDigit_of_isBlank) hother) hlength
  | keyword hword hreserved => exact .keyword (hword.of_separates hother) hreserved
  | name hword hfree => exact .name (hword.of_separates hother) hfree
  | symbol hkind hlongest hslash =>
      refine .symbol hkind ?_ fun hdiv hopens => hslash hdiv (hother.opensComment hopens)
      intro symbol hsymbol hstarts
      refine hlongest symbol hsymbol ?_
      rw [← List.append_assoc] at hstarts ⊢
      exact hother.isPrefix (isBlank_of_mem_symbol hsymbol) hstarts

theorem Filler.of_separates {piece front : List Char} (h : Filler piece (front ++ rest))
    (hother : Separates rest other) : Filler piece (front ++ other) := by
  cases h with
  | blank hblank => exact .blank hblank
  | blockComment hbody => exact .blockComment hbody
  | lineComment hrun =>
      cases front with
      | nil =>
          -- a line comment would go on over the first character of the rest
          obtain ⟨c, hc, hne⟩ := hother.starts
          exact absurd (by simpa using hrun.boundary c hc) hne
      | cons d front => exact .lineComment ⟨hrun.inside, hrun.boundary⟩

/-- Whole pieces stay whole pieces before another rest. -/
theorem Passes.of_separates {kinds : List TokenKind} {passed : List Char}
    (h : Passes kinds passed rest) (hother : Separates rest other) : Passes kinds passed other := by
  induction h with
  | nil => exact .nil
  | filler hpiece _ ih => exact .filler (hpiece.of_separates hother) (ih hother)
  | lexeme htext _ ih => exact .lexeme (htext.of_separates hother) (ih hother)

/-! ## Blanks and comments -/

/-- A blank is no part of the end of a comment. -/
theorem hasClose_append_blank {c : Char} (hc : isBlank c = true) {front back : List Char}
    (h : HasClose (front ++ c :: back)) : HasClose front ∨ HasClose back := by
  have hstar : c ≠ '*' := by
    rintro rfl
    simp [isBlank] at hc
  have hslash : c ≠ '/' := by
    rintro rfl
    simp [isBlank] at hc
  induction front with
  | nil =>
      rw [List.nil_append, hasClose_cons] at h
      exact .inr (h.resolve_left fun hclose => hstar hclose.1)
  | cons d front ih =>
      rw [List.cons_append, hasClose_cons] at h
      rw [hasClose_cons]
      rcases h with ⟨hd, hnext⟩ | h
      · cases front with
        | nil => exact absurd (Option.some.inj hnext) hslash
        | cons e front => exact .inl (.inl ⟨hd, hnext⟩)
      · exact (ih h).imp_left .inr

theorem HasClose.mono {text other : List Char} (h : HasClose text) (hpart : text <:+: other) :
    HasClose other :=
  List.IsInfix.trans h hpart

theorem hasClose_of_blanks {blanks back : List Char} (hblanks : ∀ c ∈ blanks, isBlank c = true)
    (h : HasClose (blanks ++ back)) : HasClose back := by
  induction blanks with
  | nil => exact h
  | cons c blanks ih =>
      rw [List.cons_append, ← List.nil_append (c :: _)] at h
      rcases hasClose_append_blank (hblanks c List.mem_cons_self) h with h | h
      · simp [HasClose] at h
      · exact ih (fun d hd => hblanks d (List.mem_cons_of_mem c hd)) h

theorem gap_blanks {blanks : List Char} (h : ∀ c ∈ blanks, isBlank c = true) (rest : List Char) :
    Gap blanks rest := by
  induction blanks with
  | nil => exact .nil
  | cons c blanks ih =>
      have hfirst : Filler [c] (blanks ++ rest) := .blank (h c List.mem_cons_self)
      exact .cons hfirst (ih fun d hd => h d (List.mem_cons_of_mem c hd))

/-- One blank or more can be put in front of the rest of a text. -/
theorem separates_blanks {c : Char} {blanks rest : List Char}
    (hstarts : ∃ c ∈ rest.head?, c ≠ '\n') (hblanks : ∀ d ∈ c :: blanks, isBlank d = true) :
    Separates rest (c :: blanks ++ rest) where
  starts := hstarts
  blank d hd := by
    obtain rfl := Option.some.inj hd
    exact hblanks c List.mem_cons_self
  closes front h := by
    rcases hasClose_append_blank (hblanks c List.mem_cons_self) h with h | h
    · exact h.mono (List.prefix_append front rest).isInfix
    · refine (hasClose_of_blanks ?_ h).mono (List.suffix_append front rest).isInfix
      exact fun d hd => hblanks d (List.mem_cons_of_mem c hd)

/-- A comment before the rest of a text. -/
def IsComment (text rest : List Char) : Prop :=
  Filler text rest ∧ text.head? = some '/'

/-- A space can stand in place of a comment. -/
theorem IsComment.separates {comment rest : List Char} (h : IsComment comment rest) :
    Separates (comment ++ rest) (' ' :: rest) where
  starts := by
    obtain ⟨tail, rfl⟩ := List.head?_eq_some_iff.mp h.2
    exact ⟨'/', rfl, by decide⟩
  blank d hd := by
    obtain rfl := Option.some.inj hd
    rfl
  closes front hclose := by
    rcases hasClose_append_blank rfl hclose with hclose | hclose
    · exact hclose.mono (List.prefix_append front _).isInfix
    · refine hclose.mono (List.IsSuffix.isInfix ?_)
      rw [← List.append_assoc]
      exact List.suffix_append _ rest

/-- No lexeme starts with a line feed. -/
theorem Lexeme.starts {kind : TokenKind} {text rest : List Char} (h : Lexeme kind text rest) :
    ∃ c ∈ (text ++ rest).head?, c ≠ '\n' := by
  obtain ⟨c, more, rfl, -⟩ := pieceAt_of_lexeme h
  refine ⟨c, rfl, ?_⟩
  rintro rfl
  exact h.lineEnds_notMem.2 List.mem_cons_self

end

/-! ## Texts with the same tokens -/

/-- Texts that go on in the same way behind the same tokens have the same tokens, and the
scanner reaches the end of both or of none. -/
theorem scan_alike_of_passes {source edited : String} {kinds : List TokenKind}
    {front front' rest : List Char} (hsource : source.toList = front ++ rest)
    (hedited : edited.toList = front' ++ rest) (h : Passes kinds front rest)
    (h' : Passes kinds front' rest) :
    (scan edited).kinds = (scan source).kinds ∧
      (ParseError.ofEnding? (scan edited).ending = none ↔
        ParseError.ofEnding? (scan source).ending = none) := by
  obtain ⟨tokens, hkinds, -, hscan⟩ := h.exists_scanFrom 1 0
  obtain ⟨tokens', hkinds', -, hscan'⟩ := h'.exists_scanFrom 1 0
  obtain ⟨hrest, hending⟩ := scanFrom_anywhere rest 0 (1 + front'.count '\n')
    (0 + front'.length) (1 + front.count '\n') (0 + front.length)
  rw [scan, scan, hsource, hedited, hscan, hscan']
  refine ⟨?_, hending⟩
  rw [Scan.kinds, Scan.kinds, Scan.prepend, Scan.prepend, List.map_append, List.map_append, hkinds,
    hkinds']
  exact congrArg (kinds ++ ·) hrest

theorem ofEnding?_eq_none_iff {ending : Ending} :
    ParseError.ofEnding? ending = none ↔ ∃ line, ending = .finished line := by
  cases ending with
  | finished line => simp [ParseError.ofEnding?]
  | illegal _ _ | tooManyDigits _ _ => simp [ParseError.ofEnding?]

end Token

/-- What an error is about, apart from where it is. -/
def ParseError.unplaced : ParseError → ParseError
  | illegal char _ => illegal char 0
  | unexpected token => unexpected ⟨token.kind, 0, 0⟩
  | error => error

namespace Phrase

open NumBool.Token

/-- The kinds of the tokens decide the parse of a text that is scanned to its end. -/
theorem parse_unplaced {source : String} {line : Nat}
    (h : (scan source).ending = .finished line) :
    (parse source).mapError ParseError.unplaced =
      parseScan ⟨(scan source).kinds.map fun kind => ⟨kind, 0, 0⟩, .finished 0⟩ := by
  refine (parseScan_map (fun token => ⟨token.kind, 0, 0⟩) ParseError.unplaced (fun _ => rfl)
    (fun _ => rfl) rfl ?_ ?_).symm
  · rw [Scan.kinds, List.map_map]
    rfl
  · rw [h]
    rfl

/-- A text that is edited is still scanned to its end and has the same tokens; it is parsed to
the same program, or is refused for the same reason at another place. -/
structure ReadAlike (source edited : String) : Prop where
  finishes : ∃ line, (scan edited).ending = .finished line
  pairs : (scan edited).pairs = (scan source).pairs
  parses : (parse edited).mapError ParseError.unplaced =
    (parse source).mapError ParseError.unplaced

theorem readAlike_of_passes {source : String} {line : Nat} {kinds : List TokenKind}
    {front front' rest : List Char} (hfinished : (scan source).ending = .finished line)
    (hsource : source.toList = front ++ rest) (h : Passes kinds front rest)
    (h' : Passes kinds front' rest) : ReadAlike source (String.ofList (front' ++ rest)) := by
  obtain ⟨hkinds, hending⟩ := scan_alike_of_passes hsource String.toList_ofList h h'
  obtain ⟨line', hfinished'⟩ := ofEnding?_eq_none_iff.mp
    (hending.mpr (ofEnding?_eq_none_iff.mpr ⟨line, hfinished⟩))
  refine ⟨⟨line', hfinished'⟩, Scan.pairs_eq_iff.mpr hkinds, ?_⟩
  rw [parse_unplaced hfinished, parse_unplaced hfinished', hkinds]

theorem readAlike_insert_blanks {source : String} {line : Nat} {token : Token}
    {blanks : List Char} (hfinished : (scan source).ending = .finished line)
    (htoken : token ∈ (scan source).tokens) (hblanks : ∀ c ∈ blanks, isBlank c = true) :
    ReadAlike source (String.ofList
      (source.toList.take token.offset ++ (blanks ++ source.toList.drop token.offset))) := by
  obtain ⟨before, lexeme, after, htext, ⟨kinds, hbefore⟩, hlexeme, -, hoffset⟩ :=
    exists_place_of_mem_tokens htoken
  rw [hoffset, htext, List.take_left, List.drop_left, ← List.append_assoc]
  refine readAlike_of_passes hfinished htext hbefore ?_
  cases blanks with
  | nil => rwa [List.append_nil]
  | cons c blanks =>
      have hseparated := hbefore.of_separates (separates_blanks hlexeme.starts hblanks)
      have hpassed := hseparated.append (gap_blanks hblanks (lexeme ++ after)).passes
      rwa [List.append_nil] at hpassed

theorem readAlike_replace_comment {source : String} {line : Nat} {before comment after : List Char}
    (hfinished : (scan source).ending = .finished line)
    (htext : source.toList = before ++ (comment ++ after))
    (hplace : Reaches before (comment ++ after)) (hcomment : IsComment comment after) :
    ReadAlike source (String.ofList (before ++ ' ' :: after)) := by
  obtain ⟨kinds, hbefore⟩ := hplace
  have hspace : Filler [' '] after := .blank rfl
  have hold := hbefore.append hcomment.1.passes
  have hnew := (hbefore.of_separates hcomment.separates).append hspace.passes
  rw [← List.append_assoc] at htext
  have halike := readAlike_of_passes hfinished htext hold hnew
  rwa [List.append_assoc] at halike

/-- Layout carries no meaning.  If a text is scanned to its end, then any blanks may be put in
front of any of its tokens, and any of its comments may be replaced by a space: the classes and
values of the tokens stay the same, and so does the parse but for the places in its error. -/
theorem parse_ignores_layout {source : String} {line : Nat}
    (hfinished : (scan source).ending = .finished line) :
    (∀ token ∈ (scan source).tokens, ∀ blanks : List Char, (∀ c ∈ blanks, isBlank c = true) →
      ReadAlike source (String.ofList
        (source.toList.take token.offset ++ (blanks ++ source.toList.drop token.offset)))) ∧
    ∀ before comment after : List Char, source.toList = before ++ (comment ++ after) →
      Reaches before (comment ++ after) → IsComment comment after →
      ReadAlike source (String.ofList (before ++ ' ' :: after)) := by
  constructor
  · intro token htoken blanks hblanks
    exact readAlike_insert_blanks hfinished htoken hblanks
  · intro before comment after htext hplace hcomment
    exact readAlike_replace_comment hfinished htext hplace hcomment

/-- In `/*//*` the first slash and star are operators, and what follows them is a comment.  The
operators may be put apart, and the comment may become a space. -/
theorem parse_ignores_layout_openingFirst :
    (scan "/*//*\n1").ending = .finished 2 ∧
    ReadAlike "/*//*\n1" "/\r\n*//*\n1" ∧
    ReadAlike "/*//*\n1" "/* \n1" := by
  have hscan : scan "/*//*\n1" = ⟨[⟨.op (.product .div), 1, 0⟩, ⟨.op (.product .times), 1, 1⟩,
      ⟨.int 1, 2, 6⟩], .finished 2⟩ := by decide +kernel
  have hfinished : (scan "/*//*\n1").ending = .finished 2 := by rw [hscan]
  have hslash : pieceAt '/' "*//*\n1".toList = .lexeme (.op (.product .div)) 0 := by decide +kernel
  have hstar : pieceAt '*' "//*\n1".toList = .lexeme (.op (.product .times)) 0 := by decide +kernel
  have hcomment : pieceAt '/' "/*\n1".toList = .gap 2 := by decide +kernel
  have hplace : Passes _ ['/', '*'] "//*\n1".toList :=
    .lexeme (lexeme_of_pieceAt hslash) (.lexeme (lexeme_of_pieceAt hstar) .nil)
  obtain ⟨hblanks, hcomments⟩ := parse_ignores_layout hfinished
  refine ⟨hfinished, ?_, ?_⟩
  · exact hblanks ⟨.op (.product .times), 1, 1⟩ (by simp [hscan]) ['\r', '\n'] (by simp [isBlank])
  · exact hcomments ['/', '*'] ['/', '/', '*'] ['\n', '1'] rfl ⟨_, hplace⟩
      ⟨filler_of_pieceAt hcomment, rfl⟩

end Phrase

end NumBool
