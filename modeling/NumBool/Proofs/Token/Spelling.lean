import NumBool.Proofs.Token.Pieces

/-!
# How tokens are spelled

A token can be written in a text if its name is a word that is not reserved, or if its
number does not have too many digits; marks, operators and reserved words always can.
Where a token is written and a space or the end follows, the scanner finds exactly this
token (`readsAs_text`), so a list of tokens with single spaces between them is
scanned back to the same list (`scan_spaced`).  In the other direction, the scanner
only ever finds tokens that can be written (`isWritable_of_mem_scan`).
-/

namespace NumBool

/-- Whether a word names a variable: it starts with a letter or an underscore, goes on
with word characters, and is not reserved. -/
def isName (name : String) : Bool :=
  match name.toList with
  | [] => false
  | c :: rest =>
    Text.isWordStart c && rest.all Text.isWordChar && (Keyword.ofText? name).isNone

/-- Whether a text can hold a token of this kind. -/
def TokenKind.isWritable : TokenKind → Bool
  | .ident name => isName name
  | .int value => (Nat.toDigits 10 value).length ≤ Text.maxDigits
  | _ => true

/-- The text of some tokens, with single spaces between them. -/
def TokenKind.spaced (kinds : List TokenKind) : String :=
  " ".intercalate (kinds.map TokenKind.text)

namespace Text

theorem isDigit_of_isDigit {c : Char} (h : c.isDigit = true) : isDigit c = true := by
  obtain ⟨hlo, hhi⟩ := Char.isDigit_iff_toNat.mp h
  change 0x30 ≤ c.toNat at hlo
  change c.toNat ≤ 0x39 at hhi
  rw [isDigit, Ranges.holds, digitRanges, Ranges.find?_cons, if_neg (by omega), if_pos hhi]
  rfl

theorem digitValue_of_isDigit {c : Char} (h : c.isDigit = true) :
    digitValue c = c.toNat - '0'.toNat := by
  obtain ⟨hlo, hhi⟩ := Char.isDigit_iff_toNat.mp h
  change 0x30 ≤ c.toNat at hlo
  change c.toNat ≤ 0x39 at hhi
  rw [digitValue, digitRanges, Ranges.find?_cons, if_neg (by omega), if_pos hhi]
  change (c.toNat - 0x30) % 10 = c.toNat - 0x30
  omega

theorem foldl_digitValue {digits : List Char} (h : ∀ c ∈ digits, c.isDigit = true) (n : Nat) :
    digits.foldl (fun n c => n * 10 + digitValue c) n = Nat.ofDigitChars 10 digits n := by
  induction digits generalizing n with
  | nil => rfl
  | cons c digits ih =>
      have hc := digitValue_of_isDigit (h c List.mem_cons_self)
      rw [List.foldl_cons, ih fun d hd => h d (List.mem_cons_of_mem c hd), hc, Nat.mul_comm,
        Nat.ofDigitChars_cons]

/-- The decimal digits of a number denote it. -/
theorem digitsValue_toDigits (n : Nat) : digitsValue (Nat.toDigits 10 n) = n := by
  have hdigits : ∀ c ∈ Nat.toDigits 10 n, c.isDigit = true := by
    intro c hc
    exact Nat.isDigit_of_mem_toDigits (by decide) (by decide) hc
  rw [digitsValue, foldl_digitValue hdigits, Nat.ofDigitChars_ten_toDigits]

/-- A run of digits is no shorter than the digits of its value. -/
theorem length_toDigits_digitsValue_le (c : Char) (digits : List Char) :
    (Nat.toDigits 10 (digitsValue (c :: digits))).length ≤ (c :: digits).length := by
  have hvalue : ∀ (digits : List Char) (n : Nat),
      digits.foldl (fun n c => n * 10 + digitValue c) n < (n + 1) * 10 ^ digits.length := by
    intro digits
    induction digits with
    | nil => simp
    | cons c digits ih =>
        intro n
        have hc := digitValue_lt c
        calc
          _ < (n * 10 + digitValue c + 1) * 10 ^ digits.length := ih _
          _ ≤ (n + 1) * 10 * 10 ^ digits.length := Nat.mul_le_mul_right _ (by omega)
          _ = (n + 1) * 10 ^ (c :: digits).length := by
            rw [List.length_cons, Nat.pow_succ, Nat.mul_assoc, Nat.mul_comm 10]
  have hzero := hvalue (c :: digits) 0
  rw [Nat.zero_add, Nat.one_mul] at hzero
  exact (Nat.length_toDigits_le_iff (by decide) (by simp)).mpr hzero

theorem isWordChar_of_isWordStart {c : Char} (h : isWordStart c = true) : isWordChar c = true := by
  simp only [isWordStart, Bool.or_eq_true, Bool.and_eq_true, decide_eq_true_eq, Char.le_def,
    UInt32.le_iff_toNat_le] at h
  rw [isWordChar, Bool.or_eq_true, decide_eq_true_eq,
    Ranges.holds_iff_exists_mem ascends_alphanumericRanges]
  rcases h with (rfl | ⟨hlo, hhi⟩) | ⟨hlo, hhi⟩
  · exact .inl rfl
  · exact .inr ⟨(0x61, 0x7a), .tail _ (.tail _ (.head _)), hlo, hhi⟩
  · exact .inr ⟨(0x41, 0x5a), .tail _ (.head _), hlo, hhi⟩

end Text

namespace Token

/-- What follows a token: the end of the text, or a space. -/
def Ends (more : List Char) : Prop :=
  more = [] ∨ ∃ rest, more = ' ' :: rest

theorem maximalRun_of_ends {p : Char → Bool} (hspace : p ' ' = false) {run more : List Char}
    (hrun : ∀ c ∈ run, p c = true) (hmore : Ends more) : MaximalRun p run more := by
  refine ⟨hrun, fun c hc => ?_⟩
  rcases hmore with rfl | ⟨rest, rfl⟩
  · simp at hc
  · obtain rfl := Option.some.inj hc
    exact hspace

/-- A kind is read where its text stands before a space or the end. -/
def ReadsAs (text : List Char) (kind : TokenKind) : Prop :=
  ∃ (c : Char) (run : List Char), text = c :: run ∧
    ∀ more, Ends more → pieceAt c (run ++ more) = .lexeme kind run.length

theorem readsAs_of_lexeme {text : List Char} {kind : TokenKind}
    (h : ∀ more, Ends more → Lexeme kind text more) : ReadsAs text kind := by
  obtain ⟨c, run, rfl, -⟩ := pieceAt_of_lexeme (h [] (.inl rfl))
  refine ⟨c, run, rfl, fun more hmore => ?_⟩
  obtain ⟨first, rest, htext, hpiece⟩ := pieceAt_of_lexeme (h more hmore)
  obtain ⟨rfl, rfl⟩ := List.cons.inj htext
  exact hpiece

theorem readsAs_ident {name : String} (h : isName name = true) :
    ReadsAs name.toList (.ident name) := by
  unfold isName at h
  split at h
  · simp at h
  · next c run hname =>
      simp only [Bool.and_eq_true, List.all_eq_true, Option.isNone_iff_eq_none] at h
      obtain ⟨⟨hc, hrun⟩, hfree⟩ := h
      refine readsAs_of_lexeme fun more hmore => ?_
      have hword : IsWord name.toList more :=
        ⟨c, run, hname, hc, maximalRun_of_ends (by decide +kernel) hrun hmore⟩
      have hlexeme := Lexeme.name hword fun word => by
        rw [String.ofList_toList]
        exact Keyword.ofText?_eq_none_iff.mp hfree word
      rwa [String.ofList_toList] at hlexeme

theorem readsAs_int {value : Nat} (h : (Nat.toDigits 10 value).length ≤ Text.maxDigits) :
    ReadsAs (toString value).toList (.int value) := by
  rw [Nat.toString_eq_ofList_toDigits, String.toList_ofList]
  have hdigits : ∀ c ∈ Nat.toDigits 10 value, Text.isDigit c = true := by
    intro c hc
    exact Text.isDigit_of_isDigit (Nat.isDigit_of_mem_toDigits (by decide) (by decide) hc)
  refine readsAs_of_lexeme fun more hmore => ?_
  have hlexeme := Lexeme.number Nat.toDigits_ne_nil
    (maximalRun_of_ends (by decide +kernel) hdigits hmore) h
  rwa [← Text.digitsValue_eq_ofDigits, Text.digitsValue_toDigits] at hlexeme

theorem readsAs_keyword (word : Keyword) : ReadsAs word.text.toList (.keyword word) := by
  have hword : ∃ c run, word.text.toList = c :: run ∧ Text.isWordStart c = true ∧
      run.all Text.isWordStart = true := by
    rcases word with (_ | _) | _ | _ | _ | (_ | _)
    all_goals exact ⟨_, _, rfl, by decide, by decide⟩
  obtain ⟨c, run, htext, hc, hstart⟩ := hword
  have hrun : ∀ d ∈ run, Text.isWordChar d = true := by
    intro d hd
    exact Text.isWordChar_of_isWordStart (List.all_eq_true.mp hstart d hd)
  refine readsAs_of_lexeme fun more hmore => ?_
  exact .keyword ⟨c, run, htext, hc, maximalRun_of_ends (by decide +kernel) hrun hmore⟩
    String.ofList_toList

theorem readsAs_op (op : Op) : ReadsAs op.text.toList (.op op) := by
  rcases op with (_ | _) | (_ | _ | _ | _ | _ | _) | (_ | _) | (_ | _ | _) | _
  all_goals
    refine ⟨_, _, rfl, fun more hmore => ?_⟩
    rcases hmore with rfl | ⟨rest, rfl⟩
    · rfl
    · rfl

theorem readsAs_mark (mark : Mark) : ReadsAs mark.text.toList (.mark mark) := by
  cases mark
  all_goals
    refine ⟨_, _, rfl, fun more hmore => ?_⟩
    rcases hmore with rfl | ⟨rest, rfl⟩
    · rfl
    · rfl

/-- Every token that can be written is read where it is written. -/
theorem readsAs_text {kind : TokenKind} (h : kind.isWritable = true) :
    ReadsAs kind.text.toList kind := by
  cases kind with
  | ident name => exact readsAs_ident h
  | int value => exact readsAs_int (by simpa [TokenKind.isWritable] using h)
  | keyword word => exact readsAs_keyword word
  | op op => exact readsAs_op op
  | mark mark => exact readsAs_mark mark

/-- Where a token is written before a space or the end, the scanner finds it and goes on
behind it. -/
theorem exists_scanFrom_text {kind : TokenKind} (h : kind.isWritable = true)
    {more : List Char} (hmore : Ends more) (line offset : Nat) :
    ∃ line' offset', scanFrom (kind.text.toList ++ more) 0 line offset =
      (scanFrom more 0 line' offset').cons ⟨kind, line, offset⟩ := by
  obtain ⟨c, run, htext, hpiece⟩ := readsAs_text h
  have hskip := scanFrom_skip run more (lineAfter line c) (offset + 1)
  refine ⟨lineAfter line c + run.count '\n', offset + 1 + run.length, ?_⟩
  rw [htext, List.cons_append, scanFrom_zero, hpiece more hmore]
  simp only [hskip]

theorem scanFrom_space (rest : List Char) (line offset : Nat) :
    scanFrom (' ' :: rest) 0 line offset = scanFrom rest 0 line (offset + 1) := by
  rw [scanFrom_zero]
  rfl

/-- Tokens with single spaces between them are scanned back, up to the end. -/
theorem scanFrom_spaced : ∀ (kinds : List TokenKind), (∀ kind ∈ kinds, kind.isWritable = true) →
    ∀ line offset, (scanFrom (TokenKind.spaced kinds).toList 0 line offset).kinds = kinds ∧
      ∃ last, (scanFrom (TokenKind.spaced kinds).toList 0 line offset).ending = .finished last
  | [], _, line, offset => ⟨rfl, line, rfl⟩
  | [kind], h, line, offset => by
      obtain ⟨line', offset', hscan⟩ :=
        exists_scanFrom_text (h kind List.mem_cons_self) (.inl rfl) line offset
      have htext : (TokenKind.spaced [kind]).toList = kind.text.toList ++ [] := by
        simp [TokenKind.spaced]
      rw [htext, hscan]
      exact ⟨rfl, line', rfl⟩
  | kind :: next :: rest, h, line, offset => by
      have htext : (TokenKind.spaced (kind :: next :: rest)).toList =
          kind.text.toList ++ ' ' :: (TokenKind.spaced (next :: rest)).toList := by
        simp [TokenKind.spaced, String.toList_intercalate]
      obtain ⟨line', offset', hscan⟩ :=
        exists_scanFrom_text (h kind List.mem_cons_self) (.inr ⟨_, rfl⟩) line offset
      obtain ⟨hkinds, hending⟩ := scanFrom_spaced (next :: rest)
        (fun k hk => h k (List.mem_cons_of_mem kind hk)) line' (offset' + 1)
      rw [htext, hscan, scanFrom_space]
      exact ⟨congrArg (kind :: ·) hkinds, hending⟩

theorem scan_spaced {kinds : List TokenKind} (h : ∀ kind ∈ kinds, kind.isWritable = true) :
    (scan (TokenKind.spaced kinds)).kinds = kinds ∧
      ∃ last, (scan (TokenKind.spaced kinds)).ending = .finished last :=
  scanFrom_spaced kinds h 1 0

/-! ## Every token that is found can be written -/

theorem isWritable_digitPiece {c : Char} {rest : List Char} {kind : TokenKind} {more : Nat}
    (h : digitPiece c rest = .lexeme kind more) : kind.isWritable = true := by
  simp only [digitPiece] at h
  split at h
  · simp at h
  · next hlength =>
      obtain ⟨rfl, -⟩ := Piece.lexeme.inj h
      simp only [TokenKind.isWritable, decide_eq_true_eq]
      refine Nat.le_trans (Text.length_toDigits_digitsValue_le _ _) ?_
      rw [List.length_cons]
      omega

theorem isWritable_wordPiece {c : Char} {rest : List Char} {kind : TokenKind} {more : Nat}
    (hc : Text.isWordStart c = true) (h : wordPiece c rest = .lexeme kind more) :
    kind.isWritable = true := by
  obtain ⟨rfl, -⟩ := Piece.lexeme.inj h
  rw [wordKind]
  split
  · rfl
  · next hreserved =>
      rw [TokenKind.isWritable, isName, String.toList_ofList]
      simp only [hc, hreserved, List.all_takeWhile, Option.isNone_none, Bool.and_self]

theorem isWritable_symbolPiece {c : Char} {rest : List Char} {kind : TokenKind} {more : Nat}
    (h : symbolPiece c rest = .lexeme kind more) : kind.isWritable = true := by
  unfold symbolPiece at h
  -- a symbol is an operator or a mark, and both can always be written
  split at h
  all_goals cases h
  all_goals rfl

theorem isWritable_pieceAt {c : Char} {rest : List Char} {kind : TokenKind} {more : Nat}
    (h : pieceAt c rest = .lexeme kind more) : kind.isWritable = true := by
  unfold pieceAt at h
  split at h
  · simp at h
  split at h
  · exact isWritable_digitPiece h
  split at h
  · next hc => exact isWritable_wordPiece hc h
  split at h
  · split at h
    · simp at h
    · exact isWritable_symbolPiece h
  · exact isWritable_symbolPiece h

theorem isWritable_of_mem_scanFrom : ∀ (text : List Char) (skip line offset : Nat),
    ∀ kind ∈ (scanFrom text skip line offset).kinds, kind.isWritable = true
  | [], skip, line, offset, kind, hkind => by
      rw [scanFrom_nil] at hkind
      simp [Scan.kinds] at hkind
  | c :: rest, skip + 1, line, offset, kind, hkind => by
      rw [scanFrom_succ] at hkind
      exact isWritable_of_mem_scanFrom rest _ _ _ kind hkind
  | c :: rest, 0, line, offset, kind, hkind => by
      rw [scanFrom_zero] at hkind
      split at hkind
      · exact isWritable_of_mem_scanFrom rest _ _ _ kind hkind
      · next hpiece =>
          rcases List.mem_cons.mp hkind with rfl | hkind
          · exact isWritable_pieceAt hpiece
          · exact isWritable_of_mem_scanFrom rest _ _ _ kind hkind
      · simp [Scan.kinds] at hkind
      · simp [Scan.kinds] at hkind

theorem isWritable_of_mem_scan {source : String} {kind : TokenKind}
    (h : kind ∈ (scan source).kinds) : kind.isWritable = true :=
  isWritable_of_mem_scanFrom source.toList 0 1 0 kind h

end Token

end NumBool
