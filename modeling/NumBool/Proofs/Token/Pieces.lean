import Mathlib.Data.List.Induction
import Mathlib.Data.Nat.Digits.Defs
import NumBool.Proofs.Token.Seam

/-!
# Gaps, lexemes and halts

What can stand at a place of a text is described here by what it is made of and by what
follows it, without a look at how the scanner goes about it.  `Filler` is a blank or a
comment, `Lexeme` the text of a token, and `Halts` tells why a text can start with
neither.  A run of digits or word characters goes as far as it can, an operator or mark
is the longest one that stands there, and a slash that opens a comment is no operator.

The scanner decides between them by the first characters.  It finds what is described
(`pieceAt_of_filler`, `pieceAt_of_lexeme`, `pieceAt_of_halts`), and what it finds at some
place stands there (`describes_pieceAt`).
-/

namespace NumBool

/-- Operators and marks, which are known by their characters alone. -/
def TokenKind.IsSymbol : TokenKind → Prop
  | .op _ | .mark _ => True
  | .ident _ | .int _ | .keyword _ => False

theorem Keyword.ofText?_eq_none_iff {text : String} :
    ofText? text = none ↔ ∀ word : Keyword, text ≠ word.text := by
  rw [Option.eq_none_iff_forall_ne_some]
  exact forall_congr' fun word => not_congr ofText?_eq_some_iff

namespace Text

theorem toNat_of_isWordStart {c : Char} (h : isWordStart c = true) :
    0x41 ≤ c.toNat ∧ c.toNat ≤ 0x7a := by
  simp only [isWordStart, Bool.or_eq_true, Bool.and_eq_true, decide_eq_true_eq, Char.le_def,
    UInt32.le_iff_toNat_le] at h
  rcases h with (rfl | ⟨hlo, hhi⟩) | ⟨hlo, hhi⟩
  · decide
  · exact ⟨Nat.le_trans (by decide) hlo, hhi⟩
  · exact ⟨hlo, Nat.le_trans hhi (by decide)⟩

theorem isDigit_of_isWordStart {c : Char} (h : isWordStart c = true) : isDigit c = false := by
  obtain ⟨hlo, hhi⟩ := toNat_of_isWordStart h
  rw [isDigit, Ranges.holds, digitRanges, Ranges.find?_cons, if_neg (by omega),
    if_neg (by omega), Ranges.find?_cons, if_pos (by omega)]
  rfl

/-- The value of a run of digits is its value in positional notation. -/
theorem digitsValue_eq_ofDigits (digits : List Char) :
    digitsValue digits = Nat.ofDigits 10 (digits.reverse.map digitValue) := by
  induction digits using List.reverseRecOn with
  | nil => rfl
  | append_singleton digits c ih =>
      rw [digitsValue_append_singleton, List.reverse_append, List.reverse_singleton,
        List.singleton_append, List.map_cons, Nat.ofDigits_cons, ih]
      omega

end Text

namespace Token

open Text

/-! ## What a text is made of -/

/-- All characters of a run belong to a class, and the character behind it does not. -/
structure MaximalRun (p : Char → Bool) (run rest : List Char) : Prop where
  inside : ∀ c ∈ run, p c = true
  boundary : ∀ c ∈ rest.head?, p c = false

/-- The end of a block comment stands somewhere in the text. -/
def HasClose (text : List Char) : Prop :=
  ['*', '/'] <:+: text

/-- Behind a slash, the text goes on as a comment. -/
def OpensComment (rest : List Char) : Prop :=
  (∃ tail, rest = '/' :: tail) ∨ ∃ tail, rest = '*' :: tail ∧ HasClose tail

/-- A blank or a comment before the rest of a text.  A line comment goes up to a line feed
or to the end, a block comment up to the first end that follows its opening. -/
inductive Filler : (piece rest : List Char) → Prop
  | blank {c : Char} {rest : List Char} (h : isBlank c = true) : Filler [c] rest
  | lineComment {body rest : List Char} (h : MaximalRun (· != '\n') body rest) :
      Filler ('/' :: '/' :: body) rest
  | blockComment {body rest : List Char} (h : ¬ HasClose (body ++ ['*'])) :
      Filler ('/' :: '*' :: (body ++ ['*', '/'])) rest

/-- A word starts with a letter or an underscore and goes as far as it can. -/
def IsWord (text rest : List Char) : Prop :=
  ∃ first run, text = first :: run ∧ isWordStart first = true ∧ MaximalRun isWordChar run rest

/-- The text of a token of some kind before the rest of a text. -/
inductive Lexeme : (kind : TokenKind) → (text rest : List Char) → Prop
  /-- The digits are those of the number, the most significant one first. -/
  | number {digits rest : List Char} (hne : digits ≠ []) (hrun : MaximalRun isDigit digits rest)
      (hlength : digits.length ≤ maxDigits) :
      Lexeme (.int (Nat.ofDigits 10 (digits.reverse.map digitValue))) digits rest
  | keyword {text rest : List Char} {word : Keyword} (h : IsWord text rest)
      (hword : String.ofList text = word.text) : Lexeme (.keyword word) text rest
  | name {text rest : List Char} (h : IsWord text rest)
      (hfree : ∀ word : Keyword, String.ofList text ≠ word.text) :
      Lexeme (.ident (String.ofList text)) text rest
  | symbol {kind : TokenKind} {rest : List Char} (hkind : kind.IsSymbol)
      (hlongest : ∀ other : TokenKind, other.IsSymbol →
        other.text.toList <+: kind.text.toList ++ rest → other.text.length ≤ kind.text.length)
      (hslash : kind = .op (.product .div) → ¬ OpensComment rest) :
      Lexeme kind kind.text.toList rest

/-- Why the scanner goes no further. -/
inductive Halt where
  | finished
  | illegal (char : Char)
  | tooManyDigits (digits : Nat)
  deriving DecidableEq, Repr

/-- A halt on some line. -/
def Halt.at (line : Nat) : Halt → Ending
  | finished => .finished line
  | illegal char => .illegal char line
  | tooManyDigits digits => .tooManyDigits digits line

/-- The scanner goes no further before the rest of a text: nothing is left, nothing known
starts there, or a run of digits is too long. -/
inductive Halts : (rest : List Char) → Halt → Prop
  | finished : Halts [] .finished
  | illegal {c : Char} {rest : List Char} (hblank : isBlank c = false) (hdigit : isDigit c = false)
      (hword : isWordStart c = false)
      (hsymbol : ∀ kind : TokenKind, kind.IsSymbol → ¬ kind.text.toList <+: c :: rest) :
      Halts (c :: rest) (.illegal c)
  | tooManyDigits {digits rest : List Char} (hrun : MaximalRun isDigit digits rest)
      (hlength : maxDigits < digits.length) :
      Halts (digits ++ rest) (.tooManyDigits digits.length)

/-! ## Runs -/

theorem MaximalRun.takeWhile_eq {p : Char → Bool} {run rest : List Char}
    (h : MaximalRun p run rest) : (run ++ rest).takeWhile p = run := by
  rw [List.takeWhile_append_of_pos h.inside]
  cases rest with
  | nil => simp
  | cons c rest => simp [h.boundary c rfl]

theorem MaximalRun.cons {p : Char → Bool} {c : Char} {run rest : List Char} (hc : p c = true)
    (h : MaximalRun p run rest) : MaximalRun p (c :: run) rest :=
  ⟨fun d hd => (List.mem_cons.mp hd).elim (fun hcd => hcd ▸ hc) (h.inside d), h.boundary⟩

theorem MaximalRun.tail {p : Char → Bool} {c : Char} {run rest : List Char}
    (h : MaximalRun p (c :: run) rest) : p c = true ∧ MaximalRun p run rest :=
  ⟨h.inside c List.mem_cons_self, fun d hd => h.inside d (List.mem_cons_of_mem c hd), h.boundary⟩

/-- The longest run at the start of a text, by its length. -/
theorem maximalRun_takeWhile (p : Char → Bool) (text : List Char) :
    text.take (text.takeWhile p).length = text.takeWhile p ∧
      MaximalRun p (text.takeWhile p) (text.drop (text.takeWhile p).length) := by
  have htake : text.take (text.takeWhile p).length = text.takeWhile p :=
    (List.prefix_iff_eq_take.mp (List.takeWhile_prefix p)).symm
  have hdrop : text.drop (text.takeWhile p).length = text.dropWhile p := by
    have hsplit := List.take_append_drop (text.takeWhile p).length text
    rw [htake] at hsplit
    exact List.append_cancel_left (hsplit.trans List.takeWhile_append_dropWhile.symm)
  refine ⟨htake, ?_, ?_⟩
  · intro c hc
    exact List.all_eq_true.mp List.all_takeWhile c hc
  · intro c hc
    have hnot := List.head?_dropWhile_not p text
    rw [← hdrop, Option.mem_def.mp hc] at hnot
    exact hnot

/-! ## Comments -/

theorem hasClose_cons {c : Char} {text : List Char} :
    HasClose (c :: text) ↔ (c = '*' ∧ text.head? = some '/') ∨ HasClose text := by
  rw [HasClose, List.infix_cons_iff, HasClose]
  refine or_congr_left ?_
  cases text with
  | nil => simp
  | cons d text => simp [eq_comm]

theorem lengthToClose?_eq_none_iff {text : List Char} :
    lengthToClose? text = none ↔ ¬ HasClose text := by
  fun_induction lengthToClose? text with
  | case1 => simp [HasClose]
  | case2 rest => simp [hasClose_cons]
  | case3 c rest hnot ih =>
      rw [Option.map_eq_none_iff, ih, hasClose_cons, not_or]
      refine (and_iff_right ?_).symm
      rintro ⟨rfl, hrest⟩
      cases rest with
      | nil => simp at hrest
      | cons d rest =>
          obtain rfl := Option.some.inj hrest
          exact hnot rest rfl rfl

/-- A block comment goes up to its first end. -/
theorem lengthToClose?_append_close {body : List Char} (h : ¬ HasClose (body ++ ['*']))
    (rest : List Char) :
    lengthToClose? (body ++ '*' :: '/' :: rest) = some (body.length + 2) := by
  induction body with
  | nil => rfl
  | cons c body ih =>
      rw [List.cons_append, hasClose_cons, not_or] at h
      rw [List.cons_append, lengthToClose?, ih h.2]
      · rfl
      · intro tail hc htail
        refine h.1 ⟨hc, ?_⟩
        cases body with
        | nil => simp at htail
        | cons d body =>
            obtain ⟨rfl, -⟩ := List.cons.inj htail
            rfl

theorem exists_of_lengthToClose? {text : List Char} {n : Nat} (h : lengthToClose? text = some n) :
    ∃ body rest, text = body ++ '*' :: '/' :: rest ∧ n = body.length + 2 ∧
      ¬ HasClose (body ++ ['*']) := by
  fun_induction lengthToClose? text generalizing n with
  | case1 => simp at h
  | case2 rest =>
      obtain rfl := Option.some.inj h
      exact ⟨[], rest, rfl, rfl, by simp [HasClose, List.infix_cons_iff]⟩
  | case3 c rest hnot ih =>
      obtain ⟨m, hm, rfl⟩ := Option.map_eq_some_iff.mp h
      obtain ⟨body, tail, rfl, rfl, hbody⟩ := ih hm
      refine ⟨c :: body, tail, rfl, rfl, ?_⟩
      rw [List.cons_append, hasClose_cons, not_or]
      refine ⟨?_, hbody⟩
      rintro ⟨hc, hhead⟩
      cases body with
      | nil => simp at hhead
      | cons d body =>
          obtain rfl := Option.some.inj hhead
          exact hnot _ hc rfl

theorem commentLength?_eq_none_iff {rest : List Char} :
    commentLength? rest = none ↔ ¬ OpensComment rest := by
  fun_cases commentLength? rest with
  | case1 tail => simp [OpensComment]
  | case2 tail => simp [OpensComment, lengthToClose?_eq_none_iff]
  | case3 _ hslash hstar =>
      refine iff_of_true rfl ?_
      rintro (⟨tail, rfl⟩ | ⟨tail, rfl, -⟩)
      · exact hslash tail rfl
      · exact hstar tail rfl

/-! ## Operators and marks -/

theorem isBlank_iff {c : Char} :
    isBlank c = true ↔ c = ' ' ∨ c = '\t' ∨ c = '\r' ∨ c = '\n' := by
  simp [isBlank, or_assoc]

theorem isDigit_of_isBlank {c : Char} (h : isBlank c = true) : isDigit c = false := by
  rcases isBlank_iff.mp h with rfl | rfl | rfl | rfl
  all_goals decide +kernel

theorem isWordStart_of_isBlank {c : Char} (h : isBlank c = true) : isWordStart c = false := by
  rcases isBlank_iff.mp h with rfl | rfl | rfl | rfl
  all_goals decide +kernel

/-- The first character of an operator or mark starts nothing else, but for a slash. -/
theorem exists_symbol_text {kind : TokenKind} (h : kind.IsSymbol) :
    ∃ c more, kind.text.toList = c :: more ∧ more.length ≤ 1 ∧ isBlank c = false ∧
      isDigit c = false ∧ isWordStart c = false ∧
      (c = '/' → kind = .op (.product .div)) := by
  cases kind with
  | ident _ | int _ | keyword _ => exact h.elim
  | op op =>
      rcases op with (_ | _) | (_ | _ | _ | _ | _ | _) | (_ | _) | (_ | _ | _) | _
      all_goals exact ⟨_, _, rfl, by decide, by decide +kernel⟩
  | mark mark =>
      cases mark
      all_goals exact ⟨_, _, rfl, by decide, by decide +kernel⟩

/-- Without an equality sign behind them, four characters stand for themselves. -/
theorem symbolPiece_of_head_ne {rest : List Char} (h : rest.head? ≠ some '=') :
    symbolPiece '<' rest = .lexeme (.op (.compare .lt)) 0 ∧
      symbolPiece '>' rest = .lexeme (.op (.compare .gt)) 0 ∧
      symbolPiece '!' rest = .lexeme (.op .not) 0 ∧
      symbolPiece '=' rest = .lexeme (.mark .assign) 0 := by
  cases rest with
  | nil => exact ⟨rfl, rfl, rfl, rfl⟩
  | cons d rest =>
      have hd : d ≠ '=' := by simpa using h
      simp [symbolPiece, hd]

/-- The longest operator or mark at a place is found there. -/
theorem symbolPiece_of_longest {kind : TokenKind} {c : Char} {more rest : List Char}
    (hkind : kind.IsSymbol) (htext : kind.text.toList = c :: more)
    (hlongest : ∀ other : TokenKind, other.IsSymbol →
      other.text.toList <+: kind.text.toList ++ rest → other.text.length ≤ kind.text.length) :
    symbolPiece c (more ++ rest) = .lexeme kind more.length := by
  have hhead : ∀ other : TokenKind, other.IsSymbol →
      other.text.toList = kind.text.toList ++ ['='] → rest.head? ≠ some '=' := by
    intro other hother hequal hrest
    obtain ⟨tail, rfl⟩ := List.head?_eq_some_iff.mp hrest
    have hle := hlongest other hother ⟨tail, by rw [hequal, List.append_assoc]; rfl⟩
    rw [← String.length_toList, ← String.length_toList, hequal, List.length_append] at hle
    exact absurd hle (by simp)
  cases kind with
  | ident _ | int _ | keyword _ => exact hkind.elim
  | op op =>
      rcases op with (_ | _) | (_ | _ | _ | _ | _ | _) | (_ | _) | (_ | _ | _) | _
      all_goals obtain ⟨rfl, rfl⟩ := List.cons.inj htext
      case compare.lt => exact (symbolPiece_of_head_ne (hhead (.op (.compare .le)) trivial rfl)).1
      case compare.gt => exact (symbolPiece_of_head_ne (hhead (.op (.compare .ge)) trivial rfl)).2.1
      case not => exact (symbolPiece_of_head_ne (hhead (.op (.compare .ne)) trivial rfl)).2.2.1
      all_goals rfl
  | mark mark =>
      cases mark
      all_goals obtain ⟨rfl, rfl⟩ := List.cons.inj htext
      case assign => exact (symbolPiece_of_head_ne (hhead (.op (.compare .eq)) trivial rfl)).2.2.2
      all_goals rfl

/-- Where some operator or mark stands, there is a longest one. -/
theorem exists_longest_symbol {kind : TokenKind} {text : List Char} (hkind : kind.IsSymbol)
    (htext : kind.text.toList <+: text) :
    ∃ best : TokenKind, best.IsSymbol ∧ best.text.toList <+: text ∧
      ∀ other : TokenKind, other.IsSymbol → other.text.toList <+: text →
        other.text.length ≤ best.text.length := by
  have hbounds : ∀ other : TokenKind, other.IsSymbol →
      1 ≤ other.text.length ∧ other.text.length ≤ 2 := by
    intro other hother
    obtain ⟨c, more, hchars, hmore, -⟩ := exists_symbol_text hother
    rw [← String.length_toList, hchars, List.length_cons]
    omega
  by_cases hlong : ∃ best : TokenKind, best.IsSymbol ∧ best.text.toList <+: text ∧
      best.text.length = 2
  · obtain ⟨best, hbest, hstarts, hlength⟩ := hlong
    refine ⟨best, hbest, hstarts, fun other hother _ => ?_⟩
    rw [hlength]
    exact (hbounds other hother).2
  · refine ⟨kind, hkind, htext, fun other hother hstarts => ?_⟩
    have hne : other.text.length ≠ 2 := fun hlength => hlong ⟨other, hother, hstarts, hlength⟩
    have hother := hbounds other hother
    have hkind := hbounds kind hkind
    omega

theorem symbol_of_symbolPiece {c : Char} {rest : List Char} {kind : TokenKind} {n : Nat}
    (h : symbolPiece c rest = .lexeme kind n) :
    kind.IsSymbol ∧ kind.text.toList = c :: rest.take n := by
  unfold symbolPiece at h
  split at h
  all_goals cases h
  all_goals exact ⟨trivial, rfl⟩

theorem symbolPiece_cases (c : Char) (rest : List Char) :
    symbolPiece c rest = .illegal ∨ ∃ kind n, symbolPiece c rest = .lexeme kind n := by
  unfold symbolPiece
  split
  all_goals simp

theorem symbolPiece_eq_illegal_iff {c : Char} {rest : List Char} :
    symbolPiece c rest = .illegal ↔
      ∀ kind : TokenKind, kind.IsSymbol → ¬ kind.text.toList <+: c :: rest := by
  constructor
  · intro h kind hkind hstarts
    obtain ⟨best, hbest, ⟨tail, htail⟩, hlongest⟩ := exists_longest_symbol hkind hstarts
    obtain ⟨first, more, htext, -⟩ := exists_symbol_text hbest
    rw [← htail] at hlongest
    rw [htext, List.cons_append] at htail
    obtain ⟨rfl, rfl⟩ := List.cons.inj htail
    rw [symbolPiece_of_longest hbest htext hlongest] at h
    simp at h
  · intro h
    rcases symbolPiece_cases c rest with hillegal | ⟨kind, n, hlexeme⟩
    · exact hillegal
    · obtain ⟨hkind, htext⟩ := symbol_of_symbolPiece hlexeme
      refine absurd ⟨rest.drop n, ?_⟩ (h kind hkind)
      rw [htext, List.cons_append, List.take_append_drop]

/-- What is found among operators and marks is the longest one. -/
theorem lexeme_of_symbolPiece {c : Char} {rest : List Char} {kind : TokenKind} {n : Nat}
    (h : symbolPiece c rest = .lexeme kind n) (hslash : c = '/' → ¬ OpensComment rest) :
    Lexeme kind (c :: rest.take n) (rest.drop n) := by
  obtain ⟨hkind, htext⟩ := symbol_of_symbolPiece h
  have hwhole : kind.text.toList ++ rest.drop n = c :: rest := by
    rw [htext, List.cons_append, List.take_append_drop]
  obtain ⟨best, hbest, ⟨tail, htail⟩, hlongest⟩ :=
    exists_longest_symbol hkind ⟨rest.drop n, hwhole⟩
  have hfound : best = kind := by
    obtain ⟨first, more, hchars, -⟩ := exists_symbol_text hbest
    rw [← htail] at hlongest
    rw [hchars, List.cons_append] at htail
    obtain ⟨rfl, rfl⟩ := List.cons.inj htail
    rw [symbolPiece_of_longest hbest hchars hlongest] at h
    exact (Piece.lexeme.inj h).1
  rw [hfound, ← hwhole] at hlongest
  rw [← htext]
  refine .symbol hkind hlongest ?_
  rintro rfl
  obtain ⟨rfl, htake⟩ := List.cons.inj htext
  have hrest : rest.drop n = rest := by
    have hsplit := List.take_append_drop n rest
    rw [← htake] at hsplit
    exact hsplit
  rw [hrest]
  exact hslash rfl

/-! ## What the scanner finds -/

/-- Where no blank, number, word or comment starts, an operator or mark may stand. -/
theorem pieceAt_eq_symbolPiece {c : Char} {rest : List Char} (hblank : isBlank c = false)
    (hdigit : isDigit c = false) (hword : isWordStart c = false)
    (hslash : c = '/' → ¬ OpensComment rest) : pieceAt c rest = symbolPiece c rest := by
  rw [pieceAt, if_neg (by simp [hblank]), if_neg (by simp [hdigit]), if_neg (by simp [hword])]
  split
  · next hc => rw [commentLength?_eq_none_iff.mpr (hslash hc)]
  · rfl

theorem pieceAt_of_comment {rest : List Char} {more : Nat} (h : commentLength? rest = some more) :
    pieceAt '/' rest = .gap more := by
  have hblank : isBlank '/' = false := by decide +kernel
  have hdigit : isDigit '/' = false := by decide +kernel
  have hword : isWordStart '/' = false := by decide +kernel
  rw [pieceAt, if_neg (by simp [hblank]), if_neg (by simp [hdigit]), if_neg (by simp [hword]),
    if_pos rfl, h]

theorem pieceAt_digit {c : Char} (hc : isDigit c = true) (rest : List Char) :
    pieceAt c rest = digitPiece c rest := by
  have hblank : isBlank c = false := by
    by_contra h
    simp [isDigit_of_isBlank (Bool.eq_true_of_not_eq_false h)] at hc
  rw [pieceAt, if_neg (by simp [hblank]), if_pos hc]

theorem pieceAt_wordStart {c : Char} (hc : isWordStart c = true) (rest : List Char) :
    pieceAt c rest = wordPiece c rest := by
  have hblank : isBlank c = false := by
    by_contra h
    simp [isWordStart_of_isBlank (Bool.eq_true_of_not_eq_false h)] at hc
  rw [pieceAt, if_neg (by simp [hblank]), if_neg (by simp [isDigit_of_isWordStart hc]), if_pos hc]

/-- A blank or a comment is found as a gap. -/
theorem pieceAt_of_filler {piece rest : List Char} (h : Filler piece rest) :
    ∃ c more, piece = c :: more ∧ pieceAt c (more ++ rest) = .gap more.length := by
  cases h with
  | @blank c _ hblank =>
      refine ⟨c, [], rfl, ?_⟩
      rw [pieceAt, if_pos hblank]
      rfl
  | @lineComment body _ hrun =>
      refine ⟨'/', '/' :: body, rfl, ?_⟩
      refine pieceAt_of_comment ?_
      rw [List.cons_append, commentLength?, hrun.takeWhile_eq, List.length_cons, Nat.add_comm]
  | @blockComment body _ hbody =>
      refine ⟨'/', '*' :: (body ++ ['*', '/']), rfl, ?_⟩
      have hlength := lengthToClose?_append_close hbody rest
      refine pieceAt_of_comment ?_
      rw [List.cons_append, List.append_assoc, commentLength?]
      rw [List.cons_append, List.cons_append, List.nil_append, hlength]
      simp only [Option.map_some, List.length_cons, List.length_append, List.length_nil,
        Nat.add_comm 1]

/-- The text of a token is found as a lexeme of its kind. -/
theorem pieceAt_of_lexeme {kind : TokenKind} {text rest : List Char} (h : Lexeme kind text rest) :
    ∃ c more, text = c :: more ∧ pieceAt c (more ++ rest) = .lexeme kind more.length := by
  cases h with
  | number hne hrun hlength =>
      obtain ⟨c, more, rfl⟩ := List.exists_cons_of_ne_nil hne
      obtain ⟨hc, hmore⟩ := hrun.tail
      refine ⟨c, more, rfl, ?_⟩
      simp only [pieceAt_digit hc, digitPiece, hmore.takeWhile_eq]
      rw [List.length_cons] at hlength
      rw [if_neg (by omega), digitsValue_eq_ofDigits]
  | keyword hword hreserved =>
      obtain ⟨c, more, rfl, hc, hmore⟩ := hword
      refine ⟨c, more, rfl, ?_⟩
      simp only [pieceAt_wordStart hc, wordPiece, hmore.takeWhile_eq]
      rw [wordKind, Keyword.ofText?_eq_some_iff.mpr hreserved]
  | name hword hfree =>
      obtain ⟨c, more, rfl, hc, hmore⟩ := hword
      refine ⟨c, more, rfl, ?_⟩
      simp only [pieceAt_wordStart hc, wordPiece, hmore.takeWhile_eq]
      rw [wordKind, Keyword.ofText?_eq_none_iff.mpr hfree]
  | symbol hkind hlongest hslash =>
      obtain ⟨c, more, htext, -, hblank, hdigit, hword, hdiv⟩ := exists_symbol_text hkind
      refine ⟨c, more, htext, ?_⟩
      have hcomment : c = '/' → ¬ OpensComment (more ++ rest) := by
        rintro rfl
        have hmore : more = [] := by
          rw [hdiv rfl] at htext
          exact (List.cons.inj htext).2.symm
        rw [hmore]
        exact hslash (hdiv rfl)
      rw [pieceAt_eq_symbolPiece hblank hdigit hword hcomment,
        symbolPiece_of_longest hkind htext hlongest]

/-- Where the scanner halts, it finds the reason. -/
theorem pieceAt_of_halts {c : Char} {rest : List Char} {halt : Halt} (h : Halts (c :: rest) halt) :
    (halt = .illegal c ∧ pieceAt c rest = .illegal) ∨
      ∃ n, halt = .tooManyDigits n ∧ pieceAt c rest = .tooManyDigits n := by
  generalize htext : c :: rest = text at h
  cases h with
  | finished => simp at htext
  | illegal hblank hdigit hword hsymbol =>
      obtain ⟨rfl, rfl⟩ := List.cons.inj htext
      refine .inl ⟨rfl, ?_⟩
      have hslash : c ≠ '/' := by
        rintro rfl
        exact hsymbol (.op (.product .div)) trivial ⟨rest, rfl⟩
      rw [pieceAt_eq_symbolPiece hblank hdigit hword fun hc => absurd hc hslash]
      exact symbolPiece_eq_illegal_iff.mpr hsymbol
  | @tooManyDigits digits tail hrun hlength =>
      cases digits with
      | nil => simp at hlength
      | cons d more =>
          rw [List.cons_append] at htext
          obtain ⟨rfl, rfl⟩ := List.cons.inj htext
          obtain ⟨hc, hmore⟩ := hrun.tail
          refine .inr ⟨_, rfl, ?_⟩
          rw [List.length_cons] at hlength ⊢
          simp only [pieceAt_digit hc, digitPiece, hmore.takeWhile_eq]
          rw [if_pos hlength]

theorem eq_finished_of_halts_nil {halt : Halt} (h : Halts [] halt) : halt = .finished := by
  generalize htext : ([] : List Char) = text at h
  cases h with
  | finished => rfl
  | illegal => simp at htext
  | tooManyDigits _ hlength =>
      obtain ⟨rfl, -⟩ := List.append_eq_nil_iff.mp htext.symm
      simp at hlength

theorem Halts.unique {rest : List Char} {halt halt' : Halt} (h : Halts rest halt)
    (h' : Halts rest halt') : halt = halt' := by
  cases rest with
  | nil => rw [eq_finished_of_halts_nil h, eq_finished_of_halts_nil h']
  | cons c rest =>
      rcases pieceAt_of_halts h with ⟨rfl, hpiece⟩ | ⟨n, rfl, hpiece⟩
      all_goals
        rcases pieceAt_of_halts h' with ⟨rfl, hpiece'⟩ | ⟨n', rfl, hpiece'⟩
        all_goals simp_all

/-- What a piece says about the text at which it is found. -/
def Piece.Describes (c : Char) (rest : List Char) : Piece → Prop
  | .gap more => Filler (c :: rest.take more) (rest.drop more)
  | .lexeme kind more => Lexeme kind (c :: rest.take more) (rest.drop more)
  | .tooManyDigits digits => Halts (c :: rest) (.tooManyDigits digits)
  | .illegal => Halts (c :: rest) (.illegal c)

theorem describes_digitPiece {c : Char} (hc : isDigit c = true) (rest : List Char) :
    (digitPiece c rest).Describes c rest := by
  obtain ⟨htake, hrun⟩ := maximalRun_takeWhile isDigit rest
  simp only [digitPiece]
  split
  · next hlength =>
      have hwhole := List.take_append_drop (rest.takeWhile isDigit).length rest
      rw [htake] at hwhole
      have hhalts := Halts.tooManyDigits (hrun.cons hc) (by simpa using hlength)
      rw [List.cons_append, hwhole, List.length_cons] at hhalts
      exact hhalts
  · next hlength =>
      rw [Piece.Describes, htake, digitsValue_eq_ofDigits]
      exact .number (by simp) (hrun.cons hc) (by simpa using hlength)

theorem describes_wordPiece {c : Char} (hc : isWordStart c = true) (rest : List Char) :
    (wordPiece c rest).Describes c rest := by
  obtain ⟨htake, hrun⟩ := maximalRun_takeWhile isWordChar rest
  have hword : IsWord (c :: rest.takeWhile isWordChar)
      (rest.drop (rest.takeWhile isWordChar).length) := ⟨c, _, rfl, hc, hrun⟩
  rw [wordPiece, Piece.Describes, htake, wordKind]
  split
  · next hreserved => exact .keyword hword (Keyword.ofText?_eq_some_iff.mp hreserved)
  · next hfree => exact .name hword (Keyword.ofText?_eq_none_iff.mp hfree)

theorem describes_comment {rest : List Char} {n : Nat} (h : commentLength? rest = some n) :
    Filler ('/' :: rest.take n) (rest.drop n) := by
  fun_cases commentLength? rest with
  | case1 tail =>
      obtain rfl := Option.some.inj h
      obtain ⟨htake, hrun⟩ := maximalRun_takeWhile (· != '\n') tail
      rw [Nat.add_comm, List.take_succ_cons, List.drop_succ_cons, htake]
      exact .lineComment hrun
  | case2 tail =>
      obtain ⟨m, hm, rfl⟩ := Option.map_eq_some_iff.mp h
      obtain ⟨body, after, rfl, rfl, hbody⟩ := exists_of_lengthToClose? hm
      have hsplit : body ++ '*' :: '/' :: after = (body ++ ['*', '/']) ++ after := by simp
      have hlength : body.length + 2 = (body ++ ['*', '/']).length := by simp
      rw [Nat.add_comm 1, List.take_succ_cons, List.drop_succ_cons, hsplit, hlength,
        List.take_left, List.drop_left]
      exact .blockComment hbody
  | case3 => simp [commentLength?, *] at h

theorem describes_symbolPiece {c : Char} {rest : List Char} (hblank : isBlank c = false)
    (hdigit : isDigit c = false) (hword : isWordStart c = false)
    (hslash : c = '/' → ¬ OpensComment rest) : (symbolPiece c rest).Describes c rest := by
  rcases symbolPiece_cases c rest with hillegal | ⟨kind, n, hlexeme⟩
  · rw [hillegal]
    exact .illegal hblank hdigit hword (symbolPiece_eq_illegal_iff.mp hillegal)
  · rw [hlexeme]
    exact lexeme_of_symbolPiece hlexeme hslash

/-- What the scanner finds is what stands there. -/
theorem describes_pieceAt (c : Char) (rest : List Char) : (pieceAt c rest).Describes c rest := by
  unfold pieceAt
  split
  · next hblank => exact .blank hblank
  next hblank =>
  split
  · next hdigit => exact describes_digitPiece hdigit rest
  next hdigit =>
  split
  · next hword => exact describes_wordPiece hword rest
  next hword =>
  rw [Bool.not_eq_true] at hblank hdigit hword
  split
  · next hc =>
      subst hc
      split
      · next hcomment => exact describes_comment hcomment
      · next hcomment =>
          exact describes_symbolPiece hblank hdigit hword fun _ =>
            commentLength?_eq_none_iff.mp hcomment
  · next hc => exact describes_symbolPiece hblank hdigit hword fun h => absurd h hc

theorem filler_of_pieceAt {c : Char} {rest : List Char} {more : Nat}
    (h : pieceAt c rest = .gap more) : Filler (c :: rest.take more) (rest.drop more) := by
  have hdescribes := describes_pieceAt c rest
  rwa [h] at hdescribes

theorem lexeme_of_pieceAt {c : Char} {rest : List Char} {kind : TokenKind} {more : Nat}
    (h : pieceAt c rest = .lexeme kind more) :
    Lexeme kind (c :: rest.take more) (rest.drop more) := by
  have hdescribes := describes_pieceAt c rest
  rwa [h] at hdescribes

end Token

end NumBool
