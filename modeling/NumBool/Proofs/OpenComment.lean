import NumBool.Proofs.Concatenation
import NumBool.Proofs.Token.Places

/-!
# Comments that are never closed

The scanner has no rule for a block comment without an end.  Where it comes upon the opening of
one, it reads two operators, a division and a multiplication right behind it, whatever follows.
No program goes on in this way (`State.read?_of_interlocked`).  So a text with an open comment is
refused at the star of the opening or before, and never for what stands behind it.
-/

namespace NumBool

namespace Token

/-- The opening of a comment that is never closed is passed as two operators. -/
theorem Passes.append_opening {kinds : List TokenKind} {before tail : List Char}
    (h : Passes kinds before ('/' :: '*' :: tail)) (hopen : ¬ HasClose tail) :
    Passes (kinds ++ [.op (.product .div), .op (.product .times)]) (before ++ ['/', '*'])
      tail := by
  obtain ⟨hslash, hstar⟩ := pieceAt_of_unclosed (lengthToClose?_eq_none_iff.mpr hopen)
  exact h.append (.lexeme (lexeme_of_pieceAt hslash) (.lexeme (lexeme_of_pieceAt hstar) .nil))

end Token

namespace Phrase

open NumBool.Token

/-- Tokens that the reader refuses are refused at one of them, whatever tokens follow. -/
theorem parse_of_read?_eq_none {source : String} {tokens : List Token} {behind : Scan}
    (hscan : scan source = behind.prepend tokens)
    (hread : State.start.read? (tokens.map Token.kind) = none) :
    ∃ token ∈ tokens, parse source = .error (.unexpected token) := by
  cases hrun : State.start.run tokens with
  | ok last =>
      rw [State.run_eq_ok_iff.mp hrun] at hread
      simp at hread
  | error token =>
      obtain ⟨before, after, mid, rfl, -⟩ := State.run_eq_error_iff.mp hrun
      refine ⟨token, by simp, ?_⟩
      rw [parse, parseScan, hscan, Scan.prepend, State.run_append, hrun]

/-- A block comment that is never closed is never accepted.  If the scanner comes upon the
opening of a comment and nothing behind it closes the comment, then the text is refused for a
token that starts at the star of this opening or before it, whatever precedes or follows. -/
theorem parse_refuses_openComment {source : String} {before tail : List Char}
    (htext : source.toList = before ++ '/' :: '*' :: tail)
    (hplace : Reaches before ('/' :: '*' :: tail)) (hopen : ¬ HasClose tail) :
    ∃ token ∈ (scan source).tokens, token.offset ≤ before.length + 1 ∧
      parse source = .error (.unexpected token) := by
  obtain ⟨kinds, hbefore⟩ := hplace
  obtain ⟨tokens, hkinds, hoffsets, hscan⟩ := (hbefore.append_opening hopen).exists_scanFrom 1 0
  have hsource : (before ++ ['/', '*']) ++ tail = source.toList := by
    rw [htext, List.append_assoc]
    rfl
  rw [hsource] at hscan
  have hinterlocked : Interlocked (tokens.map Token.kind) := ⟨kinds, [], hkinds⟩
  obtain ⟨token, htoken, hparse⟩ :=
    parse_of_read?_eq_none hscan (State.read?_of_interlocked hinterlocked .start)
  have hoffset := hoffsets token htoken
  rw [List.length_append, Nat.zero_add] at hoffset
  refine ⟨token, ?_, Nat.le_of_lt_succ hoffset, hparse⟩
  rw [scan, hscan]
  exact List.mem_append_left _ htoken

/-- What follows the opening in `num a;/*a=1;` would be a statement, and the text before it is a
program. -/
theorem parse_refuses_openComment_beforeStatement :
    (¬ HasClose "a=1;".toList ∧ Reaches "num a;".toList "/*a=1;".toList) ∧
    ∃ token ∈ (scan "num a;/*a=1;").tokens, token.offset ≤ 7 ∧
      parse "num a;/*a=1;" = .error (.unexpected token) := by
  have hnum : pieceAt 'n' "um a;/*a=1;".toList = .lexeme (.keyword (.type .number)) 2 := by
    decide +kernel
  have hname : pieceAt 'a' ";/*a=1;".toList = .lexeme (.ident "a") 0 := by decide +kernel
  have hend : pieceAt ';' "/*a=1;".toList = .lexeme (.mark .semicolon) 0 := by decide +kernel
  have hopen : ¬ HasClose "a=1;".toList := by
    rw [← lengthToClose?_eq_none_iff]
    decide
  have hblank : Filler [' '] "a;/*a=1;".toList := .blank rfl
  have hplace : Passes _ "num a;".toList "/*a=1;".toList :=
    .lexeme (lexeme_of_pieceAt hnum) (.filler hblank
      (.lexeme (lexeme_of_pieceAt hname) (.lexeme (lexeme_of_pieceAt hend) .nil)))
  exact ⟨⟨hopen, _, hplace⟩, parse_refuses_openComment rfl ⟨_, hplace⟩ hopen⟩

end Phrase

end NumBool
