import NumBool.Proofs.Tree.Written

/-!
# Parsing and writing undo each other

A text is parsed to a tree, and the tokens of the tree are those of the text: nothing
but the layout is lost.  In the other direction the tokens of a tree of the shape of a
program, with single spaces between them, are a text that is parsed to that tree.

A token is taken as the pair of its class and its value here; the pair tells which
kind of token it is (`TokenKind.pair_injective`).
-/

namespace NumBool

namespace TokenKind

/-- The class and the value of a token. -/
def pair (kind : TokenKind) : String × String :=
  (kind.label, kind.text)

/-- The kinds of tokens that are always written in the same way. -/
def fixed : List TokenKind :=
  Keyword.all.map .keyword ++ Op.all.map .op ++
    [.mark .assign, .mark .semicolon, .mark .openBrace, .mark .closeBrace, .mark .openParen,
      .mark .closeParen]

/-- The kind of token of a class with a value. -/
def ofPair? (pair : String × String) : Option TokenKind :=
  if pair.1 = "IDENT" then some (.ident pair.2)
  else if pair.1 = "INT" then some (.int (Text.digitsValue pair.2.toList))
  else fixed.find? (·.label = pair.1)

theorem ofPair?_pair (kind : TokenKind) : ofPair? kind.pair = some kind := by
  cases kind with
  | ident name => rfl
  | int value =>
      have hvalue := Text.digitsValue_toDigits value
      simpa [ofPair?, pair, label, text] using hvalue
  | keyword word =>
      rcases word with (_ | _) | _ | _ | _ | (_ | _)
      all_goals decide +kernel
  | op op =>
      rcases op with (_ | _) | (_ | _ | _ | _ | _ | _) | (_ | _) | (_ | _ | _) | _
      all_goals decide +kernel
  | mark mark =>
      cases mark
      all_goals decide +kernel

theorem pair_injective : Function.Injective pair := by
  intro kind other h
  have hkind := ofPair?_pair kind
  rw [h, ofPair?_pair] at hkind
  exact (Option.some.inj hkind).symm

end TokenKind

/-- The classes and values of the tokens of a text. -/
def Token.Scan.pairs (scan : Token.Scan) : List (String × String) :=
  scan.tokens.map fun token => token.kind.pair

theorem Token.Scan.pairs_eq_map (scan : Token.Scan) :
    scan.pairs = scan.kinds.map TokenKind.pair := by
  rw [pairs, kinds, List.map_map]
  rfl

theorem Token.Scan.pairs_eq_iff {scan other : Token.Scan} :
    scan.pairs = other.pairs ↔ scan.kinds = other.kinds := by
  rw [pairs_eq_map, pairs_eq_map, List.map_inj_right fun _ _ h => TokenKind.pair_injective h]

namespace Phrase

open NumBool.Grammar

theorem exists_program_of_map_toNode {source : String} {tree : Node}
    (h : (parse source).map Program.toNode = .ok tree) :
    ∃ program : Program, parse source = .ok program ∧ program.toNode = tree := by
  cases hparse : parse source with
  | error error =>
      rw [hparse] at h
      simp [Except.map] at h
  | ok program =>
      rw [hparse] at h
      exact ⟨program, rfl, Except.ok.inj h⟩

/-- A parsed tree is written with the tokens of the text. -/
theorem tokens_eq_kinds_of_parse {source : String} {tree : Node}
    (h : (parse source).map Program.toNode = .ok tree) :
    tree.tokens = (Token.scan source).kinds := by
  obtain ⟨program, hparse, rfl⟩ := exists_program_of_map_toNode h
  rw [program.tokens_toNode, (parse_eq_ok_iff.mp hparse).2]

/-- Two texts are parsed to the same tree if they have the same tokens, whatever stands
between these. -/
theorem eq_iff_kinds_eq_of_parse {source source' : String} {tree tree' : Node}
    (h : (parse source).map Program.toNode = .ok tree)
    (h' : (parse source').map Program.toNode = .ok tree') :
    tree = tree' ↔ (Token.scan source).kinds = (Token.scan source').kinds := by
  constructor
  · rintro rfl
    rw [← tokens_eq_kinds_of_parse h, ← tokens_eq_kinds_of_parse h']
  · intro hkinds
    obtain ⟨program, hparse, rfl⟩ := exists_program_of_map_toNode h
    obtain ⟨program', hparse', rfl⟩ := exists_program_of_map_toNode h'
    have htokens : program'.tokens = program.tokens := by
      rw [(parse_eq_ok_iff.mp hparse).2, (parse_eq_ok_iff.mp hparse').2, hkinds]
    exact eq_of_derives_program program.derives (htokens ▸ program'.derives)

/-- The tokens of a tree of the shape of a program make up a text of that tree. -/
theorem parse_spaced_tokens {tree : Node} (h : Shaped .program tree) :
    (parse (TokenKind.spaced tree.tokens)).map Program.toNode = .ok tree := by
  obtain ⟨program, hwritable, rfl⟩ := shaped_program_iff.mp h
  obtain ⟨hkinds, last, hending⟩ := Token.scan_spaced hwritable
  have hparse : parse (TokenKind.spaced program.tokens) = .ok program := by
    refine parse_eq_ok_iff.mpr ⟨?_, hkinds.symm⟩
    rw [hending]
    rfl
  rw [program.tokens_toNode, hparse]
  rfl

/-- Parsing and writing undo each other up to layout.  The tree of a text is written with
the classes and values of the tokens of the text, so two trees are equal, also as the
comparison of open trees sees it, exactly if their texts have the same tokens.  And each
tree of the shape of a program is what its own tokens, with spaces between, are parsed to. -/
theorem parse_inverse_tokens :
    (∀ (source : String) (tree : Node), (parse source).map Program.toNode = .ok tree →
      tree.tokens.map TokenKind.pair = (Token.scan source).pairs) ∧
    (∀ (source source' : String) (tree tree' : Node),
      (parse source).map Program.toNode = .ok tree →
      (parse source').map Program.toNode = .ok tree' →
      (tree = tree' ↔ (Token.scan source).pairs = (Token.scan source').pairs) ∧
      (tree.same tree' = true ↔ (Token.scan source).pairs = (Token.scan source').pairs)) ∧
    (∀ tree : Node, Shaped .program tree →
      (parse (TokenKind.spaced tree.tokens)).map Program.toNode = .ok tree) := by
  refine ⟨?_, ?_, ?_⟩
  · intro source tree h
    rw [tokens_eq_kinds_of_parse h, Token.Scan.pairs_eq_map]
  · intro source source' tree tree' h h'
    have hsame : tree.same tree' = true ↔ tree = tree' := by
      obtain ⟨program, hparse, rfl⟩ := exists_program_of_map_toNode h
      exact (shaped_of_parse hparse).toldApart tree'
    rw [hsame, Token.Scan.pairs_eq_iff, eq_iff_kinds_eq_of_parse h h']
    exact ⟨Iff.rfl, Iff.rfl⟩
  · intro tree h
    exact parse_spaced_tokens h

/-- A branch with some alternative, and the assignment `x = 1 - -(2);` behind it. -/
def branchThenAssign (alt : Alternative) : Program where
  stmts := [.branch (.single (.single (.single (.single (.mk [] (.mk 0 (.ident "a"))))))) [] alt,
    .assign "x" (.single (.single (.chain (.single (.single (.mk [] (.mk 0 (.int 1))))) .minus
      (.single (.mk [.minus] (.mk 0 (.paren
        (.single (.single (.single (.single (.mk [] (.mk 0 (.int 2))))))))))))))]

/-- An empty alternative is not a missing one, and both survive the way back. -/
theorem parse_inverse_tokens_alternatives :
    (branchThenAssign (.block [])).toNode.tokens.map TokenKind.pair =
      (Token.scan "if(a)\x7b\x7delse\x7b\x7dx=1- -(02);").pairs ∧
    ((branchThenAssign (.block [])).toNode = (branchThenAssign .absent).toNode ↔
      (Token.scan "if(a)\x7b\x7delse\x7b\x7dx=1- -(02);").pairs =
        (Token.scan "if (a) \x7b \x7d x = 1 - -(2);").pairs) ∧
    Shaped .program (branchThenAssign .absent).toNode ∧
    (parse (TokenKind.spaced (branchThenAssign .absent).toNode.tokens)).map Program.toNode =
      .ok (branchThenAssign .absent).toNode := by
  have hblock : parse "if(a)\x7b\x7delse\x7b\x7dx=1- -(02);" =
      .ok (branchThenAssign (.block [])) :=
    parse_eq_ok_iff.mpr ⟨by decide +kernel, by decide +kernel⟩
  have habsent : parse "if (a) \x7b \x7d x = 1 - -(2);" = .ok (branchThenAssign .absent) :=
    parse_eq_ok_iff.mpr ⟨by decide +kernel, by decide +kernel⟩
  have hshaped := shaped_of_parse habsent
  refine ⟨parse_inverse_tokens.1 _ _ ?_, (parse_inverse_tokens.2.1 _ _ _ _ ?_ ?_).1, hshaped,
    parse_inverse_tokens.2.2 _ hshaped⟩
  · rw [hblock]
    rfl
  · rw [hblock]
    rfl
  · rw [habsent]
    rfl

end Phrase

end NumBool
