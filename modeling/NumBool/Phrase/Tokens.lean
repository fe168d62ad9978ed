import NumBool.Phrase.Basic

/-!
# The tokens of a phrase

Every phrase has one written form, a list of token kinds.  Reading (`Phrase.Reader`)
goes the other way.
-/

namespace NumBool.Phrase

mutual

/-- The tokens of a logical phrase. -/
def Logical.tokens : Logical → List TokenKind
  | .single only => only.tokens
  | .chain first op last => first.tokens ++ .op (.logic op) :: last.tokens

/-- The tokens of a comparison. -/
def Comparison.tokens : Comparison → List TokenKind
  | .single only => only.tokens
  | .binary left op right => left.tokens ++ .op (.compare op) :: right.tokens

/-- The tokens of a sum. -/
def Addition.tokens : Addition → List TokenKind
  | .single only => only.tokens
  | .chain first op last => first.tokens ++ .op (.sum op) :: last.tokens

/-- The tokens of a product. -/
def Multiplication.tokens : Multiplication → List TokenKind
  | .single only => only.tokens
  | .chain first op last => first.tokens ++ .op (.product op) :: last.tokens

/-- The tokens of a value with its signs. -/
def Signed.tokens : Signed → List TokenKind
  | .mk signs operand => signs.map (fun op => .op (.sum op)) ++ operand.tokens

/-- The tokens of a value with its negation marks. -/
def Negation.tokens : Negation → List TokenKind
  | .mk marks operand => List.replicate marks (.op .not) ++ operand.tokens

/-- The tokens of a single value. -/
def Atom.tokens : Atom → List TokenKind
  | .ident name => [.ident name]
  | .int value => [.int value]
  | .truth value => [.keyword (.truth value)]
  | .paren inner => .mark .openParen :: (inner.tokens ++ [.mark .closeParen])

end

/-- A condition between parentheses. -/
def conditionTokens (cond : Logical) : List TokenKind :=
  .mark .openParen :: (cond.tokens ++ [.mark .closeParen])

/-- The tokens of a body between braces. -/
def braced (body : List TokenKind) : List TokenKind :=
  .mark .openBrace :: (body ++ [.mark .closeBrace])

mutual

/-- The tokens of a statement. -/
def Stmt.tokens : Stmt → List TokenKind
  | .declare ty name => [.keyword (.type ty), .ident name, .mark .semicolon]
  | .assign name value =>
    .ident name :: .mark .assign :: (value.tokens ++ [.mark .semicolon])
  | .branch cond body alt =>
    .keyword .branch :: (conditionTokens cond ++ braced (stmtsTokens body) ++ alt.tokens)
  | .loop cond body =>
    .keyword .loop :: (conditionTokens cond ++ braced (stmtsTokens body))
  | .block body => braced (stmtsTokens body)

/-- The tokens of an alternative, none if there is none. -/
def Alternative.tokens : Alternative → List TokenKind
  | .absent => []
  | .block body => .keyword .otherwise :: braced (stmtsTokens body)
  | .branch cond body alt =>
    .keyword .otherwise :: .keyword .branch ::
      (conditionTokens cond ++ braced (stmtsTokens body) ++ alt.tokens)

/-- The tokens of some statements. -/
def stmtsTokens : List Stmt → List TokenKind
  | [] => []
  | stmt :: rest => stmt.tokens ++ stmtsTokens rest

end

/-- The tokens of a whole program. -/
def Program.tokens (program : Program) : List TokenKind :=
  stmtsTokens program.stmts

@[simp]
theorem stmtsTokens_nil : stmtsTokens [] = [] := by
  rw [stmtsTokens]

@[simp]
theorem stmtsTokens_cons (stmt : Stmt) (rest : List Stmt) :
    stmtsTokens (stmt :: rest) = stmt.tokens ++ stmtsTokens rest := by
  rw [stmtsTokens]

@[simp]
theorem stmtsTokens_append (xs ys : List Stmt) :
    stmtsTokens (xs ++ ys) = stmtsTokens xs ++ stmtsTokens ys := by
  induction xs with
  | nil => simp
  | cons stmt rest ih => simp [ih]

end NumBool.Phrase
