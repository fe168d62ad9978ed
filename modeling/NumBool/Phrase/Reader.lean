import NumBool.Phrase.Basic

/-!
# Reading phrases token by token

The reader is a machine that takes one token at a time.  Its state holds the phrases
that are complete so far, typed by their level, and says what may come next; a token
that cannot come next is refused, and then no program starts with the tokens read.

Statements that belong to a body are kept in reverse, and every open brace adds a
frame that remembers the statements before it and what its body is for.  Inside an
expression, every open parenthesis adds one entry that remembers what was read of
the surrounding expression.
-/

namespace NumBool.Phrase

/-- One condition of a branch with its body. -/
structure Arm where
  cond : Logical
  body : List Stmt

/-- The branch statement with the arms `earlier` (the nearest first), then `last`,
then `alt`. -/
def branchOf (last : Arm) (earlier : List Arm) (alt : Alternative) : Stmt :=
  match earlier with
  | [] => .branch last.cond last.body alt
  | arm :: rest => branchOf arm rest (.branch last.cond last.body alt)

/-- What a condition is for: the next arm after some earlier ones, or a loop. -/
inductive Head where
  | branch (earlier : List Arm)
  | loop

/-- What an expression is for. -/
inductive Goal where
  | assign (name : String)
  | condition (head : Head)

/-- An expression read up to a place where an operand must follow: for each level the
part before its last operator, then the signs and negation marks just read. -/
structure Awaiting where
  logical : Option (Logical × LogicOp) := none
  comparison : Option (Addition × CompareOp) := none
  addition : Option (Addition × SumOp) := none
  multiplication : Option (Multiplication × ProductOp) := none
  signs : List SumOp := []
  marks : Nat := 0

/-- An expression read up to the end of an operand. -/
structure Supplied where
  logical : Option (Logical × LogicOp)
  comparison : Option (Addition × CompareOp)
  addition : Option (Addition × SumOp)
  multiplication : Multiplication

namespace Awaiting

/-- The operand that was awaited has been read. -/
def supply (a : Awaiting) (atom : Atom) : Supplied where
  logical := a.logical
  comparison := a.comparison
  addition := a.addition
  multiplication :=
    let operand := Signed.mk a.signs (.mk a.marks atom)
    match a.multiplication with
    | none => .single operand
    | some (first, op) => .chain first op operand

/-- One more sign; a sign cannot follow a negation mark. -/
def sign? (a : Awaiting) (op : SumOp) : Option Awaiting :=
  if a.marks = 0 then some { a with signs := a.signs ++ [op] } else none

/-- One more negation mark. -/
def mark (a : Awaiting) : Awaiting :=
  { a with marks := a.marks + 1 }

end Awaiting

namespace Supplied

/-- The sum that ends here. -/
def toAddition (s : Supplied) : Addition :=
  match s.addition with
  | none => .single s.multiplication
  | some (first, op) => .chain first op s.multiplication

/-- The comparison that ends here. -/
def toComparison (s : Supplied) : Comparison :=
  match s.comparison with
  | none => .single s.toAddition
  | some (left, op) => .binary left op s.toAddition

/-- The whole expression, if it ends here. -/
def toLogical (s : Supplied) : Logical :=
  match s.logical with
  | none => .single s.toComparison
  | some (first, op) => .chain first op s.toComparison

/-- The expression continued by an operator.  A second comparison cannot follow a
first one at the same level. -/
def continue? (s : Supplied) : Op → Option Awaiting
  | .logic op => some { logical := some (s.toLogical, op) }
  | .compare op =>
    match s.comparison with
    | none => some { logical := s.logical, comparison := some (s.toAddition, op) }
    | some _ => none
  | .sum op =>
    some { logical := s.logical, comparison := s.comparison,
           addition := some (s.toAddition, op) }
  | .product op =>
    some { logical := s.logical, comparison := s.comparison, addition := s.addition,
           multiplication := some (s.multiplication, op) }
  | .not => none

end Supplied

/-- What may come next. -/
inductive Mode where
  /-- A statement, or the end of the body. -/
  | statement
  /-- The name of a declared variable. -/
  | declareName (ty : Ty)
  /-- The end of a declaration. -/
  | declareEnd (ty : Ty) (name : String)
  /-- The assignment mark after a variable. -/
  | assignMark (name : String)
  /-- The parenthesis before a condition. -/
  | conditionOpen (head : Head)
  /-- An operand; `outer` has one entry for each open parenthesis. -/
  | operand (goal : Goal) (outer : List Awaiting) (inner : Awaiting)
  /-- An operator, or the end of the expression or of a parenthesis. -/
  | operator (goal : Goal) (outer : List Awaiting) (inner : Supplied)
  /-- The brace before the body that a condition governs. -/
  | bodyOpen (head : Head) (cond : Logical)
  /-- An alternative to the arms read so far, or whatever follows the statement. -/
  | afterArm (last : Arm) (earlier : List Arm)
  /-- A body or a condition after the word that opens an alternative. -/
  | alternative (last : Arm) (earlier : List Arm)

/-- What a body between braces is for. -/
inductive Role where
  | block
  | loop (cond : Logical)
  | arm (cond : Logical) (earlier : List Arm)
  | alternative (last : Arm) (earlier : List Arm)

/-- An open brace: what its body is for, and the statements before it, in reverse. -/
structure Frame where
  role : Role
  before : List Stmt

/-- A state of the reader: the open braces from the inside out, the statements read
at the innermost level, in reverse, and what may come next. -/
structure State where
  frames : List Frame
  before : List Stmt
  mode : Mode

namespace State

/-- Nothing has been read. -/
def start : State := ⟨[], [], .statement⟩

/-- A statement has been completed. -/
def add (s : State) (stmt : Stmt) : State :=
  { s with before := stmt :: s.before, mode := .statement }

/-- A brace opens a body. -/
def openBody (s : State) (role : Role) : State :=
  ⟨⟨role, s.before⟩ :: s.frames, [], .statement⟩

/-- A brace closes the innermost body. -/
def closeBody? (s : State) : Option State :=
  match s.frames with
  | [] => none
  | ⟨role, before⟩ :: frames =>
    let outer : State := ⟨frames, before, .statement⟩
    let body := s.before.reverse
    match role with
    | .block => some (outer.add (.block body))
    | .loop cond => some (outer.add (.loop cond body))
    | .arm cond earlier => some { outer with mode := .afterArm ⟨cond, body⟩ earlier }
    | .alternative last earlier =>
      some (outer.add (branchOf last earlier (.block body)))

/-- A token where a statement may start or a body may end. -/
def startStatement? (s : State) : TokenKind → Option State
  | .keyword (.type ty) => some { s with mode := .declareName ty }
  | .ident name => some { s with mode := .assignMark name }
  | .keyword .branch => some { s with mode := .conditionOpen (.branch []) }
  | .keyword .loop => some { s with mode := .conditionOpen .loop }
  | .mark .openBrace => some (s.openBody .block)
  | .mark .closeBrace => s.closeBody?
  | _ => none

/-- A token where an operand must follow. -/
def operand? (s : State) (goal : Goal) (outer : List Awaiting) (inner : Awaiting) :
    TokenKind → Option State
  | .ident name => some { s with mode := .operator goal outer (inner.supply (.ident name)) }
  | .int value => some { s with mode := .operator goal outer (inner.supply (.int value)) }
  | .keyword (.truth value) =>
    some { s with mode := .operator goal outer (inner.supply (.truth value)) }
  | .mark .openParen => some { s with mode := .operand goal (inner :: outer) {} }
  | .op (.sum op) =>
    (inner.sign? op).map fun signed => { s with mode := .operand goal outer signed }
  | .op .not => some { s with mode := .operand goal outer inner.mark }
  | _ => none

/-- A token after a complete operand. -/
def operator? (s : State) (goal : Goal) (outer : List Awaiting) (inner : Supplied) :
    TokenKind → Option State
  | .op op =>
    (inner.continue? op).map fun awaiting => { s with mode := .operand goal outer awaiting }
  | .mark .closeParen =>
    match outer, goal with
    | around :: outer, _ =>
      some { s with mode := .operator goal outer (around.supply (.paren inner.toLogical)) }
    | [], .condition head => some { s with mode := .bodyOpen head inner.toLogical }
    | [], .assign _ => none
  | .mark .semicolon =>
    match outer, goal with
    | [], .assign name => some (s.add (.assign name inner.toLogical))
    | _, _ => none
  | _ => none

/-- The role of the body after a condition. -/
def roleOf (head : Head) (cond : Logical) : Role :=
  match head with
  | .branch earlier => .arm cond earlier
  | .loop => .loop cond

/-- Takes one token, or refuses it. -/
def step? (s : State) (kind : TokenKind) : Option State :=
  match s.mode with
  | .statement => s.startStatement? kind
  | .declareName ty =>
    match kind with
    | .ident name => some { s with mode := .declareEnd ty name }
    | _ => none
  | .declareEnd ty name =>
    if kind = .mark .semicolon then some (s.add (.declare ty name)) else none
  | .assignMark name =>
    if kind = .mark .assign then some { s with mode := .operand (.assign name) [] {} }
    else none
  | .conditionOpen head =>
    if kind = .mark .openParen then some { s with mode := .operand (.condition head) [] {} }
    else none
  | .operand goal outer inner => s.operand? goal outer inner kind
  | .operator goal outer inner => s.operator? goal outer inner kind
  | .bodyOpen head cond =>
    if kind = .mark .openBrace then some (s.openBody (roleOf head cond)) else none
  | .afterArm last earlier =>
    if kind = .keyword .otherwise then some { s with mode := .alternative last earlier }
    else (s.add (branchOf last earlier .absent)).startStatement? kind
  | .alternative last earlier =>
    if kind = .keyword .branch then
      some { s with mode := .conditionOpen (.branch (last :: earlier)) }
    else if kind = .mark .openBrace then some (s.openBody (.alternative last earlier))
    else none

/-- The program that has been read, if it may end here. -/
def finish? (s : State) : Option Program :=
  match s.frames, s.mode with
  | [], .statement => some ⟨s.before.reverse⟩
  | [], .afterArm last earlier => some ⟨(branchOf last earlier .absent :: s.before).reverse⟩
  | _, _ => none

end State

end NumBool.Phrase
