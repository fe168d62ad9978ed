import NumBool.Check.Expr

/-!
# Checking statements

Statements are checked in the order in which they stand, and the first rule that is
broken ends the check.  Branches and loops are counted after their bodies.  A program
reports its counts when it is completed, also where it stands inside another one.
-/

namespace NumBool

/-- Whether there is no node. -/
def Node.isAbsent : Node → Bool
  | .absent => true
  | _ => false

namespace Check

/-- The part that the rule for a kind of statement looks at first. -/
def firstStmtPart? (kind : String) : Option String :=
  [("Program", "stmts"), ("Block", "stmts"), ("Declaration", "type_name"),
   ("AssignStmt", "target"), ("IfStmt", "cond"), ("WhileStmt", "cond")].lookup kind

/-- A node from outside the language is no statement; under the name of a known kind
it lacks the parts. -/
def foreignStmt (kind : String) : Check Unit :=
  match firstStmtPart? kind with
  | some part => throw (.missingPart kind part)
  | none => if kind = "stmt" then throw .endless else reject (.unknownStatement kind)

/-- A condition has to be a truth value. -/
def checkCondition (cond : Node) : Check Unit := do
  if (← typeOf cond) ≠ some .bool then
    reject .condition

/-- The name of what is declared or assigned.  A node that is no identifier has none,
and the check breaks off. -/
def nameOf (node : Node) : Check String :=
  match node.name? with
  | some name => pure name
  | none => throw (.missingPart node.kindName "name")

/-- A declaration needs a word that names a type and a name that is new. -/
def checkDeclaration (typeName : String) (ident : Node) : Check Unit :=
  match Ty.ofKeyword? typeName with
  | none => do reject (.unknownType typeName (← nameOf ident))
  | some ty => do declare (← nameOf ident) ty

/-- An assignment needs a declared variable and a value of exactly its type. -/
def checkAssignment (target value : Node) : Check Unit := do
  let name ← nameOf target
  let wanted ← lookup name
  if (← typeOf value) ≠ some wanted then
    reject (.assignment name)

mutual

/-- Checks a statement. -/
def checkStmt : Node → Check Unit
  | .program stmts => do
    checkStmts stmts
    modify Context.report
  | .block stmts => checkStmts stmts
  | .declaration typeName ident => checkDeclaration typeName ident
  | .assignment target value => checkAssignment target value
  | .branch cond body alt => do
    checkCondition cond
    checkStmt body
    if !alt.isAbsent then
      checkStmt alt
    count .ifs
  | .loop cond body => do
    checkCondition cond
    checkStmt body
    count .whiles
  | .foreign kind => foreignStmt kind
  | node => reject (.unknownStatement node.kindName)

/-- Checks statements in order. -/
def checkStmts : List Node → Check Unit
  | [] => return
  | stmt :: rest => do
    checkStmt stmt
    checkStmts rest

end

theorem checkStmts_nil : checkStmts [] = pure () := by
  rw [checkStmts]

theorem checkStmts_cons (stmt : Node) (rest : List Node) :
    checkStmts (stmt :: rest) = (do checkStmt stmt; checkStmts rest) := by
  rw [checkStmts]

/-- Checking two lists of statements one after the other. -/
theorem checkStmts_append (xs ys : List Node) :
    checkStmts (xs ++ ys) = (do checkStmts xs; checkStmts ys) := by
  induction xs with
  | nil => simp [checkStmts_nil]
  | cons stmt rest ih => simp [checkStmts_cons, ih]

end Check

end NumBool
