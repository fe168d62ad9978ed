import NumBool.Number.Binary64

/-!
# Open trees

The checker accepts trees that no text has produced.  Such a tree is open: any node
can stand in any place, operator lists have any length and hold any words, a plain
value may stand where a node belongs, and nodes of kinds that the language does not
know may occur.  A parsed program is one of these trees (`Phrase.Program.toNode`).
-/

namespace NumBool

/-- A plain value in place of a node. -/
inductive Datum where
  | truth (value : Bool)
  | int (value : Int)
  | real (value : Number.Binary64)
  | text (value : String)
  deriving DecidableEq, Repr

/-- A node of an open tree. -/
inductive Node where
  | program (stmts : List Node)
  | block (stmts : List Node)
  | identifier (name : String)
  /-- A declaration; `ident` is the name that it declares. -/
  | declaration (typeName : String) (ident : Node)
  | assignment (target value : Node)
  /-- A branch; its alternative may be `absent`. -/
  | branch (cond body alt : Node)
  | loop (cond body : Node)
  | logical (operands : List Node) (ops : List String)
  /-- A comparison; without an operator only the left side counts. -/
  | comparison (left : Node) (op : Option String) (right : Node)
  | addition (operands : List Node) (ops : List String)
  | multiplication (operands : List Node) (ops : List String)
  | signed (operand : Node) (ops : List String)
  | negated (operand : Node) (ops : List String)
  | value (inner : Node)
  | int (value : Int)
  | truth (value : Bool)
  /-- No node at all. -/
  | absent
  | datum (value : Datum)
  | list (items : List Node)
  /-- A node of a kind that the language does not define, under a name of its own. -/
  | foreign (kind : String)

instance : Inhabited Node := ⟨.absent⟩

namespace Datum

/-- The name of a plain value's kind. -/
def kindName : Datum → String
  | truth _ => "bool"
  | int _ => "int"
  | real _ => "float"
  | text _ => "str"

end Datum

namespace Node

/-- The name that a node bears.  Only identifiers have one. -/
def name? : Node → Option String
  | identifier name => some name
  | _ => none

/-- The name of a node's kind in messages. -/
def kindName : Node → String
  | program _ => "Program"
  | block _ => "Block"
  | identifier _ => "Identifier"
  | declaration _ _ => "Declaration"
  | assignment _ _ => "AssignStmt"
  | branch _ _ _ => "IfStmt"
  | loop _ _ => "WhileStmt"
  | logical _ _ => "BoolExpr"
  | comparison _ _ _ => "CompExpr"
  | addition _ _ => "AddExpr"
  | multiplication _ _ => "MulExpr"
  | signed _ _ => "UnaExpr"
  | negated _ _ => "NotExpr"
  | value _ => "GenValue"
  | int _ => "IntValue"
  | truth _ => "BoolValue"
  | absent => "NoneType"
  | datum d => d.kindName
  | list _ => "list"
  | foreign kind => kind

end Node

end NumBool
