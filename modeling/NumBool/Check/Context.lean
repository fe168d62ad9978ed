import NumBool.Check.Counters
import NumBool.Check.Table

/-!
# The state of a check

What a check has found so far.  The state survives a failure, so that it can be told
how far the check had come.
-/

namespace NumBool

/-- The variables declared so far, the counts so far, and the counts as they stood
each time a program was completed. -/
structure Context where
  symbols : Table := {}
  counters : Counters := {}
  reports : List Counters := []
  deriving DecidableEq, Repr

namespace Context

/-- Counts the operators of one node. -/
def countOps (ctx : Context) (ops : List String) : Context :=
  { ctx with counters := ctx.counters.increase .operators ops.length }

/-- Adds to one of the counts. -/
def increase (ctx : Context) (field : Counters.Field) (n : Int) : Context :=
  { ctx with counters := ctx.counters.increase field n }

/-- Declares a name, with or without a type. -/
def declare (ctx : Context) (name : String) (ty : Option Ty) : Except SemanticError Context :=
  match ctx.symbols.declare name ty with
  | .ok symbols => .ok { ctx with symbols }
  | .error e => .error e

/-- Records the counts at the end of a program. -/
def report (ctx : Context) : Context :=
  { ctx with reports := ctx.reports ++ [ctx.counters] }

end Context

/-- A computation that works on the state of a check and may fail; a failure keeps
the state reached. -/
abbrev Check (α : Type) := EStateM Failure Context α

namespace Check

/-- Breaks off with a semantic error. -/
def reject {α : Type} (error : SemanticError) : Check α :=
  throw (.semantic error)

/-- The type of a declared variable. -/
def lookup (name : String) : Check Ty := do
  match (← get).symbols.lookup name with
  | .ok ty => return ty
  | .error error => reject error

/-- Declares a variable and counts the declaration. -/
def declare (name : String) (ty : Ty) : Check Unit := do
  match (← get).declare name (some ty) with
  | .ok ctx => set (ctx.increase .declarations 1)
  | .error error => reject error

/-- Counts the operators of one node. -/
def countOps (ops : List String) : Check Unit :=
  modify (·.countOps ops)

/-- Adds one to one of the counts. -/
def count (field : Counters.Field) : Check Unit :=
  modify (·.increase field 1)

/-- An operand at some level has to have the expected type. -/
def expect (level : String) (expected : Ty) (got : Option Ty) : Check Unit :=
  if got = some expected then pure () else reject (.operand level got (some expected))

/-- The operand of a sign has to be a number; what has no type cannot be asked. -/
def expectNumeric : (got : Option Ty) → Check Unit
  | none => throw .untyped
  | some ty =>
    if ty.isNumeric then pure ()
    else reject (.operand Level.sign (some ty) (some .number))

end Check

end NumBool
