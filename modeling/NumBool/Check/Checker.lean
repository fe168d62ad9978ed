import NumBool.Check.Stmt

/-!
# Checking trees

A check of a tree starts from an empty state.  A checker may be used for several
trees; it keeps the state of the last check, whether that succeeded or not, and all
the counts that completed programs have reported.
-/

namespace NumBool

/-- How a check ended, and the state it reached. -/
structure Outcome where
  failure : Option Failure
  context : Context
  deriving DecidableEq, Repr

/-- Checks a tree from an empty state. -/
def check (tree : Node) : Outcome :=
  match (Check.checkStmt tree).run {} with
  | .ok _ context => ⟨none, context⟩
  | .error failure context => ⟨some failure, context⟩

/-- The counts of a tree that passes the check. -/
def Outcome.result (outcome : Outcome) : Except Failure Counters :=
  match outcome.failure with
  | none => .ok outcome.context.counters
  | some failure => .error failure

/-- A checker between two checks. -/
structure Checker where
  /-- The state that the last check reached. -/
  last : Option Context := none
  /-- What completed programs have reported, the oldest first. -/
  reports : List Counters := []
  deriving DecidableEq, Repr

namespace Checker

/-- Checks one more tree. -/
def check (checker : Checker) (tree : Node) : Except Failure Counters × Checker :=
  let outcome := NumBool.check tree
  (outcome.result, ⟨some outcome.context, checker.reports ++ outcome.context.reports⟩)

/-- The counts of the last check. -/
def counters (checker : Checker) : Option Counters :=
  checker.last.map (·.counters)

/-- The variables of the last check. -/
def symbols (checker : Checker) : Option Table :=
  checker.last.map (·.symbols)

end Checker

end NumBool
