/-!
# Statistics of a program

How many declarations, loops, branches and operators a program has.  The counts are
whole numbers without bounds, so that any adjustment can be made to them.
-/

namespace NumBool

/-- The counts of a check. -/
structure Counters where
  declarations : Int := 0
  whiles : Int := 0
  ifs : Int := 0
  operators : Int := 0
  deriving DecidableEq, Repr

namespace Counters

/-- The statistics line of a report. -/
def format (c : Counters) : String :=
  s!"\x7bVAR:{c.declarations}, WHILE:{c.whiles}, IF:{c.ifs}, OP:{c.operators}\x7d"

/-- The counts of two programs taken together. -/
protected def add (a b : Counters) : Counters where
  declarations := a.declarations + b.declarations
  whiles := a.whiles + b.whiles
  ifs := a.ifs + b.ifs
  operators := a.operators + b.operators

instance : Add Counters := ⟨Counters.add⟩

/-- The four counts. -/
inductive Field where
  | declarations
  | whiles
  | ifs
  | operators
  deriving DecidableEq, Repr

/-- Adds `n` to one of the counts. -/
def increase (c : Counters) (field : Field) (n : Int) : Counters :=
  match field with
  | .declarations => { c with declarations := c.declarations + n }
  | .whiles => { c with whiles := c.whiles + n }
  | .ifs => { c with ifs := c.ifs + n }
  | .operators => { c with operators := c.operators + n }

end Counters

end NumBool
