import NumBool.Check.Error

/-!
# The table of variables

There is one table for a whole program.  A name keeps the type of its first
declaration, and the entries stay in the order of declaration.  A name may be entered
without a type: then it counts as declared, and using it is an error all the same.
-/

namespace NumBool

/-- The declared names with their types, the first declaration first. -/
structure Table where
  entries : List (String × Option Ty) := []
  deriving DecidableEq, Repr

namespace Table

/-- The entry of a name: `none` if there is none, `some none` if it has no type. -/
def find? (t : Table) (name : String) : Option (Option Ty) :=
  t.entries.lookup name

/-- Whether a name has been declared. -/
def contains (t : Table) (name : String) : Bool :=
  (t.find? name).isSome

/-- The number of declared names. -/
def size (t : Table) : Nat :=
  t.entries.length

/-- The declared names, in order. -/
def names (t : Table) : List String :=
  t.entries.map Prod.fst

/-- Declares a name, unless it has been declared before. -/
def declare (t : Table) (name : String) (ty : Option Ty) : Except SemanticError Table :=
  if t.contains name then .error (.duplicate name)
  else .ok ⟨t.entries ++ [(name, ty)]⟩

/-- The type of a name. -/
def lookup (t : Table) (name : String) : Except SemanticError Ty :=
  match t.find? name with
  | some (some ty) => .ok ty
  | _ => .error (.undefined name)

theorem contains_iff_mem_names (t : Table) (name : String) :
    t.contains name = true ↔ name ∈ t.names := by
  simp [contains, find?, names]

/-- Declaring fails exactly for names that have been declared. -/
theorem declare_eq_error_iff {t : Table} {name : String} {ty : Option Ty} {e : SemanticError} :
    t.declare name ty = .error e ↔ t.contains name = true ∧ e = .duplicate name := by
  unfold declare
  cases t.contains name <;> simp [eq_comm]

/-- A successful declaration adds one entry behind the others. -/
theorem declare_eq_ok_iff {t u : Table} {name : String} {ty : Option Ty} :
    t.declare name ty = .ok u ↔
      t.contains name = false ∧ u = ⟨t.entries ++ [(name, ty)]⟩ := by
  unfold declare
  cases t.contains name <;> simp [eq_comm]

end Table

end NumBool
