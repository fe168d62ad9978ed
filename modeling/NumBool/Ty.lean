/-!
# Types of the language

A variable holds a number or a truth value, and there is nothing else.
-/

namespace NumBool

/-- The two types a variable can have. -/
inductive Ty where
  | number
  | bool
  deriving DecidableEq, Repr

namespace Ty

/-- The name of a type in messages and reports. -/
def name : Ty → String
  | number => "Number"
  | bool => "Bool"

/-- The word that declares a variable of this type. -/
def keyword : Ty → String
  | number => "num"
  | bool => "bool"

/-- The type that a word declares. -/
def ofKeyword? (word : String) : Option Ty :=
  if word = "num" then some number
  else if word = "bool" then some bool
  else none

/-- Whether arithmetic applies to values of this type. -/
def isNumeric : Ty → Bool
  | number => true
  | bool => false

@[simp]
theorem ofKeyword?_keyword (ty : Ty) : ofKeyword? ty.keyword = some ty := by
  cases ty <;> rfl

theorem ofKeyword?_eq_some_iff {word : String} {ty : Ty} :
    ofKeyword? word = some ty ↔ word = ty.keyword := by
  constructor
  · unfold ofKeyword?
    split
    · rintro ⟨⟩; assumption
    · split
      · rintro ⟨⟩; assumption
      · simp
  · rintro rfl
    exact ofKeyword?_keyword ty

end Ty

end NumBool
