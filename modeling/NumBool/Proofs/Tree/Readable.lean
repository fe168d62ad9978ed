import NumBool.Text.Digit
import NumBool.Text.Word
import NumBool.Token.Basic
import NumBool.Tree.Same

/-!
# Readable trees

A tree is `Readable` if its names are made of word characters, its numbers are not negative and
not too long, its operators are those of their level, and what is declared or assigned is an
identifier.  Nothing more is asked: any readable tree can stand in any other place, and the
numbers of operands and operators need not fit.  Trees of the shape of the language are readable,
and many others are.

The comparison of open trees takes some different trees for the same, such as numbers and truth
values of the same worth.  A readable tree is the same as itself only (`Node.Readable.same_iff`).
-/

namespace NumBool

/-- A text that is made of word characters. -/
def IsWordlike (text : String) : Prop :=
  ∀ c ∈ text.toList, Text.isWordChar c = true

namespace Node

/-- Trees whose names are made of word characters, whose numbers are not negative and can be
printed, and whose operators are those of their level. -/
inductive Readable : Node → Prop
  | program {stmts : List Node} (hstmts : ∀ n ∈ stmts, Readable n) : Readable (.program stmts)
  | block {stmts : List Node} (hstmts : ∀ n ∈ stmts, Readable n) : Readable (.block stmts)
  | identifier {name : String} (hname : IsWordlike name) : Readable (.identifier name)
  | declaration {typeName name : String} (htype : IsWordlike typeName)
      (hname : IsWordlike name) : Readable (.declaration typeName (.identifier name))
  | assignment {target : String} {value : Node} (htarget : IsWordlike target)
      (hvalue : Readable value) : Readable (.assignment (.identifier target) value)
  | branch {cond body alt : Node} (hcond : Readable cond) (hbody : Readable body)
      (halt : Readable alt) : Readable (.branch cond body alt)
  | loop {cond body : Node} (hcond : Readable cond) (hbody : Readable body) :
      Readable (.loop cond body)
  | logical {operands : List Node} (ops : List LogicOp)
      (hoperands : ∀ n ∈ operands, Readable n) :
      Readable (.logical operands (ops.map LogicOp.text))
  | comparisonOne {left : Node} (hleft : Readable left) :
      Readable (.comparison left none .absent)
  | comparison {left right : Node} (op : CompareOp) (hleft : Readable left)
      (hright : Readable right) : Readable (.comparison left (some op.text) right)
  | addition {operands : List Node} (ops : List SumOp)
      (hoperands : ∀ n ∈ operands, Readable n) :
      Readable (.addition operands (ops.map SumOp.text))
  | multiplication {operands : List Node} (ops : List ProductOp)
      (hoperands : ∀ n ∈ operands, Readable n) :
      Readable (.multiplication operands (ops.map ProductOp.text))
  | signed {operand : Node} (ops : List SumOp) (hoperand : Readable operand) :
      Readable (.signed operand (ops.map SumOp.text))
  | negated {operand : Node} (marks : Nat) (hoperand : Readable operand) :
      Readable (.negated operand (List.replicate marks Op.not.text))
  | value {inner : Node} (hinner : Readable inner) : Readable (.value inner)
  | int {value : Nat} (hvalue : (Nat.toDigits 10 value).length ≤ Text.maxDigits) :
      Readable (.int value)
  | truth (value : Bool) : Readable (.truth value)
  | absent : Readable .absent

end Node

/-! ## Equality -/

theorem sameNodes_iff {xs : List Node}
    (h : ∀ x ∈ xs, ∀ y : Node, x.same y = true ↔ x = y) (ys : List Node) :
    sameNodes xs ys = true ↔ xs = ys := by
  induction xs generalizing ys with
  | nil =>
      cases ys with
      | nil => simp [sameNodes]
      | cons y ys => simp [sameNodes]
  | cons x xs ih =>
      cases ys with
      | nil => simp [sameNodes]
      | cons y ys =>
          have hx := h x List.mem_cons_self y
          have hxs := ih (fun z hz => h z (List.mem_cons_of_mem x hz)) ys
          simp [sameNodes, hx, hxs]

namespace Node

theorem identifier_same_iff (name : String) (b : Node) :
    (identifier name).same b = true ↔ .identifier name = b := by
  cases b <;> simp [Node.same]

/-- A readable tree is the same as itself only. -/
theorem Readable.same_iff {a : Node} (h : a.Readable) (b : Node) : a.same b = true ↔ a = b := by
  induction h generalizing b with
  | program _ ih | block _ ih | logical _ _ ih | addition _ _ ih | multiplication _ _ ih =>
      have hnodes := sameNodes_iff ih
      cases b <;> simp [Node.same, hnodes]
  | identifier _ => exact identifier_same_iff _ b
  | int _ | truth _ | absent =>
      cases b <;> simp [Node.same]
  | declaration _ _ =>
      cases b <;> simp [Node.same, identifier_same_iff]
  | assignment _ _ ih =>
      cases b <;> simp [Node.same, identifier_same_iff, ih]
  | signed _ _ ih | negated _ _ ih | value _ ih =>
      cases b <;> simp [Node.same, ih]
  | branch _ _ _ ihcond ihbody ihalt =>
      cases b <;> simp [Node.same, ihcond, ihbody, ihalt, and_assoc]
  | loop _ _ ihcond ihbody =>
      cases b <;> simp [Node.same, ihcond, ihbody]
  | comparisonOne _ ih =>
      cases b with
      | comparison left op right => cases right <;> simp [Node.same, ih]
      | _ => simp [Node.same]
  | comparison _ _ _ ihleft ihright =>
      cases b <;> simp [Node.same, ihleft, ihright, and_assoc]

end Node

end NumBool
