import NumBool.Proofs.Check.Typing

/-!
# Literals and operators count by their kind

The value of a literal and the word of an operator play no part in a check.  A number is a
number, a truth value a truth value, and of the operators of a level only their number is
counted.  A comparison is told by its operator to be one of equality or one of order, and by
nothing more.

`SameKinds` relates two trees that differ in nothing but that.  The checks of such trees are
the same computation (`SameKinds.checkStmt_eq`), so they end alike from any state.
-/

namespace NumBool.Check

/-- Two operators of comparison that are one and the same, or both of equality, or both of
order.  An operator that makes no comparison stands for itself only. -/
def Exchangeable (op op' : String) : Prop :=
  op = op' ∨ (op ∈ ["==", "!="] ∧ op' ∈ ["==", "!="]) ∨
    (op ∈ ["<", "<=", ">", ">="] ∧ op' ∈ ["<", "<=", ">", ">="])

mutual

/-- Two trees that differ only in the values of literals, in the words of as many operators,
and in operators of comparison that are exchangeable. -/
inductive SameKinds : Node → Node → Prop
  | program {xs ys : List Node} (h : AllSameKinds xs ys) : SameKinds (.program xs) (.program ys)
  | block {xs ys : List Node} (h : AllSameKinds xs ys) : SameKinds (.block xs) (.block ys)
  | identifier (name : String) : SameKinds (.identifier name) (.identifier name)
  | declaration (typeName : String) {ident ident' : Node} (hident : SameKinds ident ident') :
      SameKinds (.declaration typeName ident) (.declaration typeName ident')
  | assignment {target target' x y : Node} (htarget : SameKinds target target')
      (h : SameKinds x y) : SameKinds (.assignment target x) (.assignment target' y)
  | branch {cond cond' body body' alt alt' : Node} (hcond : SameKinds cond cond')
      (hbody : SameKinds body body') (halt : SameKinds alt alt') :
      SameKinds (.branch cond body alt) (.branch cond' body' alt')
  | loop {cond cond' body body' : Node} (hcond : SameKinds cond cond')
      (hbody : SameKinds body body') : SameKinds (.loop cond body) (.loop cond' body')
  | logical {xs ys : List Node} {ops ops' : List String} (hops : ops.length = ops'.length)
      (h : AllSameKinds xs ys) : SameKinds (.logical xs ops) (.logical ys ops')
  | comparisonOne {left left' right right' : Node} (hleft : SameKinds left left')
      (hright : SameKinds right right') :
      SameKinds (.comparison left none right) (.comparison left' none right')
  | comparison {left left' right right' : Node} {op op' : String} (hop : Exchangeable op op')
      (hleft : SameKinds left left') (hright : SameKinds right right') :
      SameKinds (.comparison left (some op) right) (.comparison left' (some op') right')
  | addition {xs ys : List Node} {ops ops' : List String} (hops : ops.length = ops'.length)
      (h : AllSameKinds xs ys) : SameKinds (.addition xs ops) (.addition ys ops')
  | multiplication {xs ys : List Node} {ops ops' : List String}
      (hops : ops.length = ops'.length) (h : AllSameKinds xs ys) :
      SameKinds (.multiplication xs ops) (.multiplication ys ops')
  | signed {x y : Node} {ops ops' : List String} (hops : ops.length = ops'.length)
      (h : SameKinds x y) : SameKinds (.signed x ops) (.signed y ops')
  | negated {x y : Node} {ops ops' : List String} (hops : ops.length = ops'.length)
      (h : SameKinds x y) : SameKinds (.negated x ops) (.negated y ops')
  | value {x y : Node} (h : SameKinds x y) : SameKinds (.value x) (.value y)
  | int (m n : Int) : SameKinds (.int m) (.int n)
  | truth (a b : Bool) : SameKinds (.truth a) (.truth b)
  | absent : SameKinds .absent .absent
  | datum (d : Datum) : SameKinds (.datum d) (.datum d)
  | list {xs ys : List Node} (h : AllSameKinds xs ys) : SameKinds (.list xs) (.list ys)
  | foreign (kind : String) : SameKinds (.foreign kind) (.foreign kind)

/-- Two lists of such trees in the same order. -/
inductive AllSameKinds : List Node → List Node → Prop
  | nil : AllSameKinds [] []
  | cons {x y : Node} {xs ys : List Node} (h : SameKinds x y) (hrest : AllSameKinds xs ys) :
      AllSameKinds (x :: xs) (y :: ys)

end

theorem SameKinds.isAbsent_eq {a b : Node} (h : SameKinds a b) : a.isAbsent = b.isAbsent := by
  cases h with
  | _ => rfl

/-- Such trees have the same name, or are without one for nodes of the same kind. -/
theorem SameKinds.nameOf_eq {a b : Node} (h : SameKinds a b) : nameOf a = nameOf b := by
  cases h with
  | _ => rfl

/-- Exchangeable operators are the same or make the same kind of comparison. -/
theorem Exchangeable.eq_or_comparisonOf? {op op' : String} (h : Exchangeable op op') :
    op = op' ∨ ∃ kind, comparisonOf? op = some kind ∧ comparisonOf? op' = some kind := by
  rcases h with heq | ⟨hop, hop'⟩ | ⟨hop, hop'⟩
  · exact .inl heq
  · right
    exact ⟨.equality, comparisonOf?_eq_equality_iff.mpr hop,
      comparisonOf?_eq_equality_iff.mpr hop'⟩
  · right
    exact ⟨.order, comparisonOf?_eq_order_iff.mpr hop, comparisonOf?_eq_order_iff.mpr hop'⟩

/-! ## Expressions -/

theorem countOps_eq_of_length {ops ops' : List String} (h : ops.length = ops'.length) :
    countOps ops = countOps ops' := by
  have hsame : (fun ctx : Context => ctx.countOps ops) = fun ctx => ctx.countOps ops' := by
    funext ctx
    rw [Context.countOps, Context.countOps, h]
  rw [countOps, countOps, hsame]

theorem isEmpty_eq_of_length {ops ops' : List String} (h : ops.length = ops'.length) :
    ops.isEmpty = ops'.isEmpty := by
  cases ops with
  | nil =>
      have hnil := List.length_eq_zero_iff.mp h.symm
      rw [hnil]
  | cons op ops =>
      cases ops' with
      | nil => simp at h
      | cons op' ops' => rfl

mutual

/-- Expressions of the same kinds have the same type, found with the same effects. -/
theorem SameKinds.typeOf_eq : ∀ {a b : Node}, SameKinds a b → typeOf a = typeOf b
  | _, _, .logical hops h => by
      rw [typeOf, typeOf, countOps_eq_of_length hops, isEmpty_eq_of_length hops,
        h.operandsType_eq hops]
  | _, _, .comparisonOne hleft hright => by
      rw [typeOf, typeOf, hleft.typeOf_eq]
  | _, _, .comparison hop hleft hright => by
      rw [typeOf, typeOf, hleft.typeOf_eq, hright.typeOf_eq]
      -- the operator is looked at only when its kind is unknown, and then it is the same
      rcases hop.eq_or_comparisonOf? with rfl | ⟨kind, hkind, hkind'⟩
      · rfl
      · rw [hkind, hkind']
        cases kind <;> rfl
  | _, _, .addition hops h => by
      rw [typeOf, typeOf, countOps_eq_of_length hops, isEmpty_eq_of_length hops,
        h.operandsType_eq hops]
  | _, _, .multiplication hops h => by
      rw [typeOf, typeOf, countOps_eq_of_length hops, isEmpty_eq_of_length hops,
        h.operandsType_eq hops]
  | _, _, .signed hops h => by
      rw [typeOf, typeOf, countOps_eq_of_length hops, isEmpty_eq_of_length hops, h.typeOf_eq]
  | _, _, .negated hops h => by
      rw [typeOf, typeOf, countOps_eq_of_length hops, isEmpty_eq_of_length hops, h.typeOf_eq]
  | _, _, .value h => by
      rw [typeOf, typeOf, h.typeOf_eq]
  | _, _, .int _ _ | _, _, .truth _ _ | _, _, .identifier _ | _, _, .absent | _, _, .datum _
  | _, _, .foreign _ => by
      simp only [typeOf]
  | _, _, .program _ | _, _, .block _ | _, _, .declaration _ _ | _, _, .assignment _ _
  | _, _, .branch _ _ _ | _, _, .loop _ _ | _, _, .list _ => by
      simp only [typeOf, Node.kindName]

theorem AllSameKinds.operandsType_eq : ∀ {xs ys : List Node}, AllSameKinds xs ys →
    ∀ {ops ops' : List String}, ops.length = ops'.length →
      ∀ {level : String} {expected : Ty} {last : Option Ty},
        operandsType xs ops level expected last = operandsType ys ops' level expected last
  | _, _, .nil, _, _, _, _, _, _ => by
      rw [operandsType, operandsType]
  | _, _, .cons h hrest, _, _, hops, _, _, _ => by
      rw [operandsType, operandsType, h.typeOf_eq, isEmpty_eq_of_length hops]
      simp only [hrest.operandsType_eq hops]

end

/-! ## Statements -/

theorem SameKinds.checkCondition_eq {a b : Node} (h : SameKinds a b) :
    checkCondition a = checkCondition b := by
  rw [checkCondition, checkCondition, h.typeOf_eq]

mutual

/-- Statements of the same kinds are checked by the same computation. -/
theorem SameKinds.checkStmt_eq : ∀ {a b : Node}, SameKinds a b → checkStmt a = checkStmt b
  | _, _, .program h => by
      rw [checkStmt, checkStmt, h.checkStmts_eq]
  | _, _, .block h => by
      rw [checkStmt, checkStmt, h.checkStmts_eq]
  | _, _, .declaration _ hident => by
      rw [checkStmt, checkStmt, checkDeclaration, checkDeclaration, hident.nameOf_eq]
  | _, _, .assignment htarget h => by
      rw [checkStmt, checkStmt, checkAssignment, checkAssignment, htarget.nameOf_eq,
        h.typeOf_eq]
  | _, _, .branch hcond hbody halt => by
      rw [checkStmt, checkStmt, hcond.checkCondition_eq, hbody.checkStmt_eq, halt.checkStmt_eq,
        halt.isAbsent_eq]
  | _, _, .loop hcond hbody => by
      rw [checkStmt, checkStmt, hcond.checkCondition_eq, hbody.checkStmt_eq]
  | _, _, .identifier _ | _, _, .absent | _, _, .datum _ | _, _, .foreign _ => by
      simp only [checkStmt]
  | _, _, .logical _ _ | _, _, .comparisonOne _ _ | _, _, .comparison _ _ _
  | _, _, .addition _ _ | _, _, .multiplication _ _ | _, _, .signed _ _ | _, _, .negated _ _
  | _, _, .value _ | _, _, .int _ _ | _, _, .truth _ _ | _, _, .list _ => by
      simp only [checkStmt, Node.kindName]

theorem AllSameKinds.checkStmts_eq : ∀ {xs ys : List Node}, AllSameKinds xs ys →
    checkStmts xs = checkStmts ys
  | _, _, .nil => rfl
  | _, _, .cons h hrest => by
      rw [checkStmts_cons, checkStmts_cons, h.checkStmt_eq, hrest.checkStmts_eq]

end

/-- A check depends on literals and operators only through their kind.  Trees of the same
kinds end alike: they pass, or fail with the same failure and hence the same message, and leave
the same counts, variables and reports. -/
theorem check_eq_of_sameKinds {a b : Node} (h : SameKinds a b) : check a = check b := by
  rw [check, check, h.checkStmt_eq]

/-- The program `bool b; if (1 op limit) { b = flag sign 1; }`, which adds to a truth value. -/
def sumOfTruth (op : String) (limit : Int) (flag : Bool) (sign : String) : Node :=
  .program [.declaration "bool" (.identifier "b"),
    .branch (.comparison (.int 1) (some op) (.int limit))
      (.block [.assignment (.identifier "b") (.addition [.truth flag, .int 1] [sign])]) .absent]

theorem check_eq_of_sameKinds_sumOfTruth :
    SameKinds (sumOfTruth "<" 2 true "+") (sumOfTruth ">=" (-7) false "-") ∧
      check (sumOfTruth "<" 2 true "+") = check (sumOfTruth ">=" (-7) false "-") ∧
      (check (sumOfTruth ">=" (-7) false "-")).failure =
        some (.semantic (.operand Level.addition (some .bool) (some .number))) := by
  have hsame : SameKinds (sumOfTruth "<" 2 true "+") (sumOfTruth ">=" (-7) false "-") := by
    refine .program (.cons (.declaration _ (.identifier _)) (.cons (.branch ?_ ?_ .absent) .nil))
    · exact .comparison (.inr (.inr (by decide))) (.int _ _) (.int _ _)
    · exact .block (.cons (.assignment (.identifier _) (.addition rfl (.cons (.truth _ _)
        (.cons (.int _ _) .nil)))) .nil)
  refine ⟨hsame, check_eq_of_sameKinds hsame, ?_⟩
  rw [check_eq]
  decide +kernel

end NumBool.Check
