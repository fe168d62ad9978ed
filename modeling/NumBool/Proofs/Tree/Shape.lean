import NumBool.Proofs.Token.Spelling
import NumBool.Proofs.Tree.Readable

/-!
# The shape of parsed trees

An open tree can hold any node in any place.  `Shaped symbol value` says which trees
stand where a symbol of the grammar is expected: a program only at the root, a body
only as a block, an alternative that is missing, a block or a further branch, and the
seven levels of an expression one inside the other, each with operators of its own
level only and with one operand more than operators.  Names and numbers are such that a
text can hold them.

The trees that the grammar derives from tokens that can be written have this shape
(`Derives.shaped`), so every parsed tree has it (`shaped_of_parse`).  A tree of this
shape can be read off its printed form (`Shaped.readable`).  The comparison of open trees
takes some different trees for the same; a tree of this shape is the same as itself only
(`Shaped.toldApart`).
-/

namespace NumBool.Grammar

/-- The values of a symbol that have the shape of the language. -/
inductive Shaped : (symbol : Symbol) → symbol.Value → Prop
  | program {stmts : List Node} (body : Shaped .stmts stmts) :
      Shaped .program (.program stmts)
  | stmts {nodes : List Node} (each : ∀ n ∈ nodes, Shaped .stmt n) : Shaped .stmts nodes
  | stmtDeclaration {n : Node} (h : Shaped .declaration n) : Shaped .stmt n
  | stmtAssignment {n : Node} (h : Shaped .assignment n) : Shaped .stmt n
  | stmtBranch {n : Node} (h : Shaped .branch n) : Shaped .stmt n
  | stmtLoop {n : Node} (h : Shaped .loop n) : Shaped .stmt n
  | stmtBlock {n : Node} (h : Shaped .block n) : Shaped .stmt n
  | declaration (ty : Ty) {name : String} (hname : isName name = true) :
      Shaped .declaration (.declaration ty.keyword (.identifier name))
  | assignment {target : String} {value : Node} (htarget : isName target = true)
      (hvalue : Shaped .expr value) : Shaped .assignment (.assignment (.identifier target) value)
  | branch {cond body alt : Node} (hcond : Shaped .expr cond) (hbody : Shaped .block body)
      (halt : Shaped .alternative alt) : Shaped .branch (.branch cond body alt)
  | alternativeBlock {n : Node} (h : Shaped .block n) : Shaped .alternative n
  | alternativeBranch {n : Node} (h : Shaped .branch n) : Shaped .alternative n
  | alternativeAbsent : Shaped .alternative .absent
  | loop {cond body : Node} (hcond : Shaped .expr cond) (hbody : Shaped .block body) :
      Shaped .loop (.loop cond body)
  | block {stmts : List Node} (body : Shaped .stmts stmts) : Shaped .block (.block stmts)
  | expr {n : Node} (h : Shaped .logical n) : Shaped .expr n
  | logical {operands : List Node} (ops : List LogicOp)
      (hlength : operands.length = ops.length + 1)
      (hoperands : ∀ n ∈ operands, Shaped .comparison n) :
      Shaped .logical (.logical operands (ops.map LogicOp.text))
  | comparisonOne {left : Node} (hleft : Shaped .addition left) :
      Shaped .comparison (.comparison left none .absent)
  | comparison {left right : Node} (op : CompareOp) (hleft : Shaped .addition left)
      (hright : Shaped .addition right) :
      Shaped .comparison (.comparison left (some op.text) right)
  | addition {operands : List Node} (ops : List SumOp)
      (hlength : operands.length = ops.length + 1)
      (hoperands : ∀ n ∈ operands, Shaped .multiplication n) :
      Shaped .addition (.addition operands (ops.map SumOp.text))
  | multiplication {operands : List Node} (ops : List ProductOp)
      (hlength : operands.length = ops.length + 1)
      (hoperands : ∀ n ∈ operands, Shaped .signed n) :
      Shaped .multiplication (.multiplication operands (ops.map ProductOp.text))
  | signed {operand : Node} {ops : List String} (hops : Shaped .signs ops)
      (hoperand : Shaped .negated operand) : Shaped .signed (.signed operand ops)
  | signs (ops : List SumOp) : Shaped .signs (ops.map SumOp.text)
  | negated {operand : Node} {ops : List String} (hops : Shaped .marks ops)
      (hoperand : Shaped .value operand) : Shaped .negated (.negated operand ops)
  | marks (n : Nat) : Shaped .marks (List.replicate n Op.not.text)
  | valueIdent {name : String} (hname : isName name = true) :
      Shaped .value (.value (.identifier name))
  | valueInt {value : Nat} (hvalue : (Nat.toDigits 10 value).length ≤ Text.maxDigits) :
      Shaped .value (.value (.int value))
  | valueTruth (value : Bool) : Shaped .value (.value (.truth value))
  | valueParen {inner : Node} (hinner : Shaped .expr inner) : Shaped .value (.value inner)

/-! ## Derived trees have the shape -/

theorem Shaped.stmts_append_singleton {nodes : List Node} {n : Node}
    (h : Shaped .stmts nodes) (hn : Shaped .stmt n) : Shaped .stmts (nodes ++ [n]) := by
  cases h with
  | stmts each => exact .stmts (forall_mem_append_singleton each hn)

/-- One more operator and one more operand, whatever the level of the chain is. -/
theorem exists_chain_append_singleton {α : Type} {text : α → String} {p : Node → Prop}
    {operands : List Node} (ops : List α) (hlength : operands.length = ops.length + 1)
    (hoperands : ∀ n ∈ operands, p n) (op : α) {operand : Node} (hoperand : p operand) :
    ∃ more : List α, ops.map text ++ [text op] = more.map text ∧
      (operands ++ [operand]).length = more.length + 1 ∧ ∀ n ∈ operands ++ [operand], p n := by
  refine ⟨ops ++ [op], ?_, ?_, forall_mem_append_singleton hoperands hoperand⟩
  · rw [List.map_append, List.map_singleton]
  · simp [hlength]

theorem Shaped.signs_append_singleton {ops : List String} (h : Shaped .signs ops) (op : SumOp) :
    Shaped .signs (ops ++ [op.text]) := by
  cases h with
  | signs ops =>
      have hmore := Shaped.signs (ops ++ [op])
      rwa [List.map_append] at hmore

theorem Shaped.marks_append_singleton {ops : List String} (h : Shaped .marks ops) :
    Shaped .marks (ops ++ [Op.not.text]) := by
  cases h with
  | marks n =>
      rw [← List.replicate_succ']
      exact .marks (n + 1)

/-- What derives from tokens that can be written has the shape of its symbol. -/
theorem Derives.shaped {symbol : Symbol} {kinds : List TokenKind} {value : symbol.Value}
    (h : Derives symbol kinds value) (hkinds : ∀ kind ∈ kinds, kind.isWritable = true) :
    Shaped symbol value := by
  induction h with
  | program _ ih => exact .program (ih hkinds)
  | programEmpty => exact .program (.stmts (by simp))
  | stmtsMore _ _ ihfront ihlast =>
      rw [List.forall_mem_append] at hkinds
      exact (ihfront hkinds.1).stmts_append_singleton (ihlast hkinds.2)
  | stmtsOne _ ih => exact .stmts (List.forall_mem_singleton.mpr (ih hkinds))
  | stmtDeclaration _ ih => exact .stmtDeclaration (ih hkinds)
  | stmtAssignment _ ih => exact .stmtAssignment (ih hkinds)
  | stmtBranch _ ih => exact .stmtBranch (ih hkinds)
  | stmtLoop _ ih => exact .stmtLoop (ih hkinds)
  | stmtBlock _ ih => exact .stmtBlock (ih hkinds)
  | declaration ty name =>
      have hname : (TokenKind.ident name).isWritable = true := hkinds _ (by simp)
      exact .declaration ty hname
  | assignment name _ ih =>
      have hname : (TokenKind.ident name).isWritable = true := hkinds _ (by simp)
      simp only [List.forall_mem_cons, List.forall_mem_append] at hkinds
      exact .assignment hname (ih hkinds.2.2.1)
  | branch _ _ _ ihcond ihbody ihalt =>
      simp only [List.forall_mem_cons, List.forall_mem_append] at hkinds
      obtain ⟨-, -, hcond, -, hbody, halt⟩ := hkinds
      exact .branch (ihcond hcond) (ihbody hbody) (ihalt halt)
  | alternativeBlock _ ih =>
      rw [List.forall_mem_cons] at hkinds
      exact .alternativeBlock (ih hkinds.2)
  | alternativeBranch _ ih =>
      rw [List.forall_mem_cons] at hkinds
      exact .alternativeBranch (ih hkinds.2)
  | alternativeEmpty => exact .alternativeAbsent
  | loop _ _ ihcond ihbody =>
      simp only [List.forall_mem_cons, List.forall_mem_append] at hkinds
      obtain ⟨-, -, hcond, -, hbody⟩ := hkinds
      exact .loop (ihcond hcond) (ihbody hbody)
  | block _ ih =>
      simp only [List.forall_mem_cons, List.forall_mem_append] at hkinds
      exact .block (ih hkinds.2.1)
  | blockEmpty => exact .block (.stmts (by simp))
  | expr _ ih => exact .expr (ih hkinds)
  | logicalMore op _ _ ihfirst ihlast =>
      rw [List.forall_mem_append, List.forall_mem_cons] at hkinds
      cases ihfirst hkinds.1 with
      | logical ops hlength hoperands =>
          obtain ⟨more, hops, hmore, hall⟩ :=
            exists_chain_append_singleton ops hlength hoperands op (ihlast hkinds.2.2)
          rw [hops]
          exact .logical more hmore hall
  | logicalOne _ ih => exact .logical [] rfl (List.forall_mem_singleton.mpr (ih hkinds))
  | comparisonBinary op _ _ ihleft ihright =>
      rw [List.forall_mem_append, List.forall_mem_cons] at hkinds
      exact .comparison op (ihleft hkinds.1) (ihright hkinds.2.2)
  | comparisonOne _ ih => exact .comparisonOne (ih hkinds)
  | additionMore op _ _ ihfirst ihlast =>
      rw [List.forall_mem_append, List.forall_mem_cons] at hkinds
      cases ihfirst hkinds.1 with
      | addition ops hlength hoperands =>
          obtain ⟨more, hops, hmore, hall⟩ :=
            exists_chain_append_singleton ops hlength hoperands op (ihlast hkinds.2.2)
          rw [hops]
          exact .addition more hmore hall
  | additionOne _ ih => exact .addition [] rfl (List.forall_mem_singleton.mpr (ih hkinds))
  | multiplicationMore op _ _ ihfirst ihlast =>
      rw [List.forall_mem_append, List.forall_mem_cons] at hkinds
      cases ihfirst hkinds.1 with
      | multiplication ops hlength hoperands =>
          obtain ⟨more, hops, hmore, hall⟩ :=
            exists_chain_append_singleton ops hlength hoperands op (ihlast hkinds.2.2)
          rw [hops]
          exact .multiplication more hmore hall
  | multiplicationOne _ ih =>
      exact .multiplication [] rfl (List.forall_mem_singleton.mpr (ih hkinds))
  | signedSigns _ _ ihsigns ihlast =>
      rw [List.forall_mem_append] at hkinds
      exact .signed (ihsigns hkinds.1) (ihlast hkinds.2)
  | signedPlain _ ih => exact .signed (.signs []) (ih hkinds)
  | signsMore op _ ih =>
      rw [List.forall_mem_append] at hkinds
      exact (ih hkinds.1).signs_append_singleton op
  | signsOne op => exact .signs [op]
  | negatedMarks _ _ ihmarks ihlast =>
      rw [List.forall_mem_append] at hkinds
      exact .negated (ihmarks hkinds.1) (ihlast hkinds.2)
  | negatedPlain _ ih => exact .negated (.marks 0) (ih hkinds)
  | marksMore _ ih =>
      rw [List.forall_mem_append] at hkinds
      exact (ih hkinds.1).marks_append_singleton
  | marksOne => exact .marks 1
  | valueIdent name => exact .valueIdent (hkinds (.ident name) List.mem_cons_self)
  | valueInt value =>
      have hvalue : (TokenKind.int value).isWritable = true := hkinds _ List.mem_cons_self
      exact .valueInt (of_decide_eq_true hvalue)
  | valueTruth value => exact .valueTruth value
  | valueParen _ ih =>
      simp only [List.forall_mem_cons, List.forall_mem_append] at hkinds
      exact .valueParen (ih hkinds.2.1)

/-- Every parsed tree has the shape of a program. -/
theorem shaped_of_parse {source : String} {program : Phrase.Program}
    (h : Phrase.parse source = .ok program) : Shaped .program program.toNode := by
  have htokens : program.tokens = (Token.scan source).kinds := (Phrase.parse_eq_ok_iff.mp h).2
  apply program.derives.shaped
  rw [htokens]
  intro kind hkind
  exact Token.isWritable_of_mem_scan hkind

/-! ## Equality of shaped trees -/

theorem isWordlike_of_isName {name : String} (h : isName name = true) : IsWordlike name := by
  unfold isName at h
  cases hname : name.toList with
  | nil =>
      rw [hname] at h
      cases h
  | cons c rest =>
      simp only [hname, Bool.and_eq_true, List.all_eq_true] at h
      rw [IsWordlike, hname, List.forall_mem_cons]
      exact ⟨Text.isWordChar_of_isWordStart h.1.1, h.1.2⟩

theorem isWordlike_keyword (ty : Ty) : IsWordlike ty.keyword := by
  have hkeyword : ty.keyword.toList.all Text.isWordChar = true := by
    cases ty with
    | _ => rfl
  exact List.all_eq_true.mp hkeyword

/-- The value of a symbol is made of readable trees, or of operators before one. -/
def Symbol.Readable : (symbol : Symbol) → symbol.Value → Prop
  | .stmts, nodes => ∀ n ∈ nodes, n.Readable
  | .signs, ops => ∃ signs : List SumOp, ops = signs.map SumOp.text
  | .marks, ops => ∃ marks : Nat, ops = List.replicate marks Op.not.text
  | .program, n | .stmt, n | .declaration, n | .assignment, n | .branch, n
  | .alternative, n | .loop, n | .block, n | .expr, n | .logical, n | .comparison, n
  | .addition, n | .multiplication, n | .signed, n | .negated, n | .value, n => n.Readable

/-- A value of the shape of its symbol is readable. -/
theorem Shaped.readable {symbol : Symbol} {value : symbol.Value} (h : Shaped symbol value) :
    symbol.Readable value := by
  induction h with
  | program _ ih => exact .program ih
  | stmts _ ih => exact ih
  | stmtDeclaration _ ih => exact ih
  | stmtAssignment _ ih => exact ih
  | stmtBranch _ ih => exact ih
  | stmtLoop _ ih => exact ih
  | stmtBlock _ ih => exact ih
  | declaration ty hname => exact .declaration (isWordlike_keyword ty) (isWordlike_of_isName hname)
  | assignment htarget _ ih => exact .assignment (isWordlike_of_isName htarget) ih
  | branch _ _ _ ihcond ihbody ihalt => exact .branch ihcond ihbody ihalt
  | alternativeBlock _ ih => exact ih
  | alternativeBranch _ ih => exact ih
  | alternativeAbsent => exact .absent
  | loop _ _ ihcond ihbody => exact .loop ihcond ihbody
  | block _ ih => exact .block ih
  | expr _ ih => exact ih
  | logical ops _ _ ih => exact .logical ops ih
  | comparisonOne _ ih => exact .comparisonOne ih
  | comparison op _ _ ihleft ihright => exact .comparison op ihleft ihright
  | addition ops _ _ ih => exact .addition ops ih
  | multiplication ops _ _ ih => exact .multiplication ops ih
  | signed _ _ ihops ih =>
      obtain ⟨signs, rfl⟩ := ihops
      exact .signed signs ih
  | signs ops => exact ⟨ops, rfl⟩
  | negated _ _ ihops ih =>
      obtain ⟨marks, rfl⟩ := ihops
      exact .negated marks ih
  | marks n => exact ⟨n, rfl⟩
  | valueIdent hname => exact .value (.identifier (isWordlike_of_isName hname))
  | valueInt hvalue => exact .value (.int hvalue)
  | valueTruth value => exact .value (.truth value)
  | valueParen _ ih => exact .value ih

/-- No other tree is the same as the value of a symbol. -/
def Symbol.ToldApart : (symbol : Symbol) → symbol.Value → Prop
  | .stmts, nodes => ∀ others : List Node, sameNodes nodes others = true ↔ nodes = others
  | .signs, _ | .marks, _ => True
  | .program, n | .stmt, n | .declaration, n | .assignment, n | .branch, n
  | .alternative, n | .loop, n | .block, n | .expr, n | .logical, n | .comparison, n
  | .addition, n | .multiplication, n | .signed, n | .negated, n | .value, n =>
    ∀ other : Node, n.same other = true ↔ n = other

/-- A value of the shape of its symbol is the same as no other tree. -/
theorem Shaped.toldApart {symbol : Symbol} {value : symbol.Value} (h : Shaped symbol value) :
    symbol.ToldApart value := by
  have hreadable := h.readable
  cases symbol with
  | stmts => exact sameNodes_iff fun n hn => (hreadable n hn).same_iff
  | signs | marks => trivial
  | _ => exact Node.Readable.same_iff hreadable

end NumBool.Grammar
