import NumBool.Proofs.Text.ReadsOff
import NumBool.Proofs.Tree.Shape

/-!
# Reading a tree off its printed form

The printed form of a tree does not quote names, and it puts signs and negation marks right
before their operand.  Trees that differ can be printed alike: a name may hold a parenthesis, or
look like another node.  Readable trees are told apart.  Each of them can be printed
(`Readable.printed_eq`), and each can be read off a text that begins with its printed form
(`Node.Readable.readsBack`): the first word tells the kind of the node, and from there on it
shows where each part ends.
-/

namespace NumBool.Node

/-! ## The text of a readable tree -/

mutual

/-- What a tree prints as, without the errors.  Only trees that are not readable have some. -/
def rendered : Node → String
  | .program stmts => "Program(" ++ bracketed (itemsRendered stmts) ++ ")"
  | .block stmts => "Block(" ++ bracketed (itemsRendered stmts) ++ ")"
  | .identifier name => "Ident(" ++ name ++ ")"
  | .declaration typeName ident => "Decl(" ++ typeName ++ " " ++ ident.name?.getD "" ++ ")"
  | .assignment target assigned =>
    "Assign(" ++ target.name?.getD "" ++ " = " ++ assigned.rendered ++ ")"
  | .branch cond body alt =>
    "If(" ++ cond.rendered ++ ", then=" ++ body.rendered ++ ", else=" ++ alt.rendered ++ ")"
  | .loop cond body => "While(" ++ cond.rendered ++ ", " ++ body.rendered ++ ")"
  | .logical operands ops => chainPrinted "BoolExpr" (itemsRendered operands) ops
  | .comparison left none _ => "Comp(" ++ left.rendered ++ ")"
  | .comparison left (some op) right =>
    "Comp(" ++ left.rendered ++ " " ++ op ++ " " ++ right.rendered ++ ")"
  | .addition operands ops => chainPrinted "AddExpr" (itemsRendered operands) ops
  | .multiplication operands ops => chainPrinted "MulExpr" (itemsRendered operands) ops
  | .signed operand ops => "Una(" ++ String.join ops ++ operand.rendered ++ ")"
  | .negated operand ops => "Not(" ++ String.join ops ++ operand.rendered ++ ")"
  | .value inner => "Gen(" ++ inner.rendered ++ ")"
  | .int n => "Int(" ++ toString n ++ ")"
  | .truth b => "Bool(" ++ truthText b ++ ")"
  | .absent => "None"
  | .datum _ | .list _ | .foreign _ => ""

/-- What some trees print as. -/
def itemsRendered : List Node → List String
  | [] => []
  | node :: rest => node.rendered :: itemsRendered rest

end

theorem itemsRendered_eq_map (nodes : List Node) : itemsRendered nodes = nodes.map rendered := by
  induction nodes with
  | nil => rw [itemsRendered, List.map_nil]
  | cons n rest ih => rw [itemsRendered, ih, List.map_cons]

theorem itemsPrinted_eq {nodes : List Node} (h : ∀ n ∈ nodes, n.Readable)
    (hprinted : ∀ n ∈ nodes, n.printed = .ok n.rendered) :
    itemsPrinted nodes = .ok (itemsRendered nodes) := by
  induction nodes with
  | nil => rfl
  | cons n rest ih =>
      rw [List.forall_mem_cons] at h hprinted
      have hrest := ih h.2 hprinted.2
      have hn := hprinted.1
      -- no readable tree is a text value, which would be quoted
      cases h.1 with
      | _ => simp only [itemsPrinted, hn, hrest, itemsRendered]; rfl

theorem intPrinted_of_length_le {value : Nat}
    (h : (Nat.toDigits 10 value).length ≤ Text.maxDigits) :
    intPrinted value = .ok (toString (value : Int)) := by
  rw [intPrinted, Int.natAbs_natCast, if_neg (Nat.not_lt.mpr h)]

/-- A readable tree prints. -/
theorem Readable.printed_eq {n : Node} (h : n.Readable) : n.printed = .ok n.rendered := by
  induction h with
  | program hstmts ih | block hstmts ih =>
      rw [printed, itemsPrinted_eq hstmts ih]
      rfl
  | logical _ hoperands ih | addition _ hoperands ih | multiplication _ hoperands ih =>
      rw [printed, itemsPrinted_eq hoperands ih]
      rfl
  | identifier _ | declaration _ _ | truth _ | absent => rfl
  | assignment _ _ ih | comparisonOne _ ih | signed _ _ ih | negated _ _ ih | value _ ih =>
      rw [printed, ih]
      rfl
  | branch _ _ _ ihcond ihbody ihalt =>
      rw [printed, ihcond, ihbody, ihalt]
      rfl
  | loop _ _ ihcond ihbody =>
      rw [printed, ihcond, ihbody]
      rfl
  | comparison _ _ _ ihleft ihright =>
      rw [printed, ihleft, ihright]
      rfl
  | int hvalue =>
      rw [printed, intPrinted_of_length_le hvalue]
      rfl

/-! ## The first word -/

/-- The first word of a printed tree, with the parenthesis behind it. -/
def opening : Node → String
  | .program _ => "Program("
  | .block _ => "Block("
  | .identifier _ => "Ident("
  | .declaration _ _ => "Decl("
  | .assignment _ _ => "Assign("
  | .branch _ _ _ => "If("
  | .loop _ _ => "While("
  | .logical _ _ => "BoolExpr("
  | .comparison _ _ _ => "Comp("
  | .addition _ _ => "AddExpr("
  | .multiplication _ _ => "MulExpr("
  | .signed _ _ => "Una("
  | .negated _ _ => "Not("
  | .value _ => "Gen("
  | .int _ => "Int("
  | .truth _ => "Bool("
  | .absent => "None"
  | .datum _ | .list _ | .foreign _ => ""

/-- The first words of readable trees. -/
def openings : List String :=
  ["Program(", "Block(", "Ident(", "Decl(", "Assign(", "If(", "While(", "BoolExpr(", "Comp(",
    "AddExpr(", "MulExpr(", "Una(", "Not(", "Gen(", "Int(", "Bool(", "None"]

theorem openings_prefixFree : ∀ x y, x ∈ openings → y ∈ openings →
    x.toList <+: y.toList → x = y := by
  have h : ∀ x ∈ openings, ∀ y ∈ openings, x.toList <+: y.toList → x = y := by
    decide
  exact fun x y hx hy => h x hx y hy

theorem Readable.opening_mem {n : Node} (h : n.Readable) : n.opening ∈ openings := by
  cases h with
  | _ => simp [opening, openings]

theorem Readable.opening_isPrefix {n : Node} (h : n.Readable) :
    n.opening.toList <+: n.rendered.toList := by
  cases h with
  | absent => exact List.prefix_rfl
  | logical _ _ | addition _ _ | multiplication _ _ =>
      simp only [rendered, chainPrinted, opening, String.toList_append, List.append_assoc]
      exact ⟨_, rfl⟩
  | _ =>
      simp only [rendered, opening, String.toList_append, List.append_assoc]
      exact List.prefix_append _ _

/-- The first word of a text tells the kind of the tree that it begins with. -/
theorem Readable.opening_eq {a b : Node} (ha : a.Readable) (hb : b.Readable)
    {rest rest' : List Char} (htext : a.rendered.toList ++ rest = b.rendered.toList ++ rest') :
    a.opening = b.opening := by
  obtain ⟨tail, htail⟩ := ha.opening_isPrefix
  obtain ⟨tail', htail'⟩ := hb.opening_isPrefix
  rw [← htail, ← htail', List.append_assoc, List.append_assoc] at htext
  have hreads := Text.readsOff_of_prefixFree openings_prefixFree ha.opening_mem
  exact (hreads b.opening _ _ hb.opening_mem htext).1

/-! ## The parts of a node -/

/-- A tree that is told from all readable ones by the beginning of a text. -/
def ReadsBack (n : Node) : Prop :=
  Text.ReadsOff (fun m : Node => m.rendered.toList) Readable n

/-- A readable tree is printed with a capital letter first. -/
theorem Readable.exists_head {n : Node} (h : n.Readable) :
    ∃ c ∈ n.rendered.toList.head?, c.isUpper = true := by
  have hopenings : ∀ x ∈ openings, x.toList.head?.any Char.isUpper = true := by
    decide
  obtain ⟨c, hc, hupper⟩ := (Option.any_eq_true _ _).mp (hopenings _ h.opening_mem)
  obtain ⟨tail, htail⟩ := h.opening_isPrefix
  refine ⟨c, ?_, hupper⟩
  rw [← htail, List.head?_append, hc, Option.some_or]
  rfl

/-- Nothing that begins with another character than a capital letter is a printed tree. -/
theorem stops_of_head {text : List Char} (h : ∃ c ∈ text.head?, c.isUpper = false) :
    Text.Stops (fun n : Node => n.rendered.toList) Readable text := by
  rintro n rest hn rfl
  obtain ⟨c, hc, hupper⟩ := hn.exists_head
  obtain ⟨d, hd, hlower⟩ := h
  rw [List.head?_append, Option.mem_def.mp hc, Option.some_or] at hd
  obtain rfl := Option.some.inj hd
  rw [hupper] at hlower
  cases hlower

theorem nodes_unique {xs ys : List Node} (hxs : ∀ n ∈ xs, n.Readable ∧ n.ReadsBack)
    (hys : ∀ n ∈ ys, n.Readable) {rest rest' : List Char}
    (htext : (bracketed (itemsRendered xs)).toList ++ rest =
      (bracketed (itemsRendered ys)).toList ++ rest') : xs = ys ∧ rest = rest' := by
  rw [itemsRendered_eq_map, itemsRendered_eq_map] at htext
  refine Text.readsOff_bracketed hxs hys (fun rest => ?_) htext
  exact stops_of_head ⟨']', rfl, rfl⟩

theorem word_unique {x y sep : String} (hx : IsWordlike x) (hy : IsWordlike y)
    (hsep : ∃ c ∈ sep.toList.head?, Text.isWordChar c = false) {rest rest' : List Char}
    (htext : x.toList ++ (sep.toList ++ rest) = y.toList ++ (sep.toList ++ rest')) :
    x = y ∧ rest = rest' := by
  obtain ⟨hsame, hrest⟩ := Text.run_unique hx hy hsep hsep htext
  exact ⟨String.toList_inj.mp hsame, List.append_cancel_left hrest⟩

/-- No operator is quoted as the beginning of another one. -/
def QuotedApart {α : Type} (text : α → String) : Prop :=
  ∀ x y : α, (Text.quoted (text x)).toList <+: (Text.quoted (text y)).toList → x = y

theorem quotedApart_logicOp : QuotedApart LogicOp.text := by
  intro x y
  cases x <;> cases y <;> decide

theorem quotedApart_sumOp : QuotedApart SumOp.text := by
  intro x y
  cases x <;> cases y <;> decide

theorem quotedApart_productOp : QuotedApart ProductOp.text := by
  intro x y
  cases x <;> cases y <;> decide

section Chain

variable {α : Type} {text : α → String} {ops ops' : List α} {rest rest' : List Char}

theorem ops_unique (hapart : QuotedApart text)
    (htext : (opsText (ops.map text)).toList ++ rest = (opsText (ops'.map text)).toList ++ rest') :
    ops = ops' ∧ rest = rest' := by
  have hreads : ∀ x : α, Text.ReadsOff (fun y => (Text.quoted (text y)).toList) (fun _ => True) x :=
    fun x => Text.readsOff_of_prefixFree (fun y z _ _ => hapart y z) trivial
  rw [opsText, opsText, List.map_map, List.map_map] at htext
  refine Text.readsOff_bracketed (fun x _ => ⟨trivial, hreads x⟩) (fun _ _ => trivial) ?_ htext
  -- a quoted text begins with one of the quotes
  intro rest x more _ hsame
  simp only [Text.quoted, String.toList_ofList, Text.quotedChars, List.cons_append,
    List.cons.injEq] at hsame
  have hquote := hsame.1
  unfold Text.quoteFor at hquote
  split at hquote <;> cases hquote

/-- The operands and operators of one level. -/
theorem chain_unique {head : String} {xs ys : List Node} (hapart : QuotedApart text)
    (hxs : ∀ n ∈ xs, n.Readable ∧ n.ReadsBack) (hys : ∀ n ∈ ys, n.Readable)
    (htext : (chainPrinted head (itemsRendered xs) (ops.map text)).toList ++ rest =
      (chainPrinted head (itemsRendered ys) (ops'.map text)).toList ++ rest') :
    xs = ys ∧ ops = ops' ∧ rest = rest' := by
  simp only [chainPrinted, String.toList_append, List.append_assoc,
    List.append_cancel_left_eq] at htext
  obtain ⟨hnodes, hmore⟩ := nodes_unique hxs hys htext
  obtain ⟨hops, hrest⟩ := ops_unique hapart (List.append_cancel_left hmore)
  exact ⟨hnodes, hops, List.append_cancel_left hrest⟩

end Chain

/-- An operator of comparison and the space behind it. -/
theorem compareOp_unique {op op' : CompareOp} {rest rest' : List Char}
    (htext : op.text.toList ++ (" ".toList ++ rest) = op'.text.toList ++ (" ".toList ++ rest')) :
    op = op' ∧ rest = rest' := by
  have hfree : ∀ x y : CompareOp, True → True →
      x.text.toList ++ " ".toList <+: y.text.toList ++ " ".toList → x = y := by
    intro x y
    cases x <;> cases y <;> decide
  refine Text.readsOff_of_prefixFree hfree trivial op' rest rest' trivial ?_
  rw [List.append_assoc, List.append_assoc, htext]

/-- Signs before an operand. -/
theorem signs_unique {ops ops' : List SumOp} {a b : Node} (ha : a.Readable) (hb : b.Readable)
    {rest rest' : List Char}
    (htext : (String.join (ops.map SumOp.text)).toList ++ (a.rendered.toList ++ rest) =
      (String.join (ops'.map SumOp.text)).toList ++ (b.rendered.toList ++ rest')) :
    ops = ops' ∧ a.rendered.toList ++ rest = b.rendered.toList ++ rest' := by
  have hfree : ∀ x y : SumOp, True → True → x.text.toList <+: y.text.toList → x = y := by
    intro x y
    cases x <;> cases y <;> decide
  have hstops : ∀ {n : Node}, n.Readable → ∀ more, Text.Stops (fun op : SumOp => op.text.toList)
      (fun _ => True) (n.rendered.toList ++ more) := by
    intro n hn more op rest _ hsame
    have hop : ∃ c ∈ (op.text.toList ++ rest).head?, c.isUpper = false := by
      cases op with
      | plus => exact ⟨'+', rfl, rfl⟩
      | minus => exact ⟨'-', rfl, rfl⟩
    exact stops_of_head hop n more hn hsame.symm
  simp only [String.toList_join, List.flatMap_map] at htext
  exact Text.readsOff_flatMap (fun op _ => ⟨trivial, Text.readsOff_of_prefixFree hfree trivial⟩)
    (fun _ _ => trivial) (hstops ha rest) (hstops hb rest') htext

theorem toList_join_marks (n : Nat) :
    (String.join (List.replicate n Op.not.text)).toList = List.replicate n '!' := by
  rw [String.toList_join]
  induction n with
  | zero => rfl
  | succ n ih =>
      rw [List.replicate_succ, List.flatMap_cons, ih, List.replicate_succ]
      rfl

/-- Negation marks before an operand. -/
theorem marks_unique {m n : Nat} {a b : Node} (ha : a.Readable) (hb : b.Readable)
    {rest rest' : List Char}
    (htext : (String.join (List.replicate m Op.not.text)).toList ++ (a.rendered.toList ++ rest) =
      (String.join (List.replicate n Op.not.text)).toList ++ (b.rendered.toList ++ rest')) :
    m = n ∧ a.rendered.toList ++ rest = b.rendered.toList ++ rest' := by
  have hrun : ∀ n, ∀ c ∈ List.replicate n '!', (c == '!') = true := by
    intro n c hc
    rw [List.eq_of_mem_replicate hc]
    rfl
  have hnext : ∀ {n : Node}, n.Readable → ∃ c ∈ n.rendered.toList.head?, (c == '!') = false := by
    intro n hn
    obtain ⟨c, hc, hupper⟩ := hn.exists_head
    refine ⟨c, hc, beq_eq_false_iff_ne.mpr ?_⟩
    rintro rfl
    cases hupper
  rw [toList_join_marks, toList_join_marks] at htext
  obtain ⟨hsame, hrest⟩ := Text.run_unique (hrun m) (hrun n) (hnext ha) (hnext hb) htext
  exact ⟨(List.replicate_inj.mp hsame).1, hrest⟩

/-- The digits of a number and the parenthesis behind them. -/
theorem number_unique {m n : Nat} {rest rest' : List Char}
    (htext : (toString (m : Int)).toList ++ (")".toList ++ rest) =
      (toString (n : Int)).toList ++ (")".toList ++ rest')) : m = n ∧ rest = rest' := by
  have hdigits : ∀ n : Nat, (toString (n : Int)).toList = Nat.toDigits 10 n :=
    fun n => String.toList_ofList
  have hrun : ∀ n, ∀ c ∈ Nat.toDigits 10 n, c.isDigit = true :=
    fun n c hc => Nat.isDigit_of_mem_toDigits (by decide) (by decide) hc
  have hparen : ∃ c ∈ ")".toList.head?, c.isDigit = false := ⟨')', rfl, rfl⟩
  rw [hdigits, hdigits] at htext
  obtain ⟨hsame, hrest⟩ := Text.run_unique (hrun m) (hrun n) hparen hparen htext
  have hvalue := congrArg Text.digitsValue hsame
  rw [Text.digitsValue_toDigits, Text.digitsValue_toDigits] at hvalue
  exact ⟨hvalue, List.append_cancel_left hrest⟩

theorem truth_unique {x y : Bool} {rest rest' : List Char}
    (htext : (truthText x).toList ++ rest = (truthText y).toList ++ rest') :
    x = y ∧ rest = rest' := by
  have hfree : ∀ x y : Bool, True → True →
      (truthText x).toList <+: (truthText y).toList → x = y := by
    decide
  exact Text.readsOff_of_prefixFree hfree trivial y rest rest' trivial htext

/-- A readable tree can be read off a text that begins with its printed form. -/
theorem Readable.readsBack {a : Node} (ha : a.Readable) : a.ReadsBack := by
  induction ha with
  | program hstmts ih =>
      intro b rest rest' hb htext
      have hopening := (Readable.program hstmts).opening_eq hb htext
      cases hb with
      | program hstmts' =>
          simp only [rendered, String.toList_append, List.append_assoc,
            List.append_cancel_left_eq] at htext
          obtain ⟨rfl, hrest⟩ := nodes_unique (fun n hn => ⟨hstmts n hn, ih n hn⟩) hstmts' htext
          exact ⟨rfl, List.append_cancel_left hrest⟩
      | _ => simp [opening] at hopening
  | block hstmts ih =>
      intro b rest rest' hb htext
      have hopening := (Readable.block hstmts).opening_eq hb htext
      cases hb with
      | block hstmts' =>
          simp only [rendered, String.toList_append, List.append_assoc,
            List.append_cancel_left_eq] at htext
          obtain ⟨rfl, hrest⟩ := nodes_unique (fun n hn => ⟨hstmts n hn, ih n hn⟩) hstmts' htext
          exact ⟨rfl, List.append_cancel_left hrest⟩
      | _ => simp [opening] at hopening
  | identifier hname =>
      intro b rest rest' hb htext
      have hopening := (Readable.identifier hname).opening_eq hb htext
      cases hb with
      | identifier hname' =>
          simp only [rendered, String.toList_append, List.append_assoc,
            List.append_cancel_left_eq] at htext
          obtain ⟨rfl, hrest⟩ := word_unique hname hname' ⟨')', rfl, rfl⟩ htext
          exact ⟨rfl, hrest⟩
      | _ => simp [opening] at hopening
  | declaration htype hname =>
      intro b rest rest' hb htext
      have hopening := (Readable.declaration htype hname).opening_eq hb htext
      cases hb with
      | declaration htype' hname' =>
          simp only [rendered, name?, Option.getD_some, String.toList_append, List.append_assoc,
            List.append_cancel_left_eq] at htext
          obtain ⟨rfl, hmore⟩ := word_unique htype htype' ⟨' ', rfl, rfl⟩ htext
          obtain ⟨rfl, hrest⟩ := word_unique hname hname' ⟨')', rfl, rfl⟩ hmore
          exact ⟨rfl, hrest⟩
      | _ => simp [opening] at hopening
  | assignment htarget hvalue ih =>
      intro b rest rest' hb htext
      have hopening := (Readable.assignment htarget hvalue).opening_eq hb htext
      cases hb with
      | assignment htarget' hvalue' =>
          simp only [rendered, name?, Option.getD_some, String.toList_append, List.append_assoc,
            List.append_cancel_left_eq] at htext
          obtain ⟨rfl, hmore⟩ := word_unique htarget htarget' ⟨' ', rfl, rfl⟩ htext
          obtain ⟨rfl, hrest⟩ := ih _ _ _ hvalue' hmore
          exact ⟨rfl, List.append_cancel_left hrest⟩
      | _ => simp [opening] at hopening
  | branch hcond hbody halt ihcond ihbody ihalt =>
      intro b rest rest' hb htext
      have hopening := (Readable.branch hcond hbody halt).opening_eq hb htext
      cases hb with
      | branch hcond' hbody' halt' =>
          simp only [rendered, String.toList_append, List.append_assoc,
            List.append_cancel_left_eq] at htext
          obtain ⟨rfl, hthen⟩ := ihcond _ _ _ hcond' htext
          obtain ⟨rfl, helse⟩ := ihbody _ _ _ hbody' (List.append_cancel_left hthen)
          obtain ⟨rfl, hrest⟩ := ihalt _ _ _ halt' (List.append_cancel_left helse)
          exact ⟨rfl, List.append_cancel_left hrest⟩
      | _ => simp [opening] at hopening
  | loop hcond hbody ihcond ihbody =>
      intro b rest rest' hb htext
      have hopening := (Readable.loop hcond hbody).opening_eq hb htext
      cases hb with
      | loop hcond' hbody' =>
          simp only [rendered, String.toList_append, List.append_assoc,
            List.append_cancel_left_eq] at htext
          obtain ⟨rfl, hmore⟩ := ihcond _ _ _ hcond' htext
          obtain ⟨rfl, hrest⟩ := ihbody _ _ _ hbody' (List.append_cancel_left hmore)
          exact ⟨rfl, List.append_cancel_left hrest⟩
      | _ => simp [opening] at hopening
  | logical ops hoperands ih =>
      intro b rest rest' hb htext
      have hopening := (Readable.logical ops hoperands).opening_eq hb htext
      cases hb with
      | logical ops' hoperands' =>
          simp only [rendered] at htext
          obtain ⟨rfl, rfl, hrest⟩ := chain_unique quotedApart_logicOp
            (fun n hn => ⟨hoperands n hn, ih n hn⟩) hoperands' htext
          exact ⟨rfl, hrest⟩
      | _ => simp [opening] at hopening
  | comparisonOne hleft ih =>
      intro b rest rest' hb htext
      have hopening := (Readable.comparisonOne hleft).opening_eq hb htext
      cases hb with
      | comparisonOne hleft' =>
          simp only [rendered, String.toList_append, List.append_assoc,
            List.append_cancel_left_eq] at htext
          obtain ⟨rfl, hrest⟩ := ih _ _ _ hleft' htext
          exact ⟨rfl, List.append_cancel_left hrest⟩
      | comparison op hleft' hright' =>
          simp only [rendered, String.toList_append, List.append_assoc,
            List.append_cancel_left_eq] at htext
          -- one side ends with a parenthesis, the other goes on with a space
          obtain ⟨-, hmore⟩ := ih _ _ _ hleft' htext
          cases hmore
      | _ => simp [opening] at hopening
  | comparison op hleft hright ihleft ihright =>
      intro b rest rest' hb htext
      have hopening := (Readable.comparison op hleft hright).opening_eq hb htext
      cases hb with
      | comparisonOne hleft' =>
          simp only [rendered, String.toList_append, List.append_assoc,
            List.append_cancel_left_eq] at htext
          obtain ⟨-, hmore⟩ := ihleft _ _ _ hleft' htext
          cases hmore
      | comparison op' hleft' hright' =>
          simp only [rendered, String.toList_append, List.append_assoc,
            List.append_cancel_left_eq] at htext
          obtain ⟨rfl, hop⟩ := ihleft _ _ _ hleft' htext
          obtain ⟨rfl, hright⟩ := compareOp_unique (List.append_cancel_left hop)
          obtain ⟨rfl, hrest⟩ := ihright _ _ _ hright' hright
          exact ⟨rfl, List.append_cancel_left hrest⟩
      | _ => simp [opening] at hopening
  | addition ops hoperands ih =>
      intro b rest rest' hb htext
      have hopening := (Readable.addition ops hoperands).opening_eq hb htext
      cases hb with
      | addition ops' hoperands' =>
          simp only [rendered] at htext
          obtain ⟨rfl, rfl, hrest⟩ := chain_unique quotedApart_sumOp
            (fun n hn => ⟨hoperands n hn, ih n hn⟩) hoperands' htext
          exact ⟨rfl, hrest⟩
      | _ => simp [opening] at hopening
  | multiplication ops hoperands ih =>
      intro b rest rest' hb htext
      have hopening := (Readable.multiplication ops hoperands).opening_eq hb htext
      cases hb with
      | multiplication ops' hoperands' =>
          simp only [rendered] at htext
          obtain ⟨rfl, rfl, hrest⟩ := chain_unique quotedApart_productOp
            (fun n hn => ⟨hoperands n hn, ih n hn⟩) hoperands' htext
          exact ⟨rfl, hrest⟩
      | _ => simp [opening] at hopening
  | signed ops hoperand ih =>
      intro b rest rest' hb htext
      have hopening := (Readable.signed ops hoperand).opening_eq hb htext
      cases hb with
      | signed ops' hoperand' =>
          simp only [rendered, String.toList_append, List.append_assoc,
            List.append_cancel_left_eq] at htext
          obtain ⟨rfl, hmore⟩ := signs_unique hoperand hoperand' htext
          obtain ⟨rfl, hrest⟩ := ih _ _ _ hoperand' hmore
          exact ⟨rfl, List.append_cancel_left hrest⟩
      | _ => simp [opening] at hopening
  | negated marks hoperand ih =>
      intro b rest rest' hb htext
      have hopening := (Readable.negated marks hoperand).opening_eq hb htext
      cases hb with
      | negated marks' hoperand' =>
          simp only [rendered, String.toList_append, List.append_assoc,
            List.append_cancel_left_eq] at htext
          obtain ⟨rfl, hmore⟩ := marks_unique hoperand hoperand' htext
          obtain ⟨rfl, hrest⟩ := ih _ _ _ hoperand' hmore
          exact ⟨rfl, List.append_cancel_left hrest⟩
      | _ => simp [opening] at hopening
  | value hinner ih =>
      intro b rest rest' hb htext
      have hopening := (Readable.value hinner).opening_eq hb htext
      cases hb with
      | value hinner' =>
          simp only [rendered, String.toList_append, List.append_assoc,
            List.append_cancel_left_eq] at htext
          obtain ⟨rfl, hrest⟩ := ih _ _ _ hinner' htext
          exact ⟨rfl, List.append_cancel_left hrest⟩
      | _ => simp [opening] at hopening
  | int m =>
      intro b rest rest' hb htext
      have hopening := (Readable.int m).opening_eq hb htext
      cases hb with
      | int n =>
          simp only [rendered, String.toList_append, List.append_assoc,
            List.append_cancel_left_eq] at htext
          obtain ⟨rfl, hrest⟩ := number_unique htext
          exact ⟨rfl, hrest⟩
      | _ => simp [opening] at hopening
  | truth x =>
      intro b rest rest' hb htext
      have hopening := (Readable.truth x).opening_eq hb htext
      cases hb with
      | truth y =>
          simp only [rendered, String.toList_append, List.append_assoc,
            List.append_cancel_left_eq] at htext
          obtain ⟨rfl, hrest⟩ := truth_unique htext
          exact ⟨rfl, List.append_cancel_left hrest⟩
      | _ => simp [opening] at hopening
  | absent =>
      intro b rest rest' hb htext
      have hopening := Readable.absent.opening_eq hb htext
      cases hb with
      | absent => exact ⟨rfl, List.append_cancel_left htext⟩
      | _ => simp [opening] at hopening

/-! ## Printed forms and trees -/

theorem Readable.shown_eq {n : Node} (h : n.Readable) : n.shown = .ok n.rendered := by
  rw [← h.printed_eq]
  cases h with
  | _ => rfl

theorem Readable.shown_inj {a b : Node} (ha : a.Readable) (hb : b.Readable) :
    a.shown = b.shown ↔ a = b := by
  constructor
  · intro h
    rw [ha.shown_eq, hb.shown_eq] at h
    have htext : a.rendered.toList ++ [] = b.rendered.toList ++ [] := by rw [Except.ok.inj h]
    exact (ha.readsBack b [] [] hb htext).1
  · rintro rfl
    rfl

/-- The printed form identifies a tree.  Readable trees print, and two of them print as the same
text exactly if they are the same; both hold of any two parsed programs. -/
theorem shown_identifies_tree :
    (∀ a b : Node, a.Readable → b.Readable →
      (∃ text, a.shown = .ok text) ∧ (a.shown = b.shown ↔ a.same b = true)) ∧
    ∀ (source source' : String) (program program' : Phrase.Program),
      Phrase.parse source = .ok program → Phrase.parse source' = .ok program' →
      (∃ text, program.toNode.shown = .ok text) ∧
        (program.toNode.shown = program'.toNode.shown ↔
          program.toNode.same program'.toNode = true) := by
  have hreadable : ∀ a b : Node, a.Readable → b.Readable →
      (∃ text, a.shown = .ok text) ∧ (a.shown = b.shown ↔ a.same b = true) := by
    intro a b ha hb
    rw [ha.shown_inj hb, ha.same_iff b]
    exact ⟨⟨_, ha.shown_eq⟩, Iff.rfl⟩
  refine ⟨hreadable, ?_⟩
  intro source source' program program' hparse hparse'
  exact hreadable _ _ (Grammar.shaped_of_parse hparse).readable
    (Grammar.shaped_of_parse hparse').readable

/-- The program `x = sign 1;`. -/
def signedAssignment (sign : SumOp) : Phrase.Program where
  stmts := [.assign "x" (.single (.single (.single (.single (.mk [sign] (.mk 0 (.int 1)))))))]

/-- Two trees that no text has produced, and two parsed ones, each printed in its own way. -/
theorem shown_identifies_tree_signedAssignment :
    (Readable (.signed (.identifier "if") ["-", "-"]) ∧
      Readable (.signed (.int 3) ["-", "+"]) ∧
      shown (.signed (.identifier "if") ["-", "-"]) ≠ shown (.signed (.int 3) ["-", "+"])) ∧
    Phrase.parse "x = -1;" = .ok (signedAssignment .minus) ∧
    Phrase.parse "x=+01; // one" = .ok (signedAssignment .plus) ∧
    (signedAssignment .minus).toNode.shown ≠ (signedAssignment .plus).toNode.shown := by
  have hif : IsWordlike "if" := List.all_eq_true.mp rfl
  have hname : Readable (.signed (.identifier "if") ["-", "-"]) :=
    .signed [.minus, .minus] (.identifier hif)
  have hdigits : (Nat.toDigits 10 3).length ≤ Text.maxDigits := by decide
  have hnumber : Readable (.signed (.int 3) ["-", "+"]) :=
    .signed [.minus, .plus] (.int hdigits)
  have hminus : Phrase.parse "x = -1;" = .ok (signedAssignment .minus) :=
    Phrase.parse_eq_ok_iff.mpr ⟨by decide +kernel, by decide +kernel⟩
  have hplus : Phrase.parse "x=+01; // one" = .ok (signedAssignment .plus) :=
    Phrase.parse_eq_ok_iff.mpr ⟨by decide +kernel, by decide +kernel⟩
  refine ⟨⟨hname, hnumber, ?_⟩, hminus, hplus, ?_⟩
  · rw [Ne, (shown_identifies_tree.1 _ _ hname hnumber).2]
    decide +kernel
  · rw [Ne, (shown_identifies_tree.2 _ _ _ _ hminus hplus).2]
    decide +kernel

end NumBool.Node
