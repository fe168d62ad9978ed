import NumBool.Proofs.Check.OrderFree
import NumBool.Proofs.Check.Statistics

/-!
# Programs one after the other

The trace of two lists of statements is the trace of the first with that of the second
behind it, so a program that fails also fails with more statements behind it, at the
same step.  If the first passes, the steps of the second are judged by more declarations
than when it stands alone.  A step that holds still does, as long as the declarations in
front share no name with those made since (`Step.holds_append`): a step that holds reads
only types that are there.  The one step that compares two readings is the assignment,
and its target has been used just before (`UsesTargets`).

This is so for all trees, also for those that no text has produced.
-/

namespace NumBool

namespace Counters

theorem add_eq (a b : Counters) :
    a + b = ⟨a.declarations + b.declarations, a.whiles + b.whiles, a.ifs + b.ifs,
      a.operators + b.operators⟩ := rfl

protected theorem add_comm (a b : Counters) : a + b = b + a := by
  rw [add_eq, add_eq, Int.add_comm a.declarations, Int.add_comm a.whiles, Int.add_comm a.ifs,
    Int.add_comm a.operators]

end Counters

namespace Check

/-! ## More declarations in front -/

/-- No name is declared in both lists. -/
def Apart (front decls : List (String × Ty)) : Prop :=
  List.Disjoint (front.map Prod.fst) (decls.map Prod.fst)

/-- A declaration behind others is found, if they are apart from it. -/
theorem Apart.lookup_append {front decls : List (String × Ty)} (h : Apart front decls)
    {name : String} {ty : Ty} (hname : decls.lookup name = some ty) :
    (front ++ decls).lookup name = some ty := by
  have hmem : name ∈ decls.map Prod.fst := by
    by_contra hnot
    rw [lookup_eq_none_iff_notMem.mpr hnot] at hname
    simp at hname
  have hfront : front.lookup name = none :=
    lookup_eq_none_iff_notMem.mpr fun hin => h hin hmem
  rw [List.lookup_append, hfront, Option.none_or, hname]

theorem Apart.type_append {front decls : List (String × Ty)} (h : Apart front decls)
    {got : Reading} {ty : Ty} (hgot : got.type decls = some ty) :
    got.type (front ++ decls) = some ty := by
  cases got with
  | fixed fixed => exact hgot
  | declared name => exact h.lookup_append hgot
  | missing => simp [Reading.type] at hgot

/-- A step that holds also holds behind other declarations, if those share no name with
the ones it was judged by, nor with the one it makes. -/
theorem Step.holds_append {front decls : List (String × Ty)} {step : Step}
    (hapart : Apart front decls)
    (hfresh : ∀ decl, step.declaration? = some decl → decl.1 ∉ front.map Prod.fst)
    (htarget : ∀ target got, step = .assign target got → (decls.lookup target).isSome = true)
    (h : step.holds decls = true) : step.holds (front ++ decls) = true := by
  cases step with
  | declare name ty =>
      have hfront : front.lookup name = none := lookup_eq_none_iff_notMem.mpr (hfresh _ rfl)
      rw [holds, List.lookup_append, hfront, Option.none_or]
      exact h
  | use name =>
      obtain ⟨ty, hty⟩ := Option.isSome_iff_exists.mp h
      rw [holds, hapart.lookup_append hty]
      rfl
  | operand level expected got =>
      rw [holds, decide_eq_true_eq] at h ⊢
      exact hapart.type_append h
  | condition got =>
      rw [holds, decide_eq_true_eq] at h ⊢
      exact hapart.type_append h
  | assign target got =>
      obtain ⟨ty, hty⟩ := Option.isSome_iff_exists.mp (htarget target got rfl)
      rw [holds, decide_eq_true_eq, hty] at h
      rw [holds, decide_eq_true_eq, hapart.lookup_append hty, hapart.type_append h]
  | tally field n => rfl
  | report => rfl
  | breakdown failure => exact h

/-! ## Targets are used before they are assigned -/

/-- Every assignment comes after a use of its target. -/
def UsesTargets (steps : List Step) : Prop :=
  ∀ (before : List Step) (target : String) (got : Reading) (after : List Step),
    steps = before ++ .assign target got :: after → target ∈ usedNames before

theorem usesTargets_of_notMem {steps : List Step}
    (h : ∀ target got, Step.assign target got ∉ steps) : UsesTargets steps := by
  rintro before target got after rfl
  exact absurd (by simp) (h target got)

theorem UsesTargets.append {xs ys : List Step} (hxs : UsesTargets xs) (hys : UsesTargets ys) :
    UsesTargets (xs ++ ys) := by
  intro before target got after h
  rcases List.append_eq_append_iff.mp h with ⟨rest, rfl, hrest⟩ | ⟨rest, rfl, hrest⟩
  · rw [usedNames_append]
    exact List.mem_append_right _ (hys rest target got after hrest)
  · cases rest with
    | nil =>
        have hmem := hys [] target got after hrest.symm
        simp [usedNames] at hmem
    | cons step rest =>
        obtain ⟨rfl, -⟩ := List.cons.inj hrest
        exact hxs before target got rest rfl

/-- An expression assigns nothing. -/
theorem assign_notMem_trace (n : Node) (target : String) (got : Reading) :
    Step.assign target got ∉ trace n := by
  intro hmem
  have hinner := isInner_of_mem_trace n _ hmem
  simp [Step.isInner] at hinner

theorem usesTargets_trace (n : Node) : UsesTargets (trace n) :=
  usesTargets_of_notMem (assign_notMem_trace n)

/-- One more assignment, to a target that has been used. -/
theorem UsesTargets.append_assign {steps : List Step} {target : String} (got : Reading)
    (h : UsesTargets steps) (hused : target ∈ usedNames steps) :
    UsesTargets (steps ++ [.assign target got]) := by
  intro before name read after hsteps
  rcases List.eq_nil_or_concat after with rfl | ⟨after, last, rfl⟩
  · obtain ⟨rfl, hlast⟩ := List.append_inj' hsteps rfl
    obtain ⟨rfl, -⟩ := Step.assign.inj (List.cons.inj hlast).1
    exact hused
  · rw [List.concat_eq_append, ← List.cons_append, ← List.append_assoc] at hsteps
    exact h before name read after (List.append_inj' hsteps rfl).1

theorem usesTargets_assignment (target : String) (value : Node) :
    UsesTargets (.use target :: (trace value ++ [.assign target (reading value)])) := by
  have htrace : UsesTargets (.use target :: trace value) :=
    usesTargets_of_notMem fun _ _ => by simp [assign_notMem_trace]
  exact htrace.append_assign (reading value) List.mem_cons_self

mutual

/-- A statement uses its targets before it assigns them. -/
theorem usesTargets_stmtTrace : ∀ n : Node, UsesTargets (stmtTrace n)
  | .program stmts => by
      rw [stmtTrace]
      exact (usesTargets_stmtsTrace stmts).append (usesTargets_of_notMem (by simp))
  | .block stmts => by
      rw [stmtTrace]
      exact usesTargets_stmtsTrace stmts
  | .declaration typeName ident => by
      rw [stmtTrace]
      apply usesTargets_of_notMem
      repeat' split
      all_goals simp [namelessTrace]
  | .assignment target value => by
      rw [stmtTrace]
      split
      · exact usesTargets_of_notMem (by simp [namelessTrace])
      · exact usesTargets_assignment _ value
  | .branch cond body alt => by
      have hbody := usesTargets_stmtTrace body
      have halt := usesTargets_stmtTrace alt
      have hcond : UsesTargets [.condition (reading cond)] := usesTargets_of_notMem (by simp)
      have htally : UsesTargets [.tally .ifs 1] := usesTargets_of_notMem (by simp)
      rw [stmtTrace]
      refine (usesTargets_trace cond).append (hcond.append (hbody.append ?_))
      cases alt.isAbsent with
      | true => exact htally
      | false => exact halt.append htally
  | .loop cond body => by
      have hbody := usesTargets_stmtTrace body
      have hcond : UsesTargets [.condition (reading cond)] := usesTargets_of_notMem (by simp)
      have htally : UsesTargets [.tally .whiles 1] := usesTargets_of_notMem (by simp)
      rw [stmtTrace]
      exact (usesTargets_trace cond).append (hcond.append (hbody.append htally))
  | .foreign kind => by
      rw [stmtTrace]
      unfold foreignStmtTrace
      apply usesTargets_of_notMem
      repeat' split
      all_goals simp
  | .identifier _ | .logical _ _ | .comparison _ _ _ | .addition _ _ | .multiplication _ _
  | .signed _ _ | .negated _ _ | .value _ | .int _ | .truth _ | .absent | .datum _ | .list _ => by
      rw [stmtTrace]
      · exact usesTargets_of_notMem (by simp)
      all_goals simp

theorem usesTargets_stmtsTrace : ∀ stmts : List Node, UsesTargets (stmtsTrace stmts)
  | [] => by
      rw [stmtsTrace]
      exact usesTargets_of_notMem (by simp)
  | stmt :: rest => by
      rw [stmtsTrace]
      exact (usesTargets_stmtTrace stmt).append (usesTargets_stmtsTrace rest)

end

/-! ## Traces one after the other -/

theorem stmtsTrace_append (xs ys : List Node) :
    stmtsTrace (xs ++ ys) = stmtsTrace xs ++ stmtsTrace ys := by
  induction xs with
  | nil => rw [List.nil_append, stmtsTrace, List.nil_append]
  | cons stmt rest ih => rw [List.cons_append, stmtsTrace, stmtsTrace, ih, List.append_assoc]

theorem countersOf_append (xs ys : List Step) :
    countersOf (xs ++ ys) = countersOf xs + countersOf ys := by
  simp [countersOf, Counters.add_eq]

theorem tableOf_append (front decls : List (String × Ty)) :
    tableOf (front ++ decls) = ⟨(tableOf front).entries ++ (tableOf decls).entries⟩ := by
  simp [tableOf]

theorem names_tableOf (decls : List (String × Ty)) :
    (tableOf decls).names = decls.map Prod.fst := by
  simp [tableOf, Table.names, Function.comp_def]

theorem allHold_append_iff {xs ys : List Step} :
    AllHold (xs ++ ys) ↔ AllHold xs ∧
      ∀ (before : List Step) (step : Step) (after : List Step),
        ys = before ++ step :: after → step.holds (declared (xs ++ before)) = true := by
  rw [allHold_iff, allHold_iff, ← firstViolation?_eq_none_iff, firstViolation?_append,
    List.nil_append]
  cases firstViolation? [] xs with
  | none => simp
  | some violation => simp

/-- Steps that hold by themselves hold behind others that declare other names. -/
theorem AllHold.append {xs ys : List Step} (hxs : AllHold xs) (hys : AllHold ys)
    (htargets : UsesTargets ys) (hapart : Apart (declared xs) (declared ys)) :
    AllHold (xs ++ ys) := by
  refine allHold_append_iff.mpr ⟨hxs, ?_⟩
  rintro before step after rfl
  have hbefore : AllHold before := hys.of_append
  rw [declared_append]
  apply Step.holds_append
  · intro name hfront hname
    refine hapart hfront ?_
    rw [declared_append, List.map_append]
    exact List.mem_append_left _ hname
  · intro decl hdecl hfront
    refine hapart hfront (List.mem_map_of_mem ?_)
    exact List.mem_filterMap.mpr ⟨step, by simp, hdecl⟩
  · rintro target got rfl
    exact hbefore.usesDeclared.lookup_isSome (htargets before target got after rfl)
  · exact hys before step after rfl

/-- The step that makes a declaration, with the declarations before it. -/
theorem exists_declare_step {steps : List Step} {before after : List (String × Ty)}
    {decl : String × Ty} (h : declared steps = before ++ decl :: after) :
    ∃ front rest : List Step, steps = front ++ .declare decl.1 decl.2 :: rest ∧
      declared front = before := by
  obtain ⟨front, back, rfl, hfront, hback⟩ := List.filterMap_eq_append_iff.mp h
  obtain ⟨others, step, rest, rfl, hothers, hstep, -⟩ := List.filterMap_eq_cons_iff.mp hback
  refine ⟨front ++ others, rest, ?_, ?_⟩
  · cases step with
    | declare name ty =>
        obtain rfl := Option.some.inj hstep
        rw [List.append_assoc]
    | _ => simp [Step.declaration?] at hstep
  · have hnone : declared others = [] := List.filterMap_eq_nil_iff.mpr hothers
    rw [declared_append, hnone, List.append_nil]
    exact hfront

/-! ## Checks of programs -/

/-- The check of a program is the run of its statements, and a report at the end. -/
theorem check_program_eq (stmts : List Node) :
    check (.program stmts) =
      match firstViolation? [] (stmtsTrace stmts) with
      | none => ⟨none, (contextOf (stmtsTrace stmts)).report⟩
      | some (before, step) => ⟨some (step.failure (declared before)), contextOf before⟩ := by
  have hreport : contextOf (stmtsTrace stmts ++ [.report]) =
      (contextOf (stmtsTrace stmts)).report := by
    rw [contextOf_append]
    rfl
  rw [check_eq, stmtTrace, firstViolation?_append]
  cases firstViolation? [] (stmtsTrace stmts) with
  | none => simp [firstViolation?, Step.holds, hreport]
  | some violation => rfl

theorem check_program_failure_eq_none_iff {stmts : List Node} :
    (check (.program stmts)).failure = none ↔ AllHold (stmtsTrace stmts) := by
  rw [allHold_iff, check_program_eq]
  cases firstViolation? [] (stmtsTrace stmts) with
  | none => simp
  | some violation => simp

/-- What a program that passes has declared and counted. -/
theorem context_of_allHold {stmts : List Node} (h : AllHold (stmtsTrace stmts)) :
    (check (.program stmts)).context.symbols = tableOf (declared (stmtsTrace stmts)) ∧
      (check (.program stmts)).context.counters = countersOf (stmtsTrace stmts) := by
  rw [check_program_eq, allHold_iff.mp h]
  exact ⟨contextOf_symbols _, contextOf_counters _⟩

/-- More statements behind a program that fails change nothing. -/
theorem check_append_of_failure {xs : List Node} (ys : List Node)
    (h : (check (.program xs)).failure ≠ none) :
    check (.program (xs ++ ys)) = check (.program xs) := by
  rw [Ne, check_program_failure_eq_none_iff, allHold_iff] at h
  rw [check_program_eq, check_program_eq, stmtsTrace_append, firstViolation?_append]
  cases hfirst : firstViolation? [] (stmtsTrace xs) with
  | none => exact absurd hfirst h
  | some violation => rfl

/-- Two programs that pass and declare different names pass together. -/
theorem allHold_stmtsTrace_append {xs ys : List Node} (hxs : AllHold (stmtsTrace xs))
    (hys : AllHold (stmtsTrace ys))
    (hapart : Apart (declared (stmtsTrace xs)) (declared (stmtsTrace ys))) :
    AllHold (stmtsTrace (xs ++ ys)) := by
  rw [stmtsTrace_append]
  exact hxs.append hys (usesTargets_stmtsTrace ys) hapart

/-- Where the second of two programs declares a name of the first, and none before it,
the check of both stops at that declaration. -/
theorem failure_of_shared_name {xs ys : List Node} {before after : List (String × Ty)}
    {decl : String × Ty} (hxs : AllHold (stmtsTrace xs)) (hys : AllHold (stmtsTrace ys))
    (hdecls : declared (stmtsTrace ys) = before ++ decl :: after)
    (hbefore : Apart (declared (stmtsTrace xs)) before)
    (hdecl : decl.1 ∈ (declared (stmtsTrace xs)).map Prod.fst) :
    (check (.program (xs ++ ys))).failure = some (.semantic (.duplicate decl.1)) := by
  obtain ⟨front, rest, hsteps, rfl⟩ := exists_declare_step hdecls
  have htargets := usesTargets_stmtsTrace ys
  rw [hsteps] at hys htargets
  have hfront : AllHold (stmtsTrace xs ++ front) := by
    refine hxs.append hys.of_append ?_ hbefore
    rintro before target got after rfl
    exact htargets before target got (after ++ .declare decl.1 decl.2 :: rest) (by simp)
  have hfails : (Step.declare decl.1 decl.2).holds (declared (stmtsTrace xs ++ front)) =
      false := by
    rw [Step.holds, Option.isNone_eq_false_iff, declared_append, List.lookup_append,
      Option.isSome_or, Bool.or_eq_true]
    left
    by_contra hnone
    exact lookup_eq_none_iff_notMem.mp (Option.not_isSome_iff_eq_none.mp hnone) hdecl
  rw [check_program_eq, stmtsTrace_append, hsteps, ← List.append_assoc,
    firstViolation?_of_allHold hfront hfails]
  rfl

/-- The first declaration of some that is also one of others, if there is any. -/
theorem exists_first_shared {front decls : List (String × Ty)} {name : String}
    (h : (decls.map Prod.fst).find? (tableOf front).contains = some name) :
    ∃ (before after : List (String × Ty)) (ty : Ty), decls = before ++ (name, ty) :: after ∧
      Apart front before ∧ name ∈ front.map Prod.fst := by
  have hcontains : ∀ name, (tableOf front).contains name = true ↔ name ∈ front.map Prod.fst := by
    intro name
    rw [Table.contains_iff_mem_names, names_tableOf]
  obtain ⟨hname, names, rest, hsplit, hnames⟩ := List.find?_eq_some_iff_append.mp h
  obtain ⟨before, tail, rfl, rfl, htail⟩ := List.map_eq_append_iff.mp hsplit
  obtain ⟨decl, after, rfl, rfl, -⟩ := List.map_eq_cons_iff.mp htail
  refine ⟨before, after, decl.2, rfl, ?_, (hcontains _).mp hname⟩
  intro other hfront hother
  have hnot := hnames other hother
  rw [(hcontains other).mpr hfront] at hnot
  simp at hnot

/-- Checking composes over lists of statements.  A program that fails fails in the same
way with more statements behind it.  Two that pass and declare different names pass
together in both orders: the counts are added up and the tables joined.  Two that pass
and share a name fail together at the first name of the second that the first declares. -/
theorem check_program_append (xs ys : List Node) :
    ((check (.program xs)).failure ≠ none →
      check (.program (xs ++ ys)) = check (.program xs)) ∧
    ((check (.program xs)).failure = none → (check (.program ys)).failure = none →
      (List.Disjoint (check (.program xs)).context.symbols.names
          (check (.program ys)).context.symbols.names →
        (check (.program (xs ++ ys))).failure = none ∧
        (check (.program (xs ++ ys))).context.counters =
          (check (.program xs)).context.counters + (check (.program ys)).context.counters ∧
        (check (.program (xs ++ ys))).context.symbols =
          ⟨(check (.program xs)).context.symbols.entries ++
            (check (.program ys)).context.symbols.entries⟩ ∧
        (check (.program (ys ++ xs))).failure = none ∧
        (check (.program (ys ++ xs))).context.counters =
          (check (.program (xs ++ ys))).context.counters) ∧
      (¬ List.Disjoint (check (.program xs)).context.symbols.names
          (check (.program ys)).context.symbols.names →
        ∃ name, (check (.program ys)).context.symbols.names.find?
            (check (.program xs)).context.symbols.contains = some name ∧
          (check (.program (xs ++ ys))).failure = some (.semantic (.duplicate name)))) := by
  refine ⟨check_append_of_failure ys, ?_⟩
  intro hxs hys
  rw [check_program_failure_eq_none_iff] at hxs hys
  obtain ⟨hxsSymbols, hxsCounters⟩ := context_of_allHold hxs
  obtain ⟨hysSymbols, hysCounters⟩ := context_of_allHold hys
  rw [hxsSymbols, hysSymbols, hxsCounters, hysCounters, names_tableOf, names_tableOf]
  constructor
  · intro hapart
    have hboth := allHold_stmtsTrace_append hxs hys hapart
    have hswapped := allHold_stmtsTrace_append hys hxs fun _ hy hx => hapart hx hy
    obtain ⟨hsymbols, hcounters⟩ := context_of_allHold hboth
    obtain ⟨-, hother⟩ := context_of_allHold hswapped
    refine ⟨check_program_failure_eq_none_iff.mpr hboth, ?_, ?_,
      check_program_failure_eq_none_iff.mpr hswapped, ?_⟩
    · rw [hcounters, stmtsTrace_append, countersOf_append]
    · rw [hsymbols, stmtsTrace_append, declared_append, tableOf_append]
    · rw [hother, hcounters, stmtsTrace_append, stmtsTrace_append, countersOf_append,
        countersOf_append, Counters.add_comm]
  · intro hshared
    cases hfind : ((declared (stmtsTrace ys)).map Prod.fst).find?
        (tableOf (declared (stmtsTrace xs))).contains with
    | none =>
        refine absurd ?_ hshared
        intro name hfront hname
        refine List.find?_eq_none.mp hfind name hname ?_
        rwa [Table.contains_iff_mem_names, names_tableOf]
    | some name =>
        obtain ⟨before, after, ty, hdecls, hbefore, hname⟩ := exists_first_shared hfind
        exact ⟨name, rfl, failure_of_shared_name hxs hys hdecls hbefore hname⟩

/-- The statements `num a; a = 1 + 2;`. -/
def sumStatements : List Node :=
  [.declaration "num" (.identifier "a"),
    .assignment (.identifier "a") (.addition [.int 1, .int 2] ["+"])]

/-- The statements `bool b; while (b) { num c; }`. -/
def loopStatements : List Node :=
  [.declaration "bool" (.identifier "b"),
    .loop (.identifier "b") (.block [.declaration "num" (.identifier "c")])]

/-- The statements `bool b; num a; num c;`. -/
def clashingStatements : List Node :=
  [.declaration "bool" (.identifier "b"), .declaration "num" (.identifier "a"),
    .declaration "num" (.identifier "c")]

theorem check_program_append_sumStatements :
    ((check (.program sumStatements)).failure = none ∧
      (check (.program loopStatements)).failure = none ∧
      (check (.program clashingStatements)).failure = none) ∧
    ((check (.program (sumStatements ++ loopStatements))).failure = none ∧
      (check (.program (sumStatements ++ loopStatements))).context.counters =
        (check (.program sumStatements)).context.counters +
          (check (.program loopStatements)).context.counters) ∧
    (check (.program (sumStatements ++ clashingStatements))).failure =
      some (.semantic (.duplicate "a")) ∧
    check (.program ((sumStatements ++ clashingStatements) ++ loopStatements)) =
      check (.program (sumStatements ++ clashingStatements)) := by
  have hsum : (check (.program sumStatements)).failure = none := by decide +kernel
  have hloop : (check (.program loopStatements)).failure = none := by decide +kernel
  have hclash : (check (.program clashingStatements)).failure = none := by decide +kernel
  have hsumNames : (check (.program sumStatements)).context.symbols.names = ["a"] := by
    decide +kernel
  have hloopNames : (check (.program loopStatements)).context.symbols.names = ["b", "c"] := by
    decide +kernel
  have hclashNames : (check (.program clashingStatements)).context.symbols.names =
      ["b", "a", "c"] := by decide +kernel
  have hboth := ((check_program_append sumStatements loopStatements).2 hsum hloop).1
    (by rw [hsumNames, hloopNames]; simp [List.Disjoint])
  obtain ⟨name, hname, hfailure⟩ :=
    ((check_program_append sumStatements clashingStatements).2 hsum hclash).2
      (by rw [hsumNames, hclashNames]; simp [List.Disjoint])
  have hfirst : (check (.program clashingStatements)).context.symbols.names.find?
      (check (.program sumStatements)).context.symbols.contains = some "a" := by decide +kernel
  rw [hfirst] at hname
  obtain rfl := Option.some.inj hname
  refine ⟨⟨hsum, hloop, hclash⟩, ⟨hboth.1, hboth.2.1⟩, hfailure, ?_⟩
  exact (check_program_append _ loopStatements).1 (by rw [hfailure]; simp)

end Check

end NumBool
