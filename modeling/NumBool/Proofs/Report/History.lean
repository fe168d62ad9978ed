import NumBool.Proofs.Check.Concatenation
import NumBool.Proofs.Check.Safety
import NumBool.Report.Writer

/-!
# A checker over many trees

A checker starts each check from an empty state, so what it has checked before is of no
concern to the next tree.  What it says about its state is the state of the last tree, and
what it has reported is what the trees that passed have reported, in order.

A program reports once, at its end.  A tree can hold further programs among its statements,
and these report as well, also where the check fails behind them.  In a whole tree there
are none: it reports its counts if it passes and nothing otherwise
(`Check.reports_check_of_isWhole`).  Parsed trees are whole.
-/

namespace NumBool

/-! ## Whole trees -/

mutual

/-- Whether a statement is a program or has one among its statements.  Where an expression
belongs, a program is no statement and is refused. -/
def Node.holdsProgram : Node → Bool
  | .program _ => true
  | .block stmts => anyProgram stmts
  | .branch _ body alt => body.holdsProgram || alt.holdsProgram
  | .loop _ body => body.holdsProgram
  | _ => false

/-- Whether one of some statements is a program or has one among its statements. -/
def anyProgram : List Node → Bool
  | [] => false
  | stmt :: rest => stmt.holdsProgram || anyProgram rest

end

/-- A tree is a program and has no other program among its statements. -/
def Node.IsWhole : Node → Prop
  | .program stmts => anyProgram stmts = false
  | _ => False

namespace Check

theorem report_notMem_trace (n : Node) : Step.report ∉ trace n := by
  intro hmem
  have hinner := isInner_of_mem_trace n _ hmem
  simp [Step.isInner] at hinner

mutual

/-- Without a program there is no report. -/
theorem report_notMem_stmtTrace : ∀ n : Node, n.holdsProgram = false → Step.report ∉ stmtTrace n
  | .program _, h => by simp [Node.holdsProgram] at h
  | .block stmts, h => by
      rw [Node.holdsProgram] at h
      rw [stmtTrace]
      exact report_notMem_stmtsTrace stmts h
  | .declaration typeName ident, _ => by
      rw [stmtTrace]
      repeat' split
      all_goals simp [namelessTrace]
  | .assignment target value, _ => by
      rw [stmtTrace]
      split
      · simp [namelessTrace]
      · simp [report_notMem_trace value]
  | .branch cond body alt, h => by
      rw [Node.holdsProgram, Bool.or_eq_false_iff] at h
      have hbody := report_notMem_stmtTrace body h.1
      have halt := report_notMem_stmtTrace alt h.2
      rw [stmtTrace]
      split
      · simp [report_notMem_trace cond, hbody]
      · simp [report_notMem_trace cond, hbody, halt]
  | .loop cond body, h => by
      rw [Node.holdsProgram] at h
      have hbody := report_notMem_stmtTrace body h
      simp [stmtTrace, report_notMem_trace cond, hbody]
  | .foreign kind, _ => by
      rw [stmtTrace]
      unfold foreignStmtTrace
      repeat' split
      all_goals simp
  | .identifier _, _ | .logical _ _, _ | .comparison _ _ _, _ | .addition _ _, _
  | .multiplication _ _, _ | .signed _ _, _ | .negated _ _, _ | .value _, _ | .int _, _
  | .truth _, _ | .absent, _ | .datum _, _ | .list _, _ => by
      simp [stmtTrace]

theorem report_notMem_stmtsTrace : ∀ stmts : List Node, anyProgram stmts = false →
    Step.report ∉ stmtsTrace stmts
  | [], _ => by simp [stmtsTrace]
  | stmt :: rest, h => by
      rw [anyProgram, Bool.or_eq_false_iff] at h
      rw [stmtsTrace, List.mem_append, not_or]
      exact ⟨report_notMem_stmtTrace stmt h.1, report_notMem_stmtsTrace rest h.2⟩

end

theorem contextOf_reports {steps : List Step} (h : Step.report ∉ steps) :
    (contextOf steps).reports = [] := by
  induction steps using List.reverseRecOn with
  | nil => rfl
  | append_singleton steps step ih =>
      rw [List.mem_append, not_or, List.mem_singleton] at h
      rw [contextOf_append, List.foldl_cons, List.foldl_nil]
      cases step with
      | report => exact absurd rfl h.2
      | _ => exact ih h.1

/-- A whole tree reports its counts if it passes the check, and nothing otherwise. -/
theorem reports_check_of_isWhole {tree : Node} (h : tree.IsWhole) :
    (check tree).context.reports = (check tree).result.toOption.toList := by
  cases tree with
  | program stmts =>
      have hnone := report_notMem_stmtsTrace stmts h
      rw [check_program_eq]
      by_cases hholds : AllHold (stmtsTrace stmts)
      · rw [allHold_iff.mp hholds]
        simp only [Context.report, contextOf_reports hnone]
        rfl
      · obtain ⟨before, step, after, hsteps, hbefore, hfails⟩ := exists_first_violation hholds
        rw [hsteps, List.mem_append, not_or] at hnone
        rw [hsteps, firstViolation?_of_allHold hbefore hfails]
        exact contextOf_reports hnone.1
  | _ => exact h.elim

end Check

namespace Phrase

mutual

theorem Stmt.holdsProgram : ∀ stmt : Stmt, stmt.toNode.holdsProgram = false
  | .declare _ _ => by rw [Stmt.toNode]; rfl
  | .assign _ _ => by rw [Stmt.toNode]; rfl
  | .branch cond body alt => by
      rw [Stmt.toNode, Node.holdsProgram, Node.holdsProgram, anyProgram_stmtNodes body,
        Alternative.holdsProgram alt]
      rfl
  | .loop cond body => by
      rw [Stmt.toNode, Node.holdsProgram, Node.holdsProgram, anyProgram_stmtNodes body]
  | .block body => by
      rw [Stmt.toNode, Node.holdsProgram, anyProgram_stmtNodes body]

theorem Alternative.holdsProgram : ∀ alt : Alternative, alt.toNode.holdsProgram = false
  | .absent => by rw [Alternative.toNode]; rfl
  | .block body => by
      rw [Alternative.toNode, Node.holdsProgram, anyProgram_stmtNodes body]
  | .branch cond body alt => by
      rw [Alternative.toNode, Node.holdsProgram, Node.holdsProgram, anyProgram_stmtNodes body,
        Alternative.holdsProgram alt]
      rfl

theorem anyProgram_stmtNodes : ∀ stmts : List Stmt, anyProgram (stmtNodes stmts) = false
  | [] => by rw [stmtNodes]; rfl
  | stmt :: rest => by
      rw [stmtNodes, anyProgram, Stmt.holdsProgram stmt, anyProgram_stmtNodes rest]
      rfl

end

theorem Program.isWhole_toNode (program : Program) : program.toNode.IsWhole :=
  anyProgram_stmtNodes program.stmts

end Phrase

/-! ## Tasks one after the other -/

/-- What a checker is asked to do: parse a text and check its tree, or check a tree. -/
inductive Task where
  | source (text : String)
  | tree (given : Node)

/-- The tree that is checked; a text that is no program has none. -/
def Task.tree? : Task → Option Node
  | .source text => (Phrase.parse text).toOption.map (·.toNode)
  | .tree given => some given

/-- A tree that is given is whole. -/
def Task.IsWhole : Task → Prop
  | .source _ => True
  | .tree given => given.IsWhole

/-- Performs one task. -/
def Checker.perform (checker : Checker) : Task → Except Report.Error Counters × Checker
  | .source text => Report.judge checker text
  | .tree given => ((checker.check given).1.mapError .check, (checker.check given).2)

/-- A checker and the answers it has given, in order. -/
structure Service where
  checker : Checker := {}
  answers : List (Except Report.Error Counters) := []

namespace Service

def step (s : Service) (task : Task) : Service :=
  ⟨(s.checker.perform task).2, s.answers ++ [(s.checker.perform task).1]⟩

/-- A new checker performs some tasks. -/
def run (tasks : List Task) : Service :=
  tasks.foldl step {}

end Service

/-- A new checker that has only been given the last tree that is checked among some tasks. -/
def freshAfter (tasks : List Task) : Checker :=
  match (tasks.filterMap Task.tree?).getLast? with
  | none => {}
  | some tree => (Checker.check {} tree).2

/-- A task without a tree leaves every checker as it is, with the same error. -/
theorem Checker.perform_of_no_tree {task : Task} (h : task.tree? = none) :
    ∃ e, ∀ checker : Checker, checker.perform task = (.error (.parse e), checker) := by
  cases task with
  | tree given => simp [Task.tree?] at h
  | source text =>
      cases hparse : Phrase.parse text with
      | error e => exact ⟨e, fun checker => by rw [perform, Report.judge, hparse]⟩
      | ok program => simp [Task.tree?, hparse, Except.toOption] at h

/-- A task with a tree is a check of it. -/
theorem Checker.perform_of_tree {task : Task} {tree : Node} (h : task.tree? = some tree)
    (checker : Checker) :
    checker.perform task = ((checker.check tree).1.mapError .check, (checker.check tree).2) := by
  cases task with
  | tree given =>
      obtain rfl := Option.some.inj h
      rfl
  | source text =>
      cases hparse : Phrase.parse text with
      | error e => simp [Task.tree?, hparse, Except.toOption] at h
      | ok program =>
          rw [Task.tree?, hparse] at h
          obtain rfl := Option.some.inj h
          rw [perform, Report.judge, hparse]
          simp only [Checker.check]
          cases (NumBool.check program.toNode).result with
          | ok counters => rfl
          | error failure => rfl

theorem Task.IsWhole.tree {task : Task} {tree : Node} (h : task.IsWhole)
    (htree : task.tree? = some tree) : tree.IsWhole := by
  cases task with
  | tree given =>
      obtain rfl := Option.some.inj htree
      exact h
  | source text =>
      rw [Task.tree?, Option.map_eq_some_iff] at htree
      obtain ⟨program, -, rfl⟩ := htree
      exact program.isWhole_toNode

/-- The counts that a task gives a new checker, if it succeeds. -/
def Task.success? (task : Task) : Option Counters :=
  (Checker.perform {} task).1.toOption

/-- What one task does to any checker, in terms of a new one. -/
theorem Checker.perform_eq {task : Task} (h : task.IsWhole) (checker : Checker) :
    (checker.perform task).1 = (Checker.perform {} task).1 ∧
    (checker.perform task).2.last =
      (match task.tree? with
        | none => checker.last
        | some tree => (Checker.check {} tree).2.last) ∧
    (checker.perform task).2.reports = checker.reports ++ task.success?.toList := by
  cases htree : task.tree? with
  | none =>
      obtain ⟨e, hperform⟩ := perform_of_no_tree htree
      rw [Task.success?, hperform, hperform]
      exact ⟨rfl, rfl, (List.append_nil _).symm⟩
  | some tree =>
      have hreports := Check.reports_check_of_isWhole (h.tree htree)
      rw [Task.success?, perform_of_tree htree, perform_of_tree htree]
      refine ⟨rfl, rfl, ?_⟩
      simp only [Checker.check]
      rw [hreports]
      cases (NumBool.check tree).result with
      | ok counters => rfl
      | error failure => rfl

namespace Service

/-- What is known of a checker after some tasks, in terms of new checkers. -/
structure HistoryFree (s : Service) (tasks : List Task) : Prop where
  last : s.checker.last = (freshAfter tasks).last
  answers : s.answers = tasks.map fun task => (Checker.perform {} task).1
  reports : s.checker.reports = tasks.filterMap Task.success?

/-- One more task, whether it succeeds or not, leaves nothing behind but its own state and
its own report. -/
theorem HistoryFree.step {s : Service} {tasks : List Task} (h : s.HistoryFree tasks) {task : Task}
    (htask : task.IsWhole) : (s.step task).HistoryFree (tasks ++ [task]) := by
  obtain ⟨hanswer, hlast, hreports⟩ := Checker.perform_eq htask s.checker
  refine ⟨?_, ?_, ?_⟩
  · rw [Service.step, hlast, freshAfter, List.filterMap_append]
    cases htree : task.tree? with
    | none => simp [htree, h.last, freshAfter]
    | some tree => simp [htree]
  · rw [Service.step, hanswer, h.answers, List.map_append, List.map_singleton]
  · rw [Service.step, hreports, h.reports, List.filterMap_append]
    cases hsuccess : task.success? with
    | none => simp [hsuccess]
    | some counters => simp [hsuccess]

theorem historyFree_run {tasks : List Task} (h : ∀ task ∈ tasks, task.IsWhole) :
    (run tasks).HistoryFree tasks := by
  induction tasks using List.reverseRecOn with
  | nil => exact ⟨rfl, rfl, rfl⟩
  | append_singleton tasks task ih =>
      rw [List.forall_mem_append] at h
      rw [run, List.foldl_append]
      exact (ih h.1).step (h.2 task List.mem_cons_self)

/-- After any tasks a checker has the counts and the variables of a new checker that was
given only the last tree, every answer is that of a new checker, and what it has written is
the counts of the checks that succeeded, in order and each once. -/
theorem run_equals_fresh {tasks : List Task} (h : ∀ task ∈ tasks, task.IsWhole) :
    (run tasks).checker.counters = (freshAfter tasks).counters ∧
    (run tasks).checker.symbols = (freshAfter tasks).symbols ∧
    (run tasks).answers = tasks.map (fun task => (Checker.perform {} task).1) ∧
    (run tasks).checker.reports.map Counters.format =
      ((run tasks).answers.filterMap Except.toOption).map Counters.format := by
  obtain ⟨hlast, hanswers, hreports⟩ := historyFree_run h
  refine ⟨?_, ?_, hanswers, ?_⟩
  · rw [Checker.counters, Checker.counters, hlast]
  · rw [Checker.symbols, Checker.symbols, hlast]
  · rw [hreports, hanswers, List.filterMap_map]
    rfl

/-- A program that declares a name and declares it again in a block. -/
def declaredTwice : Node :=
  .program [.declaration "num" (.identifier "b"), .block [.declaration "bool" (.identifier "b")]]

/-- Two texts that pass, with a tree between them that fails halfway and a text that is no
program after them. -/
def mixedTasks : List Task :=
  [.source "num a;", .tree declaredTwice, .source "bool c; bool d;", .tree declaredTwice,
    .source "num"]

theorem run_equals_fresh_mixedTasks :
    (∀ task ∈ mixedTasks, task.IsWhole) ∧
    (run mixedTasks).checker.counters = some { declarations := 1 } ∧
    (run mixedTasks).checker.symbols = some ⟨[("b", some .number)]⟩ ∧
    (run mixedTasks).answers =
      [.ok { declarations := 1 }, .error (.check (.semantic (.duplicate "b"))),
        .ok { declarations := 2 }, .error (.check (.semantic (.duplicate "b"))),
        .error (.parse .unexpectedEnd)] ∧
    (run mixedTasks).checker.reports.map Counters.format =
      ["\x7bVAR:1, WHILE:0, IF:0, OP:0\x7d", "\x7bVAR:2, WHILE:0, IF:0, OP:0\x7d"] := by
  have hwhole : ∀ task ∈ mixedTasks, task.IsWhole := by
    have htree : declaredTwice.IsWhole := by
      simp [declaredTwice, Node.IsWhole, anyProgram, Node.holdsProgram]
    simp [mixedTasks, Task.IsWhole, htree]
  obtain ⟨hcounters, hsymbols, hanswers, hreports⟩ := run_equals_fresh hwhole
  have hlist : mixedTasks.map (fun task => (Checker.perform {} task).1) =
      [.ok { declarations := 1 }, .error (.check (.semantic (.duplicate "b"))),
        .ok { declarations := 2 }, .error (.check (.semantic (.duplicate "b"))),
        .error (.parse .unexpectedEnd)] := by decide +kernel
  rw [hlist] at hanswers
  rw [hanswers] at hreports
  refine ⟨hwhole, hcounters.trans ?_, hsymbols.trans ?_, hanswers, hreports.trans ?_⟩
  · decide +kernel
  · decide +kernel
  · decide +kernel

end Service

end NumBool
