import Mathlib.Data.List.Induction
import NumBool.Check.Table

/-!
# A table over many requests

A table is asked and told things in any order, and some of the requests fail.  What it holds
depends on nothing but the declarations among them, failed ones included: it is the first
declaration of each name, in the order in which they came (`records_run`).  One more request
keeps this (`Records.step`), and so the answer to a request can be read off the history, with no
look at the table.
-/

namespace NumBool.Table

/-- What can be asked of a table. -/
inductive Request where
  | declare (name : String) (ty : Option Ty)
  | lookup (name : String)
  | contains (name : String)
  | size
  deriving DecidableEq, Repr

/-- What a table answers. -/
inductive Answer where
  /-- A name has been declared. -/
  | declared
  | type (ty : Ty)
  | truth (value : Bool)
  | count (n : Nat)
  | refused (error : SemanticError)
  deriving DecidableEq, Repr

/-- The answer to a request, and the table after it. -/
def respond (t : Table) : Request → Answer × Table
  | .declare name ty =>
    match t.declare name ty with
    | .ok extended => (.declared, extended)
    | .error e => (.refused e, t)
  | .lookup name =>
    match t.lookup name with
    | .ok ty => (.type ty, t)
    | .error e => (.refused e, t)
  | .contains name => (.truth (t.contains name), t)
  | .size => (.count t.size, t)

/-- A table with all the answers that it has given. -/
structure Log where
  table : Table := {}
  answers : List Answer := []
  deriving DecidableEq, Repr

namespace Log

def step (log : Log) (request : Request) : Log :=
  ⟨(log.table.respond request).2, log.answers ++ [(log.table.respond request).1]⟩

/-- A new table after some requests. -/
def run (history : List Request) : Log :=
  history.foldl step {}

theorem step_of_respond {log : Log} {request : Request} {answer : Answer} {after : Table}
    (h : log.table.respond request = (answer, after)) :
    log.step request = ⟨after, log.answers ++ [answer]⟩ := by
  rw [step, h]

theorem run_append_singleton (history : List Request) (request : Request) :
    run (history ++ [request]) = (run history).step request :=
  List.foldl_append ..

end Log

/-! ## Declarations of a history -/

/-- The declaration that a request asks for. -/
def Request.declaration? : Request → Option (String × Option Ty)
  | .declare name ty => some (name, ty)
  | _ => none

/-- The declarations that a history asks for, whether or not they were made. -/
def declarations (history : List Request) : List (String × Option Ty) :=
  history.filterMap Request.declaration?

/-- The first declaration of each name. -/
def firsts (decls : List (String × Option Ty)) : List (String × Option Ty) :=
  decls.eraseDupsBy fun decl other => decl.1 == other.1

theorem declarations_append_singleton (history : List Request) (request : Request) :
    declarations (history ++ [request]) =
      declarations history ++ request.declaration?.toList := by
  cases h : request.declaration? with
  | none => simp [declarations, h]
  | some decl => simp [declarations, h]

theorem eraseDupsBy_loop_append_singleton {α : Type} (r : α → α → Bool) (xs kept : List α)
    (x : α) :
    List.eraseDupsBy.loop r (xs ++ [x]) kept =
      if (List.eraseDupsBy.loop r xs kept).any (r x) then List.eraseDupsBy.loop r xs kept
      else List.eraseDupsBy.loop r xs kept ++ [x] := by
  induction xs generalizing kept with
  | nil =>
      cases hx : kept.any (r x) with
      | true => simp [List.eraseDupsBy.loop, hx]
      | false => simp [List.eraseDupsBy.loop, hx]
  | cons first rest ih =>
      cases hfirst : kept.any (r first) with
      | true => simp [List.eraseDupsBy.loop, hfirst, ih]
      | false => simp [List.eraseDupsBy.loop, hfirst, ih]

/-- An element at the end of a list is erased if it agrees with one that has been kept. -/
theorem eraseDupsBy_append_singleton {α : Type} (r : α → α → Bool) (xs : List α) (x : α) :
    (xs ++ [x]).eraseDupsBy r =
      if (xs.eraseDupsBy r).any (r x) then xs.eraseDupsBy r else xs.eraseDupsBy r ++ [x] :=
  eraseDupsBy_loop_append_singleton r xs [] x

theorem firsts_append_singleton (decls : List (String × Option Ty)) (decl : String × Option Ty) :
    firsts (decls ++ [decl]) =
      if ((firsts decls).lookup decl.1).isSome then firsts decls else firsts decls ++ [decl] := by
  rw [firsts, eraseDupsBy_append_singleton]
  simp only [firsts, List.lookup_isSome_iff, List.any_eq_true]

/-- Where a name is looked up, only its first declaration counts. -/
theorem lookup_firsts (decls : List (String × Option Ty)) (name : String) :
    (firsts decls).lookup name = decls.lookup name := by
  induction decls using List.reverseRecOn with
  | nil => rfl
  | append_singleton decls decl ih =>
      rw [firsts_append_singleton, List.lookup_append, ← ih]
      split
      · next hkept =>
          by_cases hname : name = decl.1
          · rw [hname, Option.or_of_isSome hkept]
          · obtain ⟨other, ty⟩ := decl
            simp [List.lookup_cons, beq_false_of_ne hname]
      · rw [List.lookup_append]

/-! ## The table of a history -/

/-- What a request can do: add an entry for a name that has none, or get some other answer and
leave the table as it is. -/
theorem respond_cases (t : Table) (request : Request) :
    (∃ name ty, request = .declare name ty ∧ t.find? name = none ∧
      t.respond request = (.declared, ⟨t.entries ++ [(name, ty)]⟩)) ∨
    (∃ answer, t.respond request = (answer, t) ∧ answer ≠ .declared ∧
      ∀ name ty, request = .declare name ty → (t.find? name).isSome = true) := by
  cases request with
  | declare name ty =>
      cases hfind : t.find? name with
      | none =>
          refine .inl ⟨name, ty, rfl, hfind, ?_⟩
          simp [respond, declare, contains, hfind]
      | some entry =>
          refine .inr ⟨.refused (.duplicate name), ?_, by simp, ?_⟩
          · simp [respond, declare, contains, hfind]
          · rintro name ty ⟨⟩
            rw [hfind, Option.isSome_some]
  | lookup name =>
      rw [respond]
      cases t.lookup name with
      | ok ty => exact .inr ⟨.type ty, rfl, by simp, by simp⟩
      | error e => exact .inr ⟨.refused e, rfl, by simp, by simp⟩
  | contains name => exact .inr ⟨.truth (t.contains name), rfl, by simp, by simp⟩
  | size => exact .inr ⟨.count t.size, rfl, by simp, by simp⟩

/-- What a log holds after a history: the first declaration of each name, and as many of them
as there were declarations that succeeded. -/
structure Records (log : Log) (history : List Request) : Prop where
  entries : log.table.entries = firsts (declarations history)
  size : log.table.size = log.answers.count .declared

theorem Records.find?_eq {log : Log} {history : List Request} (h : Records log history)
    (name : String) : log.table.find? name = (declarations history).lookup name := by
  rw [find?, h.entries, lookup_firsts]

/-- One more request keeps the record. -/
theorem Records.step {log : Log} {history : List Request} (h : Records log history)
    (request : Request) : Records (log.step request) (history ++ [request]) := by
  rcases log.table.respond_cases request with
    ⟨name, ty, rfl, hnew, hrespond⟩ | ⟨answer, hrespond, hanswer, hold⟩
  · have hfirst : (firsts (declarations history)).lookup name = none := by
      rw [← h.entries]
      exact hnew
    rw [Log.step_of_respond hrespond]
    constructor
    · rw [declarations_append_singleton, Request.declaration?, Option.toList_some,
        firsts_append_singleton, hfirst, h.entries]
      rfl
    · simp [Table.size, ← h.size]
  · have hsame : firsts (declarations (history ++ [request])) = firsts (declarations history) := by
      rw [declarations_append_singleton]
      cases request with
      | declare name ty =>
          have hkept := hold name ty rfl
          rw [find?, h.entries] at hkept
          rw [Request.declaration?, Option.toList_some, firsts_append_singleton, if_pos hkept]
      | _ => simp [Request.declaration?]
    rw [Log.step_of_respond hrespond]
    constructor
    · rw [hsame, h.entries]
    · rw [List.count_append, List.count_singleton, beq_false_of_ne hanswer]
      exact h.size

theorem records_run (history : List Request) : Records (Log.run history) history := by
  induction history using List.reverseRecOn with
  | nil => exact ⟨rfl, rfl⟩
  | append_singleton history request ih =>
      rw [Log.run_append_singleton]
      exact ih.step request

/-- The names that a history asks to declare. -/
def declaredNames (history : List Request) : List String :=
  (declarations history).map Prod.fst

theorem contains_run (history : List Request) (name : String) :
    (Log.run history).table.contains name = decide (name ∈ declaredNames history) := by
  rw [contains, (records_run history).find?_eq, Bool.eq_iff_iff, decide_eq_true_iff]
  simp [declaredNames]

/-- The first declaration of a name wins.  After any requests the table holds the first
declaration of each name, in order.  The next declaration is refused exactly if its name has
been declared before, and then it changes nothing; a name is contained exactly if it has been
declared; the size is the number of declarations that succeeded; and a name is looked up as
what its first declaration says, if that gives a type.  No question changes the table. -/
theorem first_declaration_wins (history : List Request) :
    (Log.run history).table.entries = firsts (declarations history) ∧
    (∀ name ty, (Log.run history).table.respond (.declare name ty) =
      if name ∈ declaredNames history then
        (.refused (.duplicate name), (Log.run history).table)
      else (.declared, ⟨(Log.run history).table.entries ++ [(name, ty)]⟩)) ∧
    (∀ name, (Log.run history).table.respond (.contains name) =
      (.truth (decide (name ∈ declaredNames history)), (Log.run history).table)) ∧
    (Log.run history).table.respond .size =
      (.count ((Log.run history).answers.count .declared), (Log.run history).table) ∧
    (∀ name, (Log.run history).table.respond (.lookup name) =
      (match (declarations history).lookup name with
        | some (some ty) => .type ty
        | _ => .refused (.undefined name),
        (Log.run history).table)) := by
  have hrecords := records_run history
  refine ⟨hrecords.entries, ?_, ?_, ?_, ?_⟩
  · intro name ty
    rw [respond, declare, contains_run]
    by_cases hname : name ∈ declaredNames history
    · simp [hname]
    · simp [hname]
  · intro name
    rw [respond, contains_run]
  · rw [respond, hrecords.size]
  · intro name
    rw [respond, Table.lookup, hrecords.find?_eq]
    cases (declarations history).lookup name with
    | none => rfl
    | some entry =>
        cases entry with
        | none => rfl
        | some ty => rfl

/-- A name that was declared without a type is taken, and has none to look up. -/
example : (Log.run [.declare "a" none, .declare "a" (some .number), .lookup "a", .size]).answers =
    [.declared, .refused (.duplicate "a"), .refused (.undefined "a"), .count 1] := by
  decide

end NumBool.Table
