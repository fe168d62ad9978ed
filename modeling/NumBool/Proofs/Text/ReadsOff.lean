import NumBool.Proofs.Token.Pieces
import NumBool.Tree.Printed

/-!
# Reading a value off a text

A value is read off the text in which it is written if no other value can stand at the
beginning of that text, whatever follows.  `ReadsOff write S x` says this of `x` among the
values with `S`.  It is said of one value and not of all of them, so that it can be proved by
induction on what the value is made of.

Values that are written one after the other are read off one after the other, as long as it
shows where the last of them ends (`Stops`).
-/

namespace NumBool.Text

section ReadsOff

variable {α : Type} {write : α → List Char} {S : α → Prop}

/-- No other value with `S` begins a text that `x` begins, and what follows is then the same. -/
def ReadsOff (write : α → List Char) (S : α → Prop) (x : α) : Prop :=
  ∀ (y : α) (rest rest' : List Char), S y → write x ++ rest = write y ++ rest' →
    x = y ∧ rest = rest'

/-- No value with `S` begins a text. -/
def Stops (write : α → List Char) (S : α → Prop) (text : List Char) : Prop :=
  ∀ (x : α) (rest : List Char), S x → text ≠ write x ++ rest

/-- Values are read off if none is written as the beginning of another one. -/
theorem readsOff_of_prefixFree (h : ∀ x y, S x → S y → write x <+: write y → x = y) {x : α}
    (hx : S x) : ReadsOff write S x := by
  intro y rest rest' hy htext
  have hxtext : write x <+: write y ++ rest' := ⟨rest, htext⟩
  have hytext : write y <+: write y ++ rest' := List.prefix_append (write y) rest'
  have hsame : x = y := by
    rcases List.prefix_or_prefix_of_prefix hxtext hytext with hxy | hyx
    · exact h x y hx hy hxy
    · exact (h y x hy hx hyx).symm
  subst hsame
  exact ⟨rfl, List.append_cancel_left htext⟩

theorem ReadsOff.prepend {x : α} (h : ReadsOff write S x) (front : List Char) :
    ReadsOff (fun y => front ++ write y) S x := by
  intro y rest rest' hy htext
  simp only [List.append_assoc] at htext
  exact h y rest rest' hy (List.append_cancel_left htext)

/-- Values one after the other are read off, up to where none of them begins. -/
theorem readsOff_flatMap {xs ys : List α} (hxs : ∀ x ∈ xs, S x ∧ ReadsOff write S x)
    (hys : ∀ y ∈ ys, S y) {rest rest' : List Char} (hrest : Stops write S rest)
    (hrest' : Stops write S rest')
    (htext : xs.flatMap write ++ rest = ys.flatMap write ++ rest') : xs = ys ∧ rest = rest' := by
  induction xs generalizing ys with
  | nil =>
      cases ys with
      | nil => exact ⟨rfl, htext⟩
      | cons y ys =>
          rw [List.flatMap_cons, List.append_assoc] at htext
          exact absurd htext (hrest y _ (hys y List.mem_cons_self))
  | cons x xs ih =>
      obtain ⟨hx, hreads⟩ := hxs x List.mem_cons_self
      rw [List.flatMap_cons, List.append_assoc] at htext
      cases ys with
      | nil => exact absurd htext.symm (hrest' x _ hx)
      | cons y ys =>
          rw [List.flatMap_cons, List.append_assoc] at htext
          obtain ⟨hxy, hmore⟩ := hreads y _ _ (hys y List.mem_cons_self) htext
          obtain ⟨hsame, hend⟩ := ih (fun z hz => hxs z (List.mem_cons_of_mem x hz))
            (fun z hz => hys z (List.mem_cons_of_mem y hz)) hmore
          exact ⟨by rw [hxy, hsame], hend⟩

/-- A run of characters of one kind is read off, if a character of another kind follows. -/
theorem run_unique {p : Char → Bool} {run run' next next' rest rest' : List Char}
    (hrun : ∀ c ∈ run, p c = true) (hrun' : ∀ c ∈ run', p c = true)
    (hnext : ∃ c ∈ next.head?, p c = false) (hnext' : ∃ c ∈ next'.head?, p c = false)
    (htext : run ++ (next ++ rest) = run' ++ (next' ++ rest')) :
    run = run' ∧ next ++ rest = next' ++ rest' := by
  have hmaximal : ∀ {run next rest : List Char}, (∀ c ∈ run, p c = true) →
      (∃ c ∈ next.head?, p c = false) → Token.MaximalRun p run (next ++ rest) := by
    rintro run next rest hrun ⟨c, hc, hpc⟩
    refine ⟨hrun, fun d hd => ?_⟩
    rw [List.head?_append, Option.mem_def.mp hc, Option.some_or] at hd
    obtain rfl := Option.some.inj hd
    exact hpc
  have hsame : run = run' := by
    rw [← (hmaximal hrun hnext).takeWhile_eq, ← (hmaximal hrun' hnext').takeWhile_eq, htext]
  subst hsame
  exact ⟨rfl, List.append_cancel_left htext⟩

/-! ## Items between brackets -/

theorem toList_intercalate_cons (item : String) (items : List String) :
    (", ".intercalate (item :: items)).toList =
      item.toList ++ items.flatMap fun other => ", ".toList ++ other.toList := by
  induction items generalizing item with
  | nil => simp
  | cons next items ih =>
      rw [String.intercalate_cons_cons, String.toList_append, String.toList_append, ih,
        List.flatMap_cons]
      simp only [List.append_assoc]

theorem toList_bracketed_nil_append (rest : List Char) :
    (bracketed []).toList ++ rest = '[' :: ']' :: rest := rfl

/-- The first item, then the others, each behind a comma. -/
theorem toList_bracketed_cons_append (item : String) (items : List String) (rest : List Char) :
    (bracketed (item :: items)).toList ++ rest =
      '[' :: (item.toList ++
        (items.flatMap (fun other => ", ".toList ++ other.toList) ++ ']' :: rest)) := by
  simp only [bracketed, String.toList_append, toList_intercalate_cons, List.append_assoc]
  rfl

/-- Items between brackets are read off if each of them is and none looks like the end. -/
theorem readsOff_bracketed {f : α → String}
    {xs ys : List α} (hxs : ∀ x ∈ xs, S x ∧ ReadsOff (fun x => (f x).toList) S x)
    (hys : ∀ y ∈ ys, S y) (hend : ∀ rest, Stops (fun x => (f x).toList) S (']' :: rest))
    {rest rest' : List Char}
    (htext : (bracketed (xs.map f)).toList ++ rest = (bracketed (ys.map f)).toList ++ rest') :
    xs = ys ∧ rest = rest' := by
  cases xs with
  | nil =>
      cases ys with
      | nil =>
          simp only [List.map_nil, toList_bracketed_nil_append, List.cons.injEq, true_and] at htext
          exact ⟨rfl, htext⟩
      | cons y ys =>
          simp only [List.map_nil, toList_bracketed_nil_append, List.map_cons,
            toList_bracketed_cons_append, List.cons.injEq, true_and] at htext
          exact absurd htext (hend rest y _ (hys y List.mem_cons_self))
  | cons x xs =>
      obtain ⟨hx, hreads⟩ := hxs x List.mem_cons_self
      cases ys with
      | nil =>
          simp only [List.map_nil, toList_bracketed_nil_append, List.map_cons,
            toList_bracketed_cons_append, List.cons.injEq, true_and] at htext
          exact absurd htext.symm (hend rest' x _ hx)
      | cons y ys =>
          simp only [List.map_cons, toList_bracketed_cons_append, List.cons.injEq, true_and,
            List.flatMap_map] at htext
          obtain ⟨hxy, hmore⟩ := hreads y _ _ (hys y List.mem_cons_self) htext
          have hbehind : ∀ z ∈ xs, S z ∧ ReadsOff (fun z => ", ".toList ++ (f z).toList) S z :=
            fun z hz => ⟨(hxs z (List.mem_cons_of_mem x hz)).1,
              (hxs z (List.mem_cons_of_mem x hz)).2.prepend _⟩
          have hstops : ∀ rest, Stops (fun z => ", ".toList ++ (f z).toList) S (']' :: rest) := by
            intro rest z more _ hsame
            cases hsame
          obtain ⟨hsame, hrest⟩ := readsOff_flatMap hbehind
            (fun z hz => hys z (List.mem_cons_of_mem y hz)) (hstops rest) (hstops rest') hmore
          exact ⟨by rw [hxy, hsame], (List.cons.inj hrest).2⟩

end ReadsOff

end NumBool.Text
