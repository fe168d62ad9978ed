/-!
# Character classes given by ranges

A class of characters is a list of closed ranges of code points, written in
ascending order.  Because the list ascends, a search may stop at the first range
that starts above the code point it looks for.
-/

namespace NumBool.Text

/-- Closed ranges of code points `(lo, hi)`, in ascending order. -/
abbrev Ranges := List (Nat × Nat)

namespace Ranges

/-- The range that holds the code point `n`. -/
def find? : Ranges → Nat → Option (Nat × Nat)
  | [], _ => none
  | (lo, hi) :: rest, n =>
    if n < lo then none else if n ≤ hi then some (lo, hi) else find? rest n

/-- Whether some range holds the code point `n`. -/
def holds (ranges : Ranges) (n : Nat) : Bool :=
  (ranges.find? n).isSome

@[simp]
theorem find?_nil (n : Nat) : find? [] n = none := rfl

theorem find?_cons (lo hi : Nat) (rest : Ranges) (n : Nat) :
    find? ((lo, hi) :: rest) n =
      if n < lo then none else if n ≤ hi then some (lo, hi) else find? rest n := rfl

/-- Whether the ranges ascend: each one ends before the next one starts. -/
def ascends : Ranges → Bool
  | [] => true
  | [(lo, hi)] => lo ≤ hi
  | (lo, hi) :: (lo', hi') :: rest =>
    lo ≤ hi && hi < lo' && ascends ((lo', hi') :: rest)

/-- In ranges that ascend, the first one starts lowest. -/
theorem le_of_mem_of_ascends {lo hi : Nat} {rest : Ranges} {r : Nat × Nat}
    (h : ascends ((lo, hi) :: rest) = true) (mem : r ∈ rest) : hi < r.1 := by
  induction rest generalizing lo hi with
  | nil => simp at mem
  | cons next rest ih =>
    obtain ⟨lo', hi'⟩ := next
    simp only [ascends, Bool.and_eq_true, decide_eq_true_eq] at h
    rcases List.mem_cons.1 mem with rfl | mem
    · exact h.1.2
    · have lo'_le : lo' ≤ hi' := by
        have tail := h.2
        cases rest with
        | nil => simpa [ascends] using tail
        | cons r rest =>
          simp only [ascends, Bool.and_eq_true, decide_eq_true_eq] at tail
          exact tail.1.1
      have := ih h.2 mem
      omega

theorem ascends_tail {r : Nat × Nat} {rest : Ranges}
    (h : ascends (r :: rest) = true) : ascends rest = true := by
  cases rest with
  | nil => rfl
  | cons next rest =>
    simp only [ascends, Bool.and_eq_true] at h
    exact h.2

/-- In ranges that ascend, the search finds every code point that some range holds. -/
theorem holds_iff_exists_mem {ranges : Ranges} (h : ranges.ascends = true) (n : Nat) :
    ranges.holds n = true ↔ ∃ r ∈ ranges, r.1 ≤ n ∧ n ≤ r.2 := by
  induction ranges with
  | nil => simp [holds]
  | cons first rest ih =>
    obtain ⟨lo, hi⟩ := first
    have tail := ih (ascends_tail h)
    simp only [holds, find?_cons] at tail ⊢
    split
    · next low =>
      simp only [Option.isSome_none, Bool.false_eq_true, List.mem_cons, false_iff, not_exists]
      rintro r ⟨rfl | mem, lo_le, -⟩
      · exact absurd low (Nat.not_lt.2 lo_le)
      · have above := le_of_mem_of_ascends h mem
        have : lo ≤ hi := by
          cases rest with
          | nil => simp at mem
          | cons next rest =>
            simp only [ascends, Bool.and_eq_true, decide_eq_true_eq] at h
            exact h.1.1
        omega
    · next notLow =>
      split
      · next le => simpa using Or.inl ⟨Nat.not_lt.1 notLow, le⟩
      · next notLe =>
        rw [tail]
        constructor
        · rintro ⟨r, mem, bounds⟩
          exact ⟨r, List.mem_cons_of_mem _ mem, bounds⟩
        · rintro ⟨r, mem, bounds⟩
          rcases List.mem_cons.1 mem with rfl | mem
          · exact absurd bounds.2 notLe
          · exact ⟨r, mem, bounds⟩

end Ranges

end NumBool.Text
