import NumBool.Disk.Basic

/-!
# What stays on the disk

Every change of a disk puts one item at one place, and all else stays (`item?_put`).
Making directories only fills places at which nothing stands, and writing a file only
changes the place of that file, so all other files keep their bytes (`KeepsFiles`),
also where the work stops halfway.
-/

namespace NumBool.Disk

/-! ## One item at one place -/

theorem lookup_replace (items : List (Place × Item)) (place other : Place) (item : Item) :
    (items.map fun (p, i) => if p = place then (p, item) else (p, i)).lookup other =
      if other = place then (items.lookup place).map fun _ => item else items.lookup other := by
  induction items with
  | nil => simp
  | cons entry items ih =>
      obtain ⟨first, old⟩ := entry
      rw [List.map_cons, List.lookup_cons, List.lookup_cons, List.lookup_cons, ih]
      by_cases hfirst : first = place
      · subst hfirst
        by_cases hother : other = first
        · simp [hother]
        · have hne : (other == first) = false := beq_false_of_ne hother
          simp [hother, hne]
      · have hplace : (place == first) = false := beq_false_of_ne (Ne.symm hfirst)
        by_cases hother : other = place
        · subst hother
          simp [hfirst, hplace]
        · simp [hfirst, hother]

/-- An item is put at its place, and nothing else changes. -/
theorem item?_put (disk : Disk) {place : Place} (h : place ≠ []) (item : Item) (other : Place) :
    (disk.put place item).item? other = if other = place then some item else disk.item? other := by
  by_cases hroot : other = []
  · simp [item?, hroot, Ne.symm h]
  · rw [item?, item?, if_neg hroot, if_neg hroot, put]
    cases hold : disk.items.lookup place with
    | some old =>
        simp only [Option.isSome_some, if_true, lookup_replace, hold, Option.map_some]
    | none =>
        simp only [Option.isSome_none, Bool.false_eq_true, if_false, List.lookup_append]
        by_cases hother : other = place
        · subst hother
          simp [hold]
        · have hne : (other == place) = false := beq_false_of_ne hother
          simp [hother, List.lookup_cons, hne]

theorem ne_nil_of_item? {disk : Disk} {place : Place} (h : disk.item? place ≠ some .directory) :
    place ≠ [] := by
  rintro rfl
  exact h rfl

/-! ## Files that stay -/

/-- Every file that does not stand at one of some places keeps its bytes. -/
def KeepsFiles (changed : List Place) (before after : Disk) : Prop :=
  ∀ place ∉ changed, ∀ bytes, before.item? place = some (.file bytes) →
    after.item? place = some (.file bytes)

theorem KeepsFiles.refl (changed : List Place) (disk : Disk) : KeepsFiles changed disk disk := by
  intro place _ bytes h
  exact h

theorem KeepsFiles.trans {changed changed' : List Place} {a b c : Disk}
    (hab : KeepsFiles changed a b) (hbc : KeepsFiles changed' b c) :
    KeepsFiles (changed ++ changed') a c := by
  intro place hplace bytes h
  rw [List.mem_append, not_or] at hplace
  exact hbc place hplace.2 bytes (hab place hplace.1 bytes h)

theorem keepsFiles_put (disk : Disk) {place : Place} (h : place ≠ []) (item : Item) :
    KeepsFiles [place] disk (disk.put place item) := by
  intro other hother bytes hbytes
  rw [item?_put disk h, if_neg (by simpa using hother), hbytes]

/-- A directory is only made where nothing stands. -/
theorem keepsFiles_makeDirectory {disk made : Disk} {place : Place}
    (h : disk.makeDirectory place = .ok made) : KeepsFiles [] disk made := by
  unfold makeDirectory at h
  split at h
  · simp at h
  split at h
  · simp at h
  next hnone =>
    obtain rfl := Except.ok.inj h
    have hplace : place ≠ [] := ne_nil_of_item? (by rw [hnone]; simp)
    intro other _ bytes hbytes
    have hne : other ≠ place := by
      rintro rfl
      rw [hnone] at hbytes
      simp at hbytes
    rw [item?_put disk hplace, if_neg hne, hbytes]

theorem settle_snd (disk : Disk) (place : Place) (cause : Cause) :
    (disk.settle place cause).2 = disk := by
  unfold settle
  split
  · rfl
  · rfl

/-- Making directories keeps all files, whether it succeeds or stops halfway. -/
theorem keepsFiles_makeDirectories (disk : Disk) (names : List String) :
    KeepsFiles [] disk (disk.makeDirectories names).2 := by
  induction names with
  | nil => exact .refl [] disk
  | cons name above ih =>
      simp only [makeDirectories]
      split
      · next hmade => exact keepsFiles_makeDirectory hmade
      · -- the directory above is missing and is made first
        cases hrest : disk.makeDirectories above with
        | mk ending between =>
            rw [hrest] at ih
            cases ending with
            | error e => exact ih
            | ok _ =>
                simp only
                split
                · next hmade => exact ih.trans (keepsFiles_makeDirectory hmade)
                · exact ih
                · rw [settle_snd]
                  exact ih
      · rw [settle_snd]
        exact .refl [] disk

/-! ## Files that are written -/

theorem write_eq_ok_iff {disk written : Disk} {place : Place} {bytes : List UInt8} :
    disk.write place bytes = .ok written ↔
      disk.reach place = .ok () ∧ disk.item? place ≠ some .directory ∧
        written = disk.put place (.file bytes) := by
  unfold write
  cases disk.reach place with
  | error cause => simp
  | ok _ =>
      cases disk.item? place with
      | none => simp [eq_comm]
      | some item =>
          cases item with
          | directory => simp
          | file old => simp [eq_comm]

end NumBool.Disk
