import NumBool.Disk.Basic

/-!
# The names on a path

The names in a text are runs of its characters between slashes, so the names in the text
of a place are no longer than the names of the place (`utf8ByteSize_le_of_mem_namesOf`).
A file that can be made has no name on its way that is too long; asking whether its path
leads anywhere is then no error (`exists?_of_reach`).
-/

namespace NumBool.Disk

/-! ## Names in a text -/

theorem splitSlash_ne_nil (text : List Char) : splitSlash text ≠ [] := by
  fun_cases splitSlash text <;> simp

/-- A slash divides a text. -/
theorem splitSlash_append (a b : List Char) :
    splitSlash (a ++ '/' :: b) = splitSlash a ++ splitSlash b := by
  induction a with
  | nil => simp [splitSlash]
  | cons c a ih =>
      rw [List.cons_append, splitSlash, splitSlash, ih]
      split
      · rfl
      · cases hsplit : splitSlash a with
        | nil => exact absurd hsplit (splitSlash_ne_nil a)
        | cons name names => rfl

/-- The first name is what stands before the first slash. -/
theorem splitSlash_eq_cons {text name : List Char} {names : List (List Char)}
    (h : splitSlash text = name :: names) : name <+: text := by
  induction text generalizing name names with
  | nil =>
      obtain ⟨rfl, -⟩ := List.cons.inj h
      exact List.nil_prefix
  | cons c text ih =>
      rw [splitSlash] at h
      split at h
      · obtain ⟨rfl, -⟩ := List.cons.inj h
        exact List.nil_prefix
      · cases hsplit : splitSlash text with
        | nil => exact absurd hsplit (splitSlash_ne_nil text)
        | cons first rest =>
            rw [hsplit] at h
            obtain ⟨rfl, -⟩ := List.cons.inj h
            exact List.cons_prefix_cons.mpr ⟨rfl, ih hsplit⟩

theorem infix_of_mem_splitSlash {text name : List Char} (h : name ∈ splitSlash text) :
    name <:+: text := by
  induction text generalizing name with
  | nil =>
      obtain rfl := List.mem_singleton.mp h
      exact List.nil_infix
  | cons c text ih =>
      cases hsplit : splitSlash (c :: text) with
      | nil => exact absurd hsplit (splitSlash_ne_nil _)
      | cons first rest =>
          rw [hsplit, List.mem_cons] at h
          rcases h with rfl | h
          · exact (splitSlash_eq_cons hsplit).isInfix
          · refine List.infix_cons (ih ?_)
            rw [splitSlash] at hsplit
            split at hsplit
            · rw [(List.cons.inj hsplit).2]
              exact h
            · cases hrest : splitSlash text with
              | nil => exact absurd hrest (splitSlash_ne_nil text)
              | cons next others =>
                  rw [hrest] at hsplit
                  rw [(List.cons.inj hsplit).2]
                  exact List.mem_cons_of_mem next h

/-- The names in a text with slashes between some parts are names in these parts. -/
theorem mem_splitSlash_intercalate {name : List Char} : ∀ {parts : List (List Char)},
    name ∈ splitSlash (['/'].intercalate parts) → name = [] ∨ ∃ part ∈ parts, name <:+: part
  | [], h => .inl (List.mem_singleton.mp h)
  | [part], h => by
      rw [List.intercalate_singleton] at h
      exact .inr ⟨part, List.mem_singleton_self part, infix_of_mem_splitSlash h⟩
  | part :: next :: rest, h => by
      rw [List.intercalate_cons_cons, List.append_assoc, List.singleton_append, splitSlash_append,
        List.mem_append] at h
      rcases h with h | h
      · exact .inr ⟨part, List.mem_cons_self, infix_of_mem_splitSlash h⟩
      · rcases mem_splitSlash_intercalate h with hnil | ⟨other, hmem, hother⟩
        · exact .inl hnil
        · exact .inr ⟨other, List.mem_cons_of_mem part hmem, hother⟩

/-! ## Names that are too long -/

theorem utf8ByteSize_le_of_infix {name part : List Char} (h : name <:+: part) :
    (String.ofList name).utf8ByteSize ≤ (String.ofList part).utf8ByteSize := by
  obtain ⟨front, back, rfl⟩ := h
  rw [String.ofList_append, String.ofList_append, String.utf8ByteSize_append,
    String.utf8ByteSize_append]
  omega

/-- The names on the way to a place are no longer than the longest name of the place. -/
theorem utf8ByteSize_le_of_mem_namesOf {place : Place} {n : Nat}
    (h : ∀ name ∈ place, name.utf8ByteSize ≤ n) {name : String}
    (hname : name ∈ namesOf place.text) : name.utf8ByteSize ≤ n := by
  have htext : place.text.toList = [] ++ '/' :: ['/'].intercalate (place.map String.toList) := by
    simp [Place.text, String.toList_intercalate]
  rw [namesOf, htext, splitSlash_append] at hname
  obtain ⟨chars, hchars, rfl⟩ := List.mem_map.mp hname
  obtain ⟨hmem, hne⟩ := List.mem_filter.mp hchars
  have hcase : chars = [] ∨ ∃ part ∈ place.map String.toList, chars <:+: part := by
    rcases List.mem_append.mp hmem with hfirst | hrest
    · exact .inl (List.mem_singleton.mp hfirst)
    · exact mem_splitSlash_intercalate hrest
  rcases hcase with rfl | ⟨part, hpart, hinfix⟩
  · simp at hne
  · obtain ⟨name, hin, rfl⟩ := List.mem_map.mp hpart
    have hsize := utf8ByteSize_le_of_infix hinfix
    rw [String.ofList_toList] at hsize
    exact Nat.le_trans hsize (h name hin)

/-- A walk along short names does not fail because of a name. -/
theorem walk_ne_nameTooLong (disk : Disk) : ∀ {names : List String},
    (∀ name ∈ names, name.utf8ByteSize ≤ maxName) → ∀ start,
    disk.walk start names ≠ .error .nameTooLong
  | [], _, start => by
      rw [walk]
      split
      · simp
      · simp
  | name :: rest, h, start => by
      have hrest : ∀ other ∈ rest, other.utf8ByteSize ≤ maxName := by
        intro other hother
        exact h other (List.mem_cons_of_mem name hother)
      have hname := h name List.mem_cons_self
      rw [walk]
      split
      · simp
      · simp
      split
      · exact disk.walk_ne_nameTooLong hrest start
      rw [if_neg (Nat.not_lt.mpr hname)]
      exact disk.walk_ne_nameTooLong hrest _

/-- A walk that succeeds has gone along short names only. -/
theorem utf8ByteSize_le_of_walk {disk : Disk} : ∀ {names : List String} {start : Place}
    {found : Place × Item}, disk.walk start names = .ok found →
    ∀ name ∈ names, name.utf8ByteSize ≤ maxName
  | [], _, _, _, name, hname => by simp at hname
  | first :: rest, start, found, h, name, hname => by
      rw [walk] at h
      split at h
      · simp at h
      · simp at h
      split at h
      · next hdot =>
          rcases List.mem_cons.mp hname with rfl | hrest
          · rw [hdot]
            decide
          · exact utf8ByteSize_le_of_walk h name hrest
      split at h
      · simp at h
      · next hshort =>
          rcases List.mem_cons.mp hname with rfl | hrest
          · exact Nat.not_lt.mp hshort
          · exact utf8ByteSize_le_of_walk h name hrest

/-- Where a file can be made, its path and the names on it are short enough. -/
theorem utf8ByteSize_le_of_reach {disk : Disk} {place : Place} (h : disk.reach place = .ok ()) :
    place.text.utf8ByteSize ≤ maxPath ∧ ∀ name ∈ place, name.utf8ByteSize ≤ maxName := by
  unfold reach at h
  split at h
  · simp at h
  next hpath =>
    refine ⟨Nat.not_lt.mp hpath, ?_⟩
    split at h
    · simp at h
    · simp at h
    next hwalk =>
      split at h
      · next hlast =>
          intro name hname
          have hplace := List.ne_nil_of_mem hname
          rw [← List.dropLast_concat_getLast hplace, List.mem_append, List.mem_singleton] at hname
          rcases hname with hname | rfl
          · exact utf8ByteSize_le_of_walk hwalk name hname
          · rw [List.getLast?_eq_some_getLast hplace] at hlast
            exact hlast
      · simp at h

/-- Where a file can be made on some disk, no disk finds a name on its path too long. -/
theorem exists?_of_reach {made : Disk} {place : Place} (h : made.reach place = .ok ())
    (disk : Disk) : ∃ present, disk.exists? place.text = .ok present := by
  obtain ⟨hpath, hnames⟩ := utf8ByteSize_le_of_reach h
  have hroute : ∀ name ∈ route place.text, name.utf8ByteSize ≤ maxName := by
    intro name hname
    rcases List.mem_append.mp hname with hname | hname
    · exact utf8ByteSize_le_of_mem_namesOf hnames hname
    · split at hname
      · rw [List.mem_singleton.mp hname]
        decide
      · simp at hname
  have hfind : disk.find place.text ≠ .error .nameTooLong := by
    intro herror
    simp only [find, if_neg (Nat.not_lt.mpr hpath)] at herror
    split at herror
    · simp at herror
    · cases hwalk : disk.walk (if place.text.toList.head? = some '/' then [] else disk.cwd)
          (route place.text) with
      | ok found =>
          rw [hwalk] at herror
          simp [Except.map] at herror
      | error cause =>
          rw [hwalk] at herror
          obtain rfl := Except.error.inj herror
          exact disk.walk_ne_nameTooLong hroute _ hwalk
  unfold exists?
  split
  · exact ⟨true, rfl⟩
  · next herror => exact absurd herror hfind
  · exact ⟨false, rfl⟩

end NumBool.Disk
