import NumBool.Proofs.Disk.Names

/-!
# Disks that are trees

A disk lists what stands where, and not every such list is a file system: in a file system
whatever stands at a place stands in a directory (`Disk.IsTree`), and the names of a place are
what can stand between two slashes (`Place.IsProper`).

On such a disk the text of a proper place leads to what stands at the place
(`IsTree.find_text`), so a path that leads nowhere has nothing at its place
(`IsTree.item?_eq_none_of_exists?`).  Resolving a path gives a proper place (`isProper_resolve`).
-/

namespace NumBool.Disk

/-- Whether a name can be one step on the way to a place. -/
def IsName (name : String) : Prop :=
  name.toList ≠ [] ∧ '/' ∉ name.toList ∧ name ≠ "." ∧ name ≠ ".."

/-- All names of a place are names of files and directories. -/
def Place.IsProper (place : Place) : Prop :=
  ∀ name ∈ place, IsName name

theorem isProper_nil : Place.IsProper [] :=
  fun _ hname => absurd hname List.not_mem_nil

/-- Whatever stands at a place stands in a directory. -/
def IsTree (disk : Disk) : Prop :=
  ∀ (place : Place) (name : String) (item : Item),
    disk.item? (place ++ [name]) = some item → disk.item? place = some .directory

/-- It is enough to look at the entries of the disk. -/
theorem isTree_of_items {disk : Disk}
    (h : ∀ entry ∈ disk.items, disk.item? entry.1.dropLast = some .directory) : disk.IsTree := by
  intro place name item hitem
  rw [item?, if_neg (by simp)] at hitem
  obtain ⟨before, after, hitems, -⟩ := List.lookup_eq_some_iff.mp hitem
  have hparent := h (place ++ [name], item) (by simp [hitems])
  rwa [List.dropLast_concat] at hparent

/-! ## The text of a place -/

theorem splitSlash_of_notMem {text : List Char} (h : '/' ∉ text) : splitSlash text = [text] := by
  induction text with
  | nil => rfl
  | cons c text ih =>
      rw [List.mem_cons, not_or] at h
      rw [splitSlash, if_neg (Ne.symm h.1), ih h.2]

/-- Parts without slashes are found again where slashes stand between them. -/
theorem splitSlash_intercalate : ∀ (part : List Char) (parts : List (List Char)),
    (∀ other ∈ part :: parts, '/' ∉ other) →
    splitSlash (['/'].intercalate (part :: parts)) = part :: parts
  | part, [], h => by
      rw [List.intercalate_singleton, splitSlash_of_notMem (h part List.mem_cons_self)]
  | part, next :: parts, h => by
      rw [List.forall_mem_cons] at h
      rw [List.intercalate_cons_cons, List.append_assoc, List.singleton_append, splitSlash_append,
        splitSlash_of_notMem h.1, splitSlash_intercalate next parts h.2]
      rfl

theorem slash_notMem_of_mem_splitSlash {text name : List Char} (h : name ∈ splitSlash text) :
    '/' ∉ name := by
  induction text generalizing name with
  | nil =>
      obtain rfl := List.mem_singleton.mp h
      exact List.not_mem_nil
  | cons c text ih =>
      rw [splitSlash] at h
      split at h
      · rcases List.mem_cons.mp h with rfl | h
        · exact List.not_mem_nil
        · exact ih h
      · next hc =>
          cases hsplit : splitSlash text with
          | nil => exact absurd hsplit (splitSlash_ne_nil text)
          | cons first rest =>
              rw [hsplit] at h ih
              rcases List.mem_cons.mp h with rfl | h
              · rw [List.mem_cons, not_or]
                exact ⟨Ne.symm hc, ih List.mem_cons_self⟩
              · exact ih (List.mem_cons_of_mem first h)

theorem splitSlash_text {place : Place} (h : place.IsProper) (hplace : place ≠ []) :
    splitSlash place.text.toList = [] :: place.map String.toList := by
  have htext : place.text.toList = [] ++ '/' :: ['/'].intercalate (place.map String.toList) := by
    simp [Place.text, String.toList_intercalate]
  obtain ⟨first, rest, rfl⟩ := List.exists_cons_of_ne_nil hplace
  rw [htext, splitSlash_append, List.map_cons, splitSlash_intercalate]
  · rfl
  · intro part hpart
    rw [← List.map_cons] at hpart
    obtain ⟨name, hname, rfl⟩ := List.mem_map.mp hpart
    exact (h name hname).2.1

/-- The text of a place leads along the names of the place. -/
theorem route_text {place : Place} (h : place.IsProper) (hplace : place ≠ []) :
    route place.text = place := by
  have hsplit := splitSlash_text h hplace
  have hnames : namesOf place.text = place := by
    have hkept : (place.map String.toList).filter (fun name => !name.isEmpty) =
        place.map String.toList := by
      rw [List.filter_eq_self]
      intro part hpart
      obtain ⟨name, hname, rfl⟩ := List.mem_map.mp hpart
      simpa using (h name hname).1
    rw [namesOf, hsplit, List.filter_cons_of_neg (by simp), hkept, List.map_map]
    simp
  -- a slash at the end would be followed by an empty name
  have hlast : place.text.toList.getLast? ≠ some '/' := by
    intro hslash
    obtain ⟨front, hfront⟩ := List.getLast?_eq_some_iff.mp hslash
    have hempty := splitSlash_append front []
    obtain ⟨above, last, rfl⟩ : ∃ above last, place = above ++ [last] :=
      ⟨_, _, (List.dropLast_concat_getLast hplace).symm⟩
    rw [← hfront, hsplit, List.map_append, ← List.cons_append] at hempty
    obtain ⟨-, hnil⟩ := List.append_inj' hempty rfl
    exact (h last (by simp)).1 (List.cons.inj hnil).1
  rw [route, hnames, if_neg hlast, List.append_nil]

/-! ## What stands at a place -/

/-- The places above one at which something stands are directories. -/
theorem IsTree.item?_above {disk : Disk} (h : disk.IsTree) : ∀ (rest : List String) (start : Place)
    (name : String) (item : Item), disk.item? (start ++ name :: rest) = some item →
    disk.item? start = some .directory
  | [], start, name, item, hitem => h start name item hitem
  | next :: rest, start, name, item, hitem => by
      have hnext := h.item?_above rest (start ++ [name]) next item (by simpa using hitem)
      exact h start name .directory hnext

/-- Something that stands at a place is found on the way along its names, unless one of them
is too long. -/
theorem IsTree.walk_of_item? {disk : Disk} (h : disk.IsTree) : ∀ (rest : List String)
    (start : Place) (item : Item), Place.IsProper rest →
    disk.item? (start ++ rest) = some item →
    disk.walk start rest = .ok (start ++ rest, item) ∨ disk.walk start rest = .error .nameTooLong
  | [], start, item, _, hitem => by
      rw [List.append_nil] at hitem ⊢
      rw [walk, hitem]
      exact .inl rfl
  | name :: rest, start, item, hproper, hitem => by
      have hname := hproper name List.mem_cons_self
      have hrest : Place.IsProper rest := fun other hother =>
        hproper other (List.mem_cons_of_mem name hother)
      have hfollow : Path.follow start name = start ++ [name] := if_neg hname.2.2.2
      have hstart := h.item?_above rest start name item hitem
      have ih := h.walk_of_item? rest (start ++ [name]) item hrest (by simpa using hitem)
      rw [walk, hstart]
      simp only [if_neg hname.2.2.1, hfollow]
      split
      · exact .inr rfl
      · simpa using ih

/-- The text of a place leads to what stands there, unless it is too long. -/
theorem IsTree.find_text {disk : Disk} (h : disk.IsTree) {place : Place}
    (hplace : place.IsProper) {item : Item} (hitem : disk.item? place = some item) :
    disk.find place.text = .ok item ∨ disk.find place.text = .error .nameTooLong := by
  have hhead : place.text.toList.head? = some '/' := by simp [Place.text]
  have hempty : place.text.isEmpty = false := by simp [Place.text]
  simp only [find, hempty, Bool.false_eq_true, if_false, hhead, if_true]
  split
  · exact .inr rfl
  · by_cases hroot : place = []
    · subst hroot
      obtain rfl := Option.some.inj hitem
      -- a slash by itself asks for the root as a directory
      have hroute : route (Place.text []) = ["."] := by decide +kernel
      rw [hroute]
      exact .inl rfl
    · rw [route_text hplace hroot]
      rcases h.walk_of_item? place [] item hplace hitem with hfound | hlong
      · rw [hfound]
        exact .inl rfl
      · rw [hlong]
        exact .inr rfl

/-- A path that leads nowhere has nothing at its place. -/
theorem IsTree.item?_eq_none_of_exists? {disk : Disk} (h : disk.IsTree) {place : Place}
    (hplace : place.IsProper) (hexists : disk.exists? place.text = .ok false) :
    disk.item? place = none := by
  cases hitem : disk.item? place with
  | none => rfl
  | some item =>
      rw [exists?] at hexists
      rcases h.find_text hplace hitem with hfound | hlong
      · rw [hfound] at hexists
        simp at hexists
      · rw [hlong] at hexists
        simp at hexists

/-! ## Resolved paths -/

theorem isProper_follow {place : Place} (h : place.IsProper) {name : String}
    (hname : name = ".." ∨ IsName name) : (Path.follow place name).IsProper := by
  unfold Path.follow
  split
  · exact fun other hother => h other (List.dropLast_subset place hother)
  · next hdots =>
      have hproper := hname.resolve_left hdots
      intro other hother
      rcases List.mem_append.mp hother with hother | hother
      · exact h other hother
      · rw [List.mem_singleton.mp hother]
        exact hproper

theorem isProper_foldl_follow {names : List String} (h : ∀ name ∈ names, name = ".." ∨ IsName name)
    {place : Place} (hplace : place.IsProper) : (names.foldl Path.follow place).IsProper := by
  induction names generalizing place with
  | nil => exact hplace
  | cons name names ih =>
      rw [List.forall_mem_cons] at h
      exact ih h.2 (isProper_follow hplace h.1)

theorem isName_of_mem_ofText {text name : String} (h : name ∈ (Path.ofText text).names) :
    name = ".." ∨ IsName name := by
  obtain ⟨hname, hdot⟩ := List.mem_filter.mp h
  obtain ⟨chars, hchars, rfl⟩ := List.mem_map.mp hname
  obtain ⟨hmem, hne⟩ := List.mem_filter.mp hchars
  by_cases hdots : String.ofList chars = ".."
  · exact .inl hdots
  · refine .inr ⟨?_, ?_, ?_, hdots⟩
    · simpa using hne
    · simpa using slash_notMem_of_mem_splitSlash hmem
    · simpa using hdot

/-- Resolving a path in a proper directory gives a proper place. -/
theorem isProper_resolve {cwd : Place} (hcwd : cwd.IsProper) (text : String) :
    ((Path.ofText text).resolve cwd).IsProper := by
  have hnames : ∀ name ∈ ((Path.ofText text).absolute cwd).names, name = ".." ∨ IsName name := by
    intro name hname
    unfold Path.absolute at hname
    split at hname
    · rcases List.mem_append.mp hname with hname | hname
      · exact .inr (hcwd name hname)
      · exact isName_of_mem_ofText hname
    · exact isName_of_mem_ofText hname
  exact isProper_foldl_follow hnames isProper_nil

end NumBool.Disk
