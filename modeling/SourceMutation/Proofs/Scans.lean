import Mathlib.Data.List.Induction
import Mathlib.Data.List.Perm.Subperm
import Mathlib.Data.List.Sort
import Mathlib.Data.String.Basic
import SourceMutation.Proofs.LostMutants
import SourceMutation.Proofs.TwoPasses

/-!
# What a scan is after

A scan goes through directories by name, and the files it is after are picked out directory by
directory: those of the directory itself, then those of the directories that are entered
(`FileTree.filesIn_succ`).

- No file comes up twice (`FileTree.nodup_sourceFiles`).
- Every name on the way to a file is a name of the tree (`FileTree.mem_names_of_mem_filesIn`).
- How deep the walk may go does not matter as long as it is deep enough
  (`FileTree.filesIn_eq_of_deep`): each level takes the walk to a longer location, and in a grounded
  tree no location is longer than there are entries.

A walk goes by paths, and a path that is too long leads nowhere.  How long a path gets in a walk is
told by the names since its start, each with a slash (`FileTree.slashedBytes`).
-/

namespace SourceMutation

/-! ## Names in order -/

namespace FileTree

/-- A name that is put in order is one name more. -/
theorem insertName_perm (name : String) (names : List String) :
    (insertName name names).Perm (name :: names) := by
  induction names with
  | nil => exact .refl _
  | cons other rest ih =>
    rw [insertName]
    split
    · exact .refl _
    · exact (ih.cons other).trans (.swap name other rest)

/-- Names in order are the same names. -/
theorem sorted_perm (names : List String) : (sorted names).Perm names := by
  induction names with
  | nil => exact .refl _
  | cons name rest ih => exact (insertName_perm name (sorted rest)).trans (ih.cons name)

/-- A name is among the names in order if it is among the names. -/
theorem mem_sorted {name : String} {names : List String} : name ∈ sorted names ↔ name ∈ names :=
  (sorted_perm names).mem_iff

/-- Names stay in order when one is put where it belongs. -/
theorem pairwise_insertName {name : String} {names : List String}
    (h : names.Pairwise (· ≤ ·)) : (insertName name names).Pairwise (· ≤ ·) := by
  induction names with
  | nil => simp [insertName]
  | cons other rest ih =>
    obtain ⟨hother, hrest⟩ := List.pairwise_cons.mp h
    rw [insertName]
    split
    -- The name goes in front, and all others come after the first of them.
    case isTrue hle =>
      refine List.pairwise_cons.mpr ⟨fun found hfound => ?_, h⟩
      rcases List.mem_cons.mp hfound with rfl | hmem
      · exact hle
      · exact hle.trans (hother found hmem)
    -- The name goes further back, so the first one stays.
    case isFalse hnot =>
      refine List.pairwise_cons.mpr ⟨fun found hfound => ?_, ih hrest⟩
      rcases List.mem_cons.mp ((insertName_perm name rest).mem_iff.mp hfound) with rfl | hmem
      · exact (le_total _ _).resolve_left hnot
      · exact hother found hmem

/-- Sorted names are in order. -/
theorem pairwise_sorted (names : List String) : (sorted names).Pairwise (· ≤ ·) := by
  induction names with
  | nil => exact .nil
  | cons name rest ih => exact pairwise_insertName ih

/-- The order of names without repetitions depends on which ones they are, and on nothing else. -/
theorem sorted_eq_filter {names others : List String} {p : String → Bool} (hnames : names.Nodup)
    (hothers : others.Nodup) (h : ∀ name, name ∈ names ↔ name ∈ others ∧ p name = true) :
    sorted names = (sorted others).filter p := by
  apply List.Perm.eq_of_pairwise' (pairwise_sorted names) ((pairwise_sorted others).filter p)
  have hsorted : (sorted others).Nodup := (sorted_perm others).nodup_iff.mpr hothers
  refine (sorted_perm names).trans ((List.perm_ext_iff_of_nodup hnames (hsorted.filter p)).mpr ?_)
  intro name
  rw [h, List.mem_filter, mem_sorted]

variable {tree : FileTree} {rules : ScanRules} {directory : Path} {location : Location}
  {names found : List String}

/-- No name of a directory comes up twice. -/
theorem nodup_sorted_names (tree : FileTree) (location : Location) :
    (sorted (tree.names location)).Nodup :=
  (sorted_perm _).nodup_iff.mpr (nodup_eraseDups _)

/-! ## Paths of a walk

A directory is listed by its path, which is that of the start with the names behind it.  The path of
a directory further down is longer, so all directories above one that can be listed can be listed.
-/

/-- How many bytes names take with a slash at each of them. -/
def slashedBytes : List String → Nat
  | [] => 0
  | name :: rest => (Utf8.encode name).length + 1 + slashedBytes rest

/-- Names behind other names add their bytes. -/
@[simp] theorem slashedBytes_append (names more : List String) :
    slashedBytes (names ++ more) = slashedBytes names + slashedBytes more := by
  induction names with
  | nil => simp [slashedBytes]
  | cons name rest ih =>
    rw [List.cons_append, slashedBytes, slashedBytes, ih]
    omega

/-- A path of a walk is as long as its start and the names since then, each with a slash. -/
theorem length_encode_walkedText (directory : Path) (names : List String) :
    (Utf8.encode (walkedText directory names)).length
      = (Utf8.encode (stem directory)).length + slashedBytes names := by
  rw [walkedText, Utf8.encode_append, List.length_append]
  congr 1
  induction names with
  | nil => rfl
  | cons name rest ih =>
    rw [List.map_cons, String.join_cons, Utf8.encode_append, Utf8.encode_append, List.length_append,
      List.length_append, ih]
    rw [slashedBytes]
    have hslash : (Utf8.encode "/").length = 1 := by decide
    omega

/-- Names between slashes have one slash less than names. -/
theorem length_encode_intercalate {names : List String} (h : names ≠ []) :
    (Utf8.encode ("/".intercalate names)).length + 1 = slashedBytes names := by
  induction names with
  | nil => exact absurd rfl h
  | cons name rest ih =>
    by_cases hrest : rest = []
    · subst hrest
      simp [slashedBytes]
    · have hslash : (Utf8.encode "/").length = 1 := by decide
      have hlater := ih hrest
      rw [slashedBytes, String.intercalate_cons_of_ne_nil hrest, Utf8.encode_append,
        Utf8.encode_append,
        List.length_append, List.length_append]
      omega

/-- A path with parts is written as its anchor and its parts with slashes between them. -/
theorem text_eq {path : Path} (h : path.parts ≠ []) :
    path.text = path.anchor.text ++ "/".intercalate path.parts := by
  obtain ⟨anchor, _ | ⟨first, rest⟩⟩ := path
  · exact absurd rfl h
  · cases anchor <;> rfl

/-- Such a path is as long as its anchor and its parts, with one slash less than there are parts. -/
theorem length_encode_text {path : Path} (h : path.parts ≠ []) :
    (Utf8.encode path.text).length + 1
      = (Utf8.encode path.anchor.text).length + slashedBytes path.parts := by
  rw [text_eq h, Utf8.encode_append, List.length_append, Nat.add_assoc,
    length_encode_intercalate h]

/-- A walk starts from a directory as it is written, if that has a name. -/
theorem stem_eq {directory : Path} (h : directory.parts ≠ []) : stem directory = directory.text := by
  obtain ⟨anchor, _ | ⟨first, rest⟩⟩ := directory
  · exact absurd rfl h
  · cases anchor <;> rfl

/-- Where a walk can ask for what is further down, it can ask for the directories above. -/
theorem canAsk_of_append {directory : Path} {names more : List String}
    (h : canAsk directory (names ++ more) = true) : canAsk directory names = true := by
  rw [canAsk, decide_eq_true_eq, length_encode_walkedText, slashedBytes_append] at h
  rw [canAsk, decide_eq_true_eq, length_encode_walkedText]
  omega

/-- A path that can be asked for is short enough. -/
theorem length_le_of_askable {path : Path} (h : unaskable? path = none) :
    (Utf8.encode path.text).length ≤ maxPathBytes := by
  unfold unaskable? at h
  split at h
  · cases h
  · split at h
    · cases h
    · omega

/-- A walk can ask for the directories above whatever has a path that is short enough.  The point of
the working directory, which only the walk writes, takes no more than the name of a file. -/
theorem canAsk_of_askable {directory : Path} {names more : List String} {name : String}
    (hname : name ≠ "")
    (h : unaskable? (directory.below (names ++ name :: more)) = none) :
    canAsk directory names = true := by
  have hlength := length_le_of_askable h
  have hbytes : 1 ≤ (Utf8.encode name).length := by
    rw [Nat.one_le_iff_ne_zero]
    intro hnone
    exact hname (Utf8.encode_injective (List.eq_nil_of_length_eq_zero hnone))
  have hmore : slashedBytes (name :: more) = (Utf8.encode name).length + 1 + slashedBytes more := by
    simp [slashedBytes]
  have hbelow : (directory.below (names ++ name :: more)).parts ≠ [] := by simp [Path.below]
  have hwhole := length_encode_text hbelow
  simp only [Path.below, slashedBytes_append, hmore] at hwhole hlength
  rw [canAsk, decide_eq_true_eq, length_encode_walkedText]
  -- The start is written in full, but for a slash at its end, which the names bring along.
  by_cases hparts : directory.parts = []
  · obtain ⟨anchor, parts⟩ := directory
    obtain rfl : parts = [] := hparts
    have hstem : (Utf8.encode (stem ⟨anchor, []⟩)).length ≤ (Utf8.encode anchor.text).length + 1 := by
      cases anchor <;> decide
    dsimp only at hwhole hlength
    omega
  · have hstart := length_encode_text hparts
    rw [stem_eq hparts]
    omega

/-- The start of a walk can be listed, if it can be asked for. -/
theorem canAsk_start {directory : Path} (h : unaskable? directory = none) :
    canAsk directory [] = true := by
  have hlength := length_le_of_askable h
  have hnone : slashedBytes [] = 0 := rfl
  rw [canAsk, decide_eq_true_eq, length_encode_walkedText, hnone]
  by_cases hparts : directory.parts = []
  · obtain ⟨anchor, parts⟩ := directory
    obtain rfl : parts = [] := hparts
    cases anchor <;> decide
  · rwa [stem_eq hparts]

/-! ## Files by directory -/

/-- The files among what a scan meets in a directory, by their names from the start on. -/
def filesIn (tree : FileTree) (rules : ScanRules) (directory : Path) (depth : Nat)
    (location : Location) (names : List String) : List (List String) :=
  (tree.visitsIn rules directory depth location names).filterMap Visit.file?

/-- Whether a name in a directory is that of a file that a scan is after. -/
def isWanted (tree : FileTree) (rules : ScanRules) (directory : Path) (location : Location)
    (names : List String) (name : String) : Bool :=
  !tree.leadsToDirectory directory (location ++ [name]) (names ++ [name])
    && (rules.suffixes.contains (Path.suffixOf name) && !ignoresFile rules (names ++ [name]))

/-- Whether a name in a directory is that of a directory that a scan enters. -/
def isEntered (tree : FileTree) (rules : ScanRules) (directory : Path) (location : Location)
    (names : List String) (name : String) : Bool :=
  !ignoresDirectory rules (names ++ [name])
    && (tree.entry? (location ++ [name]) == some .directory && canAsk directory (names ++ [name]))

@[simp] theorem filesIn_zero : tree.filesIn rules directory 0 location names = [] := rfl

/-- A name is that of a file that is met if the suffix is right and no pattern excludes it. -/
theorem file?_visitFile (rules : ScanRules) (names : List String) (name : String) :
    (visitFile rules (names ++ [name])).filterMap Visit.file?
      = if rules.suffixes.contains (Path.suffixOf name) && !ignoresFile rules (names ++ [name])
        then [names ++ [name]] else [] := by
  rw [visitFile, List.getLastD_concat]
  cases rules.suffixes.contains (Path.suffixOf name) <;>
    cases ignoresFile rules (names ++ [name]) <;> rfl

/-- The files that are met in a directory are those of its names that are met. -/
theorem filterMap_flatMap_visitFile (rules : ScanRules) (names here : List String) :
    (here.flatMap fun name => visitFile rules (names ++ [name])).filterMap Visit.file?
      = (here.filter fun name => rules.suffixes.contains (Path.suffixOf name)
          && !ignoresFile rules (names ++ [name])).map fun name => names ++ [name] := by
  induction here with
  | nil => rfl
  | cons name rest ih =>
    rw [List.flatMap_cons, List.filterMap_append, file?_visitFile, ih, List.filter_cons]
    split <;> rfl

/-- The files of a directory come first, then those of the directories that are entered. -/
theorem filesIn_succ (tree : FileTree) (rules : ScanRules) (directory : Path) (depth : Nat)
    (location : Location) (names : List String) :
    tree.filesIn rules directory (depth + 1) location names
      = ((sorted (tree.names location)).filter (tree.isWanted rules directory location names)).map
          (fun name => names ++ [name])
        ++ ((sorted (tree.names location)).filter
            (tree.isEntered rules directory location names)).flatMap
          fun name => tree.filesIn rules directory depth (location ++ [name]) (names ++ [name]) := by
  -- Visits also tell of directories that are passed over, and those are no files.
  have hignored : ∀ ignored : List String,
      (ignored.map fun name => Visit.ignoredDirectory (names ++ [name])).filterMap Visit.file?
        = [] := by
    intro ignored
    induction ignored with
    | nil => rfl
    | cons name rest ih => exact ih
  have hentered : ∀ entered : List String,
      (entered.flatMap fun name =>
          tree.visitsIn rules directory depth (location ++ [name]) (names ++ [name])).filterMap
            Visit.file?
        = entered.flatMap fun name =>
            tree.filesIn rules directory depth (location ++ [name]) (names ++ [name]) := by
    intro entered
    rw [List.filterMap_flatMap]
    rfl
  rw [filesIn, visitsIn]
  simp only [List.partition_eq_filter_filter, List.filterMap_append, hignored, List.nil_append,
    filterMap_flatMap_visitFile, hentered, List.filter_filter]
  congr 2
  · refine List.filter_congr fun name _ => ?_
    simp only [isWanted, Function.comp_apply]
    exact Bool.and_comm _ _
  · refine List.filter_congr fun name _ => ?_
    -- What is a directory counts as one, so that this need not be asked besides.
    by_cases hentry : tree.entry? (location ++ [name]) = some .directory
    · simp [isEntered, leadsToDirectory, hentry, Bool.and_comm]
    · simp [isEntered, beq_eq_false_iff_ne.mpr hentry]

/-- A file is met below where the walk starts. -/
theorem exists_of_mem_filesIn {depth : Nat}
    (h : found ∈ tree.filesIn rules directory depth location names) :
    ∃ name more, found = names ++ name :: more := by
  induction depth generalizing location names with
  | zero => cases h
  | succ depth ih =>
    rw [filesIn_succ] at h
    rcases List.mem_append.mp h with h | h
    · obtain ⟨name, -, rfl⟩ := List.mem_map.mp h
      exact ⟨name, [], rfl⟩
    · obtain ⟨name, -, hfound⟩ := List.mem_flatMap.mp h
      obtain ⟨next, more, rfl⟩ := ih hfound
      exact ⟨name, next :: more, by simp⟩

/-- No file comes up twice. -/
theorem nodup_filesIn (tree : FileTree) (rules : ScanRules) (directory : Path) (depth : Nat)
    (location : Location) (names : List String) :
    (tree.filesIn rules directory depth location names).Nodup := by
  induction depth generalizing location names with
  | zero => exact .nil
  | succ depth ih =>
    have hhere := nodup_sorted_names tree location
    rw [filesIn_succ]
    refine List.Nodup.append ?_ ?_ ?_
    · refine (hhere.filter _).map fun first second heq => ?_
      simpa using heq
    · -- What is met under different names differs in these.
      refine List.nodup_flatMap.mpr ⟨fun name _ => ih _ _, ?_⟩
      refine (hhere.filter _).imp fun {first second} hne => ?_
      intro found hfirst hsecond
      obtain ⟨next, more, rfl⟩ := exists_of_mem_filesIn hfirst
      obtain ⟨next', more', heq⟩ := exists_of_mem_filesIn hsecond
      simp only [List.append_assoc, List.append_cancel_left_eq, List.cons_append, List.nil_append,
        List.cons.injEq] at heq
      exact hne heq.1
    -- A file of the directory has one name less than any file further down.
    · intro found hfile hbelow
      obtain ⟨name, -, rfl⟩ := List.mem_map.mp hfile
      obtain ⟨other, -, hother⟩ := List.mem_flatMap.mp hbelow
      obtain ⟨next, more, heq⟩ := exists_of_mem_filesIn hother
      simp at heq

/-- Every name on the way to a file is a name of the tree. -/
theorem mem_names_of_mem_filesIn {depth : Nat}
    (h : found ∈ tree.filesIn rules directory depth location names) {name : String}
    (hname : name ∈ found) :
    name ∈ names ∨ ∃ place, name ∈ tree.names place := by
  induction depth generalizing location names with
  | zero => cases h
  | succ depth ih =>
    rw [filesIn_succ] at h
    rcases List.mem_append.mp h with h | h
    · obtain ⟨last, hlast, rfl⟩ := List.mem_map.mp h
      rcases List.mem_append.mp hname with hmem | hmem
      · exact .inl hmem
      · obtain rfl := List.mem_singleton.mp hmem
        exact .inr ⟨location, mem_sorted.mp (List.mem_filter.mp hlast).1⟩
    -- The directory that was entered is a name of the tree as well.
    · obtain ⟨first, hfirst, hfound⟩ := List.mem_flatMap.mp h
      rcases ih hfound with hmem | hmem
      · rcases List.mem_append.mp hmem with hmem | hmem
        · exact .inl hmem
        · obtain rfl := List.mem_singleton.mp hmem
          exact .inr ⟨location, mem_sorted.mp (List.mem_filter.mp hfirst).1⟩
      · exact .inr hmem

/-! ## How deep a scan goes

The walk of the model is given a bound, since its recursion needs one.  The bound is never reached:
below the entry that is deepest there are no names.
-/

/-- Above an entry stand entries. -/
theorem entry_take (h : tree.Grounded) (hentry : (tree.entry? location).isSome) (n : Nat) :
    (tree.entry? (location.take n)).isSome := by
  induction location using List.reverseRecOn with
  | nil => simpa using hentry
  | append_singleton above name ih =>
    rcases Nat.lt_or_ge above.length n with hlt | hle
    · rwa [List.take_of_length_le (by simp; omega)]
    · obtain ⟨entry, hentry⟩ := Option.isSome_iff_exists.mp hentry
      have habove := h.parents _ entry (by simp) hentry
      rw [List.dropLast_concat] at habove
      rw [List.take_append_of_le_length hle]
      exact ih (by rw [habove]; rfl)

/-- An entry stands at most as deep as there are entries. -/
theorem length_le_of_entry (h : tree.Grounded) (hentry : (tree.entry? location).isSome) :
    location.length ≤ tree.entries.entries.length := by
  -- All that stands above an entry is there, and no two of these are as long.
  let above := (List.range location.length).map fun n => location.take (n + 1)
  have hnodup : above.Nodup := by
    refine List.nodup_range.map_on fun first hfirst second hsecond heq => ?_
    have hlength := congrArg List.length heq
    simp only [List.length_take, List.mem_range] at hlength hfirst hsecond
    omega
  have hsub : above ⊆ tree.entries.keys := by
    intro other hother
    obtain ⟨n, hn, rfl⟩ := List.mem_map.mp hother
    obtain ⟨entry, hthere⟩ := Option.isSome_iff_exists.mp (entry_take h hentry (n + 1))
    refine mem_keys_of_entry ?_ hthere
    have hlt := List.mem_range.mp hn
    intro hnil
    simp only [List.take_eq_nil_iff, Nat.add_eq_zero_iff, one_ne_zero, and_false, false_or] at hnil
    simp [hnil] at hlt
  have hlength := (hnodup.subperm hsub).length_le
  simpa [above, Ledger.keys] using hlength

/-- In an empty directory nothing is met. -/
theorem visitsIn_of_names_eq_nil (h : tree.names location = []) (depth : Nat)
    (names : List String) : tree.visitsIn rules directory depth location names = [] := by
  cases depth with
  | zero => rfl
  | succ depth => simp [visitsIn, h, sorted]

/-- A location that is too deep has no names below it. -/
theorem names_eq_nil_of_deep (h : tree.Grounded)
    (hdeep : tree.entries.entries.length < location.length) : tree.names location = [] := by
  refine List.eq_nil_iff_forall_not_mem.mpr fun name hname => ?_
  have hle := length_le_of_entry h (entry_isSome_of_mem_keys (mem_names.mp hname))
  rw [List.length_append] at hle
  omega

/-- A walk that may go deeper than the tree does meets everything. -/
theorem visitsIn_eq_of_deep (h : tree.Grounded) {depth other : Nat}
    (hdepth : tree.entries.entries.length < location.length + depth)
    (hother : tree.entries.entries.length < location.length + other) (names : List String) :
    tree.visitsIn rules directory depth location names
      = tree.visitsIn rules directory other location names := by
  induction depth generalizing other location names with
  | zero =>
    have hnone := names_eq_nil_of_deep h hdepth
    rw [visitsIn_of_names_eq_nil hnone, visitsIn_of_names_eq_nil hnone]
  | succ depth ih =>
    cases other with
    | zero =>
      have hnone := names_eq_nil_of_deep h hother
      rw [visitsIn_of_names_eq_nil hnone, visitsIn_of_names_eq_nil hnone]
    -- One level further down, the location is longer by one and the depth less by one.
    | succ other =>
      have hlength : ∀ name : String, (location ++ [name]).length = location.length + 1 := by simp
      simp only [visitsIn, List.partition_eq_filter_filter]
      congr 1
      refine List.flatMap_congr fun name _ => ?_
      exact ih (by rw [hlength]; omega) (by rw [hlength]; omega) _

/-- Walks that may go deep enough find the same. -/
theorem filesIn_eq_of_deep (h : tree.Grounded) {depth other : Nat}
    (hdepth : tree.entries.entries.length < location.length + depth)
    (hother : tree.entries.entries.length < location.length + other) (names : List String) :
    tree.filesIn rules directory depth location names
      = tree.filesIn rules directory other location names := by
  rw [filesIn, filesIn, visitsIn_eq_of_deep h hdepth hother]

/-! ## Scans of a directory -/

/-- A scan of a directory is after the files that a walk finds from its location. -/
theorem sourceFiles_eq {directory : Path} {place : Location}
    (hplace : tree.locate directory = .ok place) (hentry : tree.entry? place = some .directory)
    (rules : ScanRules) :
    tree.sourceFiles directory rules
      = (tree.filesIn rules directory tree.depth place []).map directory.below := by
  rw [sourceFiles, visits, hplace]
  dsimp only
  rw [if_pos hentry, filesIn, List.map_filterMap]

/-- A scan of what is no directory finds nothing. -/
theorem exists_of_mem_sourceFiles {directory path : Path}
    (h : path ∈ tree.sourceFiles directory rules) :
    ∃ place found, tree.locate directory = .ok place ∧ tree.entry? place = some .directory ∧
      found ∈ tree.filesIn rules directory tree.depth place [] ∧ path = directory.below found := by
  cases hplace : tree.locate directory with
  | error cause =>
    rw [sourceFiles, visits, hplace] at h
    cases h
  | ok place =>
    -- Nothing is found where there is no directory.
    by_cases hentry : tree.entry? place = some .directory
    · rw [sourceFiles_eq hplace hentry] at h
      obtain ⟨found, hfound, rfl⟩ := List.mem_map.mp h
      exact ⟨place, found, rfl, hentry, hfound, rfl⟩
    · rw [sourceFiles, visits, hplace] at h
      dsimp only at h
      rw [if_neg hentry] at h
      cases h

/-- Paths below a directory differ if their names do. -/
theorem below_injective (directory : Path) : Function.Injective directory.below := by
  intro first second h
  exact List.append_cancel_left (congrArg Path.parts h)

/-- No file comes up twice in a scan. -/
theorem nodup_sourceFiles (tree : FileTree) (directory : Path) (rules : ScanRules) :
    (tree.sourceFiles directory rules).Nodup := by
  cases hplace : tree.locate directory with
  | error cause =>
    rw [sourceFiles, visits, hplace]
    exact .nil
  | ok place =>
    by_cases hentry : tree.entry? place = some .directory
    · rw [sourceFiles_eq hplace hentry]
      exact (nodup_filesIn _ _ _ _ _ _).map (below_injective directory)
    · rw [sourceFiles, visits, hplace]
      dsimp only
      rw [if_neg hentry]
      exact .nil

end FileTree

end SourceMutation
