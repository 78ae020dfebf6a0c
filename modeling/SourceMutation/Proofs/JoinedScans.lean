import SourceMutation.Proofs.Additions
import SourceMutation.Proofs.Names

/-!
# Scans of trees with something added

Where names are as file systems have them, real directories and files are reached by their own
names (`FileTree.followNames_self`), and a scan is after a file exactly if the rules exclude neither
it nor a directory above it (`FileTree.mem_filesIn`, `FileTree.not_excluded_of_mem_filesIn`).

So a scan of a tree that has entries added meets the files of the tree without them, in the same
order, and some of the added files in between (`FileTree.Joins.filesIn_eq_filter`).

## How it is shown

The induction goes down the levels of the walk.

- The names of a directory in the smaller tree are those in the larger one that were not added
  (`FileTree.Joins.sorted_names`).
- Which of these names are files that are wanted, and which are directories that are entered, is the
  same in both trees (`FileTree.Joins.isWanted_eq`, `FileTree.Joins.isEntered_eq`).
- All that is found below an added directory was added (`FileTree.Joins.filter_filesIn_added`).
-/

namespace SourceMutation

/-- Whether rules exclude a path below the start of a scan: by its suffix, or by an ignore pattern
for itself or for a directory above it. -/
def ScanRules.Excludes (rules : ScanRules) (names : List String) : Prop :=
  Path.suffixOf (names.getLastD "") ∉ rules.suffixes ∨
    FileTree.ignoresFile rules names = true ∨
    ∃ n, 0 < n ∧ n < names.length ∧ FileTree.ignoresDirectory rules (names.take n) = true

namespace FileTree

variable {tree first second : FileTree} {location place : Location} {path directory : Path}
  {names found : List String} {name : String} {rules : ScanRules} {depth : Nat}

/-! ## Names as file systems have them -/

/-- A name that can stand in a directory. -/
def Ordinary (name : String) : Prop := Plain name ∧ isTooLong name = false

instance (name : String) : Decidable (Ordinary name) :=
  inferInstanceAs (Decidable ((name ≠ "" ∧ name ≠ "." ∧ name ≠ "..") ∧ isTooLong name = false))

theorem Stands.isSome (h : tree.Stands location) : (tree.entry? location).isSome := by
  rcases h with hentry | ⟨bytes, hentry⟩ <;> simp [hentry]

theorem Stands.not_link (h : tree.Stands location) (target : String) :
    tree.entry? location ≠ some (.link target) := by
  rcases h with hentry | ⟨bytes, hentry⟩ <;> simp [hentry]

/-- Above what stands in a directory is that directory. -/
theorem Grounded.directory_of_snoc (h : tree.Grounded)
    (hentry : (tree.entry? (location ++ [name])).isSome) :
    tree.entry? location = some .directory := by
  obtain ⟨entry, hentry⟩ := Option.isSome_iff_exists.mp hentry
  have habove := h.parents _ entry (by simp) hentry
  rwa [List.dropLast_concat] at habove

/-- A directory or a file is reached by its own names. -/
theorem followNames_self (h : tree.Grounded) (hnames : tree.AllNames Ordinary)
    (hstands : tree.Stands (place ++ names)) :
    tree.followNames .use place names = .landed (.found (place ++ names)) := by
  -- From the last name on: what stands above it is a directory, which the other names lead to.
  induction names using List.reverseRecOn with
  | nil => simp [followNames]
  | append_singleton above name ih =>
    rw [← List.append_assoc] at hstands ⊢
    have hthere := hstands.isSome
    have habove := h.directory_of_snoc hthere
    obtain ⟨entry, hentry⟩ := Option.isSome_iff_exists.mp hthere
    obtain ⟨hplain, hshort⟩ := hnames.of_entry hentry name (by simp)
    rw [followNames_snoc (.inl rfl), ih (.inl habove)]
    dsimp only
    rw [followNames_name hplain hstands.not_link, if_neg (by simp [habove]),
      if_neg (by simp [hshort]), if_pos hthere]

theorem follow_self (h : tree.Grounded) (hnames : tree.AllNames Ordinary)
    (hstands : tree.Stands (place ++ names)) (links : Nat) :
    tree.follow .use links place names = .ok (.found (place ++ names)) := by
  rw [follow, followNames_self h hnames hstands]

/-- A directory counts as one, and a file does not. -/
theorem leadsToDirectory_of_stands (hstands : tree.Stands location) (directory : Path)
    (names : List String) :
    tree.leadsToDirectory directory location names
      = (tree.entry? location == some .directory) := by
  rcases hstands with hentry | ⟨bytes, hentry⟩ <;> simp [leadsToDirectory, hentry]

/-- A link counts as a directory if its path is followed to one. -/
theorem leadsToDirectory_of_link {text : String} (hlink : tree.entry? location = some (.link text)) :
    tree.leadsToDirectory directory location names = true ↔
      canAsk directory names = true ∧ ∃ target,
        tree.follow .use maxLinks (startOf directory.anchor tree.workDirectory)
          (directory.parts ++ names) = .ok (.found target) ∧
        tree.entry? target = some .directory := by
  rw [leadsToDirectory, hlink]
  dsimp only
  rw [Bool.and_eq_true]
  refine and_congr_right fun _ => ?_
  rcases tree.follow .use maxLinks (startOf directory.anchor tree.workDirectory)
    (directory.parts ++ names) with cause | (target | ⟨above, name⟩) <;> simp

/-- What counts as a directory is a directory or a link. -/
theorem directory_or_link_of_leads (h : tree.leadsToDirectory directory location names = true) :
    tree.entry? location = some .directory ∨
      ∃ text, tree.entry? location = some (.link text) := by
  rcases hentry : tree.entry? location with _ | (bytes | _ | text)
  · simp [leadsToDirectory, hentry] at h
  · simp [leadsToDirectory, hentry] at h
  · exact .inl rfl
  · exact .inr ⟨text, rfl⟩

theorem leadsToDirectory_keeps (h : first.Keeps second)
    (hleads : first.leadsToDirectory directory location names = true) :
    second.leadsToDirectory directory location names = true := by
  rcases directory_or_link_of_leads hleads with hentry | ⟨text, hentry⟩
  · rw [leadsToDirectory_of_stands (.inl (h.directory hentry)), h.directory hentry]
    rfl
  · obtain ⟨hshort, target, hfollow, htarget⟩ := (leadsToDirectory_of_link hentry).mp hleads
    refine (leadsToDirectory_of_link (h.link hentry)).mpr ⟨hshort, target, ?_, h.directory htarget⟩
    rw [h.workDirectory]
    exact follow_keeps h hfollow

/-- A name behind that of a directory is looked for in the directory. -/
theorem follow_append (h : tree.Grounded) (hnames : tree.AllNames Ordinary) {links : Nat}
    {start : Location} {before : List String}
    (hbefore : tree.follow .use links start before = .ok (.found place))
    (hstands : tree.Stands (place ++ names)) :
    tree.follow .use links start (before ++ names) = .ok (.found (place ++ names)) := by
  induction names using List.reverseRecOn with
  | nil => simpa using hbefore
  | append_singleton above name ih =>
    rw [← List.append_assoc] at hstands ⊢
    rw [← List.append_assoc]
    have habove := h.directory_of_snoc hstands.isSome
    obtain ⟨remaining, hsnoc⟩ := follow_snoc_of_found (.inl rfl) (ih (.inl habove))
    rw [hsnoc]
    exact follow_self h hnames hstands remaining

/-! ## Which files a scan is after -/

/-- What a scan meets as a file is there, and does not lead to a directory. -/
theorem leaf_of_mem_filesIn
    (hfound : found ∈ tree.filesIn rules directory depth (place ++ names) names) :
    (tree.entry? (place ++ found)).isSome ∧
      tree.leadsToDirectory directory (place ++ found) found = false := by
  induction depth generalizing names with
  | zero => cases hfound
  | succ depth ih =>
    rw [filesIn_succ] at hfound
    -- A file of the directory itself is listed there, and was not taken for a directory.
    rcases List.mem_append.mp hfound with hfile | hbelow
    · obtain ⟨name, hname, rfl⟩ := List.mem_map.mp hfile
      obtain ⟨hsorted, hwanted⟩ := List.mem_filter.mp hname
      simp only [isWanted, Bool.and_eq_true, Bool.not_eq_true'] at hwanted
      rw [← List.append_assoc]
      exact ⟨entry_isSome_of_mem_keys (mem_names.mp (mem_sorted.mp hsorted)), hwanted.1⟩
    · obtain ⟨name, -, hfound⟩ := List.mem_flatMap.mp hbelow
      rw [List.append_assoc] at hfound
      exact ih hfound

theorem entry_of_mem_filesIn
    (hfound : found ∈ tree.filesIn rules directory depth (place ++ names) names) :
    ∃ entry, tree.entry? (place ++ found) = some entry ∧ entry ≠ .directory := by
  obtain ⟨hthere, hleads⟩ := leaf_of_mem_filesIn hfound
  obtain ⟨entry, hentry⟩ := Option.isSome_iff_exists.mp hthere
  refine ⟨entry, hentry, ?_⟩
  rintro rfl
  rw [leadsToDirectory_of_stands (.inl hentry), hentry] at hleads
  cases hleads

theorem mem_sorted_names (hentry : (tree.entry? (location ++ [name])).isSome) :
    name ∈ sorted (tree.names location) := by
  obtain ⟨entry, hentry⟩ := Option.isSome_iff_exists.mp hentry
  exact mem_sorted.mpr (mem_names.mpr (mem_keys_of_entry (by simp) hentry))

/-- A scan leaves out what its rules exclude, and what is in directories that it cannot list. -/
theorem not_excluded_of_mem_filesIn (h : found ∈ tree.filesIn rules directory depth location names) :
    Path.suffixOf (found.getLastD "") ∈ rules.suffixes ∧ ignoresFile rules found = false ∧
      ∀ n, names.length < n → n < found.length →
        ignoresDirectory rules (found.take n) = false ∧ canAsk directory (found.take n) = true := by
  induction depth generalizing location names with
  | zero => cases h
  | succ depth ih =>
    rw [filesIn_succ] at h
    rcases List.mem_append.mp h with h | h
    · obtain ⟨name, hname, rfl⟩ := List.mem_map.mp h
      have hwanted := (List.mem_filter.mp hname).2
      simp only [isWanted, Bool.and_eq_true, Bool.not_eq_true'] at hwanted
      obtain ⟨-, hsuffix, hfile⟩ := hwanted
      rw [List.getLastD_concat]
      refine ⟨List.contains_iff_mem.mp hsuffix, hfile, fun n hlow hhigh => ?_⟩
      rw [List.length_append, List.length_singleton] at hhigh
      omega
    · obtain ⟨name, hname, hfound⟩ := List.mem_flatMap.mp h
      have hentered := (List.mem_filter.mp hname).2
      simp only [isEntered, Bool.and_eq_true, Bool.not_eq_true'] at hentered
      obtain ⟨hsuffix, hfile, habove⟩ := ih hfound
      refine ⟨hsuffix, hfile, fun n hlow hhigh => ?_⟩
      -- The directory that was entered here has been looked at; those further down, by the rest.
      by_cases hnext : n = names.length + 1
      · obtain ⟨next, more, rfl⟩ := exists_of_mem_filesIn hfound
        have htake : (names ++ [name] ++ next :: more).take n = names ++ [name] := by
          rw [List.take_append_of_le_length (by simp [hnext]),
            List.take_of_length_le (by simp [hnext])]
        rw [htake]
        exact ⟨hentered.1, hentered.2.2⟩
      · exact habove n (by simp only [List.length_append, List.length_singleton]; omega) hhigh

/-- A scan that goes deep enough meets whatever leads to no directory and is not excluded, if the
directories above it can be listed. -/
theorem mem_filesIn {more : List String} (h : tree.Grounded)
    (hthere : (tree.entry? (location ++ more)).isSome)
    (hleads : tree.leadsToDirectory directory (location ++ more) (names ++ more) = false)
    (hmore : more ≠ []) (hdepth : more.length ≤ depth)
    (hsuffix : Path.suffixOf ((names ++ more).getLastD "") ∈ rules.suffixes)
    (hfile : ignoresFile rules (names ++ more) = false)
    (habove : ∀ n, 0 < n → n < more.length →
      ignoresDirectory rules (names ++ more.take n) = false ∧
        canAsk directory (names ++ more.take n) = true) :
    names ++ more ∈ tree.filesIn rules directory depth location names := by
  induction more generalizing depth location names with
  | nil => exact absurd rfl hmore
  | cons name rest ih =>
    obtain ⟨depth, rfl⟩ : ∃ n, depth = n + 1 :=
      ⟨depth - 1, by rw [List.length_cons] at hdepth; omega⟩
    rw [filesIn_succ]
    cases rest with
    | nil =>
      refine List.mem_append_left _ (List.mem_map.mpr ⟨name, List.mem_filter.mpr ⟨?_, ?_⟩, rfl⟩)
      · exact mem_sorted_names hthere
      · rw [List.getLastD_concat] at hsuffix
        simp [isWanted, hleads, hsuffix, hfile]
    | cons next rest =>
      have hsplit : location ++ name :: next :: rest = (location ++ [name]) ++ next :: rest := by
        simp
      rw [hsplit] at hthere hleads
      -- The first of several names is that of a directory, which is entered.
      have hdirectory : tree.entry? (location ++ [name]) = some .directory := by
        have habove := entry_take h hthere (location.length + 2)
        have hnext : (location ++ [name]) ++ next :: rest
            = (location ++ [name] ++ [next]) ++ rest := by
          simp
        rw [hnext, List.take_left' (by simp)] at habove
        exact h.directory_of_snoc habove
      refine List.mem_append_right _ (List.mem_flatMap.mpr ⟨name, List.mem_filter.mpr ⟨?_, ?_⟩, ?_⟩)
      · exact mem_sorted_names (by rw [hdirectory]; rfl)
      · have hopen := habove 1 (by simp) (by simp)
        rw [List.take_succ_cons, List.take_zero] at hopen
        simp [isEntered, hdirectory, hopen]
      · have hwhole : names ++ name :: next :: rest = (names ++ [name]) ++ next :: rest := by simp
        rw [hwhole] at hsuffix hfile hleads ⊢
        refine ih hthere hleads (by simp) (by simpa using hdepth) hsuffix hfile
          fun n hlow hhigh => ?_
        have hopen := habove (n + 1) (by omega) (by simpa using hhigh)
        rwa [List.take_succ_cons, ← List.singleton_append, ← List.append_assoc] at hopen

/-! ## Scans with something added -/

theorem isSome_iff_mem_keys (hroot : location ≠ []) :
    (tree.entry? location).isSome ↔ location ∈ tree.entries.keys := by
  refine ⟨fun h => ?_, entry_isSome_of_mem_keys⟩
  obtain ⟨entry, hentry⟩ := Option.isSome_iff_exists.mp h
  exact mem_keys_of_entry hroot hentry

/-- What comes to nothing may be left out. -/
theorem flatMap_filter_of_nil {α β : Type} {items : List α} {p : α → Bool} {f : α → List β}
    (h : ∀ item ∈ items, p item = false → f item = []) :
    (items.filter p).flatMap f = items.flatMap f := by
  induction items with
  | nil => rfl
  | cons item rest ih =>
    obtain ⟨hitem, hrest⟩ := List.forall_mem_cons.mp h
    cases hp : p item with
    | true => rw [List.filter_cons_of_pos hp, List.flatMap_cons, List.flatMap_cons, ih hrest]
    | false =>
      rw [List.filter_cons_of_neg (by simp [hp]), List.flatMap_cons, hitem hp, List.nil_append,
        ih hrest]

namespace Joins

variable {added : Location → Option Entry} (h : Joins added first second)

include h

/-- Whatever stands below something that is added is added, too. -/
theorem added_below (hgrounded : first.Grounded) {entry : Entry}
    (hadded : added location = some entry) {more : List String}
    (hthere : (second.entry? (location ++ more)).isSome) : (added (location ++ more)).isSome := by
  rw [Option.isSome_iff_ne_none]
  intro hnone
  rw [h.same _ hnone] at hthere
  have habove := entry_take hgrounded hthere location.length
  rw [List.take_left, h.fresh location entry hadded] at habove
  cases habove

theorem allNames {P : String → Prop} (hnames : second.AllNames P) : first.AllNames P := by
  intro location hmem
  have hthere := entry_isSome_of_mem_keys hmem
  obtain ⟨entry, hentry⟩ := Option.isSome_iff_exists.mp hthere
  rw [← h.entry_eq hthere] at hentry
  exact hnames.of_entry hentry

/-- The names without those that are added, in order. -/
theorem sorted_names (location : Location) :
    sorted (first.names location)
      = (sorted (second.names location)).filter fun name =>
          (added (location ++ [name])).isNone := by
  refine sorted_eq_filter (nodup_eraseDups _) (nodup_eraseDups _) fun name => ?_
  have hroot : location ++ [name] ≠ [] := by simp
  rw [mem_names, mem_names, ← isSome_iff_mem_keys hroot, ← isSome_iff_mem_keys hroot,
    Option.isNone_iff_eq_none]
  constructor
  · intro hthere
    obtain ⟨entry, hentry⟩ := Option.isSome_iff_exists.mp hthere
    exact ⟨by rwa [h.entry_eq hthere], h.added_eq_none hentry⟩
  · rintro ⟨hthere, hnone⟩
    rwa [h.same _ hnone] at hthere

/-- What stands in both trees counts as a directory in both or in none, if nothing that is added
lies on the way of its path. -/
theorem leadsToDirectory_eq (hgrounded : first.Grounded) (hnone : added location = none)
    (havoids : first.Avoids added (directory.below names)) :
    second.leadsToDirectory directory location names
      = first.leadsToDirectory directory location names := by
  -- The path is followed alike in both trees, since what is added is not on its way.
  have hfollow : second.follow .use maxLinks (startOf directory.anchor second.workDirectory)
      (directory.parts ++ names)
        = first.follow .use maxLinks (startOf directory.anchor first.workDirectory)
            (directory.parts ++ names) := by
    rw [h.keeps.workDirectory]
    exact follow_congr fun other hmem => h.same other (havoids other hmem)
  unfold leadsToDirectory
  rw [h.same _ hnone, hfollow]
  rcases hreach : first.follow .use maxLinks (startOf directory.anchor first.workDirectory)
    (directory.parts ++ names) with cause | (target | ⟨above, name⟩)
  · rfl
  · have hstands := follow_lands hgrounded (hgrounded.startOf _) hreach
    dsimp only
    rw [h.entry_eq hstands.isSome]
  · rfl

/-- A name whose file is wanted without the added entries, and only such a one, is wanted with them,
if none of them lies on its way. -/
theorem isWanted_eq (hgrounded : first.Grounded) (hnone : added (location ++ [name]) = none)
    (havoids : first.isWanted rules directory location names name = true →
      first.Avoids added (directory.below (names ++ [name]))) :
    second.isWanted rules directory location names name
      = first.isWanted rules directory location names name := by
  cases hwanted : first.isWanted rules directory location names name with
  | true =>
    rw [← hwanted, isWanted, isWanted, h.leadsToDirectory_eq hgrounded hnone (havoids hwanted)]
  | false =>
    rw [isWanted, Bool.and_eq_false_iff] at hwanted ⊢
    refine hwanted.imp_left fun hleads => ?_
    rw [Bool.not_eq_false'] at hleads ⊢
    exact leadsToDirectory_keeps h.keeps hleads

theorem isEntered_eq (hnone : added (location ++ [name]) = none) :
    second.isEntered rules directory location names name
      = first.isEntered rules directory location names name := by
  rw [isEntered, isEntered, h.same _ hnone]

/-- What a scan picks out among the names of a directory without the added entries is what it picks
out with them, less the names that are added. -/
theorem filter_sorted_names {picks picks' : String → Bool}
    (hsame : ∀ name ∈ sorted (first.names location), picks' name = picks name) :
    (sorted (first.names location)).filter picks
      = ((sorted (second.names location)).filter picks').filter fun name =>
          (added (location ++ [name])).isNone := by
  rw [← List.filter_congr hsame, h.sorted_names, List.filter_filter, List.filter_filter]
  simp only [Bool.and_comm]

/-- A scan meets nothing below an added directory but what is added. -/
theorem filter_filesIn_added (hgrounded : first.Grounded)
    (hadded : (added (place ++ names)).isNone = false) :
    (second.filesIn rules directory depth (place ++ names) names).filter
      (fun found => (added (place ++ found)).isNone) = [] := by
  obtain ⟨entry, hentry⟩ := Option.isSome_iff_exists.mp (Option.isNone_eq_false_iff.mp hadded)
  refine List.filter_eq_nil_iff.mpr fun found hfound => ?_
  obtain ⟨there, hthere, -⟩ := entry_of_mem_filesIn hfound
  obtain ⟨next, more, rfl⟩ := exists_of_mem_filesIn hfound
  rw [← List.append_assoc] at hthere ⊢
  have hbelow := h.added_below hgrounded hentry (by rw [hthere]; rfl)
  rw [Option.isNone_eq_false_iff.mpr hbelow]
  simp

/-- A scan meets what it meets without the added entries, in the same order, and some of these in
between, if none of them lies on the way of a file that is met without them. -/
theorem filesIn_eq_filter (hgrounded : first.Grounded)
    (hseeds : ∀ found ∈ first.filesIn rules directory depth (place ++ names) names,
      first.Avoids added (directory.below found)) :
    first.filesIn rules directory depth (place ++ names) names
      = (second.filesIn rules directory depth (place ++ names) names).filter fun found =>
          (added (place ++ found)).isNone := by
  induction depth generalizing names with
  | zero => rfl
  | succ depth ih =>
    have hplace : ∀ name, place ++ (names ++ [name]) = (place ++ names) ++ [name] := by simp
    rw [filesIn_succ] at hseeds
    have hnone : ∀ name ∈ sorted (first.names (place ++ names)),
        added ((place ++ names) ++ [name]) = none := by
      intro name hname
      rw [h.sorted_names] at hname
      exact Option.isNone_iff_eq_none.mp (List.mem_filter.mp hname).2
    have hwanted : ∀ name ∈ sorted (first.names (place ++ names)),
        second.isWanted rules directory (place ++ names) names name
          = first.isWanted rules directory (place ++ names) names name := by
      intro name hname
      refine h.isWanted_eq hgrounded (hnone name hname) fun hwanted => ?_
      exact hseeds _ (List.mem_append_left _
        (List.mem_map.mpr ⟨name, List.mem_filter.mpr ⟨hname, hwanted⟩, rfl⟩))
    have hentered : ∀ name ∈ sorted (first.names (place ++ names)),
        second.isEntered rules directory (place ++ names) names name
          = first.isEntered rules directory (place ++ names) names name :=
      fun name hname => h.isEntered_eq (hnone name hname)
    rw [filesIn_succ, filesIn_succ, List.filter_append, List.filter_map, List.filter_flatMap]
    congr 1
    · -- The files of the directory itself.
      rw [h.filter_sorted_names hwanted]
      congr 1
      refine List.filter_congr fun name _ => ?_
      rw [Function.comp_apply, hplace]
    · -- The files of the directories that are entered: those of an added one are all added.
      have hadded : ∀ name ∈ (sorted (second.names (place ++ names))).filter
          (second.isEntered rules directory (place ++ names) names),
          (added ((place ++ names) ++ [name])).isNone = false →
          (second.filesIn rules directory depth ((place ++ names) ++ [name]) (names ++ [name])).filter
            (fun found => (added (place ++ found)).isNone) = [] := by
        intro name _ hname
        rw [← hplace] at hname ⊢
        exact h.filter_filesIn_added hgrounded hname
      rw [← flatMap_filter_of_nil hadded, ← h.filter_sorted_names hentered]
      refine List.flatMap_congr fun name hname => ?_
      rw [← hplace]
      refine ih fun found hfound => hseeds found (List.mem_append_right _ ?_)
      exact List.mem_flatMap.mpr ⟨name, hname, by rwa [← hplace]⟩

end Joins

/-- Whether nothing is added where the names of a path behind those of a directory lead from the
place of the directory. -/
def isCommon (added : Location → Option Entry) (directory : Path) (place : Location)
    (path : Path) : Bool :=
  (added (place ++ path.parts.drop directory.parts.length)).isNone

variable {added : Location → Option Entry} {directory : Path}

@[simp] theorem isCommon_below (names : List String) :
    isCommon added directory place (directory.below names) = (added (place ++ names)).isNone := by
  simp [isCommon, Path.below]

theorem looksThrough_self (h : tree.Grounded) (hnames : tree.AllNames Ordinary)
    (hdirectory : tree.entry? location = some .directory) (links : Nat) (name : String) :
    tree.looksThrough links [] (location ++ [name])
      = tree.looksAt [] location ++ tree.looksThrough links location [name] := by
  have hself : tree.followNames .use [] location = .landed (.found location) :=
    followNames_self h hnames (.inl hdirectory)
  rw [looksThrough, followNames_snoc (.inl rfl), looksAt_snoc, hself]
  dsimp only
  rw [looksThrough.eq_def tree links location, List.append_assoc]

/-- What is not on the way of a location is not on the way of a path to it, either. -/
theorem Avoids.of_place (hjoins : first.Joins added second) (hgrounded : first.Grounded)
    (hnames : first.AllNames Ordinary) (hplace : first.locate directory = .ok place)
    (hthere : (first.entry? (place ++ found)).isSome)
    (h : first.Avoids added ⟨.root, place ++ found⟩) :
    first.Avoids added (directory.below found) := by
  obtain ⟨-, hfollow⟩ := locate_eq_ok_iff.mp hplace
  -- What is looked at on the way to a place is there, and hence not added.
  have hway : ∀ {links start names place},
      first.follow .use links start names = .ok (.found place) →
      ∀ other ∈ first.looksThrough links start names, added other = none := by
    intro links start names place hfound other hother
    obtain ⟨entry, hentry⟩ :=
      Option.isSome_iff_exists.mp (entry_isSome_of_looksThrough hfound hother)
    exact hjoins.added_eq_none hentry
  intro other hother
  rw [onWay, Path.below] at hother
  induction found using List.reverseRecOn with
  | nil =>
    rw [List.append_nil] at hother
    exact hway hfollow other hother
  | append_singleton above name _ =>
    rw [← List.append_assoc] at hthere h
    have habove := hgrounded.directory_of_snoc hthere
    have hbefore := follow_append hgrounded hnames hfollow (.inl habove)
    rw [← List.append_assoc] at hother
    rcases looksThrough_snoc first maxLinks (startOf directory.anchor first.workDirectory)
        (directory.parts ++ above) name with ⟨last, remaining, hlast, hle, hlooks⟩ | ⟨hnone, -⟩
    · cases hbefore.symm.trans hlast
      rw [hlooks] at hother
      rcases List.mem_append.mp hother with hmem | hmem
      · exact hway hbefore other hmem
      · apply h other
        show other ∈ first.looksThrough maxLinks [] (place ++ above ++ [name])
        rw [looksThrough_self hgrounded hnames habove]
        exact List.mem_append_right _ (looksThrough_mono hle hmem)
    · exact absurd hbefore (hnone _)

namespace Joins

variable (h : Joins added first second) (hgrounded : first.Grounded)
  (hgrounded' : second.Grounded) (hnames : second.AllNames Ordinary)
  (hplace : first.locate directory = .ok place) (hentry : first.entry? place = some .directory)

include h hgrounded hgrounded' hnames hplace hentry

/-- A scan of a directory finds what it finds without the added entries, and some of these. -/
theorem sourceFiles_eq_filter
    (hseeds : ∀ names, directory.below names ∈ first.sourceFiles directory rules →
      first.Avoids added ⟨.root, place ++ names⟩) :
    first.sourceFiles directory rules
      = (second.sourceFiles directory rules).filter (isCommon added directory place) := by
  have hplace' := locate_keeps h.keeps hplace
  have hentry' := h.keeps.directory hentry
  -- Both walks may go as deep as the deeper one.
  obtain ⟨deep, hdeep⟩ : ∃ n, n = max first.depth second.depth := ⟨_, rfl⟩
  simp only [depth] at hdeep
  have hfirst : first.filesIn rules directory first.depth place []
      = first.filesIn rules directory deep place [] :=
    filesIn_eq_of_deep hgrounded (by simp only [depth]; omega) (by omega) []
  have hsecond : second.filesIn rules directory second.depth place []
      = second.filesIn rules directory deep place [] :=
    filesIn_eq_of_deep hgrounded' (by simp only [depth]; omega) (by omega) []
  rw [sourceFiles_eq hplace hentry] at hseeds ⊢
  rw [sourceFiles_eq hplace' hentry', List.filter_map, hsecond]
  rw [hfirst] at hseeds ⊢
  have hfilter : first.filesIn rules directory deep (place ++ []) []
      = (second.filesIn rules directory deep (place ++ []) []).filter fun found =>
          (added (place ++ found)).isNone := by
    refine h.filesIn_eq_filter hgrounded fun found hfound => ?_
    have hthere := (leaf_of_mem_filesIn hfound).1
    rw [List.append_nil] at hfound
    exact Avoids.of_place h hgrounded (h.allNames hnames) hplace hthere
      (hseeds found (List.mem_map_of_mem hfound))
  rw [List.append_nil] at hfilter
  rw [hfilter]
  congr 1
  refine List.filter_congr fun found _ => ?_
  rw [Function.comp_apply, isCommon_below]

omit hgrounded in
/-- What a scan finds besides are the added files that its rules do not exclude, if their paths can
be asked for. -/
theorem mem_extras_iff (hlinks : ∀ location target, added location ≠ some (.link target))
    (haskable : ∀ names bytes, added (place ++ names) = some (.file bytes) →
      ¬rules.Excludes names → unaskable? (directory.below names) = none) :
    path ∈ second.sourceFiles directory rules ∧ isCommon added directory place path = false ↔
      ∃ names bytes, path = directory.below names ∧ added (place ++ names) = some (.file bytes) ∧
        ¬rules.Excludes names := by
  have hplace' := locate_keeps h.keeps hplace
  have hentry' := h.keeps.directory hentry
  rw [sourceFiles_eq hplace' hentry']
  constructor
  · rintro ⟨hmem, hcommon⟩
    obtain ⟨names, hfound, rfl⟩ := List.mem_map.mp hmem
    rw [isCommon_below] at hcommon
    have hwalk : names ∈ second.filesIn rules directory second.depth (place ++ []) [] := by
      rwa [List.append_nil]
    obtain ⟨entry, hstands, hfile⟩ := entry_of_mem_filesIn hwalk
    obtain ⟨new, hadded⟩ := Option.isSome_iff_exists.mp (Option.isNone_eq_false_iff.mp hcommon)
    cases (h.new _ _ hadded).symm.trans hstands
    obtain ⟨hsuffix, hignored, habove⟩ := not_excluded_of_mem_filesIn hfound
    have hincluded : ¬rules.Excludes names := by
      rintro (hnone | hself | ⟨n, hlow, hhigh, hdirectory⟩)
      · exact hnone hsuffix
      · cases hself.symm.trans hignored
      · cases hdirectory.symm.trans (habove n (by simpa using hlow) hhigh).1
    -- What is found is no directory, and no link is added.
    cases entry with
    | file bytes => exact ⟨names, bytes, rfl, hadded, hincluded⟩
    | directory => exact absurd rfl hfile
    | link target => exact absurd hadded (hlinks _ target)
  · rintro ⟨names, bytes, rfl, hadded, hincluded⟩
    refine ⟨List.mem_map.mpr ⟨names, ?_, rfl⟩, by simp [hadded]⟩
    have hfile := h.new _ _ hadded
    have hne : names ≠ [] := by
      rintro rfl
      rw [List.append_nil, hentry'] at hfile
      cases hfile
    have hthere : (second.entry? (place ++ names)).isSome := by rw [hfile]; rfl
    have hleads : second.leadsToDirectory directory (place ++ names) names = false := by
      rw [leadsToDirectory_of_stands (.inr ⟨bytes, hfile⟩), hfile]
      rfl
    have hpath := haskable names bytes hadded hincluded
    -- The walk goes as deep as the file stands.
    have hlength := length_le_of_entry hgrounded' hthere
    rw [List.length_append] at hlength
    simp only [ScanRules.Excludes, not_or, not_not, not_exists, not_and, Bool.not_eq_true]
      at hincluded
    obtain ⟨hsuffix, hignored, habove⟩ := hincluded
    -- The directories above have shorter paths than the file, which can be asked for.
    have hlisted : ∀ n, n < names.length → canAsk directory (names.take n) = true := by
      intro n hhigh
      have hname : names[n] ∈ place ++ names := List.mem_append_right _ (List.getElem_mem hhigh)
      rw [← List.take_append_drop n names, ← List.getElem_cons_drop hhigh] at hpath
      exact canAsk_of_askable (hnames.of_entry hfile _ hname).1.1 hpath
    have hwalk : [] ++ names ∈ second.filesIn rules directory second.depth place [] :=
      mem_filesIn hgrounded' hthere hleads hne (by simp only [depth]; omega) hsuffix hignored
        fun n hlow hhigh => ⟨habove n hlow hhigh, hlisted n hhigh⟩
    exact hwalk

end Joins

end FileTree

end SourceMutation
