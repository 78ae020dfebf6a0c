import SourceMutation.Proofs.JoinedScans

/-!
# Which files a scan yields

A scan yields what stands in the directories that are reached from its start, if it is no directory
and no link to one, has one of the suffixes, and is matched by no ignore pattern, nor is a directory
between the start and it (`FileTree.Eligible`).  It enters no link, so that it ends also where links
lead in circles, and a file below a directory that is ignored is not yielded even if a later pattern
takes it in again.

## Limits of paths

Everything below the start is asked for by a path, and paths have limits (`FileTree.Yields`):

- A directory that is too far down to be listed hides what is in it.
- A link that cannot be followed by its path is yielded like one that leads nowhere.

Where the start's path passes through no link and the paths below are short, neither limit shows
(`FileTree.yields_iff`).

## Main results

- `Run.scan_yields`: which paths a scan yields, for all trees, starts, suffixes and patterns that
  can be read.
- `Run.limits_show`: what would be yielded without the limits is not what is yielded.
-/

namespace SourceMutation

variable {σ : Type}

namespace FileTree

/-! ## What is reached -/

/-- The directories that are reached from a start by their names, through no link. -/
inductive Reaches (tree : FileTree) (start : Location) : List String → Prop
  | start (hstart : tree.entry? start = some .directory) : Reaches tree start []
  | into {above : List String} {name : String} (habove : Reaches tree start above)
      (hentry : tree.entry? (start ++ above ++ [name]) = some .directory) :
      Reaches tree start (above ++ [name])

/-- Whether a location holds a link that leads to a directory. -/
def LinksToDirectory (tree : FileTree) (location : Location) : Prop :=
  ∃ text target, tree.entry? location = some (.link text) ∧
    tree.follow .use maxLinks [] location = .ok (.found target) ∧
    tree.entry? target = some .directory

/-- Whether a location holds a link that is followed to a directory by its path, which is that of a
start with names behind it.  This takes a path that can be asked for, and the links on the way to
the start count. -/
def IsFollowed (tree : FileTree) (directory : Path) (location : Location) (names : List String) :
    Prop :=
  ∃ text target, tree.entry? location = some (.link text) ∧ canAsk directory names = true ∧
    tree.follow .use maxLinks (startOf directory.anchor tree.workDirectory)
      (directory.parts ++ names) = .ok (.found target) ∧
    tree.entry? target = some .directory

/-- Whether a name in a directory, given by its names from the start on, is that of a file that a
scan for some suffixes and past some ignore patterns is after, or of a link of such a name. -/
structure Eligible (tree : FileTree) (suffixes : List String) (ignore : List IgnorePattern)
    (start : Location) (above : List String) (name : String) : Prop where
  reached : tree.Reaches start above
  there : (tree.entry? (start ++ above ++ [name])).isSome
  not_directory : tree.entry? (start ++ above ++ [name]) ≠ some .directory
  suffix : Path.suffixOf name ∈ suffixes
  not_ignored : IgnorePattern.ignored ignore ("/".intercalate (above ++ [name])) = false
  /-- The directories between are asked for with a slash at the end. -/
  above_not_ignored : ∀ n, 0 < n → n ≤ above.length →
    IgnorePattern.ignored ignore ("/".intercalate (above.take n) ++ "/") = false

/-- Whether a scan from a start yields such a name: if the directory can be listed by its path, and
the name is not that of a link that is followed to a directory. -/
structure Yields (tree : FileTree) (suffixes : List String) (ignore : List IgnorePattern)
    (directory : Path) (start : Location) (above : List String) (name : String) : Prop
    extends tree.Eligible suffixes ignore start above name where
  listed : canAsk directory above = true
  /-- A link to nowhere, or in a circle, may be yielded. -/
  not_link : ¬ tree.IsFollowed directory (start ++ above ++ [name]) (above ++ [name])

variable {tree : FileTree} {rules : ScanRules} {suffixes : List String}
  {ignore : List IgnorePattern} {start location : Location} {above names found : List String}
  {name : String} {directory path : Path}

theorem Reaches.entry_start (h : tree.Reaches start above) : tree.entry? start = some .directory := by
  induction h with
  | start hstart => exact hstart
  | into _ _ ih => exact ih

/-- Whatever stands below a start stands in a directory that is reached from there. -/
theorem Grounded.reaches (h : tree.Grounded)
    (hthere : (tree.entry? (start ++ above ++ [name])).isSome) : tree.Reaches start above := by
  -- From the last name on upwards: above an entry stands a directory.
  induction above using List.reverseRecOn generalizing name with
  | nil =>
    apply Reaches.start
    simpa using h.directory_of_snoc hthere
  | append_singleton more last ih =>
    have hdirectory := h.directory_of_snoc hthere
    rw [← List.append_assoc] at hdirectory
    exact .into (ih (by rw [hdirectory]; rfl)) hdirectory

/-- What counts as a directory is one, or is a link that is followed to one. -/
theorem leadsToDirectory_iff :
    tree.leadsToDirectory directory location names = true ↔
      tree.entry? location = some .directory ∨ tree.IsFollowed directory location names := by
  constructor
  · intro hleads
    rcases directory_or_link_of_leads hleads with hentry | ⟨text, hentry⟩
    · exact .inl hentry
    · obtain ⟨hshort, target, hfollow, htarget⟩ := (leadsToDirectory_of_link hentry).mp hleads
      exact .inr ⟨text, target, hentry, hshort, hfollow, htarget⟩
  · rintro (hentry | ⟨text, target, hentry, hshort, hfollow, htarget⟩)
    · rw [leadsToDirectory_of_stands (.inl hentry), hentry]
      rfl
    · exact (leadsToDirectory_of_link hentry).mpr ⟨hshort, target, hfollow, htarget⟩

/-! ## What a scan yields -/

/-- A walk from a start yields what is to be yielded, and nothing else. -/
theorem mem_filesIn_iff (h : tree.Grounded) (hstart : tree.locate directory = .ok start) :
    found ∈ tree.filesIn rules directory tree.depth start [] ↔
      ∃ above name, found = above ++ [name] ∧
        tree.Yields rules.suffixes rules.ignore directory start above name := by
  constructor
  · intro hfound
    obtain ⟨first, more, hcons⟩ := exists_of_mem_filesIn hfound
    obtain rfl | ⟨above, name, rfl⟩ := List.eq_nil_or_concat' found
    · cases hcons
    have hwalk : above ++ [name] ∈ tree.filesIn rules directory tree.depth (start ++ []) [] := by
      rwa [List.append_nil]
    obtain ⟨hthere, hleads⟩ := leaf_of_mem_filesIn hwalk
    obtain ⟨hsuffix, hfile, habove⟩ := not_excluded_of_mem_filesIn hfound
    rw [List.getLastD_concat] at hsuffix
    rw [← List.append_assoc] at hthere hleads
    have hopen : ∀ n, 0 < n → n ≤ above.length →
        ignoresDirectory rules (above.take n) = false ∧ canAsk directory (above.take n) = true := by
      intro n hlow hhigh
      have hopen := habove n hlow (by simp; omega)
      rwa [List.take_append_of_le_length hhigh] at hopen
    have hlisted : canAsk directory above = true := by
      rcases Nat.eq_zero_or_pos above.length with hnone | hsome
      · rw [List.eq_nil_of_length_eq_zero hnone]
        exact canAsk_start (locate_eq_ok_iff.mp hstart).1
      · simpa using (hopen above.length hsome le_rfl).2
    -- What does not count as a directory is none, and is no link that is followed to one.
    have hnone := mt leadsToDirectory_iff.mpr (Bool.eq_false_iff.mp hleads)
    obtain ⟨hdirectory, hlink⟩ := not_or.mp hnone
    exact ⟨above, name, rfl, ⟨h.reaches hthere, hthere, hdirectory, hsuffix, hfile,
      fun n hlow hhigh => (hopen n hlow hhigh).1⟩, hlisted, hlink⟩
  · rintro ⟨above, name, rfl, hyields⟩
    have hthere := hyields.there
    -- The walk goes deep enough, since no entry stands deeper than there are entries.
    have hdeep := length_le_of_entry h hthere
    simp only [List.length_append, List.length_singleton] at hdeep
    have hleads : tree.leadsToDirectory directory (start ++ above ++ [name]) (above ++ [name])
        = false := by
      rw [Bool.eq_false_iff]
      intro hleads
      obtain hdirectory | hlink := leadsToDirectory_iff.mp hleads
      · exact hyields.not_directory hdirectory
      · exact hyields.not_link hlink
    rw [List.append_assoc] at hthere hleads
    rw [← List.nil_append (above ++ [name])] at hleads
    have hlisted : ∀ n, canAsk directory (above.take n) = true := by
      intro n
      have hwhole := hyields.listed
      rw [← List.take_append_drop n above] at hwhole
      exact canAsk_of_append hwhole
    have hwalk : [] ++ (above ++ [name]) ∈ tree.filesIn rules directory tree.depth start [] := by
      apply mem_filesIn h hthere hleads (by simp)
      · simp only [depth, List.length_append, List.length_singleton]
        omega
      · simpa using hyields.suffix
      · exact hyields.not_ignored
      · intro n hlow hhigh
        have hle : n ≤ above.length := by simpa [Nat.lt_succ_iff] using hhigh
        rw [List.nil_append, List.take_append_of_le_length hle]
        exact ⟨hyields.above_not_ignored n hlow hle, hlisted n⟩
    exact hwalk

theorem mem_sourceFiles_iff (h : tree.Grounded) :
    path ∈ tree.sourceFiles directory rules ↔
      ∃ start above name, tree.locate directory = .ok start ∧
        path = directory.below (above ++ [name]) ∧
        tree.Yields rules.suffixes rules.ignore directory start above name := by
  constructor
  · intro hpath
    obtain ⟨start, found, hstart, -, hfound, rfl⟩ := exists_of_mem_sourceFiles hpath
    obtain ⟨above, name, rfl, hyields⟩ := (mem_filesIn_iff h hstart).mp hfound
    exact ⟨start, above, name, hstart, rfl, hyields⟩
  · rintro ⟨start, above, name, hstart, rfl, hyields⟩
    rw [sourceFiles_eq hstart hyields.reached.entry_start]
    apply List.mem_map_of_mem
    exact (mem_filesIn_iff h hstart).mpr ⟨above, name, rfl, hyields⟩

/-- The walk ends by itself: it meets the same, however much deeper it may go. -/
theorem visits_eq_of_deep (h : tree.Grounded) (hstart : tree.locate directory = .ok start)
    (hdirectory : tree.entry? start = some .directory) {depth : Nat} (hdepth : tree.depth ≤ depth) :
    tree.visitsIn rules directory depth start [] = tree.visits directory rules := by
  rw [visits, hstart]
  dsimp only
  rw [if_pos hdirectory]
  simp only [FileTree.depth] at hdepth ⊢
  apply visitsIn_eq_of_deep h
  · omega
  · omega

/-! ## Where the limits do not show

A path that is too long is refused, and the links on the way to a start count among those that are
followed from there on.  If that way has no links and all paths below are short, it makes no
difference where a scan starts.
-/

/-- Names that lead to a location lead on from there with more names behind them. -/
theorem followNames_append {before : List String}
    (hbefore : tree.followNames .use location before = .landed (.found start)) :
    tree.followNames .use location (before ++ names) = tree.followNames .use start names := by
  fun_induction followNames tree .use location before with
  | case1 => cases hbefore; rfl
  | case2 | case5 | case6 | case7 | case8 | case9 => cases hbefore
  | case3 location name rest hdirectory hstay ih =>
    rw [List.cons_append, followNames, if_neg hdirectory, if_pos hstay, ih hbefore]
  | case4 location rest hdirectory hstay ih =>
    simp [followNames, hdirectory, ih hbefore]
  | case10 location name rest hdirectory hstay hup hslash hlong entry hlink hentry ih =>
    have hnew := ih hbefore
    simp [followNames, hdirectory, hstay, hup, hlong, hentry, hnew]

theorem follow_of_landed {before : List String}
    (hbefore : tree.followNames .use location before = .landed (.found start)) (links : Nat) :
    tree.follow .use links location (before ++ names) = tree.follow .use links start names := by
  rw [follow, followNames_append hbefore, follow]

/-- Where the way to the start passes through no link, none is used up there, and a link is followed
to a directory if it leads to one. -/
theorem isFollowed_iff (h : tree.Grounded) (hnames : tree.AllNames Ordinary)
    (hdirectory : tree.entry? start = some .directory)
    (hstart : tree.followNames .use (startOf directory.anchor tree.workDirectory) directory.parts
      = .landed (.found start))
    (hshort : canAsk directory names = true) :
    tree.IsFollowed directory (start ++ names) names ↔ tree.LinksToDirectory (start ++ names) := by
  have hroot : tree.followNames .use [] start = .landed (.found start) :=
    followNames_self h hnames (.inl hdirectory)
  unfold IsFollowed LinksToDirectory
  -- Either way the names are followed from the start, with all links still to be used.
  simp [follow_of_landed hroot, follow_of_landed hstart, hshort]

/-- Where the start's path passes through no link and the paths below are short enough, a scan
yields whatever is eligible and no link to a directory. -/
theorem yields_iff (h : tree.Grounded) (hnames : tree.AllNames Ordinary)
    (hstart : tree.followNames .use (startOf directory.anchor tree.workDirectory) directory.parts
      = .landed (.found start))
    (hshort : canAsk directory (above ++ [name]) = true) :
    tree.Yields suffixes ignore directory start above name ↔
      tree.Eligible suffixes ignore start above name ∧
        ¬ tree.LinksToDirectory (start ++ above ++ [name]) := by
  -- With names that can be asked for on the way, only links are followed to directories elsewhere.
  have hsame : tree.Reaches start above →
      (tree.IsFollowed directory (start ++ above ++ [name]) (above ++ [name]) ↔
        tree.LinksToDirectory (start ++ above ++ [name])) := by
    intro hreached
    rw [List.append_assoc]
    exact isFollowed_iff h hnames hreached.entry_start hstart hshort
  constructor
  · intro hyields
    exact ⟨hyields.toEligible, mt (hsame hyields.reached).mpr hyields.not_link⟩
  · rintro ⟨heligible, hlink⟩
    exact ⟨heligible, canAsk_of_append hshort, mt (hsame heligible.reached).mp hlink⟩

end FileTree

namespace Run

/-- What a scan yields, for any tree whose names are as file systems have them, any start that can
be asked for, and suffixes and ignore patterns that can be read.  It yields no path twice, and it
yields what stands in a directory that is reached from the start and can be listed by its path, is
no directory and no link that is followed to one, has one of the suffixes, and is matched by no
pattern, nor are the directories between.  It goes no deeper than the tree does. -/
theorem scan_yields {suffixes : List String} {patterns : Value} {rules : ScanRules}
    {directory : Path} {world : GroundedWorld σ}
    (hrules : ScanRules.ofValues (.texts suffixes) patterns = .ok rules)
    (haskable : FileTree.unaskable? directory ≠ some .nullCharacter) :
    ∃ files world', scan directory (.texts suffixes) patterns world.toWorld = (.ok files, world') ∧
      files.Nodup ∧
      (∀ path, path ∈ files ↔ ∃ start above name, world.tree.locate directory = .ok start ∧
        path = directory.below (above ++ [name]) ∧
        world.tree.Yields suffixes rules.ignore directory start above name) ∧
      ∀ start, world.tree.locate directory = .ok start →
        world.tree.entry? start = some .directory → ∀ depth, world.tree.depth ≤ depth →
          world.tree.visitsIn rules directory depth start []
            = world.tree.visits directory rules := by
  obtain ⟨world', hscan, -⟩ := scan_apply hrules haskable world.toWorld
  obtain rfl := ScanRules.suffixes_of_ofValues hrules
  exact ⟨_, world', hscan, FileTree.nodup_sourceFiles _ _ _,
    fun path => FileTree.mem_sourceFiles_iff world.grounded,
    fun start hstart hdirectory depth hdepth =>
      FileTree.visits_eq_of_deep world.grounded hstart hdirectory hdepth⟩

/-- A directory with a source, a directory named like one with a source in it, links to that
directory, back up and to nowhere, a name that is all suffix, and a directory that is ignored, with
a source that a later pattern takes in again. -/
def tangledTree : GroundedTree where
  workDirectory := ["w"]
  entries := ⟨[(["w"], .directory), (["w", "in"], .directory),
    (["w", "in", "a.rs"], .file []), (["w", "in", ".rs"], .file []),
    (["w", "in", "b.rs"], .directory), (["w", "in", "b.rs", "c.rs"], .file []),
    (["w", "in", "d.rs"], .link "b.rs"), (["w", "in", "up"], .link ".."),
    (["w", "in", "e.rs"], .link "nowhere"),
    (["w", "in", "out"], .directory), (["w", "in", "out", "f.rs"], .file [])]⟩
  grounded := by decide

/-- The world before a scan of its directory. -/
def tangledStart : GroundedWorld Script := .fresh tangledTree ⟨[]⟩ .empty

/-- Patterns that ignore one directory, and take in again a source below it. -/
def tangledPatterns : List String := ["out/", "!out/f.rs"]

/-- The scan yields the source, the link to nowhere, and the source in the directory that is named
like one; not what no pattern matches in the directory that is ignored. -/
theorem tangledTree_yields :
    tangledTree.AllNames FileTree.Ordinary ∧
      ∃ rules files, ScanRules.ofTexts [".rs"] tangledPatterns = .ok rules ∧
        IgnorePattern.ignored rules.ignore "out/f.rs" = false ∧
        files = [⟨.relative, ["in", "a.rs"]⟩, ⟨.relative, ["in", "e.rs"]⟩,
          ⟨.relative, ["in", "b.rs", "c.rs"]⟩] ∧
        ∀ path, path ∈ files ↔ ∃ start above name,
          tangledTree.locate ⟨.relative, ["in"]⟩ = .ok start ∧
          path = Path.below ⟨.relative, ["in"]⟩ (above ++ [name]) ∧
          tangledTree.Yields [".rs"] rules.ignore ⟨.relative, ["in"]⟩ start above name := by
  have hnames : tangledStart.tree.AllNames FileTree.Ordinary := by decide +kernel
  have hrules : ScanRules.ofValues (.texts [".rs"]) (.texts tangledPatterns) = .ok _ := rfl
  have haskable : FileTree.unaskable? ⟨.relative, ["in"]⟩ ≠ some .nullCharacter := by decide
  -- What the scan finds is computed, and the theorem tells what that is.
  have hfound : (scan ⟨.relative, ["in"]⟩ (.texts [".rs"]) (.texts tangledPatterns)
      tangledStart.toWorld).1.toOption = some [⟨.relative, ["in", "a.rs"]⟩, ⟨.relative, ["in", "e.rs"]⟩,
        ⟨.relative, ["in", "b.rs", "c.rs"]⟩] := by decide +kernel
  obtain ⟨files, world', hscan, -, hyields, -⟩ := scan_yields hrules haskable
  rw [hscan] at hfound
  exact ⟨hnames, _, files, hrules, by decide +kernel, Option.some.inj hfound, hyields⟩

/-! ### Where the limits show -/

/-- A source, and another one in a directory below. -/
def plainTree : GroundedTree where
  workDirectory := ["w"]
  entries := ⟨[(["w"], .directory), (["w", "in"], .directory), (["w", "in", "a.rs"], .file []),
    (["w", "in", "d"], .directory), (["w", "in", "d", "x.rs"], .file [])]⟩
  grounded := by decide

/-- A path to the directory of both that goes up and down so often that it takes 4094 bytes. -/
def longStart : Path := ⟨.relative, "in" :: (List.replicate 682 ["..", "in"]).flatten⟩

/-- A link to the directory it stands in, and a link to a directory under the name of a source. -/
def roundTree : GroundedTree where
  workDirectory := ["w"]
  entries := ⟨[(["w"], .directory), (["w", "in"], .directory), (["w", "in", "s"], .link "."),
    (["w", "in", "d"], .directory), (["w", "in", "k.rs"], .link "d")]⟩
  grounded := by decide

/-- A path to the directory of both through as many links as are followed. -/
def roundStart : Path := ⟨.relative, "in" :: List.replicate 40 "s"⟩

/-- What a scan for sources finds from there in a tree. -/
def scanned (tree : FileTree) (start : Path) : Option (List Path) :=
  (scan start (.texts [".rs"]) .none (World.fresh tree (⟨[]⟩ : Script) .empty)).1.toOption

theorem length_longStart : (Utf8.encode longStart.text).length = 4094 := by
  have hparts : longStart.parts ≠ [] := List.cons_ne_nil _ _
  have hbytes : FileTree.slashedBytes longStart.parts = 4095 := by decide +kernel
  have hanchor : (Utf8.encode longStart.anchor.text).length = 0 := rfl
  have hlength := FileTree.length_encode_text hparts
  omega

theorem locate_longStart : plainTree.locate longStart = .ok ["w", "in"] := by
  have hnull : NullFree longStart.text := by
    rw [Path.nullFree_text_iff]
    decide +kernel
  have haskable : FileTree.unaskable? longStart = none := by
    unfold FileTree.unaskable?
    rw [if_neg (by simpa [NullFree] using hnull), if_neg (by rw [length_longStart]; decide)]
  exact FileTree.locate_eq_ok_iff.mpr ⟨haskable, by decide +kernel⟩

/-- The directory below can no longer be listed, so that its source is missed. -/
theorem scanned_longStart : scanned plainTree longStart = some [longStart.below ["a.rs"]] := by
  -- One more name makes the path too long, so that the directory is not entered.
  have hlisted : FileTree.canAsk longStart ["d"] = false := by
    have hstem : FileTree.stem longStart = longStart.text := rfl
    have hbytes : FileTree.slashedBytes ["d"] = 2 := by decide
    rw [FileTree.canAsk, decide_eq_false_iff_not, FileTree.length_encode_walkedText, hstem,
      length_longStart, hbytes]
    decide
  have hnull : FileTree.unaskable? longStart ≠ some .nullCharacter := by
    rw [(FileTree.locate_eq_ok_iff.mp locate_longStart).1]
    simp
  have hrules : ScanRules.ofValues (.texts [".rs"]) .none = .ok ⟨[".rs"], []⟩ := rfl
  have hnames : FileTree.sorted (plainTree.names ["w", "in"]) = ["a.rs", "d"] := by decide
  have hentry : plainTree.entry? (["w", "in"] ++ ["d"]) = some .directory := by decide
  have hfiles : plainTree.filesIn ⟨[".rs"], []⟩ longStart plainTree.depth ["w", "in"] []
      = [["a.rs"]] := by
    rw [show plainTree.depth = 5 + 1 from rfl, FileTree.filesIn_succ, hnames]
    have hsource : plainTree.isWanted ⟨[".rs"], []⟩ longStart ["w", "in"] [] "a.rs" = true := by
      decide +kernel
    -- The directory is no source either.
    have hbelow : plainTree.isWanted ⟨[".rs"], []⟩ longStart ["w", "in"] [] "d" = false := by
      decide +kernel
    have hnone : plainTree.isEntered ⟨[".rs"], []⟩ longStart ["w", "in"] [] "a.rs" = false := by
      decide +kernel
    have hpassed : plainTree.isEntered ⟨[".rs"], []⟩ longStart ["w", "in"] [] "d" = false := by
      rw [FileTree.isEntered, List.nil_append, hlisted, Bool.and_false, Bool.and_false]
    simp [hsource, hbelow, hnone, hpassed]
  obtain ⟨world', hscan, -⟩ := scan_apply hrules hnull (World.fresh plainTree (⟨[]⟩ : Script) .empty)
  rw [scanned, hscan]
  show some (plainTree.sourceFiles longStart ⟨[".rs"], []⟩) = _
  rw [FileTree.sourceFiles_eq locate_longStart (by decide), hfiles]
  rfl

/--
Without the limits, other files would be yielded than are.  From the long path the scan misses a
source below directories that are all real ones, and from the path through many links it takes a
link to a directory for a source.
-/
theorem limits_show :
    (scanned plainTree longStart = some [longStart.below ["a.rs"]] ∧
      ¬ ∀ path, path ∈ [longStart.below ["a.rs"]] ↔
        ∃ start above name, plainTree.locate longStart = .ok start ∧
          path = longStart.below (above ++ [name]) ∧
          plainTree.Eligible [".rs"] [] start above name ∧
          ¬ plainTree.LinksToDirectory (start ++ above ++ [name])) ∧
    (scanned roundTree roundStart = some [roundStart.below ["k.rs"]] ∧
      ¬ ∀ path, path ∈ [roundStart.below ["k.rs"]] ↔
        ∃ start above name, roundTree.locate roundStart = .ok start ∧
          path = roundStart.below (above ++ [name]) ∧
          roundTree.Eligible [".rs"] [] start above name ∧
          ¬ roundTree.LinksToDirectory (start ++ above ++ [name])) := by
  refine ⟨⟨scanned_longStart, fun hyields => ?_⟩, by decide +kernel, fun hyields => ?_⟩
  · -- The source below is eligible, and it is no link.
    have hthere : (plainTree.entry? (["w", "in"] ++ ["d"] ++ ["x.rs"])).isSome := by decide
    have heligible : plainTree.Eligible [".rs"] [] ["w", "in"] ["d"] "x.rs" :=
      ⟨plainTree.grounded.reaches hthere, hthere, by decide, by decide, rfl, fun _ _ _ => rfl⟩
    have hfile : plainTree.entry? ["w", "in", "d", "x.rs"] = some (.file []) := by decide
    have hlink : ¬ plainTree.LinksToDirectory ["w", "in", "d", "x.rs"] := by
      rintro ⟨text, target, hentry, -⟩
      cases hfile.symm.trans hentry
    have hmem := (hyields (longStart.below ["d", "x.rs"])).mpr
      ⟨["w", "in"], ["d"], "x.rs", locate_longStart, rfl, heligible, hlink⟩
    have hsame := FileTree.below_injective _ (List.mem_singleton.mp hmem)
    exact absurd hsame (by decide)
  · -- What is yielded is a link to a directory.
    obtain ⟨start, above, name, hstart, hpath, -, hlink⟩ :=
      (hyields (roundStart.below ["k.rs"])).mp (List.mem_singleton.mpr rfl)
    have hplace : roundTree.locate roundStart = .ok ["w", "in"] := by decide +kernel
    cases hplace.symm.trans hstart
    have hnames := FileTree.below_injective _ hpath
    apply hlink
    rw [List.append_assoc, ← hnames]
    exact ⟨"d", ["w", "in", "d"], by decide, by decide +kernel, by decide⟩

end Run

end SourceMutation
