import Mathlib.Data.Finset.Card
import SourceMutation.Proofs.Beside
import SourceMutation.Proofs.Scans

/-!
# Orders of listing

A file tree lists the names in a directory in some order, which says nothing about what the tree
holds.  Two trees may hold the same and list it in different orders, at every level
(`FileTree.HoldsSame`).

All that is asked of such trees has the same answer, and what is written to both, or made in both,
leaves trees that again hold the same.  A scan puts names in order before it does anything with
them, so it meets the same in both trees (`FileTree.HoldsSame.visits`).  So scans, corpus passes and
whole runs do the same over both (`Run.blind_listingOrder`).

## How it is shown

- Operations other than a scan look at one location after another, and never at a listing.  Each of
  them is seen through by the entries alone.
- A scan goes down as many levels as its tree has entries, and these numbers are compared through
  the set of locations below a directory, which both trees share (`FileTree.below`).
- The steps of a run are followed as for other relations of worlds (`Run.Blind`), with the trees
  related by `FileTree.HoldsSame` and all else equal.
-/

namespace SourceMutation

variable {σ : Type}

/-! ## Trees that hold the same

A directory is listed in the order in which the table of the tree has its entries.  Trees that hold
the same may list a directory in different orders, and that is all that tells them apart.
-/

namespace FileTree

/-- Whether two trees hold the same entries.  They may list them in different orders. -/
structure HoldsSame (first second : FileTree) : Prop where
  workDirectory : second.workDirectory = first.workDirectory
  entries : ∀ location, second.entry? location = first.entry? location

/-- A tree whose entries are put in another order holds the same. -/
theorem holdsSame_of_perm {first second : FileTree}
    (hdirectory : second.workDirectory = first.workDirectory) (hkeys : first.entries.keys.Nodup)
    (h : first.entries.entries.Perm second.entries.entries) : first.HoldsSame second := by
  refine ⟨hdirectory, fun location => ?_⟩
  -- Without repeated keys an entry is found wherever it stands in a table.
  have hsub : ∀ {one other : Ledger Location Entry}, other.keys.Nodup →
      one.entries.Perm other.entries → ∀ {entry}, one.get? location = some entry →
        other.get? location = some entry :=
    fun hnodup hperm _ hentry => Ledger.get?_of_mem_entries hnodup
      (hperm.mem_iff.mp (Ledger.mem_entries_of_get? hentry))
  have hkeys' : second.entries.keys.Nodup := (h.map _).nodup_iff.mp hkeys
  unfold entry?
  congr 1
  refine Option.ext fun entry => ⟨fun hentry => ?_, fun hentry => ?_⟩
  · exact hsub hkeys h.symm hentry
  · exact hsub hkeys' h hentry

variable {tree first second : FileTree} {location : Location} {names : List String} {path : Path}
  {purpose : Purpose} {rules : ScanRules}

/-- A directory lists the names under which something stands in it. -/
theorem mem_names_iff {name : String} :
    name ∈ tree.names location ↔ (tree.entry? (location ++ [name])).isSome := by
  rw [mem_names]
  refine ⟨entry_isSome_of_mem_keys, fun h => ?_⟩
  obtain ⟨entry, hentry⟩ := Option.isSome_iff_exists.mp h
  exact mem_keys_of_entry (by simp) hentry

/-! ### Depths of a walk

That two tables have equally many entries is not asked for.  A walk is never stopped by its bound,
in either of the trees.
-/

/-- The locations below a directory that have entries. -/
def below (tree : FileTree) (location : Location) : Finset Location :=
  (tree.entries.keys.filter (isBelow location)).toFinset

/-- The locations below a directory are those of entries that stand below it. -/
theorem mem_below {other : Location} :
    other ∈ tree.below location ↔ isBelow location other = true ∧ (tree.entry? other).isSome := by
  rw [below, List.mem_toFinset, List.mem_filter, and_comm]
  refine and_congr_right fun hbelow => ⟨entry_isSome_of_mem_keys, fun hentry => ?_⟩
  obtain ⟨entry, hentry⟩ := Option.isSome_iff_exists.mp hentry
  refine mem_keys_of_entry ?_ hentry
  rintro rfl
  simp [isBelow] at hbelow

/-- There is less below a directory than below the one that it stands in. -/
theorem card_below_lt {name : String} (hname : name ∈ tree.names location) :
    (tree.below (location ++ [name])).card < (tree.below location).card := by
  refine Finset.card_lt_card (Finset.ssubset_iff_of_subset ?_ |>.mpr ?_)
  · intro other hother
    obtain ⟨hbelow, hentry⟩ := mem_below.mp hother
    refine mem_below.mpr ⟨?_, hentry⟩
    simp only [isBelow, Bool.and_eq_true, List.isPrefixOf_iff_prefix, decide_eq_true_eq,
      List.length_append, List.length_singleton] at hbelow ⊢
    exact ⟨(List.prefix_append _ _).trans hbelow.1, by omega⟩
  · refine ⟨location ++ [name], mem_below.mpr ⟨?_, mem_names_iff.mp hname⟩, fun hself => ?_⟩
    · simp [isBelow]
    · simpa [isBelow] using (mem_below.mp hself).1

/-- A walk is given more levels than there are locations below the directory it starts from. -/
theorem card_below_lt_depth (tree : FileTree) (location : Location) :
    (tree.below location).card < tree.depth := by
  rw [depth, Nat.lt_succ_iff]
  calc (tree.below location).card ≤ (tree.entries.keys.filter (isBelow location)).length :=
        List.toFinset_card_le _
    _ ≤ tree.entries.keys.length := List.length_filter_le _ _
    _ = tree.entries.entries.length := List.length_map _

namespace HoldsSame

variable (h : first.HoldsSame second)

include h

/-- The same locations are below a directory in both trees. -/
theorem below (location : Location) : second.below location = first.below location := by
  ext other
  rw [mem_below, mem_below, h.entries]

/-- The names in a directory are the same, in some order. -/
theorem names_perm (location : Location) : (first.names location).Perm (second.names location) := by
  refine (List.perm_ext_iff_of_nodup (nodup_eraseDups _) (nodup_eraseDups _)).mpr fun name => ?_
  change name ∈ first.names location ↔ name ∈ second.names location
  rw [mem_names_iff, mem_names_iff, h.entries]

/-- Put in order, they are the same. -/
theorem sorted_names (location : Location) :
    sorted (second.names location) = sorted (first.names location) := by
  apply List.Perm.eq_of_pairwise' (pairwise_sorted _) (pairwise_sorted _)
  exact (sorted_perm _).trans ((h.names_perm location).symm.trans (sorted_perm _).symm)

/-! ### Asking -/

/-- Following a path looks up one entry after another. -/
theorem follow (links : Nat) (location : Location) (names : List String) :
    second.follow purpose links location names = first.follow purpose links location names :=
  follow_congr fun other _ => h.entries other

/-- A path is resolved alike in both trees. -/
theorem resolveFor (purpose : Purpose) (path : Path) :
    second.resolveFor purpose path = first.resolveFor purpose path := by
  unfold FileTree.resolveFor
  rw [h.workDirectory, h.follow]

/-- A path has the same location in both trees. -/
theorem locate (path : Path) : second.locate path = first.locate path := by
  unfold FileTree.locate resolve
  rw [h.resolveFor]

theorem entryAt (path : Path) : second.entryAt path = first.entryAt path := by
  unfold FileTree.entryAt
  rw [h.locate]
  cases first.locate path with
  | error cause => rfl
  | ok place =>
    dsimp only
    rw [h.entries]

/-- A file is read alike in both trees. -/
theorem read (path : Path) : second.read path = first.read path := by
  unfold FileTree.read
  rw [h.entryAt]

theorem isPresent (path : Path) : second.isPresent path = first.isPresent path := by
  unfold FileTree.isPresent holdsAt
  rw [h.entryAt]

theorem isDirectory (path : Path) : second.isDirectory path = first.isDirectory path := by
  unfold FileTree.isDirectory holdsAt
  rw [h.entryAt]

/-- A path is written to at the same location in both trees. -/
theorem writeTarget (path : Path) : second.writeTarget path = first.writeTarget path := by
  unfold FileTree.writeTarget
  rw [h.resolveFor]
  rcases first.resolveFor .write path with cause | (place | ⟨directory, name⟩)
  · rfl
  · dsimp only
    rw [h.entries]
  · rfl

theorem placeOf (path : Path) : second.placeOf path = first.placeOf path := by
  unfold FileTree.placeOf
  rw [h.locate]
  split
  case h_1 | h_2 => rfl
  case h_3 =>
    cases first.locate ⟨path.anchor, path.parts.dropLast⟩ with
    | error cause => rfl
    | ok directory =>
      dsimp only
      rw [h.entries]

/-- A name leads a walk to a directory in both trees or in neither. -/
theorem leadsToDirectory (directory : Path) (location : Location) (names : List String) :
    second.leadsToDirectory directory location names
      = first.leadsToDirectory directory location names := by
  unfold FileTree.leadsToDirectory
  rw [h.entries, h.follow, h.workDirectory]
  rcases first.follow .use maxLinks (startOf directory.anchor first.workDirectory)
    (directory.parts ++ names) with cause | (place | ⟨above, name⟩)
  · rfl
  · dsimp only
    rw [h.entries]
  · rfl

/-! ### Scanning -/

/-- A walk that may go as deep as there are entries meets the same, in the same order. -/
theorem visitsIn {depth other : Nat} (hdepth : (first.below location).card < depth)
    (hother : (first.below location).card < other) (directory : Path) (names : List String) :
    second.visitsIn rules directory other location names
      = first.visitsIn rules directory depth location names := by
  induction depth generalizing other location names with
  | zero => exact absurd hdepth (Nat.not_lt_zero _)
  | succ depth ih =>
    cases other with
    | zero => exact absurd hother (Nat.not_lt_zero _)
    | succ other =>
      simp only [FileTree.visitsIn, List.partition_eq_filter_filter, h.sorted_names,
        h.leadsToDirectory, h.entries]
      congr 1
      refine List.flatMap_congr fun name hname => ?_
      -- Each level has fewer locations below it, so both numbers stay large enough.
      have hlisted : name ∈ first.names location := mem_sorted.mp
        (List.mem_of_mem_filter (List.mem_of_mem_filter (List.mem_of_mem_filter hname)))
      have hless := card_below_lt hlisted
      exact ih (by omega) (by omega) _

/-- A scan meets the same in both trees. -/
theorem visits (directory : Path) (rules : ScanRules) :
    second.visits directory rules = first.visits directory rules := by
  unfold FileTree.visits
  rw [h.locate]
  cases first.locate directory with
  | error cause => rfl
  | ok place =>
    dsimp only
    have hdepth : (first.below place).card < second.depth := by
      rw [← h.below]
      exact card_below_lt_depth second place
    rw [h.entries, h.visitsIn (card_below_lt_depth first place) hdepth]

/-! ### Writing and making directories -/

/-- What is put into both trees is the same in both. -/
theorem put (location : Location) (entry : Entry) :
    (first.put location entry).HoldsSame (second.put location entry) := by
  refine ⟨h.workDirectory, fun other => ?_⟩
  have hentry := h.entries other
  unfold FileTree.entry? at hentry
  unfold FileTree.entry? FileTree.put
  rw [Ledger.get?_set, Ledger.get?_set]
  split
  · rfl
  case isFalse hroot =>
    rw [if_neg hroot, if_neg hroot] at hentry
    rw [hentry]

/-- A file is written to both trees, or to none of them for the same fault. -/
theorem write (path : Path) (bytes : Bytes) :
    (∃ fault, first.write path bytes = .error fault ∧ second.write path bytes = .error fault) ∨
      ∃ after after', first.write path bytes = .ok after ∧ second.write path bytes = .ok after' ∧
        after.HoldsSame after' := by
  unfold FileTree.write
  rw [h.writeTarget]
  cases first.writeTarget path with
  | error cause => exact .inl ⟨_, rfl, rfl⟩
  | ok location => exact .inr ⟨_, _, rfl, rfl, h.put location _⟩

/-- A directory is made in both trees, or in none of them for the same fault. -/
theorem makeDirectory (path : Path) :
    (∃ fault, first.makeDirectory path = .error fault ∧
        second.makeDirectory path = .error fault) ∨
      ∃ after after', first.makeDirectory path = .ok after ∧
        second.makeDirectory path = .ok after' ∧ after.HoldsSame after' := by
  unfold FileTree.makeDirectory
  rw [h.placeOf]
  cases first.placeOf path with
  | error cause => exact .inl ⟨_, rfl, rfl⟩
  | ok location =>
    dsimp only
    rw [h.entries]
    cases first.entry? location with
    | some entry => exact .inl ⟨_, rfl, rfl⟩
    | none => exact .inr ⟨_, _, rfl, rfl, h.put location _⟩

/-- What a fault comes to is told by what stands at the path. -/
theorem settle (path : Path) (fault : FileFault) :
    (second.settle path fault).1 = (first.settle path fault).1 ∧
      (first.settle path fault).2.HoldsSame (second.settle path fault).2 := by
  rw [settle_snd, settle_snd]
  refine ⟨?_, h⟩
  unfold FileTree.settle
  rw [h.isDirectory]
  rcases first.isDirectory path with other | _ | _ <;> rfl

/-- One directory is made alike in both trees. -/
theorem ensureDirectory (path : Path) :
    (second.ensureDirectory path).1 = (first.ensureDirectory path).1 ∧
      (first.ensureDirectory path).2.HoldsSame (second.ensureDirectory path).2 := by
  unfold FileTree.ensureDirectory
  rcases h.makeDirectory path with
    ⟨fault, hfirst, hsecond⟩ | ⟨after, after', hfirst, hsecond, hsame⟩
  · rw [hfirst, hsecond]
    dsimp only
    split
    · exact ⟨rfl, h⟩
    · exact h.settle path fault
  · rw [hfirst, hsecond]
    exact ⟨rfl, hsame⟩

omit h in
/-- Directories are made alike in both trees, from the one that is asked for upwards. -/
theorem ensureParents (h : first.HoldsSame second) (anchor : Anchor) (reversed : List String) :
    (FileTree.ensureParents anchor reversed second).1
        = (FileTree.ensureParents anchor reversed first).1 ∧
      (FileTree.ensureParents anchor reversed first).2.HoldsSame
        (FileTree.ensureParents anchor reversed second).2 := by
  induction reversed with
  | nil => exact h.ensureDirectory _
  | cons name above ih =>
    unfold FileTree.ensureParents
    dsimp only
    rcases h.makeDirectory ⟨anchor, (name :: above).reverse⟩ with
      ⟨fault, hfirst, hsecond⟩ | ⟨after, after', hfirst, hsecond, hsame⟩
    · rw [hfirst, hsecond]
      dsimp only
      split
      · -- The directories above are made first.
        obtain ⟨hresult, hsame⟩ := ih
        generalize FileTree.ensureParents anchor above first = one at hresult hsame ⊢
        generalize FileTree.ensureParents anchor above second = other at hresult hsame ⊢
        obtain ⟨result, between⟩ := one
        obtain ⟨result', between'⟩ := other
        dsimp only at hresult
        subst hresult
        rcases result' with fault | ⟨⟨⟩⟩
        · exact ⟨rfl, hsame⟩
        · exact hsame.ensureDirectory _
      · exact h.settle _ fault
    · rw [hfirst, hsecond]
      exact ⟨rfl, hsame⟩

/-- The directories of a path are made alike in both trees. -/
theorem ensureDirectories (path : Path) :
    (second.ensureDirectories path).1 = (first.ensureDirectories path).1 ∧
      (first.ensureDirectories path).2.HoldsSame (second.ensureDirectories path).2 :=
  ensureParents h path.anchor path.parts.reverse

end HoldsSame

end FileTree

/-! ## Worlds that hold the same -/

/-- Whether two worlds have files that hold the same, and everything else in common. -/
structure World.HoldsSame (first second : World σ) : Prop where
  tree : first.tree.HoldsSame second.tree
  chance : first.chance = second.chance
  grammars : first.grammars = second.grammars
  history : first.history = second.history

/-- Such worlds have the same numbers and the same grammars. -/
theorem World.loading_holdsSame : World.Loading (World.HoldsSame (σ := σ)) where
  chance h := h.chance
  after h event := ⟨h.tree, h.chance, h.grammars, congrArg (event :: ·) h.history⟩
  withChance h _ := ⟨h.tree, rfl, h.grammars, h.history⟩
  grammars h := h.grammars
  withGrammars h _ := ⟨h.tree, h.chance, rfl, h.history⟩

namespace Run

open World (HoldsSame)

private theorem paired_holdsSame : World.Paired (HoldsSame (σ := σ)) :=
  World.loading_holdsSame.toPaired

/-! ### Files of a run -/

/-- Reading a source does the same in both worlds. -/
theorem holdsSame_readSource (path : Path) : Blind HoldsSame (readSource path : Run σ String) := by
  intro first second h
  rw [readSource_apply, readSource_apply, h.tree.read]
  cases first.tree.read path with
  | error fault => exact ⟨rfl, h⟩
  | ok bytes =>
    dsimp only
    cases Utf8.decode bytes with
    | error fault => exact ⟨rfl, h⟩
    | ok text => exact ⟨rfl, paired_holdsSame.after h _⟩

/-- A scan meets the same in both worlds. -/
theorem holdsSame_visits (directory : Path) (rules : ScanRules) :
    Blind HoldsSame (visits directory rules : Run σ (List Visit)) := by
  intro first second h
  by_cases hnull : FileTree.unaskable? directory = some .nullCharacter
  · rw [visits, if_pos hnull]
    exact ⟨rfl, h⟩
  · rw [visits_apply rules hnull, visits_apply rules hnull, h.tree.visits]
    exact ⟨rfl, h⟩

/-- Making the output directory does the same in both worlds. -/
theorem holdsSame_ensureOutputDirectory (path : Path) :
    Blind HoldsSame (ensureOutputDirectory path : Run σ Unit) := by
  intro first second h
  rw [ensureOutputDirectory_apply, ensureOutputDirectory_apply, h.tree.isPresent]
  -- Only where nothing stands at the path, something is made.
  rcases first.tree.isPresent path with fault | _ | _
  · exact ⟨rfl, h⟩
  · obtain ⟨hresult, htrees⟩ := h.tree.ensureDirectories path
    dsimp only
    generalize first.tree.ensureDirectories path = one at hresult htrees ⊢
    generalize second.tree.ensureDirectories path = other at hresult htrees ⊢
    obtain ⟨result, after⟩ := one
    obtain ⟨result', after'⟩ := other
    dsimp only at hresult
    subst hresult
    have hworlds : HoldsSame { first with tree := after } { second with tree := after' } :=
      { h with tree := htrees }
    rcases result' with fault | ⟨⟨⟩⟩
    · exact ⟨rfl, hworlds⟩
    · exact ⟨rfl, paired_holdsSame.after hworlds _⟩
  · exact ⟨rfl, h⟩

/-- Writing a file does the same in both worlds. -/
theorem holdsSame_writeOutput (path : Path) (bytes : Bytes) :
    Blind HoldsSame (writeOutput path bytes : Run σ Unit) := by
  intro first second h
  rw [writeOutput_apply, writeOutput_apply]
  rcases h.tree.write path bytes with
    ⟨fault, hfirst, hsecond⟩ | ⟨after, after', hfirst, hsecond, htrees⟩
  · rw [hfirst, hsecond]
    exact ⟨rfl, h⟩
  · rw [hfirst, hsecond]
    have hworlds : HoldsSame { first with tree := after } { second with tree := after' } :=
      { h with tree := htrees }
    exact ⟨rfl, paired_holdsSame.after hworlds _⟩

/-! ### Steps of a run -/

theorem holdsSame_scan (directory : Path) (suffixes patterns : Value) :
    Blind HoldsSame (scan directory suffixes patterns : Run σ (List Path)) :=
  blind_scan_by paired_holdsSame (holdsSame_visits directory) suffixes patterns

/-- Adding a file to a corpus reads it. -/
theorem holdsSame_addFile (tools : Toolchain) (language : Language) (maxLines : Nat) (path : Path)
    (corpus : Corpus) :
    Blind HoldsSame (addFile tools language maxLines path corpus : Run σ (Bool × Corpus)) := by
  refine blind_bind (holdsSame_readSource path) fun text => ?_
  split
  · refine blind_bind (blind_harvest World.loading_holdsSame _ _ _ _) fun found => ?_
    split
    · exact blind_fail _
    · exact blind_bind (blind_log paired_holdsSame _) fun _ => blind_pure _
  · exact blind_bind (blind_log paired_holdsSame _) fun _ => blind_pure _

/-- Adding what a scan met reads the same files in the same order. -/
theorem holdsSame_addVisits (tools : Toolchain) (language : Language) (maxLines : Nat)
    (directory : Path) (met : List Visit) (used : Nat) (corpus : Corpus) :
    Blind HoldsSame (addVisits tools language maxLines directory met used corpus : Run σ _) := by
  induction met generalizing used corpus with
  | nil => exact blind_pure _
  | cons visit rest ih =>
    refine blind_bind (blind_logAll paired_holdsSame _) fun _ => ?_
    split
    · exact ih used corpus
    · exact blind_bind (holdsSame_addFile _ _ _ _ _) fun _ => ih _ _

/-- Building a corpus scans, and adds what was met. -/
theorem holdsSame_buildCorpus (tools : Toolchain) (directory : Path)
    (language maxLines patterns : Value) :
    Blind HoldsSame (buildCorpus tools directory language maxLines patterns : Run σ Corpus) := by
  refine blind_traced paired_holdsSame ?_ _
  refine blind_bind (blind_ofExcept _) fun maxLines => ?_
  refine blind_bind (blind_log paired_holdsSame _) fun _ => ?_
  refine blind_bind (blind_ofExcept _) fun language => ?_
  refine blind_bind (blind_scanRules paired_holdsSame _ _) fun rules => ?_
  refine blind_bind (holdsSame_visits directory rules) fun met => ?_
  refine blind_bind (holdsSame_addVisits _ _ _ _ _ _ _) fun _ => ?_
  exact blind_bind (blind_log paired_holdsSame _) fun _ => blind_pure _

/-- Gathering the sources makes the output directory, scans, and builds a corpus if one is
needed. -/
theorem holdsSame_gather (tools : Toolchain) (plan : Plan) :
    Blind HoldsSame (gather tools plan : Run σ (List Path × Option Corpus)) := by
  refine blind_bind (holdsSame_ensureOutputDirectory _) fun _ => ?_
  refine blind_bind (holdsSame_scan _ _ _) fun files => ?_
  refine blind_bind ?_ fun corpus => blind_pure _
  rw [planCorpus]
  split
  · rw [map_eq_pure_bind]
    exact blind_bind (holdsSame_buildCorpus _ _ _ _ _) fun _ => blind_pure _
  · exact blind_pure _

section Runs

variable [Chooser σ]

/-- Mutating a file does the same in both worlds. -/
theorem holdsSame_mutateFile (tools : Toolchain) (plan : Plan) (corpus : Option Corpus)
    (path : Path) : Blind HoldsSame (mutateFile tools plan corpus path : Run σ SourceReport) := by
  refine blind_bind (blind_log paired_holdsSame _) fun _ => ?_
  refine blind_bind (holdsSame_readSource path) fun text => ?_
  exact blind_mutateText_by World.loading_holdsSame
    (blind_writeMutants_by paired_holdsSame (holdsSame_ensureOutputDirectory _)
      fun _ _ => holdsSame_writeOutput _ _) corpus text

/-- Mutating files one after another does the same in both worlds. -/
theorem holdsSame_mutateFiles (tools : Toolchain) (plan : Plan) (corpus : Option Corpus)
    (paths : List Path) :
    Blind HoldsSame (mutateFiles tools plan corpus paths : Run σ (List SourceReport)) := by
  induction paths with
  | nil => exact blind_pure []
  | cons path rest ih =>
    refine blind_bind (holdsSame_mutateFile tools plan corpus path) fun report => ?_
    exact blind_bind ih fun _ => blind_pure _

/-- Carrying out a plan does the same in both worlds. -/
theorem holdsSame_carryOut (tools : Toolchain) (plan : Plan) :
    Blind HoldsSame (carryOut tools plan : Run σ Summary) := by
  refine blind_bind (blind_log paired_holdsSame _) fun _ => ?_
  refine blind_bind (holdsSame_gather tools plan) fun ⟨files, corpus⟩ => ?_
  refine blind_bind (holdsSame_mutateFiles tools plan corpus files) fun sources => ?_
  exact blind_bind (blind_log paired_holdsSame _) fun _ => blind_pure _

/-- Whole runs do the same in both worlds. -/
theorem holdsSame_mutateAfter {settings : Settings} {opening : Run σ Unit}
    (hopening : Opening settings opening) (tools : Toolchain) :
    Blind HoldsSame (mutateAfter opening tools settings : Run σ Summary) := by
  refine blind_traced paired_holdsSame ?_ _
  intro first second h
  -- The settings are checked against the files, which only the input directory matters of.
  have hcheck := check_congr (h.tree.isDirectory settings.inputDirectory)
  have hrest : Blind HoldsSame (do
      let plan ← ofExcept (settings.check first.tree)
      opening
      carryOut tools plan : Run σ Summary) :=
    blind_bind (blind_ofExcept _) fun plan =>
      blind_bind (hopening.blind paired_holdsSame) fun _ => holdsSame_carryOut tools plan
  rw [Chance.bind_apply, Chance.bind_apply, tree_apply, tree_apply]
  dsimp only
  rw [hcheck]
  exact hrest first second h

/--
Over files that hold the same, in whatever orders they list it, a scan finds the same files in the
same order, a corpus pass makes the same corpus down to the order of its texts, and a run comes to
the same.  They tell, hand over and write the same, and leave the same numbers, and files that again
hold the same.
-/
theorem blind_listingOrder {settings : Settings} {opening : Run σ Unit}
    (hopening : Opening settings opening) (tools : Toolchain) :
    (∀ directory suffixes patterns,
      Blind HoldsSame (scan directory suffixes patterns : Run σ (List Path))) ∧
    (∀ directory language maxLines patterns,
      Blind HoldsSame (buildCorpus tools directory language maxLines patterns : Run σ Corpus)) ∧
    Blind HoldsSame (mutateAfter opening tools settings : Run σ Summary) :=
  ⟨holdsSame_scan, holdsSame_buildCorpus tools, holdsSame_mutateAfter hopening tools⟩

/-- The two namesakes, with everything listed the other way round. -/
def turnedTree : FileTree :=
  { namesakesTree with entries := ⟨namesakesTree.entries.entries.reverse⟩ }

/-- What a run with some picks comes to: each source in turn takes the other one's name. -/
def exchangesRun (tree : FileTree) : Except Stop Summary × World Script :=
  mutate { firstByteTools with patience := 1 } sharedSplices
    (World.fresh tree ⟨[0, 2, 0, 1]⟩ .empty)

/-- Both runs make the same of the same picks, although the directories are listed differently. -/
theorem turnedTree_exchanged :
    namesakesTree.names ["w", "in"] = ["a", "b"] ∧ turnedTree.names ["w", "in"] = ["b", "a"] ∧
      (exchangesRun namesakesTree).2.writings
        = [(⟨.relative, ["out", "mut_lib.rs_1.rs"]⟩, [0x62]),
          (⟨.relative, ["out", "mut_lib.rs_1.rs"]⟩, [0x61, 0x63])] ∧
      (exchangesRun namesakesTree).1.toOption.isSome ∧
      (exchangesRun namesakesTree).1 = (exchangesRun turnedTree).1 ∧
      HoldsSame (exchangesRun namesakesTree).2 (exchangesRun turnedTree).2 := by
  -- The second tree lists the entries of the first one from the last to the first.
  have htree : namesakesTree.HoldsSame turnedTree :=
    FileTree.holdsSame_of_perm rfl (by decide) (List.reverse_perm _).symm
  have hstart : HoldsSame (World.fresh namesakesTree (⟨[0, 2, 0, 1]⟩ : Script) .empty)
      (World.fresh turnedTree ⟨[0, 2, 0, 1]⟩ .empty) := ⟨htree, rfl, rfl, rfl⟩
  have hrun : Blind HoldsSame
      (mutate { firstByteTools with patience := 1 } sharedSplices : Run Script Summary) :=
    (blind_listingOrder .given _).2.2
  refine ⟨by decide +kernel, by decide +kernel, by decide +kernel, by decide +kernel, ?_⟩
  exact hrun _ _ hstart

end Runs

end Run

end SourceMutation
