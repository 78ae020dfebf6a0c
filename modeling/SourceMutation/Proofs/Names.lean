import SourceMutation.Proofs.Scans

/-!
# Names that can be asked for

Nothing can be asked for under a name with a null character, and no file system has such names.  A
path without null characters is refused for other causes only (`FileTree.cause_of_read`,
`FileTree.cause_of_write`), and a directory whose path has one is not made, nor any above it
(`FileTree.ensureDirectories_of_null`).

What holds of all names of a tree holds of the names on the way to every file that a scan of it is
after (`FileTree.AllNames.of_mem_sourceFiles`), also once directories were made.

The first half goes through the operations one by one.  Each of them asks whether a path can be
asked for before it does anything else, and a null character is no cause of a refusal after that.
The second half says of `FileTree.put` what it needs of a location, and of each operation that it
puts only at such locations.
-/

namespace SourceMutation

/-! ## Names without null characters

A path is never looked for if a null character is in it, and what a program does about that differs
from one call to another.  So it is told where such a path can come from.
-/

/-- Whether a text has no null character, so that it can be asked for. -/
def NullFree (text : String) : Prop := '\x00' ∉ text.toList

instance (text : String) : Decidable (NullFree text) := inferInstanceAs (Decidable (_ ∉ _))

namespace Path

/-- A joined text has the characters of its parts, and those of the separator. -/
theorem mem_intercalate {c : Char} {parts : List String} (hc : c ≠ '/') :
    c ∈ ("/".intercalate parts).toList ↔ ∃ part ∈ parts, c ∈ part.toList := by
  induction parts with
  | nil => simp
  | cons part rest ih =>
    by_cases hrest : rest = []
    · simp [hrest]
    · rw [String.intercalate_cons_of_ne_nil hrest, String.toList_append, String.toList_append,
        List.mem_append, List.mem_append, ih]
      simp [hc]

/-- A path has a null character if one of its parts has. -/
theorem nullFree_text_iff {path : Path} :
    NullFree path.text ↔ ∀ part ∈ path.parts, NullFree part := by
  have hanchor : ∀ anchor : Anchor, '\x00' ∉ anchor.text.toList := by
    intro anchor
    cases anchor <;> decide
  unfold NullFree text
  split
  case h_1 hanchor hparts => simp [hparts]
  case h_2 =>
    rw [String.toList_append, List.mem_append, mem_intercalate (by decide)]
    simp [hanchor]

end Path

/-- A path without null characters cannot be refused for one. -/
theorem FileTree.unaskable?_ne_null {path : Path} (h : NullFree path.text) :
    unaskable? path ≠ some .nullCharacter := by
  unfold unaskable?
  rw [if_neg (by simpa [NullFree] using h)]
  split <;> simp

/-- A path with a null character is refused for it, whatever else it has. -/
theorem FileTree.unaskable?_of_not_nullFree {path : Path} (h : ¬NullFree path.text) :
    unaskable? path = some .nullCharacter := by
  unfold unaskable?
  rw [if_pos (by simpa [NullFree] using h)]

/-- A path that can be asked for has no null character. -/
theorem FileTree.nullFree_of_askable {path : Path} (h : unaskable? path = none) :
    NullFree path.text := by
  intro hnull
  unfold unaskable? at h
  rw [if_pos (List.contains_iff_mem.mpr hnull)] at h
  cases h

/-- The name of a mutant has a null character only if the name of its source has one. -/
theorem MutantName.nullFree_compose {language : Language} {source : String}
    (hsuffix : Path.suffixOf source = language.suffix) (hsource : NullFree source) (index : Nat) :
    NullFree (compose source index) := by
  have hlanguage : '\x00' ∉ language.suffix.toList := by
    cases language <;> decide
  have hending : '\x00' ∉ (Path.ofText source).suffix.toList := by
    rcases Path.suffix_ofText hsuffix with heq | heq <;> rw [heq]
    · exact hlanguage
    · simp
  have hdigits : '\x00' ∉ Nat.toDigits 10 index := fun hmem =>
    absurd (Nat.isDigit_of_mem_toDigits (by decide) (by decide) hmem) (by decide)
  unfold NullFree
  rw [toList_compose]
  simp [hending, hdigits, show '\x00' ∉ source.toList from hsource]

namespace FileTree

variable {tree : FileTree} {path : Path} {location : Location} {names : List String}
  {purpose : Purpose}

/-! ### Faults of paths without null characters -/

/-- Following names is refused for what is there, and never for a null character. -/
theorem followNames_ne_null :
    tree.followNames purpose location names ≠ .refused .nullCharacter := by
  fun_induction followNames tree purpose location names <;> simp_all

theorem follow_ne_null (links : Nat) :
    tree.follow purpose links location names ≠ .error .nullCharacter := by
  fun_induction follow tree purpose links location names with
  | case1 => simp
  | case2 links location names cause hleg =>
    intro h
    cases h
    exact followNames_ne_null hleg
  | case3 => simp
  | case4 links location names directory target rest hleg ih => exact ih

/-- A path without null characters is resolved, or refused for another cause. -/
theorem resolveFor_ne_null (h : NullFree path.text) :
    tree.resolveFor purpose path ≠ .error .nullCharacter := by
  unfold resolveFor
  split
  case h_1 cause hcause =>
    intro heq
    cases heq
    exact unaskable?_ne_null h hcause
  case h_2 => exact follow_ne_null _

/-- A path without null characters has a location, or none for another cause. -/
theorem locate_ne_null (h : NullFree path.text) : tree.locate path ≠ .error .nullCharacter := by
  unfold locate
  split
  case h_1 => simp
  case h_2 => simp
  case h_3 cause hcause =>
    intro heq
    cases heq
    exact resolveFor_ne_null h hcause

theorem nullFree_of_locate {place : Location} (h : tree.locate path = .ok place) :
    NullFree path.text := nullFree_of_askable (locate_eq_ok_iff.mp h).1

/-- Reading at a path without null characters fails for another cause. -/
theorem cause_of_read {fault : FileFault} (h : NullFree path.text)
    (hread : tree.read path = .error fault) : fault.cause ≠ .nullCharacter := by
  unfold read entryAt at hread
  cases hplace : tree.locate path with
  | error cause =>
    rw [hplace] at hread
    cases hread
    exact fun heq => locate_ne_null h (hplace.trans (congrArg _ heq))
  -- What was found is missing after all, or no file.
  | ok place =>
    rw [hplace] at hread
    dsimp only at hread
    cases hentry : tree.entry? place with
    | none =>
      rw [hentry] at hread
      cases hread
      simp
    | some entry =>
      rw [hentry] at hread
      cases entry with
      | file bytes => cases hread
      | directory | link target =>
        cases hread
        simp

/-- Writing to a path without null characters fails for another cause. -/
theorem cause_of_write {fault : FileFault} {bytes : Bytes} (h : NullFree path.text)
    (hwrite : tree.write path bytes = .error fault) : fault.cause ≠ .nullCharacter := by
  unfold write writeTarget blame at hwrite
  cases hresolve : tree.resolveFor .write path with
  | error cause =>
    rw [hresolve] at hwrite
    cases hwrite
    exact fun heq => resolveFor_ne_null h (hresolve.trans (congrArg _ heq))
  | ok landing =>
    rw [hresolve] at hwrite
    cases landing with
    | missing directory name => cases hwrite
    -- Only a directory cannot be written to.
    | found place =>
      dsimp only at hwrite
      by_cases hdirectory : tree.entry? place = some .directory
      · rw [if_pos hdirectory] at hwrite
        cases hwrite
        simp
      · rw [if_neg hdirectory] at hwrite
        cases hwrite

/-! ### Making directories -/

/-- A path with a null character is answered, as one where nothing stands. -/
theorem cause_of_isDirectory {fault : FileFault} (hasked : tree.isDirectory path = .error fault) :
    fault.cause ≠ .nullCharacter := by
  unfold isDirectory holdsAt at hasked
  split at hasked
  case h_1 => cases hasked
  case h_2 cause _ =>
    split at hasked
    case isTrue => cases hasked
    case isFalse habsent =>
      cases hasked
      rintro rfl
      exact habsent rfl

/-- Making a directory at a path without null characters fails for another cause. -/
theorem cause_of_makeDirectory {fault : FileFault} (h : NullFree path.text)
    (hmade : tree.makeDirectory path = .error fault) : fault.cause ≠ .nullCharacter := by
  -- The directory above has a part of the path.
  have habove : NullFree (Path.text ⟨path.anchor, path.parts.dropLast⟩) :=
    Path.nullFree_text_iff.mpr fun part hpart =>
      Path.nullFree_text_iff.mp h part (List.dropLast_subset _ hpart)
  unfold makeDirectory at hmade
  split at hmade
  case h_1 cause hplace =>
    cases hmade
    rintro rfl
    unfold placeOf at hplace
    split at hplace
    case h_1 cause hcause =>
      cases hplace
      exact unaskable?_ne_null h hcause
    case h_2 => cases hplace
    case h_3 =>
      split at hplace
      case h_1 cause hlocate =>
        cases hplace
        exact locate_ne_null habove hlocate
      case h_2 =>
        repeat' (split at hplace)
        all_goals cases hplace
  case h_2 =>
    split at hmade
    case h_1 =>
      cases hmade
      simp
    case h_2 => cases hmade

/-- What is there already settles a fault, or the fault remains. -/
theorem cause_of_settle {fault other : FileFault} {after : FileTree}
    (hfault : fault.cause ≠ .nullCharacter)
    (hsettled : tree.settle path fault = (.error other, after)) :
    other.cause ≠ .nullCharacter := by
  unfold settle at hsettled
  split at hsettled
  case h_1 => cases hsettled
  case h_2 =>
    cases hsettled
    exact hfault
  case h_3 found hasked =>
    cases hsettled
    exact cause_of_isDirectory hasked

/-- Making sure of a directory at a path without null characters fails for another cause. -/
theorem cause_of_ensureDirectory {fault : FileFault} {after : FileTree} (h : NullFree path.text)
    (hmade : tree.ensureDirectory path = (.error fault, after)) : fault.cause ≠ .nullCharacter := by
  unfold ensureDirectory at hmade
  split at hmade
  case h_1 => cases hmade
  case h_2 other hother =>
    have hcause := cause_of_makeDirectory h hother
    split at hmade
    · cases hmade
      exact hcause
    · exact cause_of_settle hcause hmade

/-- Making a directory and those above it fails for another cause, if no name has a null
character. -/
theorem cause_of_ensureParents {anchor : Anchor} {reversed : List String} {fault : FileFault}
    {after : FileTree} (h : ∀ part ∈ reversed, NullFree part)
    (hmade : ensureParents anchor reversed tree = (.error fault, after)) :
    fault.cause ≠ .nullCharacter := by
  induction reversed generalizing tree fault after with
  | nil => exact cause_of_ensureDirectory (Path.nullFree_text_iff.mpr (by simp)) hmade
  | cons name above ih =>
    have hpath : NullFree (Path.text ⟨anchor, (name :: above).reverse⟩) :=
      Path.nullFree_text_iff.mpr fun part hpart => h part (List.mem_reverse.mp hpart)
    unfold ensureParents at hmade
    dsimp only at hmade
    split at hmade
    case h_1 => cases hmade
    case h_2 other hother =>
      -- Whatever the first attempt has failed for, those above are made and another attempt
      -- follows.
      have hcause := cause_of_makeDirectory hpath hother
      split at hmade
      · split at hmade
        case h_1 below between hbelow =>
          cases hmade
          exact ih (fun part hpart => h part (List.mem_cons_of_mem _ hpart)) hbelow
        case h_2 => exact cause_of_ensureDirectory hpath hmade
      · exact cause_of_settle hcause hmade

/-- A directory whose path has a null character is not made, nor any above it. -/
theorem ensureDirectories_of_not_nullFree (tree : FileTree) (h : ¬NullFree path.text) :
    tree.ensureDirectories path = (.error ⟨.nullCharacter, path.text, none⟩, tree) := by
  have hunaskable := unaskable?_of_not_nullFree h
  have hplace : tree.placeOf path = .error .nullCharacter := by
    rw [placeOf, hunaskable]
  have hdirectory : tree.makeDirectory path = .error ⟨.nullCharacter, path.text, none⟩ := by
    rw [makeDirectory, hplace]
  have hnone : tree.isDirectory path = .ok false := by
    rw [isDirectory, holdsAt, entryAt, locate, resolve, resolveFor, hunaskable]
    rfl
  have hparts : path.parts ≠ [] := by
    intro hempty
    exact h (Path.nullFree_text_iff.mpr (by simp [hempty]))
  obtain ⟨name, above, hreversed⟩ := List.exists_cons_of_ne_nil (List.reverse_ne_nil_iff.mpr hparts)
  have hwhole : (⟨path.anchor, (name :: above).reverse⟩ : Path) = path := by
    rw [← hreversed, List.reverse_reverse]
  rw [ensureDirectories, hreversed, ensureParents, hwhole, hdirectory]
  dsimp only
  -- The fault is not that of a missing directory, so nothing above is made.
  rw [if_neg (by simp), settle, hnone]

/-- Where a directory cannot be made for the sake of a null character, the path has one, and nothing
is made at all. -/
theorem ensureDirectories_of_null {fault : FileFault} {after : FileTree}
    (hmade : tree.ensureDirectories path = (.error fault, after))
    (hcause : fault.cause = .nullCharacter) : ¬NullFree path.text ∧ after = tree := by
  have hnull : ¬NullFree path.text := by
    intro h
    refine cause_of_ensureParents (fun part hpart => ?_) hmade hcause
    exact Path.nullFree_text_iff.mp h part (List.mem_reverse.mp hpart)
  rw [ensureDirectories_of_not_nullFree tree hnull] at hmade
  exact ⟨hnull, (congrArg Prod.snd hmade).symm⟩

/-! ### Names of a tree -/

/-- Whether all names in a tree have a property. -/
def AllNames (P : String → Prop) (tree : FileTree) : Prop :=
  ∀ location ∈ tree.entries.keys, ∀ name ∈ location, P name

instance (P : String → Prop) [DecidablePred P] (tree : FileTree) : Decidable (tree.AllNames P) :=
  inferInstanceAs (Decidable (∀ location ∈ tree.entries.keys, ∀ name ∈ location, P name))

variable {P : String → Prop}

/-- An entry at a location of such names leaves a tree of such names. -/
theorem AllNames.put (h : tree.AllNames P) (hlocation : ∀ name ∈ location, P name) (entry : Entry) :
    (tree.put location entry).AllNames P := by
  intro other hother
  rw [FileTree.put, Ledger.keys_set] at hother
  split at hother
  · exact h other hother
  · rcases List.mem_append.mp hother with hmem | hmem
    · exact h other hmem
    · rw [List.mem_singleton.mp hmem]
      exact hlocation

/-- All names on the way to an entry are such names. -/
theorem AllNames.of_entry (h : tree.AllNames P) {entry : Entry}
    (hentry : tree.entry? location = some entry) : ∀ name ∈ location, P name := by
  by_cases hroot : location = []
  · simp [hroot]
  · exact h location (mem_keys_of_entry hroot hentry)

/-- The names of a place are those of the directory that it is in, and the last one of the path. -/
theorem AllNames.of_placeOf (h : tree.AllNames P)
    (hparts : ∀ part ∈ path.parts, part ≠ ".." → isTooLong part = false → P part)
    (hplace : tree.placeOf path = .ok location) : ∀ name ∈ location, P name := by
  obtain ⟨directory, name, -, hlast, -, hentry, hdots, hlong, rfl⟩ := placeOf_eq_ok hplace
  intro other hother
  rcases List.mem_append.mp hother with hmem | hmem
  · exact h.of_entry hentry other hmem
  · obtain rfl := List.mem_singleton.mp hmem
    exact hparts other (by rw [hlast]; simp) hdots hlong

/-- A directory that is made leaves a tree of such names, if the names of its path are such
names. -/
theorem AllNames.makeDirectory {after : FileTree} (h : tree.AllNames P)
    (hparts : ∀ part ∈ path.parts, part ≠ ".." → isTooLong part = false → P part)
    (hmade : tree.makeDirectory path = .ok after) : after.AllNames P := by
  obtain ⟨location, hplace, -, rfl⟩ := makeDirectory_eq_ok hmade
  exact h.put (h.of_placeOf hparts hplace) .directory

/-- A file is written at a location with names of the tree, but for one that was missing. -/
theorem AllNames.of_writeTarget (h : tree.AllNames P) (hgrounded : tree.Grounded)
    (hmissing : ∀ directory name, tree.resolveFor .write path = .ok (.missing directory name) →
      P name)
    (htarget : tree.writeTarget path = .ok location) : ∀ name ∈ location, P name := by
  unfold writeTarget at htarget
  split at htarget
  -- Of all names of a new file only the last one can be new.
  case h_1 directory name hresolve =>
    cases htarget
    obtain ⟨hdirectory, -⟩ := resolveFor_lands hgrounded hresolve
    intro other hother
    rcases List.mem_append.mp hother with hmem | hmem
    · exact h.of_entry hdirectory other hmem
    · rw [List.mem_singleton.mp hmem]
      exact hmissing directory name hresolve
  case h_2 found hresolve =>
    split at htarget
    case isTrue => cases htarget
    case isFalse =>
      cases htarget
      rcases resolveFor_lands hgrounded hresolve with hentry | ⟨bytes, hentry⟩
      · exact h.of_entry hentry
      · exact h.of_entry hentry
  case h_3 => cases htarget

/-- Making a directory and those above it leaves a tree of such names, if those of the path are. -/
theorem AllNames.ensureParents {anchor : Anchor} {reversed : List String} (h : tree.AllNames P)
    (hparts : ∀ part ∈ reversed, part ≠ ".." → isTooLong part = false → P part) :
    (FileTree.ensureParents anchor reversed tree).2.AllNames P :=
  ensureParents_induct
    (fun _ hmore _ _ hnames => hnames.makeDirectory fun part hpart =>
      hparts part (hmore.subset (List.mem_reverse.mp hpart))) h

/-- The directories that are made have names of the path. -/
theorem AllNames.withDirectory (h : tree.AllNames P)
    (hparts : ∀ part ∈ path.parts, part ≠ ".." → isTooLong part = false → P part) :
    (tree.withDirectory path).AllNames P := by
  rw [FileTree.withDirectory]
  split
  · exact h.ensureParents fun part hpart => hparts part (List.mem_reverse.mp hpart)
  · exact h

/-- A file that a scan is after has names of the tree behind those of the directory. -/
theorem AllNames.of_mem_sourceFiles (h : tree.AllNames P) {directory : Path} {rules : ScanRules}
    (hpath : path ∈ tree.sourceFiles directory rules) :
    ∃ found, found ≠ [] ∧ path = directory.below found ∧ ∀ name ∈ found, P name := by
  obtain ⟨place, found, -, -, hfound, rfl⟩ := exists_of_mem_sourceFiles hpath
  obtain ⟨first, more, hnames⟩ := exists_of_mem_filesIn hfound
  refine ⟨found, by simp [hnames], rfl, fun name hname => ?_⟩
  rcases mem_names_of_mem_filesIn hfound hname with hnone | ⟨above, habove⟩
  · cases hnone
  · exact h _ (mem_names.mp habove) name (by simp)

end FileTree

end SourceMutation
