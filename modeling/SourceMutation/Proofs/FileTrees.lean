import SourceMutation.Files.Operations

/-!
# What stays where it is

Writing a file and making a directory change a tree at one location, where nothing stood or a file
stood.  So directories and links stay, a path that leads somewhere goes on leading there
(`FileTree.locate_keeps`), and what was written can be read back (`FileTree.read_write`).  Where
only files are written, a path also led before to what it leads to now, if anything was there
(`FileTree.locate_back`).

## How it is shown

- What may be put into a tree is said once (`FileTree.MayPut`): anything where nothing stood, in a
  directory that is there, and a file over a file.  Both operations put no more than that.
- A tree with such an entry put into it keeps what it had (`FileTree.Keeps`): nothing goes, and what
  was a directory or a link is the same one.
- Following names asks only for directories, links and whether anything is there, so that it comes
  to the same in a tree that keeps what it had (`FileTree.followNames_keeps`).

All of this is about trees in which every entry stands in a directory (`FileTree.Grounded`), as it
does in any file system; every operation leaves a tree like that.
-/

namespace SourceMutation

/-! ## Entries -/

/-- Whether an entry may stand where another one stood: only the bytes of a file change. -/
def Entry.Succeeds (new old : Entry) : Prop :=
  match old, new with
  | .file _, .file _ => True
  | old, new => new = old

theorem Entry.Succeeds.refl (entry : Entry) : entry.Succeeds entry := by
  cases entry <;> simp [Succeeds]

theorem Entry.Succeeds.trans {first second third : Entry} (h : second.Succeeds first)
    (h' : third.Succeeds second) : third.Succeeds first := by
  cases first <;> cases second <;> cases third <;> simp_all [Succeeds]

/-- Whether an entry is a link. -/
def Entry.isLink : Entry → Bool
  | .link _ => true
  | _ => false

namespace FileTree

variable {tree first second third : FileTree} {location place : Location} {path : Path}

/-- The bytes of the file at a location, if a file stands there. -/
def fileAt (tree : FileTree) (location : Location) : Option Bytes :=
  match tree.entry? location with
  | some (.file bytes) => some bytes
  | _ => none

/-- A location has the bytes of the file that stands there, if one does. -/
theorem fileAt_eq_some_iff {bytes : Bytes} :
    tree.fileAt location = some bytes ↔ tree.entry? location = some (.file bytes) := by
  unfold fileAt
  split <;> simp_all

/-- Where no link is in the table, no link stands anywhere. -/
theorem not_link_of_entries (h : ∀ stands ∈ tree.entries.entries, stands.2.isLink = false)
    (location : Location) (target : String) : tree.entry? location ≠ some (.link target) := by
  unfold entry?
  split
  · simp
  · intro hentry
    cases h _ (Ledger.mem_entries_of_get? hentry)

/-- Putting an entry changes a tree at one location. -/
theorem entry_put (hlocation : location ≠ []) (entry : Entry) (other : Location) :
    FileTree.entry? (tree.put location entry) other
      = if other = location then some entry else tree.entry? other := by
  unfold entry? put
  by_cases hother : other = []
  · have hne : [] ≠ location := Ne.symm hlocation
    simp [hother, hne]
  · simp [hother, Ledger.get?_set]

/-! ## Trees that grow

No step of a run takes an entry away, and a file at most gets other bytes.  What is kept when one
entry is put is kept over a whole run.
-/

/-- Whether every entry stands in a directory, and there is a working directory. -/
structure Grounded (tree : FileTree) : Prop where
  workDirectory : tree.entry? tree.workDirectory = some .directory
  parents : ∀ location entry, location ≠ [] → tree.entry? location = some entry →
    tree.entry? location.dropLast = some .directory

/-- Something stands at every location that the tree lists. -/
theorem entry_isSome_of_mem_keys (h : location ∈ tree.entries.keys) :
    (tree.entry? location).isSome := by
  unfold entry?
  by_cases hroot : location = []
  · simp [hroot]
  · rw [if_neg hroot]
    obtain ⟨found, hmem, hkey⟩ := List.mem_map.mp h
    simp only [Ledger.get?, Option.isSome_map, List.find?_isSome, decide_eq_true_eq]
    exact ⟨found, hmem, hkey⟩

/-- Whatever stands below the root is listed. -/
theorem mem_keys_of_entry {entry : Entry} (hroot : location ≠ [])
    (h : tree.entry? location = some entry) : location ∈ tree.entries.keys := by
  unfold entry? Ledger.get? at h
  rw [if_neg hroot] at h
  obtain ⟨found, hfound, -⟩ := Option.map_eq_some_iff.mp h
  have hkey : found.1 = location := by simpa using List.find?_some hfound
  exact hkey ▸ List.mem_map_of_mem (List.mem_of_find?_eq_some hfound)

/-- Only the locations of the table have to be looked at. -/
instance (tree : FileTree) : Decidable tree.Grounded :=
  decidable_of_iff (tree.entry? tree.workDirectory = some .directory ∧
      ∀ location ∈ tree.entries.keys, tree.entry? location.dropLast = some .directory) <| by
    constructor
    · rintro ⟨hwork, hparents⟩
      exact ⟨hwork, fun location _ hroot hentry => hparents location (mem_keys_of_entry hroot hentry)⟩
    · rintro ⟨hwork, hparents⟩
      refine ⟨hwork, fun location hmem => ?_⟩
      by_cases hroot : location = []
      · simp [hroot, FileTree.entry?]
      · obtain ⟨entry, hentry⟩ := Option.isSome_iff_exists.mp (entry_isSome_of_mem_keys hmem)
        exact hparents location entry hroot hentry

/-- Whether a later tree still has all directories and links, and a file where there was one. -/
structure Keeps (first second : FileTree) : Prop where
  workDirectory : second.workDirectory = first.workDirectory
  entries : ∀ location old, first.entry? location = some old →
    ∃ new, second.entry? location = some new ∧ new.Succeeds old

theorem Keeps.refl (tree : FileTree) : tree.Keeps tree :=
  ⟨rfl, fun _ old h => ⟨old, h, .refl old⟩⟩

theorem Keeps.trans (h : first.Keeps second) (h' : second.Keeps third) : first.Keeps third := by
  refine ⟨h'.workDirectory.trans h.workDirectory, fun location old hold => ?_⟩
  obtain ⟨new, hnew, hsucceeds⟩ := h.entries location old hold
  obtain ⟨newer, hnewer, hsucceeds'⟩ := h'.entries location new hnew
  exact ⟨newer, hnewer, hsucceeds.trans hsucceeds'⟩

/-- A directory is kept as a directory. -/
theorem Keeps.directory (h : first.Keeps second)
    (hentry : first.entry? location = some .directory) :
    second.entry? location = some .directory := by
  obtain ⟨new, hnew, hsucceeds⟩ := h.entries location _ hentry
  cases hsucceeds
  exact hnew

/-- A link is kept with its target. -/
theorem Keeps.link (h : first.Keeps second) {target : String}
    (hentry : first.entry? location = some (.link target)) :
    second.entry? location = some (.link target) := by
  obtain ⟨new, hnew, hsucceeds⟩ := h.entries location _ hentry
  cases hsucceeds
  exact hnew

/-- A file is kept as a file, with other bytes perhaps. -/
theorem Keeps.file (h : first.Keeps second) {bytes : Bytes}
    (hentry : first.entry? location = some (.file bytes)) :
    ∃ bytes', second.entry? location = some (.file bytes') := by
  obtain ⟨new, hnew, hsucceeds⟩ := h.entries location _ hentry
  -- Only a file succeeds a file.
  cases new with
  | file bytes' => exact ⟨bytes', hnew⟩
  | directory => cases hsucceeds
  | link target => cases hsucceeds

/-- A file or a directory may be put where nothing stood in a directory, and a file where a file
stood. -/
inductive MayPut (tree : FileTree) : Location → Entry → Prop
  | new {directory : Location} {name : String} {entry : Entry}
      (hdirectory : tree.entry? directory = some .directory)
      (hname : tree.entry? (directory ++ [name]) = none) :
      MayPut tree (directory ++ [name]) entry
  | again {location : Location} {old new : Bytes}
      (hold : tree.entry? location = some (.file old)) : MayPut tree location (.file new)

/-- Nothing is put at the root. -/
theorem MayPut.ne_nil {entry : Entry} (h : tree.MayPut location entry) : location ≠ [] := by
  rintro rfl
  generalize hnil : ([] : Location) = location at h
  cases h with
  | new => simp at hnil
  | again hold =>
    subst hnil
    simp [ entry?] at hold

/-- What may be put takes nothing away. -/
theorem MayPut.keeps {entry : Entry} (h : tree.MayPut location entry) :
    tree.Keeps (tree.put location entry) := by
  refine ⟨rfl, fun other old hother => ?_⟩
  rw [entry_put h.ne_nil]
  by_cases heq : other = location
  · -- Something stood there, so it was a file and a file is put over it.
    subst heq
    cases h with
    | new _ hname => simp [hname] at hother
    | again hold =>
      cases hold.symm.trans hother
      exact ⟨_, if_pos rfl, trivial⟩
  · exact ⟨old, by rw [if_neg heq]; exact hother, .refl old⟩

/-- What may be put stands in a directory. -/
theorem MayPut.grounded {entry : Entry} (h : tree.MayPut location entry) (hgrounded : tree.Grounded) :
    (tree.put location entry).Grounded := by
  refine ⟨h.keeps.directory hgrounded.workDirectory, fun other new hne hother => ?_⟩
  rw [entry_put h.ne_nil] at hother
  apply h.keeps.directory
  -- The new entry stands in a directory, and every other entry stood in one before.
  by_cases heq : other = location
  · subst heq
    cases h with
    | new hdirectory _ => rwa [List.dropLast_concat]
    | again hold => exact hgrounded.parents _ _ hne hold
  · rw [if_neg heq] at hother
    exact hgrounded.parents other new hne hother

/-! ## Following names

Names are followed one by one, up to the first link, and then again from where that leads.  Facts
about paths are shown for names without links first, and then by induction on the links.
-/

variable {purpose : Purpose}

/-- Whether a leg leads to something that is there: an entry, or a link. -/
def Arrives : Leg → Prop
  | .landed (.found _) => True
  | .landed (.missing _ _) => False
  | .refused _ => False
  | .link _ _ _ => True

/-- Names that lead to something that is there lead there in a later tree, too. -/
theorem followNames_keeps (h : first.Keeps second) {names : List String}
    (hleg : Arrives (first.followNames purpose location names)) :
    second.followNames purpose location names = first.followNames purpose location names := by
  -- Whatever is passed on the way is a directory or a link, and both are kept.
  fun_induction followNames first purpose location names with
  | case1 => rfl
  | case2 | case5 | case6 | case7 | case8 => cases hleg
  | case3 location name rest hdirectory hstay ih =>
    have hsecond := h.directory (Decidable.not_not.mp hdirectory)
    simp [followNames, hsecond, hstay, ih hleg]
  | case4 location rest hdirectory hstay ih =>
    have hsecond := h.directory (Decidable.not_not.mp hdirectory)
    simp [followNames, hsecond, ih hleg]
  | case9 location name rest hdirectory hstay hup hslash hlong target hentry =>
    have hsecond := h.directory (Decidable.not_not.mp hdirectory)
    simp [followNames, hsecond, hstay, hup, hslash, hlong, h.link hentry]
  -- What is passed here is no link, and stays none: a file stays a file, and a directory stays one.
  | case10 location name rest hdirectory hstay hup hslash hlong entry hlink hentry ih =>
    have hsecond := h.directory (Decidable.not_not.mp hdirectory)
    obtain ⟨new, hnew, hsucceeds⟩ := h.entries _ _ hentry
    cases new with
    | file => simp [followNames, hsecond, hstay, hup, hslash, hlong, hnew, ih hleg]
    | directory => simp [followNames, hsecond, hstay, hup, hslash, hlong, hnew, ih hleg]
    | link target =>
      cases entry with
      | link other => exact absurd rfl (hlink other)
      | file | directory => cases hsucceeds

/-- A path that leads to an entry leads there in a later tree, too. -/
theorem follow_keeps (h : first.Keeps second) {links : Nat} {names : List String}
    (hfound : first.follow purpose links location names = .ok (.found place)) :
    second.follow purpose links location names = .ok (.found place) := by
  fun_induction follow first purpose links location names with
  | case1 links location names landing hleg =>
    cases hfound
    rw [follow, followNames_keeps h (by rw [hleg]; trivial), hleg]
  | case2 => cases hfound
  | case3 => cases hfound
  | case4 location names directory target rest hleg links ih =>
    -- The same link is met in the later tree, with the same names behind it.
    rw [follow, followNames_keeps h (by rw [hleg]; trivial), hleg]
    exact ih hfound

/-- A path has a location if it can be asked for and following its parts finds something. -/
theorem locate_eq_ok_iff :
    tree.locate path = .ok place ↔ unaskable? path = none ∧
      tree.follow .use maxLinks (startOf path.anchor tree.workDirectory) path.parts
        = .ok (.found place) := by
  unfold locate resolve resolveFor
  cases unaskable? path with
  | some cause => simp
  | none => 
    simp only [true_and]
    split <;> simp_all

/-- A path that leads to a location leads there in a later tree, too. -/
theorem locate_keeps (h : first.Keeps second) (hlocate : first.locate path = .ok place) :
    second.locate path = .ok place := by
  obtain ⟨haskable, hfollow⟩ := locate_eq_ok_iff.mp hlocate
  rw [locate_eq_ok_iff, h.workDirectory]
  exact ⟨haskable, follow_keeps h hfollow⟩

/-! ## Where paths lead in grounded trees -/

/-- Whether something that is no link stands at a location. -/
def Stands (tree : FileTree) (location : Location) : Prop :=
  tree.entry? location = some .directory ∨ ∃ bytes, tree.entry? location = some (.file bytes)

/-- Whether a landing is at an entry that is no link, or at a name that is missing in a
directory. -/
def Lands (tree : FileTree) : Landing → Prop
  | .found place => tree.Stands place
  | .missing directory name =>
    tree.entry? directory = some .directory ∧ tree.entry? (directory ++ [name]) = none

/-- The directory above a directory, or the root itself. -/
theorem Grounded.above (h : tree.Grounded) (hdirectory : tree.entry? location = some .directory) :
    tree.entry? location.dropLast = some .directory := by
  by_cases hroot : location = []
  · simp [hroot, FileTree.entry?]
  · exact h.parents location _ hroot hdirectory

/-- Following names in a grounded tree lands at what stands there, or at a name that is missing in a
directory, and leaves for the target of a link from a directory. -/
theorem followNames_lands (h : tree.Grounded) {names : List String} {leg : Leg}
    (hstart : tree.Stands location) (hleg : tree.followNames purpose location names = leg) :
    (∀ landing, leg = .landed landing → tree.Lands landing) ∧
      ∀ directory target rest, leg = .link directory target rest →
        tree.entry? directory = some .directory := by
  subst hleg
  fun_induction followNames tree purpose location names with
  | case1 => simpa [Lands] using hstart
  | case2 | case5 | case6 | case8 => simp
  | case3 location name rest hdirectory hstay ih => exact ih hstart
  | case4 location rest hdirectory hstay ih =>
    exact ih (.inl (h.above (Decidable.not_not.mp hdirectory)))
  -- The directory has been checked and the name was looked up in it.
  | case7 location name rest hdirectory hstay hup hslash hlong hentry hrest =>
    simpa [Lands] using ⟨Decidable.not_not.mp hdirectory, hentry⟩
  | case9 location name rest hdirectory => simpa using Decidable.not_not.mp hdirectory
  -- What was found is no link, so that it is a place from which to go on.
  | case10 location name rest hdirectory hstay hup hslash hlong entry hlink hentry ih =>
    apply ih
    cases entry with
    | file bytes => exact .inr ⟨bytes, hentry⟩
    | directory => exact .inl hentry
    | link target => exact absurd rfl (hlink target)

/-- Following a path in a grounded tree lands at such a place as well, whatever links are
followed. -/
theorem follow_lands (h : tree.Grounded) {links : Nat} {names : List String} {landing : Landing}
    (hstart : tree.Stands location)
    (hfollow : tree.follow purpose links location names = .ok landing) : tree.Lands landing := by
  fun_induction follow tree purpose links location names with
  | case1 links location names other hleg =>
    cases hfollow
    exact (followNames_lands h hstart hleg).1 landing rfl
  | case2 => cases hfollow
  | case3 => cases hfollow
  | case4 location names directory target rest hleg links ih =>
    refine ih ?_ hfollow
    -- The link's target starts in the directory where the link stands, or at the root.
    unfold startOf
    split
    · exact .inl ((followNames_lands h hstart hleg).2 directory target rest rfl)
    · exact .inl (by simp [ entry?])

/-- A path starts in the working directory or at the root, and both are directories. -/
theorem Grounded.startOf (h : tree.Grounded) (anchor : Anchor) :
    tree.Stands (FileTree.startOf anchor tree.workDirectory) := by
  unfold FileTree.startOf
  split
  · exact .inl h.workDirectory
  · exact .inl (by simp [ entry?])

/-- A path that is resolved in a grounded tree leads to such a place. -/
theorem resolveFor_lands (h : tree.Grounded) {landing : Landing}
    (hresolve : tree.resolveFor purpose path = .ok landing) : tree.Lands landing := by
  unfold resolveFor at hresolve
  split at hresolve
  · cases hresolve
  · exact follow_lands h (h.startOf path.anchor) hresolve

/-- Writing to a path puts a file where one may be put. -/
theorem mayPut_of_writeTarget (h : tree.Grounded) (htarget : tree.writeTarget path = .ok location)
    (bytes : Bytes) : tree.MayPut location (.file bytes) := by
  unfold writeTarget at htarget
  split at htarget
  -- A missing name is new in its directory; what is found is a file, since directories are refused.
  case h_1 directory name hresolve =>
    cases htarget
    obtain ⟨hdirectory, hname⟩ := resolveFor_lands h hresolve
    exact .new hdirectory hname
  case h_2 place hresolve =>
    split at htarget
    case isTrue => cases htarget
    case isFalse hfile =>
      cases htarget
      rcases resolveFor_lands h hresolve with hdirectory | ⟨old, hold⟩
      · exact absurd hdirectory hfile
      · exact .again hold
  case h_3 => cases htarget

/-- What is made at the place of a path is put where nothing stood in a directory. -/
theorem mayPut_of_placeOf {entry : Entry} (hplace : tree.placeOf path = .ok location)
    (hentry : tree.entry? location = none) : tree.MayPut location entry := by
  unfold placeOf at hplace
  split at hplace
  · cases hplace
  · cases hplace
  · split at hplace
    · cases hplace
    · split at hplace
      · cases hplace
      · split at hplace
        · cases hplace
        · split at hplace
          · cases hplace
          -- All other cases are refused, so this is a name in a directory.
          case isFalse hdirectory _ _ =>
            cases hplace
            exact .new (Decidable.not_not.mp hdirectory) hentry

/-! ## Writing -/

/-- What can be reached for writing can be reached for use. -/
theorem followNames_use {names : List String} {leg : Leg}
    (hleg : tree.followNames .write location names = leg) (hreached : ∀ cause, leg ≠ .refused cause) :
    tree.followNames .use location names = leg := by
  subst hleg
  fun_induction followNames tree .write location names with
  | case1 => rfl
  -- Only what is refused can differ by purpose.
  | case2 | case5 | case6 | case8 => exact absurd rfl (hreached _)
  | case3 location name rest hdirectory hstay ih =>
    have hplace := Decidable.not_not.mp hdirectory
    simp [followNames, hplace, hstay, ih hreached]
  | case4 location rest hdirectory hstay ih =>
    have hplace := Decidable.not_not.mp hdirectory
    simp [followNames, hplace, ih hreached]
  | case7 location name rest hdirectory hstay hup hslash hlong hentry hrest =>
    have hplace := Decidable.not_not.mp hdirectory
    simp [followNames, hplace, hstay, hup, hlong, hentry, hrest]
  | case9 location name rest hdirectory hstay hup hslash hlong target hentry =>
    have hplace := Decidable.not_not.mp hdirectory
    simp [followNames, hplace, hstay, hup, hlong, hentry]
  | case10 location name rest hdirectory hstay hup hslash hlong entry hlink hentry ih =>
    have hplace := Decidable.not_not.mp hdirectory
    cases entry with
    | link target => exact absurd rfl (hlink target)
    | file | directory => simp [followNames, hplace, hstay, hup, hlong, hentry, ih hreached]

theorem follow_use {links : Nat} {names : List String} {landing : Landing}
    (hfollow : tree.follow .write links location names = .ok landing) :
    tree.follow .use links location names = .ok landing := by
  fun_induction follow tree .write links location names with
  | case1 links location names other hleg =>
    cases hfollow
    rw [follow, followNames_use hleg nofun]
  | case2 => cases hfollow
  | case3 => cases hfollow
  | case4 location names directory target rest hleg links ih =>
    rw [follow, followNames_use hleg nofun]
    exact ih hfollow

/-- Where a name in a directory is missing, or where it is found if something came to stand
there. -/
def landingAt (tree : FileTree) (directory : Location) (name : String) : Landing :=
  if (tree.entry? (directory ++ [name])).isSome then .found (directory ++ [name])
  else .missing directory name

/-- Where only a name was missing, the way leads to that name in a later tree, too. -/
theorem followNames_landingAt (h : first.Keeps second) {names : List String} {directory : Location}
    {name : String} (hlink : ∀ target, second.entry? (directory ++ [name]) ≠ some (.link target))
    (hleg : first.followNames purpose location names = .landed (.missing directory name)) :
    second.followNames purpose location names = .landed (second.landingAt directory name) := by
  fun_induction followNames first purpose location names with
  | case1 | case2 | case5 | case6 | case8 | case9 => cases hleg
  | case3 location other rest hdirectory hstay ih =>
    have hplace := h.directory (Decidable.not_not.mp hdirectory)
    simp [followNames, hplace, hstay, ih hleg]
  | case4 location rest hdirectory hstay ih =>
    have hplace := h.directory (Decidable.not_not.mp hdirectory)
    simp [followNames, hplace, ih hleg]
  | case7 location other rest hdirectory hstay hup hslash hlong hmissing hrest =>
    -- This is the name that was missing, and something may stand under it now.
    cases hleg
    have hplace := h.directory (Decidable.not_not.mp hdirectory)
    have hlast : rest = [] := List.isEmpty_iff.mp hrest
    subst hlast
    rcases hentry : second.entry? (directory ++ [name]) with _ | (_ | _ | target)
    · simp [followNames, landingAt, hplace, hstay, hup, hlong, hentry]
    · simp [followNames, landingAt, hplace, hstay, hup, hlong, hentry]
    · simp [followNames, landingAt, hplace, hstay, hup, hlong, hentry]
    · exact absurd hentry (hlink target)
  | case10 location other rest hdirectory hstay hup hslash hlong old hold hentry ih =>
    have hplace := h.directory (Decidable.not_not.mp hdirectory)
    obtain ⟨new, hnew, hsucceeds⟩ := h.entries _ _ hentry
    cases new with
    | file | directory => simp [followNames, hplace, hstay, hup, hslash, hlong, hnew, ih hleg]
    | link target =>
      cases old with
      | link other => exact absurd rfl (hold other)
      | file | directory => cases hsucceeds

/-- A path that led to a missing name leads to whatever stands under that name in the larger
tree. -/
theorem follow_landingAt (h : first.Keeps second) {links : Nat} {names : List String}
    {directory : Location} {name : String}
    (hlink : ∀ target, second.entry? (directory ++ [name]) ≠ some (.link target))
    (hfollow : first.follow purpose links location names = .ok (.missing directory name)) :
    second.follow purpose links location names = .ok (second.landingAt directory name) := by
  fun_induction follow first purpose links location names with
  -- The names lead to the missing one without a link.
  | case1 links location names other hleg =>
    cases hfollow
    rw [follow, followNames_landingAt h hlink hleg]
  | case2 => cases hfollow
  | case3 => cases hfollow
  -- The link that is followed is kept, and the rest is followed behind it.
  | case4 location names directory target rest hleg links ih =>
    rw [follow, followNames_keeps h (by rw [hleg]; trivial), hleg]
    exact ih hfollow

/-- Writing puts a file at the location that the path is to be written to. -/
theorem write_eq_ok_iff {bytes : Bytes} {after : FileTree} :
    tree.write path bytes = .ok after ↔
      ∃ location, tree.writeTarget path = .ok location ∧ after = tree.put location (.file bytes) := by
  unfold write blame
  cases tree.writeTarget path with
  | error cause => simp [Functor.map, Except.map]
  | ok location => simp [Functor.map, Except.map, eq_comm]

/-- A path that was written to leads to where it was written. -/
theorem locate_put (h : tree.Grounded) {bytes : Bytes}
    (htarget : tree.writeTarget path = .ok location) :
    (tree.put location (.file bytes)).locate path = .ok location := by
  -- Writing and asking go through the same parts, and differ in what they do about the last one.
  have hput := mayPut_of_writeTarget h htarget bytes
  unfold writeTarget resolveFor at htarget
  cases haskable : unaskable? path with
  | some cause =>
    rw [haskable] at htarget
    cases htarget
  | none =>
    rw [haskable] at htarget
    refine locate_eq_ok_iff.mpr ⟨haskable, ?_⟩
    dsimp only at htarget
    -- Either the name was missing and is there now, or the file was found and is still there.
    split at htarget
    case h_1 directory name hfollow =>
      cases htarget
      have hnew : FileTree.entry? (tree.put (directory ++ [name]) (.file bytes)) (directory ++ [name])
          = some (.file bytes) := by
        rw [entry_put hput.ne_nil, if_pos rfl]
      have hthere := follow_landingAt hput.keeps (by simp [hnew]) (follow_use hfollow)
      rwa [landingAt, hnew] at hthere
    case h_2 place hfollow =>
      split at htarget
      · cases htarget
      · cases htarget
        exact follow_keeps hput.keeps (follow_use hfollow)
    case h_3 => cases htarget

/-- What is read is the file at the location of the path. -/
theorem read_eq_ok_iff {bytes : Bytes} :
    tree.read path = .ok bytes ↔
      ∃ location, tree.locate path = .ok location ∧ tree.fileAt location = some bytes := by
  unfold read entryAt fileAt
  cases tree.locate path with
  | error cause => simp
  | ok location =>
    rcases hentry : tree.entry? location with _ | (_ | _ | _) <;> simp [hentry]

/-- What was written can be read back. -/
theorem read_write (h : tree.Grounded) {bytes : Bytes} {after : FileTree}
    (hwrite : tree.write path bytes = .ok after) : after.read path = .ok bytes := by
  obtain ⟨location, htarget, rfl⟩ := write_eq_ok_iff.mp hwrite
  have hput := mayPut_of_writeTarget h htarget bytes
  refine read_eq_ok_iff.mpr ⟨location, locate_put h htarget, ?_⟩
  rw [fileAt_eq_some_iff, entry_put hput.ne_nil, if_pos rfl]

/-! ## Looking back

A file that was added is no directory to pass through and no link to follow.  So a path that leads
to something old went the same way before.
-/

/-- Whether a later tree differs by files only: by new ones, or by the bytes of old ones. -/
structure AddsFiles (first second : FileTree) : Prop where
  keeps : first.Keeps second
  others : ∀ location entry, second.entry? location = some entry →
    first.entry? location = some entry ∨ ∃ bytes, entry = .file bytes

theorem AddsFiles.refl (tree : FileTree) : tree.AddsFiles tree :=
  ⟨.refl tree, fun _ _ h => .inl h⟩

theorem AddsFiles.trans (h : first.AddsFiles second) (h' : second.AddsFiles third) :
    first.AddsFiles third := by
  refine ⟨h.keeps.trans h'.keeps, fun location entry hentry => ?_⟩
  rcases h'.others location entry hentry with hsecond | hfile
  · exact h.others location entry hsecond
  · exact .inr hfile

/-- What is a directory now was a directory before. -/
theorem AddsFiles.directory (h : first.AddsFiles second)
    (hentry : second.entry? location = some .directory) :
    first.entry? location = some .directory := by
  rcases h.others location _ hentry with hfirst | ⟨bytes, hfile⟩
  · exact hfirst
  · cases hfile

/-- What is a link now was a link before, with the same target. -/
theorem AddsFiles.link (h : first.AddsFiles second) {target : String}
    (hentry : second.entry? location = some (.link target)) :
    first.entry? location = some (.link target) := by
  rcases h.others location _ hentry with hfirst | ⟨bytes, hfile⟩
  · exact hfirst
  · cases hfile

/-- A file that may be put adds no more than a file. -/
theorem MayPut.addsFiles {bytes : Bytes} (h : tree.MayPut location (.file bytes)) :
    tree.AddsFiles (tree.put location (.file bytes)) := by
  refine ⟨h.keeps, fun other entry hentry => ?_⟩
  rw [entry_put h.ne_nil] at hentry
  by_cases heq : other = location
  · rw [if_pos heq] at hentry
    cases hentry
    exact .inr ⟨bytes, rfl⟩
  · rw [if_neg heq] at hentry
    exact .inl hentry

/-- Whether a leg that was followed in a later tree could be followed in a tree before, too. -/
def Returns (tree : FileTree) : Leg → Prop
  | .landed (.found place) => (tree.entry? place).isSome
  | .landed (.missing _ _) => False
  | .refused _ => False
  | .link _ _ _ => True

/-- Following names came to the same before files were added, if it now leads to something that was
there. -/
theorem followNames_back (h : first.AddsFiles second) {names : List String}
    (hleg : first.Returns (second.followNames purpose location names)) :
    first.followNames purpose location names = second.followNames purpose location names := by
  fun_induction followNames second purpose location names with
  | case1 => rfl
  | case2 | case5 | case6 | case7 | case8 => cases hleg
  | case3 location name rest hdirectory hstay ih =>
    have hfirst := h.directory (Decidable.not_not.mp hdirectory)
    simp [followNames, hfirst, hstay, ih hleg]
  | case4 location rest hdirectory hstay ih =>
    have hfirst := h.directory (Decidable.not_not.mp hdirectory)
    simp [followNames, hfirst, ih hleg]
  -- No link is added, so this one was there.
  | case9 location name rest hdirectory hstay hup hslash hlong target hentry =>
    have hfirst := h.directory (Decidable.not_not.mp hdirectory)
    simp [followNames, hfirst, hstay, hup, hslash, hlong, h.link hentry]
  | case10 location name rest hdirectory hstay hup hslash hlong entry hlink hentry ih =>
    have hfirst := h.directory (Decidable.not_not.mp hdirectory)
    cases entry with
    | link target => exact absurd rfl (hlink target)
    | directory =>
      have hthere := h.directory hentry
      simp [followNames, hfirst, hstay, hup, hslash, hlong, hthere, ih hleg]
    | file bytes =>
      -- A path ends at a file, so the file is what has to have been there.
      cases rest with
      -- Names behind a file lead nowhere.
      | cons next rest =>
        rw [followNames, if_pos (by simp [hentry])] at hleg
        cases hleg
      | nil =>
        rw [followNames] at hleg
        obtain ⟨old, hold⟩ := Option.isSome_iff_exists.mp hleg
        obtain ⟨new, hnew, hsucceeds⟩ := h.keeps.entries _ _ hold
        cases hentry.symm.trans hnew
        cases old with
        | file old => simp [followNames, hfirst, hstay, hup, hlong, hold]
        | directory | link => cases hsucceeds

/-- A path led before to the place to which it leads now, if anything was there. -/
theorem follow_back (h : first.AddsFiles second) {links : Nat} {names : List String}
    (hthere : (first.entry? place).isSome)
    (hfound : second.follow purpose links location names = .ok (.found place)) :
    first.follow purpose links location names = .ok (.found place) := by
  fun_induction follow second purpose links location names with
  | case1 links location names landing hleg =>
    cases hfound
    rw [follow, followNames_back h (by rw [hleg]; exact hthere), hleg]
  | case2 => cases hfound
  | case3 => cases hfound
  | case4 location names directory target rest hleg links ih =>
    rw [follow, followNames_back h (by rw [hleg]; trivial), hleg]
    exact ih hfound

/-- What a path leads to in a later tree, it led to before, if something was there. -/
theorem locate_back (h : first.AddsFiles second) (hthere : (first.entry? place).isSome)
    (hlocate : second.locate path = .ok place) : first.locate path = .ok place := by
  -- Asking for a path follows its parts.
  obtain ⟨haskable, hfollow⟩ := locate_eq_ok_iff.mp hlocate
  rw [h.keeps.workDirectory] at hfollow
  exact locate_eq_ok_iff.mpr ⟨haskable, follow_back h hthere hfollow⟩

/-- A path that did not lead to a file does not lead there after other files were added. -/
theorem AddsFiles.locate_ne (h : first.AddsFiles second) {target : Path} {bytes : Bytes}
    (hread : first.read path = .ok bytes) (hne : first.locate target ≠ first.locate path) :
    second.locate target ≠ second.locate path := by
  obtain ⟨location, hlocation, hbytes⟩ := read_eq_ok_iff.mp hread
  have hthere : (first.entry? location).isSome := by
    rw [fileAt_eq_some_iff.mp hbytes]
    rfl
  intro heq
  rw [locate_keeps h.keeps hlocation] at heq
  exact hne ((locate_back h hthere heq).trans hlocation.symm)

end FileTree

/-! ## Grounded trees -/

/-- A tree in which every entry stands in a directory.  Trees that are made from the bare root by
what file systems do are of this kind. -/
structure GroundedTree extends FileTree where
  grounded : toFileTree.Grounded

instance : Coe GroundedTree FileTree := ⟨GroundedTree.toFileTree⟩

end SourceMutation
