import SourceMutation.Proofs.FileTrees

/-!
# Directories

Making a directory and those above it changes no file and makes no link
(`FileTree.makesDirectories_ensureDirectories`), and where it succeeds, the path leads to a
directory (`FileTree.ensureDirectories_leads`).

What stands in a directory is reached by one more name: a path leads where its last name leads from
the place that the other names lead to (`FileTree.follow_snoc`).  The links that the other names
have taken are gone for the last one, which is why the lemma speaks of those that remain.

Making the directories of a path goes from its end: the last one is tried first, and if that fails
for want of the one above, that one is made before it is tried again.  Whatever each new directory
preserves, all of this preserves (`FileTree.ensureParents_induct`).
-/

namespace SourceMutation.FileTree

variable {tree first second third : FileTree} {location place : Location} {path : Path}
  {purpose : Purpose}

/-! ## One more name -/

/-- A last name is followed from where the names before it lead. -/
theorem followNames_snoc {name : String} (hname : purpose = .use ∨ name ≠ "") (names : List String) :
    tree.followNames purpose location (names ++ [name]) =
      match tree.followNames .use location names with
      | .landed (.found place) => tree.followNames purpose place [name]
      | .landed (.missing _ _) => .refused .notFound
      | .refused cause => .refused cause
      | .link directory target rest => .link directory target (rest ++ [name]) := by
  -- Only a name with an empty one behind it is refused for writing, and the last one is not empty.
  have hlast : ∀ rest : List String,
      (decide (purpose = .write) && decide (rest ++ [name] = [""])) = false := by
    intro rest
    rcases hname with rfl | hname
    · rfl
    · cases rest <;> simp [hname]
  fun_induction followNames tree .use location names with
  | case1 => rfl
  | case2 location other rest hdirectory => simp [followNames, hdirectory]
  | case3 location other rest hdirectory hstay ih =>
    have hplace := Decidable.not_not.mp hdirectory
    simp [followNames, hplace, hstay, ih]
  | case4 location rest hdirectory hstay ih =>
    have hplace := Decidable.not_not.mp hdirectory
    simp [followNames, hplace, ih]
  | case5 location other rest hdirectory hstay hup hslash => simp at hslash
  | case6 location other rest hdirectory hstay hup hslash hlong =>
    have hplace := Decidable.not_not.mp hdirectory
    simp [followNames, hplace, hstay, hup, hlast, hlong]
  -- The name is missing and is the last but one, so the last one is looked for nowhere.
  | case7 location other rest hdirectory hstay hup hslash hlong hentry hrest =>
    have hplace := Decidable.not_not.mp hdirectory
    simp [followNames, hplace, hstay, hup, hlast, hlong, hentry]
  | case8 location other rest hdirectory hstay hup hslash hlong hentry hrest =>
    have hplace := Decidable.not_not.mp hdirectory
    simp [followNames, hplace, hstay, hup, hlast, hlong, hentry]
  | case9 location other rest hdirectory hstay hup hslash hlong target hentry =>
    have hplace := Decidable.not_not.mp hdirectory
    simp [followNames, hplace, hstay, hup, hlast, hlong, hentry]
  | case10 location other rest hdirectory hstay hup hslash hlong entry hlink hentry ih =>
    have hplace := Decidable.not_not.mp hdirectory
    cases entry with
    | link target => exact absurd rfl (hlink target)
    | file | directory => simp [followNames, hplace, hstay, hup, hlast, hlong, hentry, ih]

/-- The same through links: some of them are met before the last name. -/
theorem follow_snoc (tree : FileTree) (links : Nat) (location : Location) (names : List String)
    {name : String} (hname : purpose = .use ∨ name ≠ "") :
    (∃ place remaining, tree.follow .use links location names = .ok (.found place) ∧
      tree.follow purpose links location (names ++ [name])
        = tree.follow purpose remaining place [name]) ∨
    (∀ place, tree.follow .use links location names ≠ .ok (.found place)) ∧
      ∃ cause, tree.follow purpose links location (names ++ [name]) = .error cause := by
  -- The induction takes the links before the last name, so that what remains is for the last name.
  fun_induction follow tree .use links location names with
  | case1 links location names landing hleg =>
    cases landing with
    | found place =>
      refine .inl ⟨place, links, rfl, ?_⟩
      rw [follow, followNames_snoc hname, hleg, follow]
    | missing directory other =>
      refine .inr ⟨by simp, .notFound, ?_⟩
      rw [follow, followNames_snoc hname, hleg]
  | case2 links location names cause hleg =>
    refine .inr ⟨by simp, cause, ?_⟩
    rw [follow, followNames_snoc hname, hleg]
  -- Too many links are too many with another name behind them.
  | case3 location names directory target rest hleg =>
    refine .inr ⟨by simp, .linkLoop, ?_⟩
    rw [follow, followNames_snoc hname, hleg]
  | case4 location names directory target rest hleg links ih =>
    have hstep : tree.follow purpose (links + 1) location (names ++ [name])
        = tree.follow purpose links (startOf (Path.anchorOf target.toList) directory)
            (targetNames target ++ rest ++ [name]) := by
      rw [follow, followNames_snoc hname, hleg, List.append_assoc]
    rw [hstep]
    exact ih

/-- Where the other names lead somewhere, the last one is followed from there. -/
theorem follow_snoc_of_found {links : Nat} {names : List String} {name : String}
    (hname : purpose = .use ∨ name ≠ "")
    (hfound : tree.follow .use links location names = .ok (.found place)) :
    ∃ remaining, tree.follow purpose links location (names ++ [name])
      = tree.follow purpose remaining place [name] := by
  rcases follow_snoc tree links location names hname with
    ⟨other, remaining, hother, hsnoc⟩ | ⟨hnone, -⟩
  · cases hfound.symm.trans hother
    exact ⟨remaining, hsnoc⟩
  · exact absurd hfound (hnone place)

/-- A name that a file can have in its directory. -/
def Plain (name : String) : Prop := name ≠ "" ∧ name ≠ "." ∧ name ≠ ".."

/-- Where a plain name leads from a directory, if no link stands there. -/
theorem followNames_name {name : String} (hplain : Plain name)
    (hlink : ∀ target, tree.entry? (place ++ [name]) ≠ some (.link target)) :
    tree.followNames purpose place [name] =
      if tree.entry? place ≠ some .directory then .refused .notDirectory
      else if isTooLong name then .refused .nameTooLong
      else if (tree.entry? (place ++ [name])).isSome then .landed (.found (place ++ [name]))
      else .landed (.missing place name) := by
  obtain ⟨hempty, hdot, hdots⟩ := hplain
  unfold followNames
  rcases hentry : tree.entry? (place ++ [name]) with _ | (_ | _ | target)
  · simp [hempty, hdot, hdots]
  · simp [hempty, hdot, hdots, followNames]
  · simp [hempty, hdot, hdots, followNames]
  · exact absurd hentry (hlink target)

/-- A plain name that is no link is found in a directory or is missing in it. -/
theorem landing_of_follow_name {links : Nat} {name : String} {landing : Landing}
    (hplain : Plain name) (hlink : ∀ target, tree.entry? (place ++ [name]) ≠ some (.link target))
    (hfollow : tree.follow purpose links place [name] = .ok landing) :
    tree.entry? place = some .directory ∧
      (landing = .found (place ++ [name]) ∨ landing = .missing place name) := by
  rw [follow, followNames_name hplain hlink] at hfollow
  -- Of all ends that following one name can have, two are landings.
  by_cases hdirectory : tree.entry? place = some .directory
  · by_cases hlong : isTooLong name
    · simp [hdirectory, hlong] at hfollow
    · by_cases hentry : (tree.entry? (place ++ [name])).isSome
      · simp [hdirectory, hlong, hentry] at hfollow
        exact ⟨hdirectory, .inl hfollow.symm⟩
      · simp [hdirectory, hlong, hentry] at hfollow
        exact ⟨hdirectory, .inr hfollow.symm⟩
  · simp [hdirectory] at hfollow

/-- What a path with one more name leads to stands under that name where the path leads. -/
theorem locate_below {name : String} (hplain : Plain name) (hplace : tree.locate path = .ok place)
    (hlink : ∀ target, tree.entry? (place ++ [name]) ≠ some (.link target))
    (hlocate : tree.locate (path.below [name]) = .ok location) : location = place ++ [name] := by
  obtain ⟨-, hfollow⟩ := locate_eq_ok_iff.mp hplace
  obtain ⟨-, hbelow⟩ := locate_eq_ok_iff.mp hlocate
  obtain ⟨remaining, hsnoc⟩ := follow_snoc_of_found (.inl rfl) hfollow
  have hlast := hsnoc.symm.trans hbelow
  -- A path that leads somewhere does not end at a missing name.
  rcases (landing_of_follow_name hplain hlink hlast).2 with hfound | hmissing
  · cases hfound
    rfl
  · cases hmissing

/-! ## Making directories -/

/-- Whether a later tree differs by directories that were made, and by nothing else. -/
structure MakesDirectories (first second : FileTree) : Prop where
  keeps : first.Keeps second
  grounded : first.Grounded → second.Grounded
  others : ∀ location, second.entry? location = first.entry? location ∨
    first.entry? location = none ∧ second.entry? location = some .directory

theorem MakesDirectories.refl (tree : FileTree) : tree.MakesDirectories tree :=
  ⟨.refl tree, id, fun _ => .inl rfl⟩

theorem MakesDirectories.trans (h : first.MakesDirectories second)
    (h' : second.MakesDirectories third) : first.MakesDirectories third := by
  refine ⟨h.keeps.trans h'.keeps, h'.grounded ∘ h.grounded, fun location => ?_⟩
  rcases h.others location with hsame | ⟨hnone, hmade⟩
  · rw [← hsame]
    exact h'.others location
  · exact .inr ⟨hnone, h'.keeps.directory hmade⟩

/-- The files are those from before. -/
theorem MakesDirectories.fileAt_eq (h : first.MakesDirectories second) (location : Location) :
    second.fileAt location = first.fileAt location := by
  unfold fileAt
  rcases h.others location with hsame | ⟨hnone, hmade⟩
  · rw [hsame]
  · rw [hnone, hmade]

/-- A directory that may be put makes no more than a directory. -/
theorem MayPut.makesDirectories (h : tree.MayPut location .directory) :
    tree.MakesDirectories (tree.put location .directory) := by
  refine ⟨h.keeps, h.grounded, fun other => ?_⟩
  rw [entry_put h.ne_nil]
  by_cases heq : other = location
  · subst heq
    cases h with
    | new _ hname => exact .inr ⟨hname, if_pos rfl⟩
  · exact .inl (if_neg heq)

/-- A directory is made where nothing stood. -/
theorem makeDirectory_eq_ok {after : FileTree} (h : tree.makeDirectory path = .ok after) :
    ∃ location, tree.placeOf path = .ok location ∧ tree.entry? location = none ∧
      after = tree.put location .directory := by
  unfold makeDirectory at h
  split at h
  case h_1 => cases h
  case h_2 location hplace =>
    split at h
    case h_1 => cases h
    case h_2 hentry =>
      cases h
      exact ⟨location, hplace, hentry, rfl⟩

/-- Making one directory makes no more than that. -/
theorem makesDirectories_makeDirectory {after : FileTree}
    (h : tree.makeDirectory path = .ok after) : tree.MakesDirectories after := by
  obtain ⟨location, hplace, hentry, rfl⟩ := makeDirectory_eq_ok h
  exact (mayPut_of_placeOf hplace hentry).makesDirectories

/-- Settling a fault leaves the tree as it is. -/
theorem settle_snd (tree : FileTree) (path : Path) (fault : FileFault) :
    (tree.settle path fault).2 = tree := by
  unfold settle
  split <;> rfl

/-- What making a directory preserves stays so where one may be there already. -/
theorem ensureDirectory_induct {R : FileTree → Prop} (h : R tree)
    (hmake : ∀ after, tree.makeDirectory path = .ok after → R after) :
    R (tree.ensureDirectory path).2 := by
  unfold ensureDirectory
  -- Where the directory cannot be made, the tree is left as it is.
  split
  case h_1 after hafter => exact hmake after hafter
  case h_2 =>
    split
    · exact h
    · rw [settle_snd]
      exact h

/-- What making a directory and each of those above it preserves, making them together preserves. -/
theorem ensureParents_induct {R : FileTree → Prop} {anchor : Anchor} {reversed : List String}
    (hmake : ∀ more, more <:+ reversed → ∀ {tree after}, R tree →
      tree.makeDirectory ⟨anchor, more.reverse⟩ = .ok after → R after) (h : R tree) :
    R (ensureParents anchor reversed tree).2 := by
  -- The induction goes up: a name that cannot be made for want of its parent has the parent made.
  induction reversed generalizing tree with
  | nil => exact ensureDirectory_induct h fun _ => hmake [] List.suffix_rfl h
  | cons name above ih =>
    unfold ensureParents
    dsimp only
    split
    case h_1 after hafter => exact hmake (name :: above) List.suffix_rfl h hafter
    case h_2 =>
      split
      -- Those above are made first, with what is claimed carried through.
      · have habove := ih
          (fun more hmore => hmake more (hmore.trans (List.suffix_cons name above))) h
        rcases hmade : ensureParents anchor above tree with ⟨_ | _, between⟩
        · rw [hmade] at habove
          exact habove
        · rw [hmade] at habove
          exact ensureDirectory_induct habove fun _ => hmake (name :: above) List.suffix_rfl habove
      · rw [settle_snd]
        exact h

/-- Making sure of one directory makes directories only. -/
theorem makesDirectories_ensureDirectory (tree : FileTree) (path : Path) :
    tree.MakesDirectories (tree.ensureDirectory path).2 :=
  ensureDirectory_induct (.refl tree) fun _ => makesDirectories_makeDirectory

/-- Making sure of a directory and those above it makes directories only. -/
theorem makesDirectories_ensureParents (anchor : Anchor) (reversed : List String)
    (tree : FileTree) : tree.MakesDirectories (ensureParents anchor reversed tree).2 :=
  ensureParents_induct
    (fun _ _ _ _ hmakes hmade => hmakes.trans (makesDirectories_makeDirectory hmade)) (.refl tree)

/-- Making a directory and those above it changes nothing else, even where it fails. -/
theorem makesDirectories_ensureDirectories (tree : FileTree) (path : Path) :
    tree.MakesDirectories (tree.ensureDirectories path).2 :=
  makesDirectories_ensureParents path.anchor path.parts.reverse tree

/-! ## Where made directories are

A directory that was made is found afterwards under the path by which it was made.
-/

/-- Whether a path leads to a directory. -/
def LeadsToDirectory (tree : FileTree) (path : Path) : Prop :=
  ∃ place, tree.locate path = .ok place ∧ tree.entry? place = some .directory

/-- Where something has a property, it stands at the path's place. -/
theorem exists_of_holdsAt {property : Entry → Bool} (h : tree.holdsAt path property = .ok true) :
    ∃ place entry, tree.locate path = .ok place ∧ tree.entry? place = some entry ∧
      property entry = true := by
  unfold holdsAt entryAt at h
  cases hplace : tree.locate path with
  | error cause =>
    rw [hplace] at h
    by_cases habsent : cause.meansAbsent <;> simp [habsent] at h
  | ok place =>
    rw [hplace] at h
    cases hentry : tree.entry? place with
    | none => simp [hentry, FileCause.meansAbsent] at h
    | some entry => exact ⟨place, entry, rfl, hentry, by simpa [hentry] using h⟩

/-- A path that is said to be a directory leads to one. -/
theorem leadsToDirectory_of_isDirectory (h : tree.isDirectory path = .ok true) :
    tree.LeadsToDirectory path := by
  obtain ⟨place, entry, hplace, hentry, hdirectory⟩ := exists_of_holdsAt h
  exact ⟨place, hplace, eq_of_beq hdirectory ▸ hentry⟩

/-- A path at which something is said to be has a location, and something stands there. -/
theorem locate_of_isPresent (h : tree.isPresent path = .ok true) :
    ∃ place, tree.locate path = .ok place ∧ (tree.entry? place).isSome := by
  obtain ⟨place, entry, hplace, hentry, -⟩ := exists_of_holdsAt h
  exact ⟨place, hplace, by simp [hentry]⟩

/-- Something is said to be at a path that has a location where something stands. -/
theorem isPresent_of_locate (hplace : tree.locate path = .ok place)
    (hentry : (tree.entry? place).isSome) : tree.isPresent path = .ok true := by
  obtain ⟨entry, hentry⟩ := Option.isSome_iff_exists.mp hentry
  simp [isPresent, holdsAt, entryAt, hplace, hentry]

/-- What is present stays present. -/
theorem isPresent_keeps (h : first.Keeps second) (hpresent : first.isPresent path = .ok true) :
    second.isPresent path = .ok true := by
  obtain ⟨place, hplace, hentry⟩ := locate_of_isPresent hpresent
  obtain ⟨old, hold⟩ := Option.isSome_iff_exists.mp hentry
  obtain ⟨new, hnew, -⟩ := h.entries place old hold
  exact isPresent_of_locate (locate_keeps h hplace) (by simp [hnew])

/-- The place for a new directory is its last name, in the directory that the other names lead
to. -/
theorem placeOf_eq_ok (h : tree.placeOf path = .ok location) :
    ∃ directory name, unaskable? path = none ∧ path.parts = path.parts.dropLast ++ [name] ∧
      tree.locate ⟨path.anchor, path.parts.dropLast⟩ = .ok directory ∧
      tree.entry? directory = some .directory ∧ name ≠ ".." ∧ isTooLong name = false ∧
      location = directory ++ [name] := by
  unfold placeOf at h
  split at h
  case h_1 => cases h
  case h_2 => cases h
  case h_3 name haskable hname =>
    split at h
    case h_1 => cases h
    case h_2 directory hdirectory =>
      by_cases hentry : tree.entry? directory = some .directory
      -- A name that leads up, or is too long, is refused as one for a new directory.
      · by_cases hdots : name = ".."
        · simp [hentry, hdots] at h
        · by_cases hlong : isTooLong name
          · simp [hentry, hdots, hlong] at h
          · simp [hentry, hdots, hlong] at h
            obtain ⟨init, hparts⟩ := List.getLast?_eq_some_iff.mp hname
            exact ⟨directory, name, haskable, by rw [hparts, List.dropLast_concat], hdirectory,
              hentry, hdots, by simpa using hlong, h.symm⟩
      · simp [hentry] at h

/-- A path at which a directory was made leads to a directory. -/
theorem makeDirectory_leads {after : FileTree} (h : tree.makeDirectory path = .ok after) :
    after.LeadsToDirectory path := by
  obtain ⟨location, hplaceOf, hnone, rfl⟩ := makeDirectory_eq_ok h
  have hput : tree.MayPut location .directory := mayPut_of_placeOf hplaceOf hnone
  obtain ⟨directory, name, haskable, hparts, hdirectory, hentry, hdots, hlong, rfl⟩ :=
    placeOf_eq_ok hplaceOf
  have hentry' := hput.keeps.directory hentry
  obtain ⟨-, hfollow⟩ := locate_eq_ok_iff.mp (locate_keeps hput.keeps hdirectory)
  obtain ⟨remaining, hsnoc⟩ := follow_snoc_of_found (.inl rfl) hfollow
  -- It remains to follow the last name from the directory in which it was made.
  suffices hlast : ∃ place, (tree.put (directory ++ [name]) .directory).follow .use remaining
      directory [name] = .ok (.found place) ∧
        FileTree.entry? (tree.put (directory ++ [name]) .directory) place = some .directory by
    obtain ⟨place, hlast, hplace⟩ := hlast
    refine ⟨place, locate_eq_ok_iff.mpr ⟨haskable, ?_⟩, hplace⟩
    rw [hparts]
    exact hsnoc.trans hlast
  by_cases hstay : name = "" ∨ name = "."
  · -- A point or an empty name stays in the directory.
    refine ⟨directory, ?_, hentry'⟩
    rcases hstay with rfl | rfl <;> simp [follow, followNames, hentry']
  · have hmade : FileTree.entry? (tree.put (directory ++ [name]) .directory) (directory ++ [name])
        = some .directory := by
      rw [entry_put hput.ne_nil, if_pos rfl]
    refine ⟨directory ++ [name], ?_, hmade⟩
    obtain ⟨hempty, hdot⟩ := not_or.mp hstay
    rw [follow, followNames_name ⟨hempty, hdot, hdots⟩ (by simp [hmade])]
    simp [hentry', hlong, hmade]

/-- A fault is settled where the path leads to a directory already. -/
theorem settle_leads {fault : FileFault} {after : FileTree}
    (h : tree.settle path fault = (.ok (), after)) : after.LeadsToDirectory path := by
  unfold settle at h
  split at h
  case h_1 hdirectory =>
    cases h
    exact leadsToDirectory_of_isDirectory hdirectory
  case h_2 => cases h
  case h_3 => cases h

/-- After making sure of a directory the path leads to one. -/
theorem ensureDirectory_leads {after : FileTree}
    (h : tree.ensureDirectory path = (.ok (), after)) : after.LeadsToDirectory path := by
  unfold ensureDirectory at h
  split at h
  case h_1 made hmade =>
    cases h
    exact makeDirectory_leads hmade
  case h_2 fault _ =>
    split at h
    · cases h
    · exact settle_leads h

/-- After making sure of a directory and those above it the path leads to one. -/
theorem ensureParents_leads {anchor : Anchor} {reversed : List String} {after : FileTree}
    (h : ensureParents anchor reversed tree = (.ok (), after)) :
    after.LeadsToDirectory ⟨anchor, reversed.reverse⟩ := by
  cases reversed with
  | nil => exact ensureDirectory_leads h
  | cons name above =>
    unfold ensureParents at h
    dsimp only at h
    split at h
    case h_1 made hmade =>
      cases h
      exact makeDirectory_leads hmade
    -- The first attempt has failed. It is made after those above it, or it is there already.
    case h_2 fault _ =>
      split at h
      · split at h
        · cases h
        · exact ensureDirectory_leads h
      · exact settle_leads h

/-- A path at which a directory was ensured leads to a directory. -/
theorem ensureDirectories_leads {after : FileTree}
    (h : tree.ensureDirectories path = (.ok (), after)) : after.LeadsToDirectory path := by
  have hleads := ensureParents_leads h
  rwa [List.reverse_reverse] at hleads

end SourceMutation.FileTree
