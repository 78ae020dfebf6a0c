import SourceMutation.Proofs.TwoPasses

/-!
# Trees with something added

A tree may have other entries besides those of another tree (`FileTree.Joins`).  This module tells
when that makes no difference to an operation.

## Where following looks

Following a path looks at some locations (`FileTree.onWay`): the places that it passes, and the
names that it looks up there.  Trees that have the same entries at these locations have the path
lead to the same place (`FileTree.follow_congr`).  With one more name at its end, a path looks at
what it looked at before, and then at the name (`FileTree.looksThrough_snoc`).

## What is alike in both trees

Let none of the added entries be on the way of a path (`FileTree.Avoids`).

- Asking at the path has the same answer in both trees (`FileTree.Joins.isPresent`,
  `FileTree.Joins.isDirectory`).
- Writing to it, and making directories, comes to the same in both trees, and afterwards the larger
  tree still has the added entries besides those of the smaller one (`FileTree.Joins.write`,
  `FileTree.Joins.withDirectory`).

What is read in the smaller tree is read in the larger one in any case (`FileTree.Joins.read`),
since everything on the way to a file is there.
-/

namespace SourceMutation

/-- Whether a path has no parts that do not count. -/
def Path.IsWritten (path : Path) : Prop := ∀ part ∈ path.parts, part ≠ "" ∧ part ≠ "."

instance (path : Path) : Decidable path.IsWritten :=
  inferInstanceAs (Decidable (∀ part ∈ path.parts, part ≠ "" ∧ part ≠ "."))

namespace FileTree

variable {tree first second : FileTree} {location place : Location} {path : Path}
  {purpose : Purpose} {names : List String}

/-! ## Where following looks

Where a path leads depends on the entries that are looked at on its way, through links as well, and
on no other entry (`follow_congr`).  So something that is added elsewhere makes no difference.
-/

/-- The locations that are looked at when names are followed up to the first link. -/
def looksAt (tree : FileTree) : Location → List String → List Location
  | _, [] => []
  | location, name :: rest =>
    location ::
      if tree.entry? location ≠ some .directory then []
      else if name = "" || name = "." then tree.looksAt location rest
      else if name = ".." then tree.looksAt location.dropLast rest
      else if isTooLong name then []
      else (location ++ [name]) ::
        match tree.entry? (location ++ [name]) with
        | none => []
        | some (.link _) => []
        | some _ => tree.looksAt (location ++ [name]) rest

/-- The locations that are looked at when names are followed through links. -/
def looksThrough (tree : FileTree) : (links : Nat) → Location → List String → List Location
  | links, location, names =>
    tree.looksAt location names ++
      match tree.followNames .use location names with
      | .link directory target rest =>
        match links with
        | 0 => []
        | links + 1 =>
          tree.looksThrough links (startOf (Path.anchorOf target.toList) directory)
            (targetNames target ++ rest)
      | _ => []

/-- The locations on the way of a path. -/
def onWay (tree : FileTree) (path : Path) : List Location :=
  tree.looksThrough maxLinks (startOf path.anchor tree.workDirectory) path.parts

/-- Names are followed alike where the same entries are looked at. -/
theorem followNames_congr
    (h : ∀ other ∈ first.looksAt location names, second.entry? other = first.entry? other) :
    second.followNames purpose location names = first.followNames purpose location names := by
  -- Each case looks at the place it is at, and where it goes on to a name, at that name too.
  fun_induction followNames first purpose location names with
  | case1 => rfl
  | case2 location name rest hdirectory =>
    have hhere := h location (by simp [looksAt])
    simp [followNames, hhere, hdirectory]
  | case3 location name rest hdirectory hstay ih =>
    rw [looksAt, if_neg hdirectory, if_pos hstay, List.forall_mem_cons] at h
    have hplace := Decidable.not_not.mp hdirectory
    simp [followNames, h.1, hplace, hstay, ih h.2]
  | case4 location rest hdirectory hstay ih =>
    rw [looksAt, if_neg hdirectory, if_neg hstay, if_pos rfl, List.forall_mem_cons] at h
    have hplace := Decidable.not_not.mp hdirectory
    simp [followNames, h.1, hplace, ih h.2]
  -- Here and in the next case the name itself is not looked up.
  | case5 location name rest hdirectory hstay hup hslash =>
    have hhere := h location (by simp [looksAt])
    have hplace := Decidable.not_not.mp hdirectory
    simp only [followNames, hhere, hplace, hstay, hup, hslash]
    simp
  | case6 location name rest hdirectory hstay hup hslash hlong =>
    have hhere := h location (by simp [looksAt])
    have hplace := Decidable.not_not.mp hdirectory
    simp only [followNames, hhere, hplace, hstay, hup, hslash, hlong]
    simp
  | case7 location name rest hdirectory hstay hup hslash hlong hentry hrest
  | case8 location name rest hdirectory hstay hup hslash hlong hentry hrest =>
    rw [looksAt, if_neg hdirectory, if_neg hstay, if_neg hup, if_neg hlong, List.forall_mem_cons,
      List.forall_mem_cons] at h
    have hplace := Decidable.not_not.mp hdirectory
    simp only [followNames, h.1, h.2.1, hplace, hstay, hup, hslash, hlong, hentry, hrest]
    simp
  | case9 location name rest hdirectory hstay hup hslash hlong target hentry =>
    rw [looksAt, if_neg hdirectory, if_neg hstay, if_neg hup, if_neg hlong, List.forall_mem_cons,
      List.forall_mem_cons] at h
    have hplace := Decidable.not_not.mp hdirectory
    simp only [followNames, h.1, h.2.1, hplace, hstay, hup, hslash, hlong, hentry]
    simp
  | case10 location name rest hdirectory hstay hup hslash hlong entry hlink hentry ih =>
    rw [looksAt, if_neg hdirectory, if_neg hstay, if_neg hup, if_neg hlong, List.forall_mem_cons,
      List.forall_mem_cons, hentry] at h
    have hplace := Decidable.not_not.mp hdirectory
    cases entry with
    | link target => exact absurd rfl (hlink target)
    | file | directory =>
      simp only [followNames, h.1, h.2.1, hplace, hstay, hup, hslash, hlong, ih h.2.2]
      simp

/-- Paths are followed alike where the same entries are looked at. -/
theorem follow_congr {links : Nat}
    (h : ∀ other ∈ first.looksThrough links location names,
      second.entry? other = first.entry? other) :
    second.follow purpose links location names = first.follow purpose links location names := by
  fun_induction follow first purpose links location names with
  | case1 links location names landing hleg
  | case2 links location names landing hleg =>
    rw [looksThrough] at h
    rw [follow, followNames_congr fun other hmem => h other (List.mem_append_left _ hmem), hleg]
  | case3 location names directory target rest hleg =>
    rw [looksThrough] at h
    rw [follow, followNames_congr fun other hmem => h other (List.mem_append_left _ hmem), hleg]
  | case4 location names directory target rest hleg links ih =>
    -- Where following looks is said by the use of a path, and writing follows the same links.
    have huse : first.followNames .use location names = .link directory target rest := by
      cases purpose with
      | use => exact hleg
      | write => exact followNames_use hleg fun _ hrefused => Leg.noConfusion hrefused
    rw [looksThrough, huse] at h
    rw [follow, followNames_congr fun other hmem => h other (List.mem_append_left _ hmem), hleg]
    exact ih fun other hmem => h other (List.mem_append_right _ hmem)

/-! ### Where other trees are looked at -/

/-- A tree that has the directories of another one is looked at wherever that one is. -/
theorem looksAt_subset
    (h : ∀ other, first.entry? other = some .directory → second.entry? other = some .directory) :
    first.looksAt location names ⊆ second.looksAt location names := by
  fun_induction followNames first .use location names with
  | case1 => exact List.Subset.refl _
  | case2 location name rest hdirectory =>
    rw [looksAt, if_pos hdirectory]
    simp [looksAt]
  | case3 location name rest hdirectory hstay ih =>
    have hplace := h _ (Decidable.not_not.mp hdirectory)
    rw [looksAt, if_neg hdirectory, if_pos hstay, looksAt, if_neg (by simp [hplace]), if_pos hstay]
    exact List.cons_subset_cons _ ih
  | case4 location rest hdirectory hstay ih =>
    have hplace := h _ (Decidable.not_not.mp hdirectory)
    rw [looksAt, if_neg hdirectory, if_neg hstay, if_pos rfl, looksAt, if_neg (by simp [hplace]),
      if_neg hstay, if_pos rfl]
    exact List.cons_subset_cons _ ih
  | case5 location name rest hdirectory hstay hup hslash => simp at hslash
  | case6 location name rest hdirectory hstay hup hslash hlong =>
    rw [looksAt, if_neg hdirectory, if_neg hstay, if_neg hup, if_pos hlong]
    simp [looksAt]
  | case7 location name rest hdirectory hstay hup hslash hlong hentry
  | case8 location name rest hdirectory hstay hup hslash hlong hentry
  | case9 location name rest hdirectory hstay hup hslash hlong target hentry =>
    have hplace := h _ (Decidable.not_not.mp hdirectory)
    rw [looksAt, if_neg hdirectory, if_neg hstay, if_neg hup, if_neg hlong, hentry, looksAt,
      if_neg (by simp [hplace]), if_neg hstay, if_neg hup, if_neg hlong]
    simp
  | case10 location name rest hdirectory hstay hup hslash hlong entry hlink hentry ih =>
    have hplace := h _ (Decidable.not_not.mp hdirectory)
    rw [looksAt, if_neg hdirectory, if_neg hstay, if_neg hup, if_neg hlong, hentry, looksAt,
      if_neg (by simp [hplace]), if_neg hstay, if_neg hup, if_neg hlong]
    refine List.cons_subset_cons _ ?_
    cases entry with
    | link target => exact absurd rfl (hlink target)
    | directory =>
      rw [h _ hentry]
      exact List.cons_subset_cons _ ih
    | file bytes =>
      -- Behind a file nothing but the file itself is looked at.
      cases rest with
      | nil => simp [looksAt]
      | cons next rest =>
        dsimp only
        rw [looksAt, if_pos (by simp [hentry])]
        simp

/-- If more directories and the same links are there, following looks at no less. -/
theorem looksThrough_subset
    (h : ∀ other, first.entry? other = some .directory → second.entry? other = some .directory)
    (hlinks : ∀ {location names directory target rest},
      first.followNames .use location names = .link directory target rest →
      second.followNames .use location names = .link directory target rest) {links : Nat} :
    first.looksThrough links location names ⊆ second.looksThrough links location names := by
  fun_induction follow first .use links location names with
  | case1 links location names landing hleg
  | case2 links location names cause hleg =>
    rw [looksThrough, hleg, List.append_nil, looksThrough]
    exact List.subset_append_of_subset_left _ (looksAt_subset h)
  | case3 location names directory target rest hleg =>
    rw [looksThrough, hleg, List.append_nil, looksThrough]
    exact List.subset_append_of_subset_left _ (looksAt_subset h)
  -- The same link is followed in both, and what is looked at behind it is no less.
  | case4 location names directory target rest hleg links ih =>
    rw [looksThrough, hleg, looksThrough, hlinks hleg]
    exact List.append_subset.mpr ⟨List.subset_append_of_subset_left _ (looksAt_subset h),
      List.subset_append_of_subset_right _ ih⟩

/-- A later tree is looked at wherever an earlier one is. -/
theorem onWay_keeps (h : first.Keeps second) (path : Path) :
    first.onWay path ⊆ second.onWay path := by
  rw [onWay, onWay, h.workDirectory]
  refine looksThrough_subset (fun _ => h.directory) fun hleg => ?_
  rw [followNames_keeps h (by rw [hleg]; trivial), hleg]

/-- Where only files are written, a later tree is looked at nowhere else. -/
theorem onWay_addsFiles (h : first.AddsFiles second) (path : Path) :
    second.onWay path ⊆ first.onWay path := by
  rw [onWay, onWay, h.keeps.workDirectory]
  refine looksThrough_subset (fun _ => h.directory) fun hleg => ?_
  rw [followNames_back h (by rw [hleg]; trivial), hleg]

/-! ### Where paths with one more name look -/

/-- With one more name, what is looked at besides is what that name looks at from where the others
led. -/
theorem looksAt_snoc (tree : FileTree) (location : Location) (names : List String)
    (name : String) :
    tree.looksAt location (names ++ [name]) = tree.looksAt location names ++
      match tree.followNames .use location names with
      | .landed (.found place) => tree.looksAt place [name]
      | _ => [] := by
  -- Either the walk stops at the same name on both sides, or both sides go on from where it led.
  fun_induction followNames tree .use location names with
  | case1 => rfl
  | case2 location other rest hdirectory => simp [looksAt, hdirectory]
  | case3 location other rest hdirectory hstay ih =>
    have hplace := Decidable.not_not.mp hdirectory
    simp [looksAt, hplace, hstay, ih]
  | case4 location rest hdirectory hstay ih =>
    have hplace := Decidable.not_not.mp hdirectory
    simp [looksAt, hplace, ih]
  | case5 location other rest hdirectory hstay hup hslash => simp at hslash
  | case6 location other rest hdirectory hstay hup hslash hlong =>
    have hplace := Decidable.not_not.mp hdirectory
    simp [looksAt, hplace, hstay, hup, hlong]
  | case7 location other rest hdirectory hstay hup hslash hlong hentry
  | case8 location other rest hdirectory hstay hup hslash hlong hentry =>
    have hplace := Decidable.not_not.mp hdirectory
    simp [looksAt, hplace, hstay, hup, hlong, hentry]
  | case9 location other rest hdirectory hstay hup hslash hlong target hentry =>
    have hplace := Decidable.not_not.mp hdirectory
    simp [looksAt, hplace, hstay, hup, hlong, hentry]
  | case10 location other rest hdirectory hstay hup hslash hlong entry hlink hentry ih =>
    have hplace := Decidable.not_not.mp hdirectory
    cases entry with
    | link target => exact absurd rfl (hlink target)
    | file | directory => simp [looksAt, hplace, hstay, hup, hlong, hentry, ih]

/-- A path with one more name is looked for where the path is, and from the place it leads to. -/
theorem looksThrough_snoc (tree : FileTree) (links : Nat) (location : Location)
    (names : List String) (name : String) :
    (∃ place remaining, tree.follow .use links location names = .ok (.found place) ∧
      remaining ≤ links ∧ tree.looksThrough links location (names ++ [name])
        = tree.looksThrough links location names ++ tree.looksThrough remaining place [name]) ∨
    (∀ place, tree.follow .use links location names ≠ .ok (.found place)) ∧
      tree.looksThrough links location (names ++ [name])
        = tree.looksThrough links location names := by
  -- The links before the last name are taken one by one, as they are when the names are followed.
  fun_induction follow tree .use links location names with
  | case1 links location names landing hleg =>
    cases landing with
    | found place =>
      refine .inl ⟨place, links, rfl, Nat.le_refl links, ?_⟩
      rw [looksThrough, followNames_snoc (.inl rfl), looksAt_snoc, hleg]
      dsimp only
      rw [looksThrough, hleg, looksThrough.eq_def tree links place, List.append_nil,
        List.append_assoc]
    | missing directory other =>
      refine .inr ⟨by simp, ?_⟩
      rw [looksThrough, followNames_snoc (.inl rfl), looksAt_snoc, hleg, looksThrough, hleg]
      simp
  | case2 links location names cause hleg =>
    refine .inr ⟨by simp, ?_⟩
    rw [looksThrough, followNames_snoc (.inl rfl), looksAt_snoc, hleg, looksThrough, hleg]
    simp
  | case3 location names directory target rest hleg =>
    refine .inr ⟨by simp, ?_⟩
    rw [looksThrough, followNames_snoc (.inl rfl), looksAt_snoc, hleg, looksThrough, hleg]
    simp
  -- The link takes one of those that are left, and its target goes in front of the names behind it.
  | case4 location names directory target rest hleg links ih =>
    have hstep : tree.looksThrough (links + 1) location (names ++ [name])
        = tree.looksAt location names ++
          tree.looksThrough links (startOf (Path.anchorOf target.toList) directory)
            (targetNames target ++ rest ++ [name]) := by
      rw [looksThrough, followNames_snoc (.inl rfl), looksAt_snoc, hleg, List.append_assoc]
      simp
    have hshort : tree.looksThrough (links + 1) location names
        = tree.looksAt location names ++
          tree.looksThrough links (startOf (Path.anchorOf target.toList) directory)
            (targetNames target ++ rest) := by
      rw [looksThrough, hleg]
    rw [hstep, hshort]
    rcases ih with ⟨place, remaining, hplace, hle, hlooks⟩ | ⟨hnone, hlooks⟩
    · exact .inl ⟨place, remaining, hplace, Nat.le_succ_of_le hle,
        by rw [hlooks, List.append_assoc]⟩
    · exact .inr ⟨hnone, by rw [hlooks]⟩

/-- What is on the way of a path is on the way of a path with one more name. -/
theorem onWay_below (tree : FileTree) (path : Path) (name : String) :
    tree.onWay path ⊆ tree.onWay (path.below [name]) := by
  rw [onWay, onWay, Path.below]
  rcases looksThrough_snoc tree maxLinks (startOf path.anchor tree.workDirectory) path.parts name
    with ⟨place, remaining, -, -, hlooks⟩ | ⟨-, hlooks⟩
  · rw [hlooks]
    exact List.subset_append_left _ _
  · rw [hlooks]
    exact List.Subset.refl _

/-- From a directory a name is looked for there, and nowhere else if it is not that of a link. -/
theorem looksThrough_name {name : String}
    (hlink : ∀ target, tree.entry? (place ++ [name]) ≠ some (.link target)) (links : Nat) :
    tree.looksThrough links place [name] ⊆ [place, place ++ [name]] := by
  have hlooks : tree.looksAt place [name] ⊆ [place, place ++ [name]] := by
    rw [looksAt]
    refine List.cons_subset_cons _ ?_
    repeat' split
    all_goals simp [looksAt]
  -- A name that is no link sends the way on to nowhere else.
  have hleg : ∀ directory target rest,
      tree.followNames .use place [name] ≠ .link directory target rest := by
    intro directory target rest
    rw [followNames]
    repeat' split
    case h_2 _ target hentry => exact absurd hentry (hlink target)
    all_goals simp [followNames]
  rw [looksThrough]
  split
  case h_1 directory target rest hlast => exact absurd hlast (hleg directory target rest)
  case h_2 =>
    rw [List.append_nil]
    exact hlooks

/-- With more links to follow, no less is looked at. -/
theorem looksThrough_mono {links more : Nat} (h : links ≤ more) :
    tree.looksThrough links location names ⊆ tree.looksThrough more location names := by
  induction links generalizing more location names with
  | zero =>
    rw [looksThrough, looksThrough]
    split <;> simp
  | succ links ih =>
    obtain ⟨more, rfl⟩ : ∃ n, more = n + 1 := ⟨more - 1, by omega⟩
    rw [looksThrough, looksThrough]
    split
    · exact List.append_subset.mpr ⟨List.subset_append_left _ _,
        List.subset_append_of_subset_right _ (ih (by omega))⟩
    · exact List.Subset.refl _

/-- What is looked at on a way that ends somewhere is there. -/
theorem entry_isSome_of_looksAt (hleg : Arrives (tree.followNames .use location names))
    {other : Location} (hother : other ∈ tree.looksAt location names) :
    (tree.entry? other).isSome := by
  fun_induction followNames tree .use location names with
  | case1 => cases hother
  -- These end nowhere.
  | case2 | case5 | case6 | case7 | case8 => cases hleg
  | case3 location name rest hdirectory hstay ih =>
    rw [looksAt, if_neg hdirectory, if_pos hstay] at hother
    rcases List.mem_cons.mp hother with rfl | hmem
    · rw [Decidable.not_not.mp hdirectory]
      rfl
    · exact ih hleg hmem
  | case4 location rest hdirectory hstay ih =>
    rw [looksAt, if_neg hdirectory, if_neg hstay, if_pos rfl] at hother
    rcases List.mem_cons.mp hother with rfl | hmem
    · rw [Decidable.not_not.mp hdirectory]
      rfl
    · exact ih hleg hmem
  | case9 location name rest hdirectory hstay hup hslash hlong target hentry =>
    rw [looksAt, if_neg hdirectory, if_neg hstay, if_neg hup, if_neg hlong, hentry] at hother
    simp only [List.mem_cons, List.not_mem_nil, or_false] at hother
    rcases hother with rfl | rfl
    · rw [Decidable.not_not.mp hdirectory]
      rfl
    · rw [hentry]
      rfl
  | case10 location name rest hdirectory hstay hup hslash hlong entry hlink hentry ih =>
    rw [looksAt, if_neg hdirectory, if_neg hstay, if_neg hup, if_neg hlong, hentry] at hother
    rcases List.mem_cons.mp hother with rfl | hmem
    · rw [Decidable.not_not.mp hdirectory]
      rfl
    · rcases List.mem_cons.mp hmem with rfl | hmem
      · rw [hentry]
        rfl
      · cases entry with
        | link target => exact absurd rfl (hlink target)
        | file | directory => exact ih hleg hmem

/-- Whatever is looked at on the way to something that is found is there itself. -/
theorem entry_isSome_of_looksThrough {links : Nat}
    (hfound : tree.follow .use links location names = .ok (.found place)) {other : Location}
    (hother : other ∈ tree.looksThrough links location names) : (tree.entry? other).isSome := by
  fun_induction follow tree .use links location names with
  | case1 links location names landing hleg =>
    cases hfound
    rw [looksThrough, hleg, List.append_nil] at hother
    exact entry_isSome_of_looksAt (by rw [hleg]; trivial) hother
  | case2 => cases hfound
  | case3 => cases hfound
  | case4 location names directory target rest hleg links ih =>
    rw [looksThrough, hleg] at hother
    -- Up to the link all is there that is looked at, since the link is; then come the others.
    rcases List.mem_append.mp hother with hmem | hmem
    · exact entry_isSome_of_looksAt (by rw [hleg]; trivial) hmem
    · exact ih hfound hmem

/-- A name that is missing at the end has been looked for. -/
theorem mem_looksAt_of_missing {directory : Location} {name : String}
    (h : tree.followNames purpose location names = .landed (.missing directory name)) :
    directory ++ [name] ∈ tree.looksAt location names := by
  fun_induction followNames tree purpose location names with
  | case1 | case2 | case5 | case6 | case8 | case9 => cases h
  | case3 location other rest hdirectory hstay ih =>
    rw [looksAt, if_neg hdirectory, if_pos hstay]
    exact List.mem_cons_of_mem _ (ih h)
  | case4 location rest hdirectory hstay ih =>
    rw [looksAt, if_neg hdirectory, if_neg hstay, if_pos rfl]
    exact List.mem_cons_of_mem _ (ih h)
  -- This is where the name was found missing.
  | case7 location other rest hdirectory hstay hup hslash hlong =>
    cases h
    rw [looksAt, if_neg hdirectory, if_neg hstay, if_neg hup, if_neg hlong]
    exact List.mem_cons_of_mem _ List.mem_cons_self
  -- The name is missing further on.
  | case10 location other rest hdirectory hstay hup hslash hlong entry hlink hentry ih =>
    rw [looksAt, if_neg hdirectory, if_neg hstay, if_neg hup, if_neg hlong, hentry]
    refine List.mem_cons_of_mem _ (List.mem_cons_of_mem _ ?_)
    cases entry with
    | link target => exact absurd rfl (hlink target)
    | file | directory => exact ih h

/-- A name that is missing was looked for. -/
theorem mem_looksThrough_of_missing {links : Nat} {directory : Location} {name : String}
    (h : tree.follow purpose links location names = .ok (.missing directory name)) :
    directory ++ [name] ∈ tree.looksThrough links location names := by
  fun_induction follow tree purpose links location names with
  | case1 links location names landing hleg =>
    cases h
    rw [looksThrough]
    exact List.mem_append_left _ (mem_looksAt_of_missing hleg)
  | case2 => cases h
  | case3 => cases h
  | case4 location names other target rest hleg links ih =>
    -- What a path is followed for makes a difference at its end only, and here is a link.
    have huse : tree.followNames .use location names = .link other target rest := by
      cases purpose with
      | use => exact hleg
      | write => exact followNames_use hleg fun _ hrefused => Leg.noConfusion hrefused
    rw [looksThrough, huse]
    exact List.mem_append_right _ (ih h)

/-- Where a path leads in a grounded tree, something stands. -/
theorem entry_isSome_of_locate (h : tree.Grounded) (hplace : tree.locate path = .ok place) :
    (tree.entry? place).isSome := by
  obtain ⟨haskable, hfollow⟩ := locate_eq_ok_iff.mp hplace
  have hresolve : tree.resolveFor .use path = .ok (.found place) := by
    rw [FileTree.resolveFor, haskable]
    exact hfollow
  rcases resolveFor_lands h hresolve with hentry | ⟨bytes, hentry⟩ <;> simp [hentry]

/-! ## Entries that are added

Files are asked for, read, written and made alike in a tree and in a larger one, as long as nothing
of what the larger one has besides lies on the way.
-/

/-- Whether a tree has the entries of another one, and some more where nothing stood. -/
structure Joins (added : Location → Option Entry) (first second : FileTree) : Prop where
  workDirectory : second.workDirectory = first.workDirectory
  same : ∀ location, added location = none → second.entry? location = first.entry? location
  fresh : ∀ location entry, added location = some entry → first.entry? location = none
  new : ∀ location entry, added location = some entry → second.entry? location = some entry

/-- A tree with the entries of a ledger besides its own. -/
def besides (tree : FileTree) (extra : Ledger Location Entry) : FileTree :=
  { tree with entries := ⟨tree.entries.entries ++ extra.entries⟩ }

/-- Entries can be put besides those of a tree where nothing stands. -/
theorem joins_besides {extra : Ledger Location Entry}
    (h : ∀ location ∈ extra.keys, tree.entry? location = none) :
    Joins extra.get? tree (tree.besides extra) := by
  -- What stood in the tree is found first, and what is put besides it after that.
  have hentry : ∀ location, location ≠ [] → FileTree.entry? (tree.besides extra) location
      = (tree.entry? location).or (extra.get? location) := by
    intro location hroot
    simp [hroot, FileTree.entry?, besides, Ledger.get?, List.find?_append, Option.map_or]
  have hfresh : ∀ location entry, extra.get? location = some entry →
      tree.entry? location = none := fun location entry hadded =>
    h location ((extra.mem_keys_iff location).mpr (by rw [hadded]; rfl))
  refine ⟨rfl, fun location hadded => ?_, hfresh, fun location entry hadded => ?_⟩
  · by_cases hroot : location = []
    · simp [hroot, FileTree.entry?]
    · rw [hentry location hroot, hadded, Option.or_none]
  · have hnone := hfresh location entry hadded
    -- The root is there in any tree, so it cannot have been added.
    have hroot : location ≠ [] := by
      rintro rfl
      cases hnone
    rw [hentry location hroot, hnone, Option.none_or, hadded]

/-- Whether nothing that is added lies on the way of a path. -/
def Avoids (added : Location → Option Entry) (tree : FileTree) (path : Path) : Prop :=
  ∀ location ∈ tree.onWay path, added location = none

variable {added : Location → Option Entry}

instance : Decidable (Avoids added tree path) :=
  inferInstanceAs (Decidable (∀ location ∈ tree.onWay path, added location = none))

/-- What is not on a way is not on a part of it. -/
theorem Avoids.mono (h : second.Avoids added path) (hway : first.onWay path ⊆ second.onWay path) :
    first.Avoids added path := fun location hmem => h location (hway hmem)

/-- What avoids a path avoids the path without its last name. -/
theorem Avoids.above {name : String} (h : tree.Avoids added (path.below [name])) :
    tree.Avoids added path := fun location hmem => h location (onWay_below tree path name hmem)

namespace Joins

variable (h : Joins added first second)

include h

/-- Where something stands, nothing is added. -/
theorem added_eq_none {entry : Entry} (hentry : first.entry? location = some entry) :
    added location = none := by
  cases hadded : added location with
  | none => rfl
  | some other => cases (h.fresh location other hadded).symm.trans hentry

/-- Where something stands in the smaller tree, the same stands in the larger one. -/
theorem entry_eq (hthere : (first.entry? location).isSome) :
    second.entry? location = first.entry? location := by
  obtain ⟨entry, hentry⟩ := Option.isSome_iff_exists.mp hthere
  exact h.same location (h.added_eq_none hentry)

/-- The larger tree has all that the smaller one has. -/
theorem keeps : first.Keeps second where
  workDirectory := h.workDirectory
  entries location old hold := by
    refine ⟨old, ?_, .refl old⟩
    rw [h.entry_eq (by rw [hold]; rfl), hold]

/-- The same may be put into both trees where nothing is added. -/
theorem put (hlocation : location ≠ []) (hadded : added location = none) (entry : Entry) :
    Joins added (first.put location entry) (second.put location entry) where
  workDirectory := h.workDirectory
  same other hother := by
    rw [entry_put hlocation, entry_put hlocation, h.same other hother]
  fresh other new hnew := by
    -- The entry is put where nothing was added.
    have hne : other ≠ location := by
      rintro rfl
      cases hadded.symm.trans hnew
    rw [entry_put hlocation, if_neg hne]
    exact h.fresh other new hnew
  new other new hnew := by
    have hne : other ≠ location := by
      rintro rfl
      cases hadded.symm.trans hnew
    rw [entry_put hlocation, if_neg hne]
    exact h.new other new hnew

/-! ### Asking -/

/-- What can be read without the added entries is read with them, too. -/
theorem read {bytes : Bytes} (hread : first.read path = .ok bytes) :
    second.read path = .ok bytes := by
  obtain ⟨location, hlocation, hbytes⟩ := read_eq_ok_iff.mp hread
  refine read_eq_ok_iff.mpr ⟨location, locate_keeps h.keeps hlocation, ?_⟩
  rw [fileAt_eq_some_iff] at hbytes ⊢
  rw [h.entry_eq (by rw [hbytes]; rfl), hbytes]

/-- A path that avoids what is added leads to the same in both trees. -/
theorem resolveFor (havoids : first.Avoids added path) :
    second.resolveFor purpose path = first.resolveFor purpose path := by
  unfold FileTree.resolveFor
  rw [h.workDirectory, follow_congr fun location hmem => h.same location (havoids location hmem)]

/-- A path that avoids what is added has the same location in both trees. -/
theorem locate (havoids : first.Avoids added path) : second.locate path = first.locate path := by
  unfold FileTree.locate resolve
  rw [h.resolveFor havoids]

/-- Where a path leads in a grounded tree, the same stands in both trees. -/
theorem entryAt (hgrounded : first.Grounded) (havoids : first.Avoids added path) :
    second.entryAt path = first.entryAt path := by
  unfold FileTree.entryAt
  rw [h.locate havoids]
  cases hplace : first.locate path with
  | error cause => rfl
  | ok place =>
    dsimp only
    rw [h.entry_eq]
    exact entry_isSome_of_locate hgrounded hplace

/-- The same is read at such a path in both trees. -/
theorem read_eq (hgrounded : first.Grounded) (havoids : first.Avoids added path) :
    second.read path = first.read path := by
  unfold FileTree.read
  rw [h.entryAt hgrounded havoids]

/-- Something stands at such a path in both trees or in neither. -/
theorem isPresent (hgrounded : first.Grounded) (havoids : first.Avoids added path) :
    second.isPresent path = first.isPresent path := by
  unfold FileTree.isPresent holdsAt
  rw [h.entryAt hgrounded havoids]

/-- A directory stands at such a path in both trees or in neither. -/
theorem isDirectory (hgrounded : first.Grounded) (havoids : first.Avoids added path) :
    second.isDirectory path = first.isDirectory path := by
  unfold FileTree.isDirectory holdsAt
  rw [h.entryAt hgrounded havoids]

/-! ### Writing -/

/-- Writing to such a path goes to the same place. -/
theorem writeTarget (hgrounded : first.Grounded) (havoids : first.Avoids added path) :
    second.writeTarget path = first.writeTarget path := by
  unfold FileTree.writeTarget
  rw [h.resolveFor havoids]
  rcases hresolve : first.resolveFor .write path with cause | (location | ⟨directory, name⟩)
  · rfl
  · have hthere : (first.entry? location).isSome := by
      rcases resolveFor_lands hgrounded hresolve with hentry | ⟨bytes, hentry⟩ <;> simp [hentry]
    dsimp only
    rw [h.entry_eq hthere]
  · rfl

omit h in
/-- Nothing is added where something is written. -/
theorem added_writeTarget (h : Joins added first second) (hgrounded : first.Grounded)
    (havoids : first.Avoids added path) (htarget : first.writeTarget path = .ok location) :
    added location = none := by
  unfold FileTree.writeTarget at htarget
  split at htarget
  case h_1 directory name hresolve =>
    cases htarget
    unfold FileTree.resolveFor at hresolve
    split at hresolve
    · cases hresolve
    -- A name that is missing has been looked for on the way, and what was added is not on the way.
    · exact havoids _ (mem_looksThrough_of_missing hresolve)
  case h_2 place hresolve =>
    split at htarget
    · cases htarget
    · cases htarget
      -- What is found stood in the smaller tree already.
      rcases resolveFor_lands hgrounded hresolve with hentry | ⟨bytes, hentry⟩ <;>
        exact h.added_eq_none hentry
  case h_3 => cases htarget

/-- A file is written to both trees, or to none of them for the same fault. -/
theorem write (hgrounded : first.Grounded) (havoids : first.Avoids added path) (bytes : Bytes) :
    (∃ fault, first.write path bytes = .error fault ∧ second.write path bytes = .error fault) ∨
      ∃ after after', first.write path bytes = .ok after ∧ second.write path bytes = .ok after' ∧
        Joins added after after' := by
  have hsame := h.writeTarget hgrounded havoids
  cases htarget : first.writeTarget path with
  -- Neither tree has a place to write to.
  | error cause =>
    refine .inl ⟨⟨cause, path.text, none⟩, ?_, ?_⟩
    · rw [FileTree.write, htarget]
      rfl
    · rw [FileTree.write, hsame, htarget]
      rfl
  | ok location =>
    have hput := h.put (mayPut_of_writeTarget hgrounded htarget bytes).ne_nil
      (h.added_writeTarget hgrounded havoids htarget) (.file bytes)
    refine .inr ⟨_, _, write_eq_ok_iff.mpr ⟨location, htarget, rfl⟩,
      write_eq_ok_iff.mpr ⟨location, hsame.trans htarget, rfl⟩, hput⟩

end Joins

/-! ### Making directories -/

/-- A directory that is made where a path says is made on the way of the path. -/
theorem mem_onWay_of_placeOf (hwritten : path.IsWritten) (h : tree.placeOf path = .ok location) :
    location ∈ tree.onWay path := by
  obtain ⟨directory, name, -, hparts, hdirectory, hentry, hdots, hlong, rfl⟩ := placeOf_eq_ok h
  have hname : name ∈ path.parts := by
    rw [hparts]
    simp
  obtain ⟨hempty, hdot⟩ := hwritten name hname
  -- The last name is looked up in the directory that the other names lead to.
  have hlast : ∀ links, directory ++ [name] ∈ tree.looksThrough links directory [name] := by
    intro links
    rw [looksThrough, looksAt, if_neg (by simp [hentry]), if_neg (by simp [hempty, hdot]),
      if_neg hdots, if_neg (by simp [hlong])]
    simp
  obtain ⟨-, hfollow⟩ := locate_eq_ok_iff.mp hdirectory
  rw [onWay, hparts]
  rcases looksThrough_snoc tree maxLinks (startOf path.anchor tree.workDirectory)
    path.parts.dropLast name with ⟨place, remaining, hplace, -, hlooks⟩ | ⟨hnone, -⟩
  · cases hfollow.symm.trans hplace
    rw [hlooks]
    exact List.mem_append_right _ (hlast remaining)
  · exact absurd hfollow (hnone directory)

namespace Joins

variable {added : Location → Option Entry} (h : Joins added first second)

include h

/-- A path that has a name has the path of the directory above it. -/
theorem placeOf (hgrounded : first.Grounded) (havoids : first.Avoids added path) :
    second.placeOf path = first.placeOf path := by
  unfold FileTree.placeOf
  split
  case h_1 => rfl
  case h_2 => rfl
  case h_3 name haskable hname =>
    obtain ⟨above, hparts⟩ := List.getLast?_eq_some_iff.mp hname
    -- The way to the directory above is part of the way to the path.
    have habove : first.Avoids added ⟨path.anchor, path.parts.dropLast⟩ := by
      intro other hmem
      have hbelow := onWay_below first ⟨path.anchor, path.parts.dropLast⟩ name hmem
      rw [Path.below, hparts, List.dropLast_concat, ← hparts] at hbelow
      exact havoids other hbelow
    rw [h.locate habove]
    cases hplace : first.locate ⟨path.anchor, path.parts.dropLast⟩ with
    | error cause => rfl
    | ok directory =>
      dsimp only
      rw [h.entry_eq (entry_isSome_of_locate hgrounded hplace)]

/-- A directory is made in both trees, or in none of them for the same fault. -/
theorem makeDirectory (hgrounded : first.Grounded) (hwritten : path.IsWritten)
    (havoids : first.Avoids added path) :
    (∃ fault, first.makeDirectory path = .error fault ∧
        second.makeDirectory path = .error fault) ∨
      ∃ after after', first.makeDirectory path = .ok after ∧
        second.makeDirectory path = .ok after' ∧ Joins added after after' := by
  unfold FileTree.makeDirectory
  rw [h.placeOf hgrounded havoids]
  cases hplace : first.placeOf path with
  | error cause => exact .inl ⟨_, rfl, rfl⟩
  | ok location =>
    have hadded := havoids _ (mem_onWay_of_placeOf hwritten hplace)
    dsimp only
    rw [h.same location hadded]
    cases hentry : first.entry? location with
    -- Something stands there in both trees, so neither makes a directory.
    | some entry => exact .inl ⟨_, rfl, rfl⟩
    | none =>
      have hput : first.MayPut location .directory := mayPut_of_placeOf hplace hentry
      exact .inr ⟨_, _, rfl, rfl, h.put hput.ne_nil hadded .directory⟩

/-- A directory that cannot be made is there already in both trees, or in neither. -/
theorem settle (hgrounded : first.Grounded) (havoids : first.Avoids added path)
    (fault : FileFault) :
    (second.settle path fault).1 = (first.settle path fault).1 ∧
      Joins added (first.settle path fault).2 (second.settle path fault).2 := by
  rw [settle_snd, settle_snd]
  refine ⟨?_, h⟩
  unfold FileTree.settle
  rw [h.isDirectory hgrounded havoids]
  rcases first.isDirectory path with other | _ | _ <;> rfl

/-- One directory is made in both trees, or in neither. -/
theorem ensureDirectory (hgrounded : first.Grounded) (hwritten : path.IsWritten)
    (havoids : first.Avoids added path) :
    (second.ensureDirectory path).1 = (first.ensureDirectory path).1 ∧
      Joins added (first.ensureDirectory path).2 (second.ensureDirectory path).2 := by
  unfold FileTree.ensureDirectory
  rcases h.makeDirectory hgrounded hwritten havoids with
    ⟨fault, hfirst, hsecond⟩ | ⟨after, after', hfirst, hsecond, hjoins⟩
  · rw [hfirst, hsecond]
    dsimp only
    split
    · exact ⟨rfl, h⟩
    · exact h.settle hgrounded havoids fault
  · rw [hfirst, hsecond]
    exact ⟨rfl, hjoins⟩

omit h in
/-- Directories are made alike where nothing is added on the way that there is in the end. -/
theorem ensureParents {anchor : Anchor} {reversed : List String} {final : FileTree}
    (h : Joins added first second) (hgrounded : first.Grounded)
    (hwritten : Path.IsWritten ⟨anchor, reversed.reverse⟩)
    (hfinal : (FileTree.ensureParents anchor reversed first).2.Keeps final)
    (havoids : final.Avoids added ⟨anchor, reversed.reverse⟩) :
    (FileTree.ensureParents anchor reversed second).1
        = (FileTree.ensureParents anchor reversed first).1 ∧
      Joins added (FileTree.ensureParents anchor reversed first).2
        (FileTree.ensureParents anchor reversed second).2 := by
  induction reversed generalizing first second with
  | nil =>
    have hkeeps := (makesDirectories_ensureDirectory first ⟨anchor, []⟩).keeps.trans hfinal
    exact h.ensureDirectory hgrounded hwritten (havoids.mono (onWay_keeps hkeeps _))
  | cons name above ih =>
    have hkeeps := (makesDirectories_ensureParents anchor (name :: above) first).keeps.trans hfinal
    unfold FileTree.ensureParents at hfinal ⊢
    dsimp only at hfinal ⊢
    rcases h.makeDirectory hgrounded hwritten (havoids.mono (onWay_keeps hkeeps _)) with
      ⟨fault, hfirst, hsecond⟩ | ⟨after, after', hfirst, hsecond, hjoins⟩
    · rw [hfirst] at hfinal ⊢
      rw [hsecond]
      dsimp only at hfinal ⊢
      by_cases hcause : fault.cause = .notFound
      · rw [if_pos hcause] at hfinal ⊢
        rw [if_pos hcause]
        -- The directories above are made first, and there are at least those in the end.
        have hbelow : (⟨anchor, (name :: above).reverse⟩ : Path)
            = (⟨anchor, above.reverse⟩ : Path).below [name] := by simp [Path.below]
        have habove : final.Avoids added ⟨anchor, above.reverse⟩ := by
          rw [hbelow] at havoids
          exact havoids.above
        have hparts : Path.IsWritten ⟨anchor, above.reverse⟩ := fun part hpart =>
          hwritten part (by simpa using .inl (List.mem_reverse.mp hpart))
        have hkeep : (FileTree.ensureParents anchor above first).2.Keeps final := by
          rcases hmade : FileTree.ensureParents anchor above first with ⟨other | ⟨⟨⟩⟩, between⟩
          · rw [hmade] at hfinal
            exact hfinal
          · rw [hmade] at hfinal
            exact (makesDirectories_ensureDirectory between _).keeps.trans hfinal
        have hmade := (makesDirectories_ensureParents anchor above first).grounded hgrounded
        obtain ⟨hresult, hjoins⟩ := ih h hgrounded hparts hkeep habove
        generalize FileTree.ensureParents anchor above first = one at hkeep hmade hresult hjoins ⊢
        generalize FileTree.ensureParents anchor above second = other at hresult hjoins ⊢
        obtain ⟨result, between⟩ := one
        obtain ⟨result', between'⟩ := other
        dsimp only at hresult
        subst hresult
        rcases result' with fault | ⟨⟨⟩⟩
        -- If those above cannot be made, nothing more is tried.
        · exact ⟨rfl, hjoins⟩
        · exact hjoins.ensureDirectory hmade hwritten (havoids.mono (onWay_keeps hkeep _))
      · rw [if_neg hcause] at hfinal ⊢
        rw [if_neg hcause]
        exact h.settle hgrounded (havoids.mono (onWay_keeps hkeeps _)) fault
    · rw [hfirst, hsecond]
      exact ⟨rfl, hjoins⟩

/-- The directories of a path are made in both trees, or in neither. -/
theorem ensureDirectories (hgrounded : first.Grounded) (hwritten : path.IsWritten)
    (havoids : (first.ensureDirectories path).2.Avoids added path) :
    (second.ensureDirectories path).1 = (first.ensureDirectories path).1 ∧
      Joins added (first.ensureDirectories path).2 (second.ensureDirectories path).2 := by
  have hwhole : (⟨path.anchor, path.parts.reverse.reverse⟩ : Path) = path := by simp
  exact ensureParents h hgrounded (by rwa [hwhole]) (.refl _) (by rwa [hwhole])

end Joins

/-- What avoids a path once there is a directory avoids it before that, too. -/
theorem Avoids.before (h : (tree.withDirectory path).Avoids added path) : tree.Avoids added path :=
  h.mono (onWay_keeps (keeps_withDirectory tree path) path)

/-- The output directory is made of both trees alike. -/
theorem Joins.withDirectory (h : Joins added first second) (hgrounded : first.Grounded)
    (hwritten : path.IsWritten) (havoids : (first.withDirectory path).Avoids added path) :
    Joins added (first.withDirectory path) (second.withDirectory path) := by
  have hsame := h.isPresent hgrounded havoids.before
  unfold FileTree.withDirectory at havoids ⊢
  rw [hsame]
  split
  case h_1 habsent =>
    rw [habsent] at havoids
    exact (h.ensureDirectories hgrounded hwritten havoids).2
  case h_2 => exact h

/-- What avoids a directory, and what stands under a name in it, avoids the path with the name. -/
theorem Avoids.below {name : String} (h : tree.Avoids added path)
    (hplace : tree.locate path = .ok place)
    (hlink : ∀ target, tree.entry? (place ++ [name]) ≠ some (.link target))
    (hadded : added place = none) (hname : added (place ++ [name]) = none) :
    tree.Avoids added (path.below [name]) := by
  obtain ⟨-, hfollow⟩ := locate_eq_ok_iff.mp hplace
  intro location hmem
  rw [onWay, Path.below] at hmem
  rcases looksThrough_snoc tree maxLinks (startOf path.anchor tree.workDirectory) path.parts name
    with ⟨other, remaining, hother, -, hlooks⟩ | ⟨hnone, -⟩
  · cases hfollow.symm.trans hother
    rw [hlooks] at hmem
    rcases List.mem_append.mp hmem with hmem | hmem
    · exact h location hmem
    -- Besides the way to the directory, only the directory and the name in it are looked at.
    · have hpair := looksThrough_name hlink remaining hmem
      simp only [List.mem_cons, List.not_mem_nil, or_false] at hpair
      rcases hpair with rfl | rfl
      · exact hadded
      · exact hname
  · exact absurd hfollow (hnone place)

/-- Entries that are added elsewhere lie on the way of no name in an empty directory. -/
theorem Avoids.of_empty {extra : Ledger Location Entry} (h : tree.Avoids extra.get? path)
    (hplace : tree.locate path = .ok place)
    (hempty : ∀ location ∈ tree.entries.keys, location.dropLast ≠ place)
    (hextra : ∀ location ∈ extra.keys, location ≠ place ∧ location.dropLast ≠ place)
    (name : String) : tree.Avoids extra.get? (path.below [name]) := by
  -- The ledger has nothing at the directory, nor anything right below it.
  have hnone : ∀ location, location = place ∨ location.dropLast = place →
      extra.get? location = none := by
    intro location hlocation
    rw [← Option.not_isSome_iff_eq_none, ← extra.mem_keys_iff]
    intro hmem
    obtain ⟨hself, habove⟩ := hextra location hmem
    exact hlocation.elim hself habove
  refine h.below hplace (fun target htarget => ?_) (hnone place (.inl rfl))
    (hnone _ (.inr List.dropLast_concat))
  exact hempty _ (mem_keys_of_entry (by simp) htarget) List.dropLast_concat

end FileTree

end SourceMutation
