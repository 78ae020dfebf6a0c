import SourceMutation.Proofs.Names
import SourceMutation.Proofs.Scripts

/-!
# Ensuring the output directory

What comes of ensuring that there is a directory for the output (`Run.Preparation`).  Whatever it
is, nothing that was there is changed, and only directories are made.

It should be one of two things: a directory to which the path leads, or a refusal of the output
(`Run.Settles`).  That is so exactly if no file stands where the path leads and the path can be
asked for (`Run.ensureOutputDirectory_prepared`).  For it is asked first whether anything stands
there: a file that does is left to whoever writes into it, and a question that is refused is not
told as a refusal of the output.
-/

namespace SourceMutation

variable {σ : Type}

namespace FileTree

variable {tree : FileTree} {path : Path} {location : Location} {names : List String}
  {cause : FileCause}

/-! ## Asking what stands at a path -/

/-- Names that lead to nothing do so because nothing usable is there, or for a name too long. -/
theorem followNames_cause (hleg : tree.followNames .use location names = .refused cause)
    (hcause : cause.meansAbsent = false) : cause = .nameTooLong := by
  fun_induction followNames tree .use location names with
  | case1 | case7 | case9 => cases hleg
  | case2 | case8 =>
    cases hleg
    cases hcause
  | case5 location name rest hdirectory hstay hup hslash => simp at hslash
  | case6 =>
    cases hleg
    rfl
  | case3 location name rest hdirectory hstay ih => exact ih hleg
  | case4 location rest hdirectory hstay ih => exact ih hleg
  | case10 location name rest hdirectory hstay hup hslash hlong entry hlink hentry ih => exact ih hleg

theorem follow_cause {links : Nat} (hfollow : tree.follow .use links location names = .error cause)
    (hcause : cause.meansAbsent = false) : cause = .nameTooLong := by
  fun_induction follow tree .use links location names with
  | case1 => cases hfollow
  | case2 links location names other hleg =>
    cases hfollow
    exact followNames_cause hleg hcause
  | case3 =>
    cases hfollow
    cases hcause
  | case4 location names directory target rest hleg links ih => exact ih hfollow

theorem resolve_cause (hresolve : tree.resolve path = .error cause)
    (hcause : cause.meansAbsent = false) : cause = .nameTooLong := by
  unfold resolve resolveFor at hresolve
  split at hresolve
  case h_1 other hother =>
    cases hresolve
    unfold unaskable? at hother
    split at hother
    · cases hother
      cases hcause
    · split at hother
      · exact (Option.some.inj hother).symm
      · cases hother
  case h_2 => exact follow_cause hresolve hcause

/-- Only a name that is too long keeps it from being told what stands at a path. -/
theorem entryAt_cause (hentry : tree.entryAt path = .error cause)
    (hcause : cause.meansAbsent = false) : cause = .nameTooLong := by
  unfold entryAt at hentry
  split at hentry
  case h_1 =>
    split at hentry
    · cases hentry
    · cases hentry
      cases hcause
  -- The cause came up on the way, where most causes mean that nothing is there.
  case h_2 other hlocate =>
    cases hentry
    unfold locate at hlocate
    split at hlocate
    case h_1 => cases hlocate
    case h_2 =>
      cases hlocate
      cases hcause
    case h_3 other hresolve =>
      cases hlocate
      exact resolve_cause hresolve hcause

theorem leadsToDirectory_iff_entryAt :
    tree.LeadsToDirectory path ↔ tree.entryAt path = .ok .directory := by
  unfold LeadsToDirectory entryAt
  cases tree.locate path with
  | error other => simp
  | ok place => cases hentry : tree.entry? place <;> simp [hentry]

/-- Nothing stands at a path with a null character, and only there is that the reason. -/
theorem entryAt_eq_null_iff : tree.entryAt path = .error .nullCharacter ↔ ¬NullFree path.text := by
  unfold entryAt
  constructor
  · intro hentry hnull
    split at hentry
    case h_1 => split at hentry <;> cases hentry
    case h_2 other hlocate =>
      cases hentry
      exact locate_ne_null hnull hlocate
  · intro hnull
    rw [locate, resolve, resolveFor, unaskable?_of_not_nullFree hnull]

/-- What is known of a path if something is present there. -/
theorem exists_entryAt_of_present (h : tree.isPresent path = .ok true) :
    ∃ entry, tree.entryAt path = .ok entry := by
  obtain ⟨place, hplace, hentry⟩ := locate_of_isPresent h
  obtain ⟨entry, hentry⟩ := Option.isSome_iff_exists.mp hentry
  exact ⟨entry, by simp [entryAt, hplace, hentry]⟩

/-- What is known of a path if nothing is present there. -/
theorem exists_entryAt_of_absent (h : tree.isPresent path = .ok false) :
    ∃ cause, tree.entryAt path = .error cause ∧ cause.meansAbsent = true := by
  unfold isPresent holdsAt at h
  split at h
  case h_1 => cases h
  case h_2 cause hentry =>
    split at h
    case isTrue habsent => exact ⟨cause, hentry, habsent⟩
    case isFalse => cases h

/-- What is known of a path if it cannot be told whether something is present there. -/
theorem entryAt_of_unasked {fault : FileFault} (h : tree.isPresent path = .error fault) :
    tree.entryAt path = .error .nameTooLong ∧ fault = ⟨.nameTooLong, path.text, none⟩ := by
  unfold isPresent holdsAt at h
  split at h
  case h_1 => cases h
  case h_2 cause hentry =>
    split at h
    case isTrue => cases h
    case isFalse habsent =>
      cases h
      obtain rfl := entryAt_cause hentry (by simpa using habsent)
      exact ⟨hentry, rfl⟩

/-- Under a name that is too long nothing can be asked for, not even in a directory. -/
theorem entryAt_of_tooLong {name : String} (hwork : tree.entry? tree.workDirectory = some .directory)
    (haskable : unaskable? ⟨.relative, [name]⟩ = none) (hlong : isTooLong name = true) :
    tree.entryAt ⟨.relative, [name]⟩ = .error .nameTooLong := by
  have hname : name ≠ "" ∧ name ≠ "." ∧ name ≠ ".." := by
    refine ⟨?_, ?_, ?_⟩ <;>
    · rintro rfl
      revert hlong
      decide
  simp [entryAt, locate, resolve, resolveFor, haskable, startOf, follow, followNames, hwork, hname,
    hlong]

/-- Whether a directory stands at a path, or nothing stands there as far as can be told. -/
def AdmitsDirectory (tree : FileTree) (path : Path) : Prop :=
  match tree.entryAt path with
  | .ok entry => entry = .directory
  | .error cause => cause ≠ .nameTooLong ∧ cause ≠ .nullCharacter

theorem admitsDirectory_of_absent (habsent : tree.isPresent path = .ok false)
    (hnull : NullFree path.text) : tree.AdmitsDirectory path := by
  obtain ⟨cause, hentry, hmeans⟩ := exists_entryAt_of_absent habsent
  rw [AdmitsDirectory, hentry]
  constructor
  · rintro rfl
    cases hmeans
  · rintro rfl
    exact entryAt_eq_null_iff.mp hentry hnull

end FileTree

namespace Run

/-! ## Outcomes -/

/-- What can come of ensuring that there is an output directory: a result, and a world after it. -/
inductive Preparation (directory : Path) (before : World σ) : Except Stop Unit → World σ → Prop
  /-- It is there already, and nothing is touched. -/
  | there (hentry : before.tree.entryAt directory = .ok .directory) :
      Preparation directory before (.ok ()) before
  /-- Nothing was there, and it was made. -/
  | made {after : World σ} (habsent : before.tree.isPresent directory = .ok false)
      (hleads : after.tree.LeadsToDirectory directory) :
      Preparation directory before (.ok ()) after
  /-- Nothing was there, and it cannot be made; some directories above it may have been. -/
  | unmade {after : World σ} {fault : FileFault}
      (habsent : before.tree.isPresent directory = .ok false)
      (hfault : (before.tree.ensureDirectories directory).1 = .error fault)
      (hcause : fault.cause ≠ .nullCharacter) :
      Preparation directory before
        (.error (.failed (.outputWrite directory.text fault.message))) after
  /-- Something else is there, which is passed over. -/
  | occupied {entry : Entry} (hentry : before.tree.entryAt directory = .ok entry)
      (hother : entry ≠ .directory) : Preparation directory before (.ok ()) before
  /-- The path, or a name on its way, is too long to ask what is there. -/
  | unasked (hentry : before.tree.entryAt directory = .error .nameTooLong) :
      Preparation directory before
        (.error (.failed (.file ⟨.nameTooLong, directory.text, none⟩))) before
  /-- No directory can have the path, for a null character in it. -/
  | nameless (hnull : ¬NullFree directory.text) :
      Preparation directory before
        (.error (.failed (.file ⟨.nullCharacter, directory.text, none⟩))) before

/-- The two ways in which ensuring the output directory should end. -/
inductive Settles (directory : Path) : Except Stop Unit → World σ → Prop
  /-- The path leads to a directory. -/
  | ready {after : World σ} (hleads : after.tree.LeadsToDirectory directory) :
      Settles directory (.ok ()) after
  /-- The output is refused. -/
  | refused {message : String} {after : World σ} :
      Settles directory (.error (.failed (.outputWrite directory.text message))) after

/-- What is known of an output directory once it was tried to ensure it. -/
structure Prepared (directory : Path) (before : World σ) (result : Except Stop Unit)
    (after : World σ) : Prop where
  /-- Whatever was there is there as it was, and only directories were made. -/
  makes : before.tree.MakesDirectories after.tree
  outcome : Preparation directory before result after
  /-- It ends as it should exactly if a directory was there, or nothing as far as can be told. -/
  settles_iff : Settles directory result after ↔ before.tree.AdmitsDirectory directory

variable {directory : Path} {before after : World σ} {result : Except Stop Unit}

theorem ensureOutputDirectory_makes (directory : Path) (before : World σ) :
    before.tree.MakesDirectories (ensureOutputDirectory directory before).2.tree := by
  rw [ensureOutputDirectory_apply]
  split
  case h_1 | h_2 => exact .refl before.tree
  case h_3 =>
    have hmakes := FileTree.makesDirectories_ensureDirectories before.tree directory
    split
    all_goals
      rename_i tree hmade
      rw [hmade] at hmakes
      exact hmakes

/-- It is asked what stands there, and if nothing does, a directory is made or not. -/
theorem ensureOutputDirectory_preparation (directory : Path) (before : World σ) :
    Preparation directory before (ensureOutputDirectory directory before).1
      (ensureOutputDirectory directory before).2 := by
  rw [ensureOutputDirectory_apply]
  rcases hpresent : before.tree.isPresent directory with fault | _ | _
  · obtain ⟨hentry, rfl⟩ := FileTree.entryAt_of_unasked hpresent
    exact .unasked hentry
  -- Nothing stands there. The directories are made, or cannot be, and a null character is a case of
  -- its own.
  · by_cases hnull : NullFree directory.text
    · rcases hmade : before.tree.ensureDirectories directory with ⟨fault | ⟨⟨⟩⟩, tree⟩
      · have hcause : fault.cause ≠ .nullCharacter := fun heq =>
          (FileTree.ensureDirectories_of_null hmade heq).1 hnull
        have hfailure : Failure.ofFault (.outputWrite directory.text) fault
            = .outputWrite directory.text fault.message := if_neg hcause
        dsimp only
        rw [hfailure]
        exact .unmade hpresent (congrArg Prod.fst hmade) hcause
      · exact .made hpresent (FileTree.ensureDirectories_leads hmade)
    · rw [FileTree.ensureDirectories_of_not_nullFree _ hnull]
      exact .nameless hnull
  -- Something stands there already, whether or not it is a directory.
  · obtain ⟨entry, hentry⟩ := FileTree.exists_entryAt_of_present hpresent
    by_cases hother : entry = .directory
    · subst hother
      exact .there hentry
    · exact .occupied hentry hother

/-- It ends as it should where a directory is there or nothing, as far as can be told. -/
theorem Preparation.settles_iff (h : Preparation directory before result after) :
    Settles directory result after ↔ before.tree.AdmitsDirectory directory := by
  -- Each way in which the preparation ends decides both sides.
  cases h with
  | there hentry =>
    refine iff_of_true (.ready (FileTree.leadsToDirectory_iff_entryAt.mpr hentry)) ?_
    rw [FileTree.AdmitsDirectory, hentry]
  | made habsent hleads =>
    obtain ⟨place, hplace, -⟩ := id hleads
    exact iff_of_true (.ready hleads)
      (FileTree.admitsDirectory_of_absent habsent (FileTree.nullFree_of_locate hplace))
  | unmade habsent hfault hcause =>
    refine iff_of_true .refused (FileTree.admitsDirectory_of_absent habsent ?_)
    by_contra hnull
    rw [FileTree.ensureDirectories_of_not_nullFree _ hnull] at hfault
    cases hfault
    exact hcause rfl
  | occupied hentry hother =>
    rw [FileTree.AdmitsDirectory, hentry]
    refine iff_of_false ?_ hother
    rintro ⟨hleads⟩
    rw [FileTree.leadsToDirectory_iff_entryAt, hentry] at hleads
    exact hother (Except.ok.inj hleads)
  | unasked hentry =>
    rw [FileTree.AdmitsDirectory, hentry]
    exact iff_of_false nofun fun h => h.1 rfl
  | nameless hnull =>
    rw [FileTree.AdmitsDirectory, FileTree.entryAt_eq_null_iff.mpr hnull]
    exact iff_of_false nofun fun h => h.2 rfl

/--
Whatever stands at the path of the output directory and on its way, nothing of it is changed.  The
path leads to a directory afterwards or the output is refused, unless a file was there, or it could
not be told what was there.
-/
theorem ensureOutputDirectory_prepared (directory : Path) (before : World σ) :
    Prepared directory before (ensureOutputDirectory directory before).1
      (ensureOutputDirectory directory before).2 := by
  have houtcome := ensureOutputDirectory_preparation directory before
  exact ⟨ensureOutputDirectory_makes directory before, houtcome, houtcome.settles_iff⟩

/-! ### Two paths that are passed over -/

/-- The file `out`, in the working directory. -/
def outFileTree : FileTree where
  workDirectory := ["w"]
  entries := ⟨[(["w"], .directory), (["w", "out"], .file [0x78])]⟩

/-- A world with that file. -/
def outFileStart : World Script := World.fresh outFileTree ⟨[]⟩ .empty

/-- A name of as many bytes. -/
def longName (bytes : Nat) : String := String.ofList (List.replicate bytes 'd')

theorem length_encode_longName (bytes : Nat) : (Utf8.encode (longName bytes)).length = bytes := by
  have hone : 'd'.utf8Size = 1 := rfl
  simp [Utf8.encode, longName, hone]

/-- The path of such a name in the working directory. -/
def longPath (bytes : Nat) : Path := ⟨.relative, [longName bytes]⟩

/-- The name may be too long where the path is not. -/
theorem entryAt_longPath {bytes : Nat} (hlong : FileTree.maxNameBytes < bytes)
    (hshort : bytes ≤ FileTree.maxPathBytes) :
    outFileTree.entryAt (longPath bytes) = .error .nameTooLong := by
  have htext : (longPath bytes).text = longName bytes := by
    simp [longPath, Path.text, Anchor.text]
  have hnull : '\x00' ∉ (longName bytes).toList := by simp [longName]
  have haskable : FileTree.unaskable? (longPath bytes) = none := by
    simp [FileTree.unaskable?, htext, hnull, length_encode_longName, hshort]
  refine FileTree.entryAt_of_tooLong (by decide) haskable ?_
  simp [FileTree.isTooLong, length_encode_longName, hlong]

/-- The file is taken for the directory, and what is said of the long name is no refusal of the
output. -/
theorem outFile_unsettled :
    outFileTree.Grounded ∧
      (¬Settles ⟨.relative, ["out"]⟩ (ensureOutputDirectory ⟨.relative, ["out"]⟩ outFileStart).1
        (ensureOutputDirectory ⟨.relative, ["out"]⟩ outFileStart).2) ∧
      ¬Settles (longPath 256) (ensureOutputDirectory (longPath 256) outFileStart).1
        (ensureOutputDirectory (longPath 256) outFileStart).2 := by
  refine ⟨by decide, ?_, ?_⟩
  · have hentry : outFileStart.tree.entryAt ⟨.relative, ["out"]⟩ = .ok (.file [0x78]) := by decide
    rw [(ensureOutputDirectory_preparation _ _).settles_iff, FileTree.AdmitsDirectory, hentry]
    simp
  · have hentry : outFileStart.tree.entryAt (longPath 256) = .error .nameTooLong :=
      entryAt_longPath (by decide) (by decide)
    rw [(ensureOutputDirectory_preparation _ _).settles_iff, FileTree.AdmitsDirectory, hentry]
    simp

end Run

end SourceMutation
