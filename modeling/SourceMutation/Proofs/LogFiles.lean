import SourceMutation.Command.Perform
import SourceMutation.Proofs.Names

/-!
# Setting up a log file

Before a command is read, the log may be set up, and with it a log file and the directories above
it.  None of that takes a file tree out of what file systems have (`FileTree.Proper`): every entry
stands in a directory, no name and no link's target has a null character
(`Verbosity.proper_of_apply`).
-/

namespace SourceMutation

/-- The characters of a field are characters of the text. -/
theorem Fields.mem_of_mem_split {separator c : Char} {cs field : List Char}
    (hfield : field ∈ split separator cs) (hc : c ∈ field) : c ∈ cs := by
  induction cs generalizing field with
  | nil =>
    rw [split, List.mem_singleton] at hfield
    simp [hfield] at hc
  | cons d rest ih =>
    rw [split] at hfield
    split at hfield
    -- A separator ends an empty field.
    · rcases List.mem_cons.mp hfield with rfl | hmem
      · cases hc
      · exact List.mem_cons_of_mem _ (ih hmem hc)
    · split at hfield
      case h_1 =>
        rw [List.mem_singleton.mp hfield] at hc
        exact List.mem_cons.mpr (.inl (List.mem_singleton.mp hc))
      -- Any other character goes to the front of the first field.
      case h_2 first others heq =>
        rcases List.mem_cons.mp hfield with rfl | hmem
        · rcases List.mem_cons.mp hc with rfl | hlater
          · exact List.mem_cons_self
          · exact List.mem_cons_of_mem _ (ih (heq ▸ List.mem_cons_self) hlater)
        · exact List.mem_cons_of_mem _ (ih (heq ▸ List.mem_cons_of_mem _ hmem) hc)

/-- Fields of a text without null characters have none. -/
theorem NullFree.of_mem_fields {text part : String} {separator : Char} (h : NullFree text)
    (hpart : part ∈ Fields.ofText separator text) : NullFree part := by
  obtain ⟨field, hfield, rfl⟩ := List.mem_map.mp hpart
  rw [NullFree, String.toList_ofList]
  exact fun hmem => h (Fields.mem_of_mem_split hfield hmem)

/-- The path of a text without null characters has none. -/
theorem Path.nullFree_ofText {text : String} (h : NullFree text) : NullFree (ofText text).text :=
  nullFree_text_iff.mpr fun _ hpart => h.of_mem_fields (List.mem_filter.mp hpart).1

namespace FileTree

variable {tree : FileTree} {path : Path} {location : Location} {names : List String}
  {purpose : Purpose}

/-! ## Trees as file systems have them -/

/-- Whether every entry stands in a directory, and no null character is in a name or in the target
of a link. -/
structure Proper (tree : FileTree) : Prop where
  grounded : tree.Grounded
  names : tree.AllNames NullFree
  targets : ∀ location target, tree.entry? location = some (.link target) → NullFree target

/-- The path of the working directory has no null character. -/
theorem Proper.nullFree_workPath (h : tree.Proper) : NullFree tree.workPath.text :=
  Path.nullFree_text_iff.mpr (h.names.of_entry h.grounded.workDirectory)

/-- An entry may be put under a name without null characters, and a link with a target without. -/
theorem Proper.put {entry : Entry} (h : tree.Proper) (hput : tree.MayPut location entry)
    (hnames : ∀ name ∈ location, NullFree name)
    (htarget : ∀ target, entry = .link target → NullFree target) :
    (tree.put location entry).Proper where
  grounded := hput.grounded h.grounded
  names := h.names.put hnames entry
  targets other target hother := by
    rw [entry_put hput.ne_nil] at hother
    split at hother
    · cases hother
      exact htarget target rfl
    · exact h.targets other target hother

/-- The place where a directory is to be made has no null character in it. -/
theorem Proper.of_placeOf (h : tree.Proper) (hplace : tree.placeOf path = .ok location) :
    ∀ name ∈ location, NullFree name := by
  obtain ⟨-, -, haskable, -⟩ := placeOf_eq_ok hplace
  exact h.names.of_placeOf
    (fun part hpart _ _ => Path.nullFree_text_iff.mp (nullFree_of_askable haskable) part hpart)
    hplace

/-- A tree stays proper when a directory is made. -/
theorem Proper.makeDirectory {after : FileTree} (h : tree.Proper)
    (hmade : tree.makeDirectory path = .ok after) : after.Proper := by
  obtain ⟨location, hplace, hnone, rfl⟩ := makeDirectory_eq_ok hmade
  exact h.put (mayPut_of_placeOf hplace hnone) (h.of_placeOf hplace) nofun

/-! ## Making directories from the highest on

A log file's directory is made from the top down, and not from the bottom up like an output
directory.
-/

section Directories

variable {R : FileTree → Prop}
  (hmake : ∀ {tree : FileTree} {path : Path} {after : FileTree}, R tree →
    tree.makeDirectory path = .ok after → R after)

include hmake

/-- What every new directory preserves, entering one preserves. -/
theorem enter_induct (h : R tree) (path : Path) : R (tree.enter path).2 := by
  unfold enter
  split
  case h_1 after hafter => exact hmake h hafter
  case h_2 => split <;> exact h

/-- What making one directory preserves, making the missing ones from the highest on preserves. -/
theorem buildParents_induct (h : R tree) (anchor : Anchor) (reversed : List String) :
    R (buildParents anchor reversed tree).2 := by
  induction reversed generalizing tree with
  | nil => exact h
  | cons name above ih =>
    have habove : R (if (tree.isPresent ⟨anchor, above.reverse⟩).toOption = some true
        then (.ok (), tree) else buildParents anchor above tree).2 := by
      split
      · exact h
      · exact ih h
    -- Whatever the directories above come to, the next one is made in the tree they leave.
    unfold buildParents
    generalize (if (tree.isPresent ⟨anchor, above.reverse⟩).toOption = some true
      then (.ok (), tree) else buildParents anchor above tree) = ready at habove ⊢
    rcases ready with ⟨fault | _, after⟩
    · dsimp only
      split
      · exact enter_induct hmake habove _
      · exact habove
    · exact enter_induct hmake habove _

end Directories

/-! ## Making a file -/

/-- The name at which following ends for want of an entry has no null character, nor has any name
that is left to follow. -/
theorem followNames_missing {leg : Leg} (hnames : ∀ name ∈ names, NullFree name)
    (hleg : tree.followNames purpose location names = leg) :
    (∀ directory name, leg = .landed (.missing directory name) → NullFree name) ∧
      ∀ directory target rest, leg = .link directory target rest →
        (∃ place, tree.entry? place = some (.link target)) ∧ ∀ name ∈ rest, NullFree name := by
  -- A name comes from the path, or from the target of a link, and neither has a null character.
  subst hleg
  fun_induction followNames tree purpose location names with
  | case1 | case2 | case5 | case6 | case8 => simp
  | case3 location name rest _ _ ih => exact ih (List.forall_mem_cons.mp hnames).2
  | case4 location rest _ _ ih => exact ih (List.forall_mem_cons.mp hnames).2
  | case7 location name => simpa using (List.forall_mem_cons.mp hnames).1
  | case9 location name rest _ _ _ _ _ target hentry =>
    obtain ⟨-, hrest⟩ := List.forall_mem_cons.mp hnames
    refine ⟨fun _ _ hlanded => ?_, fun _ _ _ hlink => ?_⟩
    · cases hlanded
    · cases hlink
      exact ⟨⟨_, hentry⟩, hrest⟩
  | case10 location name rest _ _ _ _ _ entry _ _ ih =>
    exact ih (List.forall_mem_cons.mp hnames).2

/-- The target of a link without null characters has names without them. -/
theorem nullFree_targetNames {target : String} (h : NullFree target) :
    ∀ name ∈ targetNames target, NullFree name := by
  have hfields : ∀ name ∈ (Fields.ofText '/' target).filter fun name => name != "",
      NullFree name := fun name hname => h.of_mem_fields (List.mem_filter.mp hname).1
  unfold targetNames
  dsimp only
  split
  · intro name hname
    rcases List.mem_append.mp hname with hmem | hmem
    · exact hfields name hmem
    · rw [List.mem_singleton.mp hmem]
      decide
  · exact hfields

/-- A name that is missing where a path leads has no null character, whatever links are followed. -/
theorem Proper.follow_missing (h : tree.Proper) {links : Nat} {directory : Location} {name : String}
    (hnames : ∀ name ∈ names, NullFree name)
    (hfollow : tree.follow purpose links location names = .ok (.missing directory name)) :
    NullFree name := by
  fun_induction follow tree purpose links location names with
  | case1 links location names landing hleg =>
    cases hfollow
    exact (followNames_missing hnames hleg).1 _ _ rfl
  | case2 => cases hfollow
  | case3 => cases hfollow
  | case4 location names place target rest hleg links ih =>
    obtain ⟨⟨_, hentry⟩, hrest⟩ := (followNames_missing hnames hleg).2 _ _ _ rfl
    -- Behind a link the names are those of its target, and those that were left.
    refine ih (fun other hother => ?_) hfollow
    rcases List.mem_append.mp hother with hmem | hmem
    · exact nullFree_targetNames (h.targets _ _ hentry) other hmem
    · exact hrest other hmem

/-- A tree that no null character is in has none after a file was put where a path leads. -/
theorem Proper.put_file (h : tree.Proper) (htarget : tree.writeTarget path = .ok location)
    (bytes : Bytes) : (tree.put location (.file bytes)).Proper := by
  have hput := mayPut_of_writeTarget h.grounded htarget bytes
  refine h.put hput (h.names.of_writeTarget h.grounded (fun directory name hresolve => ?_) htarget)
    nofun
  unfold resolveFor at hresolve
  split at hresolve
  case h_1 => cases hresolve
  case h_2 haskable =>
    exact h.follow_missing (Path.nullFree_text_iff.mp (nullFree_of_askable haskable)) hresolve

/-- A tree stays proper when a file is written. -/
theorem Proper.write {bytes : Bytes} {after : FileTree} (h : tree.Proper)
    (hwrite : tree.write path bytes = .ok after) : after.Proper := by
  obtain ⟨location, htarget, rfl⟩ := write_eq_ok_iff.mp hwrite
  exact h.put_file htarget bytes

/-- A tree stays proper when a file is made that may be there already. -/
theorem Proper.ensureFile {after : FileTree} (h : tree.Proper)
    (hmade : tree.ensureFile path = .ok after) : after.Proper := by
  unfold FileTree.ensureFile blame at hmade
  cases htarget : tree.writeTarget path with
  | error cause =>
    rw [htarget] at hmade
    cases hmade
  | ok place =>
    rw [htarget] at hmade
    cases hmade
    dsimp only
    split
    · exact h
    · exact h.put_file htarget []

/-! ## Setting the log up -/

end FileTree

variable {tree : FileTree}

/-- Opening the log file makes directories, and then the file. -/
theorem LogState.proper_of_openFile (h : tree.Proper) (path : Path) :
    (openFile path tree).2.Proper := by
  have hbuilt := FileTree.buildParents_induct (fun h => h.makeDirectory) h path.anchor
    path.parts.dropLast.reverse
  -- Whether or not all directories could be made, they have the names of the path.
  unfold openFile FileTree.buildDirectories
  dsimp only
  split
  case h_1 heq =>
    rw [heq] at hbuilt
    exact hbuilt
  case h_2 heq =>
    rw [heq] at hbuilt
    split
    case h_1 => exact hbuilt
    case h_2 after hafter => exact FileTree.Proper.ensureFile hbuilt hafter

/-- Adding a log file makes its directory as well. -/
theorem LogState.proper_of_addFile (h : tree.Proper) (directory : Path) (time : String)
    (state : LogState) : (addFile directory time state tree).2.2.Proper := by
  have hmade : (tree.ensureDirectories directory).2.Proper :=
    FileTree.ensureParents_induct (fun _ _ _ _ h => h.makeDirectory) h
  unfold addFile
  split
  case h_1 heq =>
    rw [heq] at hmade
    exact hmade
  case h_2 between heq =>
    rw [heq] at hmade
    split
    case h_1 => exact hmade
    -- Whether or not the file can be opened, the tree is what the opening has left.
    case h_2 path _ =>
      have hopened := LogState.proper_of_openFile hmade path
      split
      case h_1 hopen =>
        rw [hopen] at hopened
        exact hopened
      case h_2 hopen =>
        rw [hopen] at hopened
        exact hopened

/-- A set-up of the log leaves a tree as file systems have them, whether or not it succeeds. -/
theorem LogState.proper_of_setUp (h : tree.Proper) (environment : Environment) (request : LogRequest)
    (state : LogState) : (setUp environment request state tree).2.2.Proper := by
  unfold setUp
  split
  · exact h
  · dsimp only
    split
    case h_1 => exact h
    case h_2 =>
      split
      · exact LogState.proper_of_addFile h _ _ _
      · exact h

/-- Whatever the options of a command ask of the log, the tree stays proper. -/
theorem Verbosity.proper_of_apply (h : tree.Proper) (verbosity : Verbosity)
    (environment : Environment) (log : LogState) :
    (verbosity.apply environment log tree).2.2.Proper := by
  unfold apply
  split
  · exact h
  · exact LogState.proper_of_setUp h _ _ _

/-! ## Worlds as file systems have them -/

/-- A world whose tree is as file systems have them. -/
structure ProperWorld (σ : Type) extends World σ where
  proper : tree.Proper

instance {σ : Type} : Coe (ProperWorld σ) (World σ) := ⟨ProperWorld.toWorld⟩

end SourceMutation
