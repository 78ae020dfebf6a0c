import SourceMutation.Proofs.JoinedScans
import SourceMutation.Proofs.LogFiles
import SourceMutation.Proofs.Plans

/-!
# Trees that are built

A file tree is a table, and not every table is what a file system can come to.  Theorems about runs
therefore start from trees with one or more of these properties:

- every entry stands in a directory, and so does the working directory (`FileTree.Grounded`);
- every name is one that can stand in a directory (`FileTree.Ordinary`);
- besides being grounded, neither names nor the targets of links have null characters
  (`FileTree.Proper`).

None of them has to be taken on trust.  A tree is built (`FileTree.Built`) if it is made from the
bare root by writing files, making directories and links, and changing the working directory.  Built
trees have all three properties (`FileTree.Built.proper`, `FileTree.Built.ordinary`), and a run over
a built tree leaves a built tree, whether it returns or fails (`Run.mutateAfter_built`).
-/

namespace SourceMutation

variable {σ : Type}

namespace FileTree

variable {tree after : FileTree} {location directory : Location} {path : Path}
  {names : List String} {name : String} {purpose : Purpose}

/-! ## Links that are made -/

theorem makeLink_eq_ok {target : String} (h : tree.makeLink target path = .ok after) :
    ∃ location, NullFree target ∧ tree.placeOf path = .ok location ∧
      tree.entry? location = none ∧ after = tree.put location (.link target) := by
  unfold makeLink at h
  split at h
  case isTrue => cases h
  -- The target has no null character.  It may still be refused for being empty or too long.
  case isFalse hnull =>
    have htarget : NullFree target := fun hmem => hnull (by simp [hmem])
    split at h
    · cases h
    · split at h
      · cases h
      · split at h
        case h_1 => cases h
        case h_2 location hplace =>
          split at h
          case h_1 => cases h
          case h_2 hentry =>
            cases h
            exact ⟨location, htarget, hplace, hentry, rfl⟩

/-! ## Names that are missing -/

/-- A name is looked up in a directory only if it can stand there. -/
theorem ordinary_of_followNames
    (hleg : tree.followNames purpose location names = .landed (.missing directory name)) :
    Ordinary name := by
  fun_induction followNames tree purpose location names with
  | case1 | case2 | case5 | case6 | case8 | case9 => cases hleg
  | case3 location other rest _ _ ih | case4 location rest _ _ ih => exact ih hleg
  | case7 location other rest _ hstay hup _ hlong =>
    cases hleg
    have hplain : name ≠ "" ∧ name ≠ "." := by simpa using hstay
    exact ⟨⟨hplain.1, hplain.2, hup⟩, by simpa using hlong⟩
  | case10 location other rest _ _ _ _ _ _ _ _ ih => exact ih hleg

/-- That is so at the end of a path as well, whatever links it goes through. -/
theorem ordinary_of_follow {links : Nat}
    (hfollow : tree.follow purpose links location names = .ok (.missing directory name)) :
    Ordinary name := by
  fun_induction follow tree purpose links location names with
  | case1 links location names landing hleg =>
    cases hfollow
    exact ordinary_of_followNames hleg
  | case2 | case3 => cases hfollow
  | case4 location names place target rest hleg links ih => exact ih hfollow

theorem ordinary_of_writeTarget (hgrounded : tree.Grounded) (hnames : tree.AllNames Ordinary)
    (htarget : tree.writeTarget path = .ok location) : ∀ other ∈ location, Ordinary other := by
  refine hnames.of_writeTarget hgrounded (fun directory name hresolve => ?_) htarget
  unfold resolveFor at hresolve
  split at hresolve
  · cases hresolve
  · exact ordinary_of_follow hresolve

theorem ordinary_of_placeOf (hnames : tree.AllNames Ordinary) (hwritten : path.IsWritten)
    (hplace : tree.placeOf path = .ok location) : ∀ other ∈ location, Ordinary other :=
  hnames.of_placeOf (fun part hpart hup hlong =>
    ⟨⟨(hwritten part hpart).1, (hwritten part hpart).2, hup⟩, hlong⟩) hplace

/-! ## Trees that are built -/

/-- Trees that are made from the bare root by what file systems do. -/
inductive Built : FileTree → Prop
  /-- Nothing but the root. -/
  | root : Built ⟨[], .empty⟩
  /-- The working directory is another one. -/
  | moved {tree : FileTree} {location : Location} (h : Built tree)
      (hdirectory : tree.entry? location = some .directory) :
      Built { tree with workDirectory := location }
  /-- A file is written. -/
  | wrote {tree after : FileTree} {path : Path} {bytes : Bytes} (h : Built tree)
      (hwrite : tree.write path bytes = .ok after) : Built after
  /-- A directory is made. -/
  | madeDirectory {tree after : FileTree} {path : Path} (h : Built tree) (hwritten : path.IsWritten)
      (hmade : tree.makeDirectory path = .ok after) : Built after
  /-- A link is made. -/
  | madeLink {tree after : FileTree} {path : Path} {target : String} (h : Built tree)
      (hwritten : path.IsWritten) (hmade : tree.makeLink target path = .ok after) : Built after

namespace Built

/-- In a built tree every entry stands in a directory, and nothing has null characters. -/
theorem proper (h : tree.Built) : tree.Proper := by
  induction h with
  | root => exact ⟨by decide, by decide, fun location target h => by simp [ entry?] at h⟩
  | moved _ hdirectory ih =>
    exact { ih with grounded := ⟨hdirectory, ih.grounded.parents⟩ }
  | wrote _ hwrite ih => exact ih.write hwrite
  | madeDirectory _ _ hmade ih => exact ih.makeDirectory hmade
  | madeLink _ _ hmade ih =>
    obtain ⟨location, htarget, hplace, hnone, rfl⟩ := makeLink_eq_ok hmade
    refine ih.put (mayPut_of_placeOf hplace hnone) (ih.of_placeOf hplace) fun target heq => ?_
    cases heq
    exact htarget

theorem grounded (h : tree.Built) : tree.Grounded := h.proper.grounded

/-- In a built tree all names are as file systems have them. -/
theorem ordinary (h : tree.Built) : tree.AllNames Ordinary := by
  induction h with
  | root => decide
  | moved _ _ ih => exact ih
  | wrote hbuilt hwrite ih =>
    obtain ⟨location, htarget, rfl⟩ := write_eq_ok_iff.mp hwrite
    exact ih.put (ordinary_of_writeTarget hbuilt.grounded ih htarget) _
  | madeDirectory _ hwritten hmade ih =>
    obtain ⟨location, hplace, -, rfl⟩ := makeDirectory_eq_ok hmade
    exact ih.put (ordinary_of_placeOf ih hwritten hplace) _
  | madeLink _ hwritten hmade ih =>
    obtain ⟨location, -, hplace, -, rfl⟩ := makeLink_eq_ok hmade
    exact ih.put (ordinary_of_placeOf ih hwritten hplace) _

/-- A directory and those above it are made one by one, so the tree stays built. -/
theorem ensureDirectories (h : tree.Built) (hwritten : path.IsWritten) :
    (tree.ensureDirectories path).2.Built := by
  refine ensureParents_induct (fun more hmore _ _ hbuilt hmade => ?_) h
  refine hbuilt.madeDirectory (fun part hpart => ?_) hmade
  exact hwritten part (List.mem_reverse.mp (hmore.subset (List.mem_reverse.mp hpart)))

end Built

end FileTree

/-! ## Runs over built trees -/

namespace World

/-- Whether a world has a built tree if an earlier one had. -/
def StaysBuilt (first second : World σ) : Prop := first.tree.Built → second.tree.Built

/-- No step of a run takes a tree out of those that are built. -/
theorem steps_staysBuilt {directory : Path} (hwritten : directory.IsWritten) :
    Steps directory (StaysBuilt (σ := σ)) where
  refl _ := id
  trans h h' := h' ∘ h
  logged _ _ := id
  loaded _ _ := id
  drawn _ _ := id
  read _ _ _ _ := id
  accepted _ _ _ := id
  made _ _ h := h.ensureDirectories hwritten
  wrote _ _ _ _ hwrite h := h.wrote hwrite

end World

/-- A run over a built tree leaves a built tree, wherever it ends. -/
theorem Run.mutateAfter_built [Chooser σ] {tools : Toolchain} {settings : Settings}
    {opening : Run σ Unit} (hopening : Opening settings opening)
    (hwritten : settings.outputDirectory.IsWritten) {world : World σ} (h : world.tree.Built) :
    (mutateAfter opening tools settings world).2.tree.Built := by
  refine respects_mutateAfter (World.steps_staysBuilt hwritten).toTolerant hopening
    (fun plan hplan => ?_) h
  have houtput := (Settings.check_eq_ok_iff.mp hplan).outputDirectory
  exact respects_carryOut (World.steps_staysBuilt (houtput ▸ hwritten))

end SourceMutation
