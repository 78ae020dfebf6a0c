import Mathlib.Data.List.Induction
import SourceMutation.Proofs.Directories

/-!
# Writing again

Entering the same things into a table once more, in the same order, changes nothing, also where some
of them were entered over others (`Ledger.setAll_setAll`).  So writing the same files once more, in
the same order, leaves a file tree as it is.
-/

namespace SourceMutation

/-! ## Tables -/

namespace Ledger

variable {κ α : Type} [DecidableEq κ]

/-- Enters values one after another. -/
def setAll (ledger : Ledger κ α) (items : List (κ × α)) : Ledger κ α :=
  items.foldl (fun ledger item => ledger.set item.1 item.2) ledger

theorem setAll_concat (ledger : Ledger κ α) (items : List (κ × α)) (key : κ) (value : α) :
    ledger.setAll (items ++ [(key, value)]) = (ledger.setAll items).set key value := by
  simp [setAll, List.foldl_append]

/-- What is under a key is what was entered there last, or else what was there at first. -/
theorem get?_setAll (ledger : Ledger κ α) (items : List (κ × α)) (key : κ) :
    (ledger.setAll items).get? key
      = ((items.filter fun item => item.1 = key).getLast?.map Prod.snd).or (ledger.get? key) := by
  induction items using List.reverseRecOn with
  | nil => rfl
  | append_singleton items item ih =>
    obtain ⟨other, value⟩ := item
    rw [setAll_concat, get?_set, List.filter_append]
    by_cases h : other = key
    · simp [h]
    · simp [h, Ne.symm h, ih]

theorem enter_enter_self (key : κ) (value later : α) (entries : List (κ × α)) :
    enter key later (enter key value entries) = enter key later entries := by
  induction entries with
  | nil => simp [enter]
  | cons entry rest ih => by_cases h : entry.1 = key <;> simp [enter, h, ih]

theorem enter_comm {key other : κ} (hne : other ≠ key) {entries : List (κ × α)}
    (hthere : (entries.find? fun entry => entry.1 = other).isSome) (value another : α) :
    enter other another (enter key value entries)
      = enter key value (enter other another entries) := by
  induction entries with
  | nil => cases hthere
  | cons entry rest ih =>
    -- The key that is there already is met at this entry or further down.
    by_cases hother : entry.1 = other
    · have hkey : entry.1 ≠ key := hother ▸ hne
      simp [enter, hother, hne]
    · by_cases hkey : entry.1 = key
      · simp [enter, hkey, Ne.symm hne]
      · simp only [enter, hother, hkey, if_false, List.cons.injEq, true_and]
        apply ih
        simpa [hother] using hthere

/-- Of two values entered under one key, the later one stays. -/
theorem set_set (ledger : Ledger κ α) (key : κ) (value later : α) :
    (ledger.set key value).set key later = ledger.set key later :=
  congrArg Ledger.mk (enter_enter_self key value later ledger.entries)

/-- A key that has its place may change its value before another one is entered, or after. -/
theorem set_comm {ledger : Ledger κ α} {key other : κ} (hne : other ≠ key)
    (hthere : (ledger.get? other).isSome) (value another : α) :
    (ledger.set key value).set other another = (ledger.set other another).set key value := by
  rw [get?, Option.isSome_map] at hthere
  exact congrArg Ledger.mk (enter_comm hne hthere value another)

/-- What was entered under a key before others does not show once it is entered again after them,
if these have their places. -/
theorem setAll_set {ledger : Ledger κ α} {items : List (κ × α)}
    (hthere : ∀ item ∈ items, (ledger.get? item.1).isSome) (key : κ) (value later : α) :
    ((ledger.set key value).setAll items).set key later = (ledger.setAll items).set key later := by
  induction items generalizing ledger value with
  | nil => exact set_set ledger key value later
  | cons item rest ih =>
    obtain ⟨other, another⟩ := item
    obtain ⟨hother, hrest⟩ := List.forall_mem_cons.mp hthere
    -- Setting a key does not take another one away.
    have hrest' : ∀ item ∈ rest, ((ledger.set other another).get? item.1).isSome := by
      intro item hitem
      rw [get?_set]
      split
      · rfl
      · exact hrest item hitem
    show (((ledger.set key value).set other another).setAll rest).set key later
      = ((ledger.set other another).setAll rest).set key later
    -- Either the key is set again, or the two are set in the other order.
    by_cases hkey : other = key
    · rw [hkey, set_set]
    · rw [set_comm hkey hother]
      exact ih hrest' value

theorem get?_setAll_isSome {ledger : Ledger κ α} {items : List (κ × α)} {item : κ × α}
    (hitem : item ∈ items) : ((ledger.setAll items).get? item.1).isSome := by
  have hfiltered : item ∈ items.filter fun other => other.1 = item.1 := by simpa using hitem
  obtain ⟨last, hlast⟩ := Option.ne_none_iff_exists'.mp
    (mt List.getLast?_eq_none_iff.mp (List.ne_nil_of_mem hfiltered))
  rw [get?_setAll, hlast]
  rfl

/-- Entering everything again changes nothing, whatever was entered over what. -/
theorem setAll_setAll (ledger : Ledger κ α) (items : List (κ × α)) :
    (ledger.setAll items).setAll items = ledger.setAll items := by
  -- The last item may be entered before the others as well, so it can be taken from both ends.
  induction items using List.reverseRecOn with
  | nil => rfl
  | append_singleton items item ih =>
    obtain ⟨key, value⟩ := item
    have hthere : ∀ item ∈ items, ((ledger.setAll items).get? item.1).isSome :=
      fun item hitem => get?_setAll_isSome hitem
    calc (ledger.setAll (items ++ [(key, value)])).setAll (items ++ [(key, value)])
      _ = (((ledger.setAll items).set key value).setAll items).set key value := by
        rw [setAll_concat, setAll_concat]
      _ = ((ledger.setAll items).setAll items).set key value := setAll_set hthere key value value
      _ = ledger.setAll (items ++ [(key, value)]) := by rw [ih, setAll_concat]

end Ledger

/-! ## File trees -/

namespace FileTree

variable {tree first second origin last : FileTree} {location place : Location}
  {path directory : Path} {purpose : Purpose} {bytes : Bytes}

/-- Puts entries one after another. -/
def putAll (tree : FileTree) (items : List (Location × Entry)) : FileTree :=
  { tree with entries := tree.entries.setAll items }

theorem putAll_concat (tree : FileTree) (items : List (Location × Entry)) (location : Location)
    (entry : Entry) :
    tree.putAll (items ++ [(location, entry)]) = (tree.putAll items).put location entry := by
  rw [putAll, Ledger.setAll_concat]
  rfl

/-- Putting everything again changes nothing. -/
theorem putAll_putAll (tree : FileTree) (items : List (Location × Entry)) :
    (tree.putAll items).putAll items = tree.putAll items := by
  simp [putAll, Ledger.setAll_setAll]

/-- At a location, every tree has the entry that was put there last, or else the one of its own. -/
theorem entry_putAll (items : List (Location × Entry)) (location : Location) :
    (∀ tree : FileTree, FileTree.entry? (tree.putAll items) location = tree.entry? location) ∨
      ∃ entry, ∀ tree : FileTree, FileTree.entry? (tree.putAll items) location = some entry := by
  by_cases hroot : location = []
  · exact .inl fun tree => by simp [FileTree.entry?, hroot]
  · cases hput : (items.filter fun item => item.1 = location).getLast? with
    | none => exact .inl fun tree => by simp [FileTree.entry?, putAll, Ledger.get?_setAll, hroot, hput]
    | some item =>
      exact .inr ⟨item.2, fun tree => by
        simp [FileTree.entry?, putAll, Ledger.get?_setAll, hroot, hput]⟩

/-! ### Where a path leads once files were added -/

theorem resolveFor_eq_ok_iff {landing : Landing} :
    tree.resolveFor purpose path = .ok landing ↔ unaskable? path = none ∧
      tree.follow purpose maxLinks (startOf path.anchor tree.workDirectory) path.parts
        = .ok landing := by
  unfold resolveFor
  cases unaskable? path <;> simp

/-- What is written to a path goes to the same location after files were added. -/
theorem AddsFiles.writeTarget (h : first.AddsFiles second) (hgrounded : first.Grounded)
    (htarget : first.writeTarget path = .ok location) : second.writeTarget path = .ok location := by
  unfold FileTree.writeTarget at htarget ⊢
  split at htarget
  case h_1 above name hresolve =>
    cases htarget
    obtain ⟨hdirectory, hname⟩ := resolveFor_lands hgrounded hresolve
    obtain ⟨haskable, hfollow⟩ := resolveFor_eq_ok_iff.mp hresolve
    -- Nothing but a file can have come to stand under the name.
    have hlink : ∀ target, second.entry? (above ++ [name]) ≠ some (.link target) :=
      fun target hentry => nomatch hname.symm.trans (h.link hentry)
    have hfile : second.entry? (above ++ [name]) ≠ some .directory :=
      fun hentry => nomatch hname.symm.trans (h.directory hentry)
    have hagain : second.resolveFor .write path = .ok (second.landingAt above name) := by
      rw [resolveFor_eq_ok_iff, h.keeps.workDirectory]
      exact ⟨haskable, follow_landingAt h.keeps hlink hfollow⟩
    rw [hagain, landingAt]
    by_cases hthere : (second.entry? (above ++ [name])).isSome <;> simp [hthere, hfile]
  case h_2 place hresolve =>
    obtain ⟨haskable, hfollow⟩ := resolveFor_eq_ok_iff.mp hresolve
    have hagain : second.resolveFor .write path = .ok (.found place) := by
      rw [resolveFor_eq_ok_iff, h.keeps.workDirectory]
      exact ⟨haskable, follow_keeps h.keeps hfollow⟩
    rw [hagain]
    split at htarget
    case isTrue => cases htarget
    case isFalse hfile =>
      cases htarget
      exact if_neg (mt h.directory hfile)
  case h_3 => cases htarget

/-- Files that are put in both trees leave the second one with what it has besides. -/
theorem AddsFiles.put (h : first.AddsFiles second) (hlocation : location ≠ []) (bytes : Bytes) :
    (first.put location (.file bytes)).AddsFiles (second.put location (.file bytes)) := by
  -- The file stands in both trees now, and all else is as before.
  refine ⟨⟨h.keeps.workDirectory, fun other old hold => ?_⟩, fun other entry hentry => ?_⟩
  · rw [entry_put hlocation] at hold ⊢
    split at hold
    case isTrue heq =>
      cases hold
      exact ⟨_, if_pos heq, .refl _⟩
    case isFalse hne =>
      rw [if_neg hne]
      exact h.keeps.entries other old hold
  · rw [entry_put hlocation] at hentry ⊢
    split at hentry
    case isTrue heq =>
      cases hentry
      exact .inr ⟨bytes, rfl⟩
    case isFalse hne =>
      rw [if_neg hne]
      exact h.others other entry hentry

/-! ### Writing the same to a tree and to what came of it

The second tree is what came of the first one.  What is written again is there already, so the
second tree ends as it was.
-/

/--
What lasts while the same files are written to two trees, to one that is there at first and to one
that has files added to it.
-/
structure Retraces (directory : Path) (origin last first second : FileTree) : Prop where
  /-- The same was put in both. -/
  items : ∃ items, first = origin.putAll items ∧ second = last.putAll items
  later : origin.AddsFiles last
  written : origin.AddsFiles first
  adds : first.AddsFiles second
  grounded : first.Grounded
  present : first.isPresent directory = .ok true

theorem Retraces.start (h : origin.AddsFiles last) (hgrounded : origin.Grounded)
    (hpresent : origin.isPresent directory = .ok true) :
    Retraces directory origin last origin last where
  items := ⟨[], rfl, rfl⟩
  later := h
  written := .refl origin
  adds := h
  grounded := hgrounded
  present := hpresent

namespace Retraces

variable (h : Retraces directory origin last first second)

include h

theorem present' : second.isPresent directory = .ok true := isPresent_keeps h.adds.keeps h.present

/-- What can be written to the first tree can be written to the second one. -/
theorem write {after : FileTree} (hwrite : first.write path bytes = .ok after) :
    ∃ after', second.write path bytes = .ok after' ∧
      Retraces directory origin last after after' := by
  obtain ⟨location, htarget, rfl⟩ := write_eq_ok_iff.mp hwrite
  have hput := mayPut_of_writeTarget h.grounded htarget bytes
  refine ⟨_, write_eq_ok_iff.mpr ⟨location, h.adds.writeTarget h.grounded htarget, rfl⟩, ?_⟩
  obtain ⟨items, rfl, rfl⟩ := h.items
  exact {
    items := ⟨items ++ [(location, .file bytes)], (putAll_concat ..).symm, (putAll_concat ..).symm⟩
    later := h.later
    written := h.written.trans hput.addsFiles
    adds := h.adds.put hput.ne_nil bytes
    grounded := hput.grounded h.grounded
    present := isPresent_keeps hput.keeps h.present }

/-- A file that the trees have in common is read alike from what came of them. -/
theorem read (hsame : last.read path = origin.read path) (hread : first.read path = .ok bytes) :
    second.read path = .ok bytes := by
  obtain ⟨place, hplace, hbytes⟩ := read_eq_ok_iff.mp hread
  refine read_eq_ok_iff.mpr ⟨place, locate_keeps h.adds.keeps hplace, ?_⟩
  obtain ⟨items, rfl, rfl⟩ := h.items
  rw [fileAt_eq_some_iff] at hbytes ⊢
  rcases entry_putAll items place with hown | ⟨entry, hput⟩
  · -- Nothing was put there, so both trees have had the file from the first.
    rw [hown] at hbytes ⊢
    have horigin := locate_back h.written (by rw [hbytes]; rfl) hplace
    rw [read_eq_ok_iff.mpr ⟨place, horigin, fileAt_eq_some_iff.mpr hbytes⟩] at hsame
    obtain ⟨other, hother, hfile⟩ := read_eq_ok_iff.mp hsame
    cases hother.symm.trans (locate_keeps h.later.keeps horigin)
    exact fileAt_eq_some_iff.mp hfile
  · rw [hput] at hbytes ⊢
    exact hbytes

end Retraces

/-- Writing the same files again to what came of it leaves that as it is. -/
theorem Retraces.eq (h : Retraces directory origin last last second) : second = last := by
  obtain ⟨items, hfirst, rfl⟩ := h.items
  rw [hfirst, putAll_putAll]

end FileTree

end SourceMutation
