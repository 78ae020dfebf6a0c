import Mathlib.Data.List.Nodup
import SourceMutation.Proofs.Contents
import SourceMutation.Proofs.TwoPasses

/-!
# What writing mutants leaves

The mutants of a source are written one after the other, each to a path of its own.  If no link
stands where they go, each of them fills one place in the output directory (`FileTree.write_below`),
and no two of them the same.  So what was written stays written, and nothing else changes, wherever
the writing stops (`Run.Fills.filled`).

`Run.Delivery` lists what can come of it (`Run.writeMutants_delivery`).

- All of the mutants are written, and each path reads back as its mutant.
- Those up to one that cannot be written are written, and nothing after that.
- None is written, for want of a directory.
- Without mutants nothing is touched, not even the directory is made.

The writing itself is followed by induction over the mutants (`Run.writeNumbered_fills`); what that
leaves is read off the steps, of which no later one touches an earlier place.
-/

namespace SourceMutation

variable {σ : Type}

/-! ## Places in a directory -/

/-- Writing under a name in a directory puts a file at that name, unless a link stands there, and
nothing else changes. -/
theorem FileTree.write_below {tree after : FileTree} {directory : Path} {place : Location}
    {name : String} {bytes : Bytes} (hgrounded : tree.Grounded) (hplain : Plain name)
    (hplace : tree.locate directory = .ok place)
    (hlink : ∀ link, tree.entry? (place ++ [name]) ≠ some (.link link))
    (hwrite : tree.write (directory.below [name]) bytes = .ok after) :
    after.Grounded ∧ tree.Keeps after ∧
      after.locate (directory.below [name]) = .ok (place ++ [name]) ∧
      ∀ other, after.entry? other
        = if other = place ++ [name] then some (.file bytes) else tree.entry? other := by
  obtain ⟨location, htarget, rfl⟩ := write_eq_ok_iff.mp hwrite
  have hput := mayPut_of_writeTarget hgrounded htarget bytes
  have hentry : ∀ other, FileTree.entry? (tree.put location (.file bytes)) other
      = if other = location then some (.file bytes) else tree.entry? other :=
    entry_put hput.ne_nil _
  have hlocate : (tree.put location (.file bytes)).locate (directory.below [name]) = .ok location :=
    locate_put hgrounded htarget
  -- There is no link at the name afterwards either, so that the path leads to the name itself.
  have hlink' : ∀ link, FileTree.entry? (tree.put location (.file bytes)) (place ++ [name])
      ≠ some (.link link) := by
    intro link
    rw [hentry]
    split
    · simp
    · exact hlink link
  obtain rfl := locate_below hplain (locate_keeps hput.keeps hplace) hlink' hlocate
  exact ⟨hput.grounded hgrounded, hput.keeps, hlocate, hentry⟩

/-- Two mutants of a source have two names. -/
theorem MutantName.index_of_compose {source : String} {index number : Nat}
    (h : compose source index = compose source number) : index = number := by
  have hlists := congrArg String.toList h
  rw [toList_compose, toList_compose] at hlists
  have hmiddle := List.append_cancel_right (List.append_cancel_left hlists)
  obtain ⟨-, hdigits⟩ := List.cons.inj (List.append_cancel_left hmiddle)
  have hnumber := congrArg (fun digits => Nat.ofDigitChars 10 digits 0) hdigits
  simpa using hnumber

/-- Whether no link stands where the first `count` mutants of a source go. -/
def FileTree.Unlinked (tree : FileTree) (directory source : Path) (count : Nat) : Prop :=
  ∀ place index link, (tree.withDirectory directory).locate directory = .ok place →
    1 ≤ index → index ≤ count →
    tree.entry? (place ++ [MutantName.compose source.name index]) ≠ some (.link link)

/-- Whether a file holds a text, which reading it as a source gives back. -/
structure World.Holds (world : World σ) (path : Path) (text : String) : Prop where
  bytes : world.tree.read path = .ok (Utf8.encode text)
  text : (Run.readSource path world).1 = .ok text

theorem World.holds_of_read {world : World σ} {path : Path} {text : String}
    (h : world.tree.read path = .ok (Utf8.encode text)) : world.Holds path text := by
  refine ⟨h, ?_⟩
  rw [Run.readSource_apply, h]
  dsimp only
  rw [Utf8.decode_encode]

namespace Run

/-! ## Writing one after the other

Each write goes to a place of its own, so what was written first is still there in the end.
-/

/-- The path of a source's mutant. -/
def targetOf (directory source : Path) (index : Nat) : Path :=
  directory.below [MutantName.compose source.name index]

/-- Where a source's mutant goes in a directory at a place. -/
def locationOf (place : Location) (source : Path) (index : Nat) : Location :=
  place ++ [MutantName.compose source.name index]

theorem locationOf_ne {place : Location} {source : Path} {index number : Nat}
    (h : index ≠ number) : locationOf place source index ≠ locationOf place source number := by
  intro hsame
  rw [locationOf, locationOf, List.append_cancel_left_eq, List.singleton_inj] at hsame
  exact h (MutantName.index_of_compose hsame)

section Fills

variable (directory source : Path)

/-- Writes of mutants that all succeed, numbered from `index`, from one tree to the next. -/
inductive Fills : (index : Nat) → FileTree → List Mutant → FileTree → Prop
  | done {index : Nat} (tree : FileTree) : Fills index tree [] tree
  | next {index : Nat} {before between after : FileTree} {mutant : Mutant} {rest : List Mutant}
      (hwrite : before.write (targetOf directory source index) (Utf8.encode mutant.text)
        = .ok between)
      (hlater : Fills (index + 1) between rest after) : Fills index before (mutant :: rest) after

/-- What such writes come to, in a directory at a place. -/
structure Filled (place : Location) (index : Nat) (before : FileTree) (mutants : List Mutant)
    (after : FileTree) : Prop where
  keeps : before.Keeps after
  /-- Each mutant is where it goes. -/
  holds : ∀ k mutant, mutants[k]? = some mutant →
    after.locate (targetOf directory source (index + k))
        = .ok (locationOf place source (index + k)) ∧
      after.entry? (locationOf place source (index + k)) = some (.file (Utf8.encode mutant.text))
  /-- Everything else is as it was. -/
  others : ∀ location, (∀ k < mutants.length, location ≠ locationOf place source (index + k)) →
    after.entry? location = before.entry? location

end Fills

variable {directory source : Path} {place : Location} {index : Nat} {before after : FileTree}
  {mutants : List Mutant}

/-- Each write fills the place of its number, and none of the later ones does it again. -/
theorem Fills.filled (h : Fills directory source index before mutants after)
    (hgrounded : before.Grounded) (hplace : before.locate directory = .ok place)
    (hlinks : ∀ k < mutants.length, ∀ link,
      before.entry? (locationOf place source (index + k)) ≠ some (.link link)) :
    Filled directory source place index before mutants after := by
  induction h with
  | done tree => exact ⟨.refl tree, fun k mutant hk => by simp at hk, fun location _ => rfl⟩
  | @next index before between after mutant rest hwrite _ ih =>
    obtain ⟨hgrounded', hkeeps, hlocate, hentry⟩ := FileTree.write_below hgrounded
      (MutantName.plain_compose source.name index) hplace (hlinks 0 (Nat.succ_pos _)) hwrite
    have hshift : ∀ k, index + 1 + k = index + (k + 1) := fun k => by omega
    -- Only a file came to stand at the place of this number.
    have hlater := ih hgrounded' (FileTree.locate_keeps hkeeps hplace) (by
      intro k hk link
      rw [hentry, hshift]
      split
      · simp
      · exact hlinks (k + 1) (Nat.succ_lt_succ hk) link)
    have hown : ∀ k, locationOf place source index ≠ locationOf place source (index + 1 + k) :=
      fun k => locationOf_ne (by omega)
    refine ⟨hkeeps.trans hlater.keeps, ?_, ?_⟩
    · intro k other hother
      cases k with
      | zero =>
        obtain rfl : mutant = other := Option.some.inj hother
        refine ⟨FileTree.locate_keeps hlater.keeps hlocate, ?_⟩
        rw [Nat.add_zero, hlater.others _ fun k _ => hown k, hentry]
        exact if_pos rfl
      | succ k =>
        rw [← hshift]
        exact hlater.holds k other hother
    · intro location hlocation
      rw [hlater.others location fun k hk => hshift k ▸ hlocation (k + 1) (Nat.succ_lt_succ hk),
        hentry]
      exact if_neg (hlocation 0 (Nat.succ_pos _))

/-- Writing goes on up to a mutant that cannot be written, if there is one. -/
theorem writeNumbered_fills (directory source : Path) {index : Nat} (hindex : 1 ≤ index)
    (mutants : List Mutant) (world : World σ) :
    (∃ after, writeNumbered directory source.name index mutants world
        = (.ok ((List.range' index mutants.length).map (targetOf directory source)), after) ∧
      Fills directory source index world.tree mutants after.tree) ∨
    ∃ done mutant rest fault after, mutants = done ++ mutant :: rest ∧
      writeNumbered directory source.name index mutants world
        = (.error (.failed (.ofFault
            (.outputWrite (targetOf directory source (index + done.length)).text) fault)), after) ∧
      after.tree.write (targetOf directory source (index + done.length))
        (Utf8.encode mutant.text) = .error fault ∧
      Fills directory source index world.tree done after.tree := by
  -- The induction is on the mutants: the first is written or not, and the rest are numbered on.
  induction mutants generalizing index world with
  | nil => exact .inl ⟨world, rfl, .done _⟩
  | cons mutant rest ih =>
    rw [writeNumbered, MutantName.ofIndex_of_pos hindex, Chance.bind_apply, ofExcept_ok_apply]
    dsimp only
    rw [Chance.bind_apply, writeOutput_apply]
    cases hwrite : world.tree.write (directory.below [MutantName.compose source.name index])
        (Utf8.encode mutant.text) with
    | error fault => exact .inr ⟨[], mutant, rest, fault, world, rfl, rfl, hwrite, .done _⟩
    | ok tree =>
      dsimp only
      rw [Chance.bind_apply]
      rcases ih (Nat.le_succ_of_le hindex) (World.after { world with tree } (.wrote
          (directory.below [MutantName.compose source.name index]) (Utf8.encode mutant.text)))
        with ⟨after, hrest, hfills⟩ | ⟨done, other, later, fault, after, rfl, hrest, hfault, hfills⟩
      · rw [hrest]
        exact .inl ⟨after, rfl, .next hwrite hfills⟩
      · rw [hrest]
        have hshift : index + 1 + done.length = index + (mutant :: done).length := by
          rw [List.length_cons]
          omega
        rw [hshift] at hfault
        refine .inr ⟨mutant :: done, other, later, fault, after, rfl, ?_, hfault,
          .next hwrite hfills⟩
        rw [hshift]

/-! ## Outcomes -/

/-- What is left of mutants that were written, beside what was there before. -/
structure Delivered (directory source : Path) (mutants : List Mutant) (before after : World σ) :
    Prop where
  /-- Each is at the path of its number, and nothing but it. -/
  holds : ∀ k mutant, mutants[k]? = some mutant →
    after.Holds (targetOf directory source (1 + k)) mutant.text
  /-- Where none of them is, everything is as it was, but for directories that were made. -/
  others : ∀ location,
    (∀ k < mutants.length,
      after.tree.locate (targetOf directory source (1 + k)) ≠ .ok location) →
    after.tree.entry? location = before.tree.entry? location ∨
      before.tree.entry? location = none ∧ after.tree.entry? location = some .directory

/-- What can come of writing the mutants of a source: a result, and a world after it. -/
inductive Delivery (directory source : Path) (mutants : List Mutant) (before : World σ) :
    Except Stop (List Path) → World σ → Prop
  /-- Without mutants nothing is touched. -/
  | nothing (hnone : mutants = []) : Delivery directory source mutants before (.ok []) before
  /-- All are written, and their paths answered in order. -/
  | whole {after : World σ} (hsome : mutants ≠ [])
      (hdistinct : ((List.range' 1 mutants.length).map (targetOf directory source)).Nodup)
      (hdelivered : Delivered directory source mutants before after) :
      Delivery directory source mutants before
        (.ok ((List.range' 1 mutants.length).map (targetOf directory source))) after
  /-- One cannot be written.  Those before it are, and what was at the path of it or of a later one
  is still there. -/
  | part {done rest : List Mutant} {mutant : Mutant} {fault : FileFault} {after : World σ}
      (hmutants : mutants = done ++ mutant :: rest)
      (hfault : after.tree.write (targetOf directory source (1 + done.length))
        (Utf8.encode mutant.text) = .error fault)
      (hdelivered : Delivered directory source done before after)
      (hlater : ∀ number, done.length < number → number ≤ mutants.length → ∀ bytes,
        before.tree.read (targetOf directory source number) = .ok bytes →
          after.tree.read (targetOf directory source number) = .ok bytes) :
      Delivery directory source mutants before
        (.error (.failed (.ofFault
          (.outputWrite (targetOf directory source (1 + done.length)).text) fault))) after
  /-- Whether there is an output directory cannot be told. -/
  | unasked {fault : FileFault} (hasked : before.tree.isPresent directory = .error fault) :
      Delivery directory source mutants before (.error (.failed (.file fault))) before
  /-- The output directory cannot be made; some above it may have been. -/
  | unmade {fault : FileFault} {after : World σ}
      (habsent : before.tree.isPresent directory = .ok false)
      (hfault : (before.tree.ensureDirectories directory).1 = .error fault)
      (hmade : before.tree.MakesDirectories after.tree) :
      Delivery directory source mutants before
        (.error (.failed (.ofFault (.outputWrite directory.text) fault))) after

/-- Two numbers have two paths. -/
theorem nodup_targets (directory source : Path) (count : Nat) :
    ((List.range' 1 count).map (targetOf directory source)).Nodup := by
  refine (List.nodup_range').map fun index number h => ?_
  have hnames := List.append_cancel_left (congrArg Path.parts h)
  exact MutantName.index_of_compose (List.singleton_inj.mp hnames)

/-- Mutants that fill their places in a directory that was there or made are delivered. -/
theorem Filled.delivered {before after : World σ} {made : FileTree}
    (h : Filled directory source place 1 made mutants after.tree)
    (hmade : before.tree.MakesDirectories made) :
    Delivered directory source mutants before after := by
  constructor
  · intro k mutant hk
    obtain ⟨hlocate, hentry⟩ := h.holds k mutant hk
    exact World.holds_of_read
      (FileTree.read_eq_ok_iff.mpr ⟨_, hlocate, FileTree.fileAt_eq_some_iff.mpr hentry⟩)
  · intro location hlocation
    rw [h.others location fun k hk heq =>
      hlocation k hk (heq ▸ (h.holds k mutants[k] (List.getElem?_eq_getElem hk)).1)]
    exact hmade.others location

/-- A file at the path of another number is kept, unless a link stands there. -/
theorem Filled.read_other {before after : World σ} {made : FileTree}
    (h : Filled directory source place 1 made mutants after.tree)
    (hmade : before.tree.MakesDirectories made) (hplace : made.locate directory = .ok place)
    {number : Nat} (hnumber : mutants.length < number)
    (hlink : ∀ link, made.entry? (locationOf place source number) ≠ some (.link link))
    {bytes : Bytes} (hread : before.tree.read (targetOf directory source number) = .ok bytes) :
    after.tree.read (targetOf directory source number) = .ok bytes := by
  obtain ⟨location, hlocate, hfile⟩ := FileTree.read_eq_ok_iff.mp hread
  have hmadeLocate := FileTree.locate_keeps hmade.keeps hlocate
  obtain rfl : location = locationOf place source number :=
    FileTree.locate_below (MutantName.plain_compose _ _) hplace hlink hmadeLocate
  have hentry := FileTree.fileAt_eq_some_iff.mp hfile
  refine FileTree.read_eq_ok_iff.mpr ⟨_, FileTree.locate_keeps h.keeps hmadeLocate,
    FileTree.fileAt_eq_some_iff.mpr ?_⟩
  have hother : ∀ k < mutants.length,
      locationOf place source number ≠ locationOf place source (1 + k) :=
    fun k hk => locationOf_ne (by omega)
  rw [h.others _ hother]
  -- A directory that was made stands where nothing stood before.
  rcases hmade.others (locationOf place source number) with hsame | ⟨hnone, -⟩
  · exact hsame.trans hentry
  · cases hnone.symm.trans hentry

/-- The output directory is there afterwards, or why it is not. -/
theorem ensureOutputDirectory_cases (directory : Path) (before : World σ) :
    (∃ made place, ensureOutputDirectory directory before = (.ok (), made) ∧
      made.tree = before.tree.withDirectory directory ∧ made.tree.locate directory = .ok place) ∨
    (∃ fault, before.tree.isPresent directory = .error fault ∧
      ensureOutputDirectory directory before = (.error (.failed (.file fault)), before)) ∨
    ∃ fault after, before.tree.isPresent directory = .ok false ∧
      (before.tree.ensureDirectories directory).1 = .error fault ∧
      before.tree.MakesDirectories after.tree ∧
      ensureOutputDirectory directory before
        = (.error (.failed (.ofFault (.outputWrite directory.text) fault)), after) := by
  rw [ensureOutputDirectory_apply, FileTree.withDirectory]
  -- It is asked whether something stands there, and only if nothing does is anything made.
  rcases hpresent : before.tree.isPresent directory with fault | _ | _
  · exact .inr (.inl ⟨fault, rfl, rfl⟩)
  · rcases hensured : before.tree.ensureDirectories directory with ⟨fault | ⟨⟩, tree⟩
    · have hmade := FileTree.makesDirectories_ensureDirectories before.tree directory
      rw [hensured] at hmade
      exact .inr (.inr ⟨fault, _, rfl, rfl, hmade, rfl⟩)
    · obtain ⟨place, hplace, -⟩ := FileTree.ensureDirectories_leads hensured
      exact .inl ⟨_, place, rfl, rfl, hplace⟩
  · obtain ⟨place, hplace, -⟩ := FileTree.locate_of_isPresent hpresent
    exact .inl ⟨before, place, rfl, rfl, hplace⟩

/-- Where no link stood, none stands after directories were made. -/
theorem unlinked_made {tree : FileTree} {count : Nat} (h : tree.Unlinked directory source count)
    (hplace : (tree.withDirectory directory).locate directory = .ok place) {number : Nat}
    (hfirst : 1 ≤ number) (hlast : number ≤ count) (link : String) :
    FileTree.entry? (tree.withDirectory directory) (locationOf place source number)
      ≠ some (.link link) := by
  intro hentry
  rcases (FileTree.makesDirectories_withDirectory tree directory).others
    (locationOf place source number) with hsame | ⟨-, hmade⟩
  · exact h place number link hplace hfirst hlast (hsame ▸ hentry)
  · cases hmade.symm.trans hentry

/--
Writing the mutants of a source into a directory, where no link stands at their names.  Each is at
the path of its number, up to one that cannot be written, and nothing else changes but for
directories that are made.
-/
theorem writeMutants_delivery {directory source : Path} {mutants : List Mutant}
    {before : GroundedWorld σ}
    (hlinks : before.tree.Unlinked directory source mutants.length) :
    Delivery directory source mutants before (writeMutants directory source mutants before.toWorld).1
      (writeMutants directory source mutants before.toWorld).2 := by
  by_cases hnone : mutants = []
  · subst hnone
    exact .nothing rfl
  · rw [writeMutants, if_neg (by simpa using hnone), Chance.bind_apply]
    rcases ensureOutputDirectory_cases directory before.toWorld with
      ⟨made, place, hmade, htree, hplace⟩ |
      ⟨fault, hasked, hfails⟩ | ⟨fault, after, habsent, hfault, hmakes, hfails⟩
    · rw [hmade]
      dsimp only
      rw [Chance.bind_apply]
      have hmakes := FileTree.makesDirectories_withDirectory before.tree directory
      rw [← htree] at hmakes
      have hgrounded' := hmakes.grounded before.grounded
      have hunlinked : ∀ number, 1 ≤ number → number ≤ mutants.length → ∀ link,
          made.tree.entry? (locationOf place source number) ≠ some (.link link) := by
        rw [htree] at hplace ⊢
        exact fun number => unlinked_made hlinks hplace
      rcases writeNumbered_fills directory source (Nat.le_refl 1) mutants made with
        ⟨after, hwrites, hfills⟩ | ⟨done, mutant, rest, fault, after, rfl, hstops, hfault, hfills⟩
      · rw [hwrites]
        dsimp only
        rw [log_bind_apply, pure_apply]
        generalize Event.logged _ = event
        have hfilled := hfills.filled hgrounded' hplace fun k hk =>
          hunlinked (1 + k) (by omega) (by omega)
        -- What is logged at the end leaves the files as they are.
        have hdelivered : Delivered directory source mutants before (after.after event) :=
          Filled.delivered hfilled hmakes
        exact .whole hnone (nodup_targets directory source _) hdelivered
      · rw [hstops]
        have hfilled := hfills.filled hgrounded' hplace fun k hk =>
          hunlinked (1 + k) (by omega) (by rw [List.length_append]; omega)
        refine .part rfl hfault (hfilled.delivered hmakes) fun number hafter hlast bytes hread => ?_
        exact hfilled.read_other hmakes hplace hafter (hunlinked number (by omega) hlast) hread
    · rw [hfails]
      exact .unasked hasked
    · rw [hfails]
      exact .unmade habsent hfault hmakes

/-- A source, and mutants of it whose texts have an accent, a carriage return, and nothing. -/
def threeTexts : List Mutant :=
  ["é", "b\r\n", ""].map fun text => { (default : Mutant) with text }

/-- A directory with files from before at the names of the first and the third mutant, and a
directory at that of the second; there is a link to it. -/
def staleOutput : GroundedTree where
  workDirectory := ["w"]
  entries := ⟨[(["w"], .directory), (["w", "out"], .link "old"), (["w", "old"], .directory),
    (["w", "old", "mut_a.rs_1.rs"], .file [0x31]), (["w", "old", "mut_a.rs_2.rs"], .directory),
    (["w", "old", "mut_a.rs_3.rs"], .file [0x33])]⟩
  grounded := by decide

/-- The world before the mutants are written. -/
def staleStart : GroundedWorld Script := .fresh staleOutput ⟨[]⟩ .empty

/-- What writing the three mutants into a directory comes to. -/
def threeWritten (directory : Path) : Except Stop (List Path) × World Script :=
  writeMutants directory ⟨.relative, ["a.rs"]⟩ threeTexts staleStart

/-- The link is at no name of a mutant. -/
theorem unlinked_staleOutput (directory : Path) (count : Nat) :
    staleOutput.Unlinked directory ⟨.relative, ["a.rs"]⟩ count := by
  intro place index link _ _ _ hentry
  have honly : ∀ location ∈ staleOutput.entries.keys, location = ["w", "out"] ∨
      staleOutput.entry? location
        ∈ [some .directory, some (.file [0x31]), some (.file [0x33])] := by decide
  rcases honly _ (FileTree.mem_keys_of_entry (by simp) hentry) with hout | hother
  · have hname := congrArg (fun location => (List.getLastD location "").toList) hout
    simp [MutantName.toList_compose] at hname
  · rw [hentry] at hother
    simp at hother

/-- In directories that have to be made, all three are written.  Through the link the first takes
the place of the file from before, and the second cannot be written, so that the file at the third
one's name stays. -/
theorem threeTexts_delivery :
    (threeWritten ⟨.relative, ["new", "deep"]⟩).1.toOption
        = some [⟨.relative, ["new", "deep", "mut_a.rs_1.rs"]⟩,
          ⟨.relative, ["new", "deep", "mut_a.rs_2.rs"]⟩,
          ⟨.relative, ["new", "deep", "mut_a.rs_3.rs"]⟩] ∧
      Delivered ⟨.relative, ["new", "deep"]⟩ ⟨.relative, ["a.rs"]⟩ threeTexts staleStart
        (threeWritten ⟨.relative, ["new", "deep"]⟩).2 ∧
      (threeWritten ⟨.relative, ["out"]⟩).2.writings
        = [(⟨.relative, ["out", "mut_a.rs_1.rs"]⟩, [0xc3, 0xa9])] ∧
      Delivery ⟨.relative, ["out"]⟩ ⟨.relative, ["a.rs"]⟩ threeTexts staleStart
        (threeWritten ⟨.relative, ["out"]⟩).1 (threeWritten ⟨.relative, ["out"]⟩).2 := by
  have hwritten : (threeWritten ⟨.relative, ["new", "deep"]⟩).1.toOption
      = some [⟨.relative, ["new", "deep", "mut_a.rs_1.rs"]⟩,
        ⟨.relative, ["new", "deep", "mut_a.rs_2.rs"]⟩,
        ⟨.relative, ["new", "deep", "mut_a.rs_3.rs"]⟩] := by decide +kernel
  have hdelivery : Delivery ⟨.relative, ["new", "deep"]⟩ ⟨.relative, ["a.rs"]⟩ threeTexts
      staleStart (threeWritten ⟨.relative, ["new", "deep"]⟩).1
      (threeWritten ⟨.relative, ["new", "deep"]⟩).2 :=
    writeMutants_delivery (unlinked_staleOutput _ _)
  refine ⟨hwritten, ?_, by decide +kernel,
    writeMutants_delivery (unlinked_staleOutput _ _)⟩
  -- Paths are answered only if there are mutants and all were written.
  revert hwritten hdelivery
  generalize threeWritten ⟨.relative, ["new", "deep"]⟩ = run
  obtain ⟨result, after⟩ := run
  intro hwritten hdelivery
  cases hdelivery with
  | nothing hnone => cases hnone
  | whole _ _ hdelivered => exact hdelivered
  | part | unasked | unmade => cases hwritten

end Run

end SourceMutation
