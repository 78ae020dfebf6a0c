import SourceMutation.Proofs.Misfits

/-!
# The corpus of a directory, file by file

`Run.buildCorpus` goes over the files of a scan in their order.  A file that is too long contributes
nothing, and a file that is short enough the texts of its own spans, each cut from the file's own
buffer (`Toolchain.Collects`).  What the corpus lists is told by these contributions, one after the
other.

The pass stops at the first file that has no text, or that is short enough and has no tree, and
fails for what is wrong with that file (`Toolchain.Refuses`).  Where a parser cuts texts between
characters nothing else stops it (`Run.buildCorpus_collects`).
-/

namespace SourceMutation

variable {σ : Type}

/-! ## What files contribute -/

/-- Whether some touches add the texts of a harvest's spans, in order, each under its span's
kind. -/
def Harvest.Adds (harvest : Harvest) (touches : List Corpus.Touch) : Prop :=
  List.Forall₂ (fun span touched => ∃ text, harvest.textOf span = .ok text ∧
    touched = .added span.kind text) harvest.spans touches

/-- If all spans have a text, adding the source adds all of these texts. -/
theorem Harvest.adds_ofSpans {harvest : Harvest}
    (htexts : ∀ span ∈ harvest.spans, ∃ text, harvest.textOf span = .ok text) :
    harvest.Adds (Corpus.Touch.ofSpans harvest harvest.spans) := by
  rw [Adds]
  generalize harvest.spans = spans at htexts
  induction spans with
  | nil => exact .nil
  | cons span rest ih =>
    obtain ⟨⟨text, htext⟩, hothers⟩ := List.forall_mem_cons.mp htexts
    rw [Corpus.Touch.ofSpans_cons_of_ok htext]
    exact .cons ⟨text, htext, rfl⟩ (ih hothers)

namespace Toolchain

variable {tools : Toolchain} {language : Language} {maxLines : Nat} {tree : FileTree}
  {path : Path} {files : List Path} {touches before : List Corpus.Touch} {corpus : Corpus}

/-- What the files contribute to a corpus, if all of them can be gone over. -/
inductive Collects (tools : Toolchain) (language : Language) (maxLines : Nat) (tree : FileTree) :
    List Path → List Corpus.Touch → Prop
  | nil : Collects tools language maxLines tree [] []
  /-- A file that is too long contributes nothing. -/
  | long {path : Path} {rest : List Path} {others : List Corpus.Touch}
      (hlong : tree.TooLong maxLines path)
      (hrest : Collects tools language maxLines tree rest others) :
      Collects tools language maxLines tree (path :: rest) others
  /-- A file that is short enough contributes the texts of its spans. -/
  | short {path : Path} {rest : List Path} {own others : List Corpus.Touch} {found : Harvest}
      (hfound : tools.Harvests language maxLines tree path found) (hown : found.Adds own)
      (hrest : Collects tools language maxLines tree rest others) :
      Collects tools language maxLines tree (path :: rest) (own ++ others)

/-- Why a file ends the pass, and with which failure. -/
inductive Refuses (tools : Toolchain) (language : Language) (maxLines : Nat) (tree : FileTree)
    (path : Path) : Failure → Prop
  /-- It cannot be read. -/
  | unreadable {fault : FileFault} (hread : tree.read path = .error fault) :
      Refuses tools language maxLines tree path (.ofFault (.sourceRead path.text) fault)
  /-- Its bytes encode no text. -/
  | noText {bytes : Bytes} {fault : Utf8.Fault} (hread : tree.read path = .ok bytes)
      (hdecode : Utf8.decode bytes = .error fault) :
      Refuses tools language maxLines tree path (.sourceRead path.text fault.message)
  /-- It is short enough, and the parser refuses it. -/
  | refused {text reason : String} (htext : tree.HasText path text)
      (hwithin : Lines.within text maxLines = true)
      (hparse : tools.parse language (Utf8.encode text) = .refused reason) :
      Refuses tools language maxLines tree path (.parser (Harvest.labelOf (some path.text)) reason)
  /-- It is short enough, and the parser has no tree for it. -/
  | treeless {text : String} (htext : tree.HasText path text)
      (hwithin : Lines.within text maxLines = true)
      (hparse : tools.parse language (Utf8.encode text) = .nothing) :
      Refuses tools language maxLines tree path
        (.parser (Harvest.labelOf (some path.text)) "parser returned no tree")

/-- A file that is refused has no text, or is short enough and not parsed. -/
theorem Refuses.of_hasText {failure : Failure} {text : String}
    (h : tools.Refuses language maxLines tree path failure) (htext : tree.HasText path text) :
    Lines.within text maxLines = true ∧ tools.parsed language path text = .error failure := by
  have ⟨bytes, hbytes, hdecoded⟩ := htext
  cases h with
  | unreadable hread => cases hread.symm.trans hbytes
  | noText hread hdecode =>
    cases hread.symm.trans hbytes
    cases hdecode.symm.trans hdecoded
  | refused hother hwithin hparse | treeless hother hwithin hparse =>
    obtain rfl := hother.unique htext
    refine ⟨hwithin, ?_⟩
    rw [parsed, hparse]
    rfl

/-- Files that were all gone over were not refused. -/
theorem Collects.not_refuses (h : tools.Collects language maxLines tree files touches) :
    ∀ path ∈ files, ∀ failure, ¬ tools.Refuses language maxLines tree path failure := by
  induction h with
  | nil => nofun
  | long hlong _ ih =>
    refine List.forall_mem_cons.mpr ⟨fun failure hrefuses => ?_, ih⟩
    obtain ⟨text, htext, hwithin⟩ := hlong
    rw [(hrefuses.of_hasText htext).1] at hwithin
    cases hwithin
  | short hfound _ _ ih =>
    refine List.forall_mem_cons.mpr ⟨fun failure hrefuses => ?_, ih⟩
    obtain ⟨text, htext, -, hparsed⟩ := hfound
    cases hparsed.symm.trans (hrefuses.of_hasText htext).2

/-- With a parser that cuts texts, whatever is harvested has a text for each of its spans. -/
theorem CutsTexts.textOf {found : Harvest} (hcuts : tools.CutsTexts)
    (hfound : tools.Harvests language maxLines tree path found) :
    ∀ span ∈ found.spans, ∃ text, found.textOf span = .ok text := by
  obtain ⟨text, -, -, hparsed⟩ := hfound
  obtain ⟨htext, hspans⟩ := hcuts.cuts hparsed
  exact fun span hspan => Harvest.exists_textOf htext (hspans span hspan)

/-- A file is too long, or it has a harvest, or it is refused. -/
theorem file_cases (tools : Toolchain) (language : Language) (maxLines : Nat) (tree : FileTree)
    (path : Path) :
    tree.TooLong maxLines path ∨ (∃ found, tools.Harvests language maxLines tree path found) ∨
      ∃ failure, tools.Refuses language maxLines tree path failure := by
  -- A file is read, decoded, measured and parsed, and each step may be its last.
  cases hread : tree.read path with
  | error fault => exact .inr (.inr ⟨_, .unreadable hread⟩)
  | ok bytes =>
    cases hdecode : Utf8.decode bytes with
    | error fault => exact .inr (.inr ⟨_, .noText hread hdecode⟩)
    | ok text =>
      have htext : tree.HasText path text := ⟨bytes, hread, hdecode⟩
      cases hwithin : Lines.within text maxLines with
      | false => exact .inl ⟨text, htext, hwithin⟩
      | true =>
        cases hparse : tools.parse language (Utf8.encode text) with
        | refused reason => exact .inr (.inr ⟨_, .refused htext hwithin hparse⟩)
        | nothing => exact .inr (.inr ⟨_, .treeless htext hwithin hparse⟩)
        | tree root =>
          have hparsed : tools.parsed language path text = .ok
              ⟨Utf8.encode text, Harvest.spansOf text root, some path.text, language.name⟩ :=
            Harvest.ofParse_eq_ok_iff.mpr ⟨root, text, hparse, Utf8.decode_encode text, rfl⟩
          exact .inr (.inl ⟨_, text, htext, hwithin, hparsed⟩)

/-- What going over files comes to, for a corpus to which something was added before: all of them
contribute, or the first one that is refused ends the pass. -/
inductive GoesOver (tools : Toolchain) (language : Language) (maxLines : Nat) (tree : FileTree)
    (before : List Corpus.Touch) (files : List Path) : Except Stop Corpus → Prop
  | all {touches : List Corpus.Touch} {corpus : Corpus}
      (hall : tools.Collects language maxLines tree files touches)
      (hreached : Corpus.Reached (before ++ touches) corpus) :
      GoesOver tools language maxLines tree before files (.ok corpus)
  | first {earlier later : List Path} {path : Path} {touches : List Corpus.Touch}
      {failure : Failure} (hfiles : files = earlier ++ path :: later)
      (hearlier : tools.Collects language maxLines tree earlier touches)
      (hrefused : tools.Refuses language maxLines tree path failure) :
      GoesOver tools language maxLines tree before files (.error (.failed failure))

theorem GoesOver.long {result : Except Stop Corpus} (hlong : tree.TooLong maxLines path)
    (h : tools.GoesOver language maxLines tree before files result) :
    tools.GoesOver language maxLines tree before (path :: files) result := by
  cases h with
  | all hall hreached => exact .all (.long hlong hall) hreached
  | first hfiles hearlier hrefused =>
    exact .first (congrArg (path :: ·) hfiles) (.long hlong hearlier) hrefused

theorem GoesOver.short {result : Except Stop Corpus} {own : List Corpus.Touch} {found : Harvest}
    (hfound : tools.Harvests language maxLines tree path found) (hown : found.Adds own)
    (h : tools.GoesOver language maxLines tree (before ++ own) files result) :
    tools.GoesOver language maxLines tree before (path :: files) result := by
  cases h with
  | all hall hreached =>
    rw [List.append_assoc] at hreached
    exact .all (.short hfound hown hall) hreached
  | first hfiles hearlier hrefused =>
    exact .first (congrArg (path :: ·) hfiles) (.short hfound hown hearlier) hrefused

end Toolchain

/-! ## Going over the files -/

theorem Grammars.exists_parser {installed : Language → Bool} {language : Language}
    (hinstalled : installed language = true) (kept : Grammars) :
    ∃ handle, (parser installed language kept).answer = .ok handle := by
  unfold parser
  split
  case h_1 handle _ => exact ⟨handle, rfl⟩
  case h_2 =>
    unfold makeParser grammar
    rw [if_pos hinstalled]
    split <;> exact ⟨_, rfl⟩

theorem Toolchain.harvestOf_of_installed {tools : Toolchain} {language : Language}
    (hinstalled : tools.installed language = true) (path : Path) (text : String)
    (grammars : Grammars) :
    tools.harvestOf language path text grammars
      = (tools.parsed language path text).mapError .failed := by
  obtain ⟨handle, hhandle⟩ := Grammars.exists_parser hinstalled grammars
  rw [harvestOf, hhandle]

namespace Run

variable {tools : Toolchain} {language : Language} {maxLines : Nat} {directory path : Path}
  {corpus : Corpus} {world : World σ}

/-- A file that is refused stops the pass, and the files stay as they are. -/
theorem addFile_of_refuses (hinstalled : tools.installed language = true) {failure : Failure}
    (corpus : Corpus) (h : tools.Refuses language maxLines world.tree path failure) :
    ∃ world', addFile tools language maxLines path corpus world
      = (.error (.failed failure), world') ∧ world.Level world' := by
  -- Either the reading fails, or there is a text and what fails is harvesting it.
  have hunread : (readSource path : Run σ String) world = (.error (.failed failure), world) →
      addFile tools language maxLines path corpus world = (.error (.failed failure), world) := by
    intro hread
    rw [addFile, Chance.bind_apply, hread]
  have hunparsed : ∀ text, world.tree.HasText path text → ∃ world',
      addFile tools language maxLines path corpus world = (.error (.failed failure), world') ∧
        world.Level world' := by
    intro text htext
    obtain ⟨hwithin, hparsed⟩ := h.of_hasText htext
    obtain ⟨world', hrun, hlevel, -⟩ := addFile_of_within tools language corpus htext hwithin
    rw [Toolchain.harvestOf_of_installed hinstalled, hparsed] at hrun
    exact ⟨world', hrun, hlevel⟩
  cases h with
  | unreadable hread =>
    refine ⟨world, hunread ?_, .refl world⟩
    rw [readSource_apply, hread]
  | noText hread hdecode =>
    refine ⟨world, hunread ?_, .refl world⟩
    rw [readSource_apply, hread]
    dsimp only
    rw [hdecode]
  | refused htext _ _ | treeless htext _ _ => exact hunparsed _ htext

/-- A file with a harvest is added to a corpus, with the texts of all its spans. -/
theorem addFile_of_harvests (hinstalled : tools.installed language = true) {found : Harvest}
    (corpus : Corpus) (htexts : ∀ span ∈ found.spans, ∃ text, found.textOf span = .ok text)
    (h : tools.Harvests language maxLines world.tree path found) :
    ∃ world', addFile tools language maxLines path corpus world
      = (.ok (true, (corpus.addSource found).2), world') ∧ world.Level world' := by
  obtain ⟨text, htext, hwithin, hparsed⟩ := h
  obtain ⟨world', hrun, hlevel, -⟩ := addFile_of_within tools language corpus htext hwithin
  obtain ⟨count, hcount⟩ := Corpus.exists_addSpans htexts 0 corpus
  have hadded : corpus.addSource found = (.ok count, (corpus.addSource found).2) :=
    Prod.ext hcount rfl
  -- An installed parser can be loaded, whichever grammars are loaded already.
  rw [Toolchain.harvestOf_of_installed hinstalled, hparsed] at hrun
  refine ⟨world', hrun.trans ?_, hlevel⟩
  show ((joined corpus (.ok found)).map (true, ·), world') = _
  rw [joined, hadded]
  rfl

/-- Going over what a scan met goes over its files, one after the other. -/
theorem addVisits_goesOver (hinstalled : tools.installed language = true) (hcuts : tools.CutsTexts)
    {touches : List Corpus.Touch} (hreached : Corpus.Reached touches corpus) (directory : Path)
    (met : List Visit) (used : Nat) (world : World σ) :
    ∃ result world', addVisits tools language maxLines directory met used corpus world
        = (result, world') ∧ world.Level world' ∧
      tools.GoesOver language maxLines world.tree touches (filesOf directory met)
        (result.map Prod.snd) := by
  induction met generalizing used corpus touches world with
  | nil =>
    refine ⟨_, world, rfl, .refl world, .all .nil ?_⟩
    rwa [List.append_nil]
  | cons visit rest ih =>
    rw [addVisits, logAll_bind_apply]
    have hlogged := (world.still_afterLines (visitLine? visit).toList).toLevel
    rw [hlogged.tree]
    generalize world.afterLines (visitLine? visit).toList = logged at hlogged ⊢
    cases hfile : visit.file? with
    | none =>
      -- What is not a file leaves a line in the log at most.
      rw [filesOf_cons_of_none hfile]
      obtain ⟨result, world', hrun, hlevel, hover⟩ := ih hreached used _
      exact ⟨result, world', hrun, hlogged.trans hlevel, hover⟩
    | some names =>
      rw [filesOf_cons_of_some hfile]
      dsimp only
      rw [Chance.bind_apply]
      obtain hlong | ⟨found, hfound⟩ | ⟨failure, hrefuses⟩ :=
        tools.file_cases language maxLines logged.tree (directory.below names)
      · -- The corpus that the other files are added to is the one from before.
        obtain ⟨between, hadd, hsame⟩ := addFile_of_tooLong tools language corpus hlong
        obtain ⟨result, world', hrun, hlevel, hover⟩ := ih hreached used _
        rw [← hsame.tree] at hover
        refine ⟨result, world', ?_, hlogged.trans (hsame.toLevel.trans hlevel),
          hover.long hlong⟩
        rw [hadd]
        exact hrun
      · -- The file's own texts are in the history before those of the files after it.
        have htexts := hcuts.textOf hfound
        obtain ⟨between, hadd, hsame⟩ := addFile_of_harvests hinstalled corpus htexts hfound
        obtain ⟨result, world', hrun, hlevel, hover⟩ := ih (hreached.addSource found) (used + 1) _
        rw [← hsame.tree] at hover
        refine ⟨result, world', ?_, hlogged.trans (hsame.trans hlevel),
          .short hfound (Harvest.adds_ofSpans htexts) hover⟩
        rw [hadd]
        exact hrun
      · obtain ⟨between, hadd, hsame⟩ := addFile_of_refuses hinstalled corpus hrefuses
        refine ⟨.error (.failed failure), between, ?_, hlogged.trans hsame,
          .first (List.nil_append _).symm .nil hrefuses⟩
        rw [hadd]

/--
The corpus of a directory that can be asked for, with a parser that is installed and cuts texts
between characters.  No file is changed.  Either all files that the scan yields contribute to the
corpus in turn, those that are too long nothing and the others the texts of their own spans, and it
lists what they contribute; or it fails for the first file that has no text, or that is short enough
and has no tree.
-/
theorem buildCorpus_collects {patterns : Value} {rules : ScanRules}
    (hinstalled : tools.installed language = true) (hcuts : tools.CutsTexts) (hlines : 1 ≤ maxLines)
    (hrules : ScanRules.ofValues (.texts language.suffixes) patterns = .ok rules)
    (haskable : FileTree.unaskable? directory ≠ some .nullCharacter) (world : World σ) :
    ∃ files result world',
      (scan directory (.texts language.suffixes) patterns world).1 = .ok files ∧
      buildCorpus tools directory (.text language.name) (.int maxLines) patterns world
        = (result, world') ∧
      world.Level world' ∧
      ((∃ corpus touches, result = .ok corpus ∧
          tools.Collects language maxLines world.tree files touches ∧ corpus.Recounts touches ∧
          ∀ path ∈ files, ∀ failure, ¬ tools.Refuses language maxLines world.tree path failure) ∨
        ∃ earlier path later failure, files = earlier ++ path :: later ∧
          result = .error (.failed failure) ∧
          tools.Refuses language maxLines world.tree path failure ∧
          ∀ other ∈ earlier, ∀ failure,
            ¬ tools.Refuses language maxLines world.tree other failure) := by
  obtain ⟨scanned, hscan, -⟩ := scan_apply hrules haskable world
  obtain ⟨start, hstart, hbuild⟩ := buildCorpus_apply tools hlines hrules haskable world
  obtain ⟨result, added, hadded, hlevel, hover⟩ := addVisits_goesOver hinstalled hcuts .empty
    directory (world.tree.visits directory rules) 0 start
  obtain ⟨world', hbuilt, hsame⟩ := hbuild result added hadded
  -- The files are those from before anything was logged.
  rw [← hstart.tree] at hover
  refine ⟨_, _, world', congrArg Prod.fst hscan, hbuilt,
    hstart.toLevel.trans (hlevel.trans hsame.toLevel), ?_⟩
  generalize result.map Prod.snd = outcome at hover
  cases hover with
  | all hall hreached =>
    have hrecounts : Corpus.Recounts _ _ := hreached.eq_touchAll ▸ Corpus.recounts_touchAll _
    exact .inl ⟨_, _, rfl, hall, hrecounts, hall.not_refuses⟩
  | first hfiles hearlier hrefused =>
    exact .inr ⟨_, _, _, _, hfiles, rfl, hrefused, hearlier.not_refuses⟩

/-- Four short sources and a long one, and below them a file that is not UTF-8. -/
def mixedTree : FileTree where
  workDirectory := ["w"]
  entries := ⟨[(["w"], .directory), (["w", "in"], .directory), (["w", "in", "low"], .directory),
    (["w", "in", "low", "e.rs"], .file [0xFF]),
    (["w", "in", "d.rs"], .file [0x78]), (["w", "in", "c.rs"], .file [0x77]),
    (["w", "in", "b.rs"], .file [0x79, 0x0A, 0x7A]), (["w", "in", "a.rs"], .file [0x78])]⟩

/-- The world before a corpus of its directory is built. -/
def mixedStart : World Script := World.fresh mixedTree ⟨[]⟩ .empty

/-- What building that corpus comes to, with lines below two and some ignore patterns. -/
def mixedCorpus (patterns : List String) : Except Stop Corpus × World Script :=
  buildCorpus wholeTextTools ⟨.relative, ["in"]⟩ (.text Language.rust.name) (.int (2 : Nat))
    (.texts patterns) mixedStart

/-- Without the directory below, the long source contributes nothing and the last of the others
nothing new.  With it, the file that is not UTF-8 ends the pass. -/
theorem mixedTree_collects :
    (∃ corpus files touches, (mixedCorpus ["low/"]).1 = .ok corpus ∧ files.length = 4 ∧
        wholeTextTools.Collects .rust 2 mixedTree files touches ∧ corpus.Recounts touches ∧
        corpus.kinds = ["identifier"] ∧ corpus.candidates "identifier" = ["", "x", "w"]) ∧
      ∃ path failure, (mixedCorpus []).1 = .error (.failed failure) ∧
        wholeTextTools.Refuses .rust 2 mixedTree path failure := by
  have hinstalled : wholeTextTools.installed .rust = true := rfl
  have hlines : 1 ≤ 2 := by decide
  have haskable : FileTree.unaskable? ⟨.relative, ["in"]⟩ ≠ some .nullCharacter := by decide
  constructor
  · have hlisted : (mixedCorpus ["low/"]).1.toOption.map
        (fun corpus => (corpus.kinds, corpus.candidates "identifier"))
          = some (["identifier"], ["", "x", "w"]) := by decide +kernel
    have hcount : (scan ⟨.relative, ["in"]⟩ (.texts Language.rust.suffixes) (.texts ["low/"])
        mixedStart).1.toOption.map List.length = some 4 := by decide +kernel
    have hrules : ScanRules.ofValues (.texts Language.rust.suffixes) (.texts ["low/"]) = .ok _ := rfl
    obtain ⟨files, result, world', hfiles, hbuild, -, hends⟩ :=
      buildCorpus_collects hinstalled cutsTexts_wholeText hlines hrules haskable mixedStart
    obtain rfl : result = (mixedCorpus ["low/"]).1 := (congrArg Prod.fst hbuild).symm
    rw [hfiles] at hcount
    obtain ⟨corpus, touches, hcorpus, hcollects, hrecounts, -⟩ |
      ⟨_, _, _, failure, -, hfailure, -⟩ := hends
    · rw [hcorpus] at hlisted ⊢
      obtain ⟨hkinds, hcandidates⟩ := Prod.mk.inj (Option.some.inj hlisted)
      exact ⟨corpus, files, touches, rfl, Option.some.inj hcount, hcollects, hrecounts, hkinds,
        hcandidates⟩
    · rw [hfailure] at hlisted
      cases hlisted
  · have hfailed : (mixedCorpus []).1.isOk = false := by decide +kernel
    have hrules : ScanRules.ofValues (.texts Language.rust.suffixes) (.texts []) = .ok _ := rfl
    obtain ⟨files, result, world', -, hbuild, -, hends⟩ :=
      buildCorpus_collects hinstalled cutsTexts_wholeText hlines hrules haskable mixedStart
    obtain rfl : result = (mixedCorpus []).1 := (congrArg Prod.fst hbuild).symm
    obtain ⟨corpus, touches, hcorpus, -⟩ | ⟨_, path, _, failure, -, hfailure, hrefuses, -⟩ := hends
    · rw [hcorpus] at hfailed
      cases hfailed
    · exact ⟨path, failure, hfailure, hrefuses⟩

end Run

end SourceMutation
