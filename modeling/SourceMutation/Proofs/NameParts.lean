import SourceMutation.Proofs.TwoPasses

/-!
# The parts of a mutant's name

The name of a mutant is put together without marks between its parts, and the source's name among
them may have bars, digits and points itself, or be that of a mutant.  Still it can be taken apart
(`MutantName.parts_compose`).  The suffix is what follows the last point, and neither the suffix nor
the number has a bar, so that the last bar before the suffix stands between the source's name and
the number.

This needs a source with a suffix, as all files have that a scan is after.  The mutant has the same
suffix, and so it is what the scan is after, too, and a source in the same language
(`MutantName.ofIndex_tells`).
-/

namespace SourceMutation

/-! ## Names with a suffix -/

namespace Path

/-- Whether a text is the name of a file and has a suffix. -/
structure Suffixed (name : String) : Prop where
  plain : '/' ∉ name.toList
  suffix_ne : (ofText name).suffix ≠ ""

variable {name : String}

theorem anchorOf_of_plain {cs : List Char} (h : '/' ∉ cs) : anchorOf cs = .relative := by
  cases cs with
  | nil => rfl
  | cons c rest =>
    have hc : c ≠ '/' := fun heq => h (heq ▸ List.mem_cons_self)
    unfold anchorOf
    split <;> simp_all

/-- Written as a path, such a name is one part. -/
theorem ofText_of_plain (hplain : '/' ∉ name.toList) (hempty : name ≠ "") (hpoint : name ≠ ".") :
    ofText name = ⟨.relative, [name]⟩ := by
  rw [ofText, partsOf, Fields.ofText, Fields.split_of_notMem hplain, anchorOf_of_plain hplain]
  simp [hempty, hpoint]

/-- A plain name has the same suffix as the path that it writes. -/
theorem suffix_ofText_of_plain (hplain : '/' ∉ name.toList) :
    (ofText name).suffix = suffixOf name := by
  by_cases hempty : name = ""
  · subst hempty
    decide
  · by_cases hpoint : name = "."
    · subst hpoint
      decide
    · rw [ofText_of_plain hplain hempty hpoint]
      rfl

theorem suffixed_iff : Suffixed name ↔ '/' ∉ name.toList ∧ suffixOf name ≠ "" := by
  constructor
  · rintro ⟨hplain, hsuffix⟩
    rw [suffix_ofText_of_plain hplain] at hsuffix
    exact ⟨hplain, hsuffix⟩
  · rintro ⟨hplain, hsuffix⟩
    rw [← suffix_ofText_of_plain hplain] at hsuffix
    exact ⟨hplain, hsuffix⟩

end Path

/-! ## Taking a name apart -/

namespace MutantName

/-- Characters before the last bar, and those behind it. -/
def splitLastBar (cs : List Char) : List Char × List Char :=
  let ending := (cs.reverse.takeWhile (· != '_')).reverse
  (cs.take (cs.length - (ending.length + 1)), ending)

theorem splitLastBar_append {ending : List Char} (h : '_' ∉ ending) (before : List Char) :
    splitLastBar (before ++ '_' :: ending) = (before, ending) := by
  have hbar : ∀ c ∈ ending.reverse, (c != '_') = true := by
    intro c hc
    rw [bne_iff_ne]
    rintro rfl
    exact h (List.mem_reverse.mp hc)
  have hending : ((before ++ '_' :: ending).reverse.takeWhile (· != '_')).reverse = ending := by
    simp [List.takeWhile_append_of_pos hbar]
  rw [splitLastBar, hending]
  simp

/-- The source's name and the number in the name of a mutant. -/
def parts (name : String) : String × Nat :=
  let rest := name.toList.drop 4
  let (source, digits) :=
    splitLastBar (rest.take (rest.length - (Path.suffixOf name).toList.length))
  (String.ofList source, Nat.ofDigitChars 10 digits 0)

variable {source : String}

/-- A mutant's name ends with its source's suffix, and that is its own. -/
theorem suffixOf_compose (hsource : Path.Suffixed source) (index : Nat) :
    Path.suffixOf (compose source index) = Path.suffixOf source := by
  obtain ⟨hplain, hsuffix⟩ := Path.suffixed_iff.mp hsource
  obtain ⟨before, ending, -, hending, hpoint, -, hsuffix'⟩ := Path.exists_of_suffixOf hsuffix
  have hname : (compose source index).toList
      = ("mut_".toList ++ (source.toList ++ '_' :: Nat.toDigits 10 index)) ++ '.' :: ending := by
    rw [toList_compose, Path.suffix_ofText_of_plain hplain, hsuffix', String.toList_ofList]
    simp
  rw [hsuffix']
  exact Path.suffixOf_of_toList (by simp) hending hpoint hname

/-- So the name of a mutant is one of a source again. -/
theorem suffixed_compose (hsource : Path.Suffixed source) (index : Nat) :
    Path.Suffixed (compose source index) := by
  obtain ⟨hplain, hsuffix⟩ := Path.suffixed_iff.mp hsource
  refine Path.suffixed_iff.mpr ⟨?_, ?_⟩
  · obtain ⟨before, ending, -, -, -, hname, hsuffix'⟩ := Path.exists_of_suffixOf hsuffix
    have hending : '/' ∉ '.' :: ending := fun hmem =>
      hplain (hname ▸ List.mem_append_right before hmem)
    have hdigits : '/' ∉ Nat.toDigits 10 index := fun hmem =>
      absurd (Nat.isDigit_of_mem_toDigits (by decide) (by decide) hmem) (by decide)
    rw [toList_compose, Path.suffix_ofText_of_plain hplain, hsuffix', String.toList_ofList]
    simp_all
  · rw [suffixOf_compose hsource]
    exact hsuffix

/-- The name of a mutant can be taken apart. -/
theorem parts_compose (hsource : Path.Suffixed source) (index : Nat) :
    parts (compose source index) = (source, index) := by
  have hrest : (compose source index).toList.drop 4
      = (source.toList ++ '_' :: Nat.toDigits 10 index) ++ (Path.suffixOf source).toList := by
    rw [toList_compose, Path.suffix_ofText_of_plain hsource.plain]
    simp
  rw [parts, suffixOf_compose hsource, hrest]
  dsimp only
  rw [List.length_append, Nat.add_sub_cancel, List.take_left,
    splitLastBar_append Nat.underscore_not_in_toDigits]
  simp

/-- What the name of a mutant is, for the name of a source and a number. -/
structure Tells (source : String) (index : Int) (name : String) : Prop where
  made : ofIndex source index = .ok name
  /-- It can be taken apart. -/
  parts : (parts name).1 = source ∧ ((parts name).2 : Int) = index
  /-- No other name of a source, and no other number, have it. -/
  only : ∀ other number, Path.Suffixed other → 1 ≤ number → ofIndex other number = .ok name →
    other = source ∧ number = index
  suffix : (Path.ofText name).suffix = (Path.ofText source).suffix
  /-- It is the name of a source again. -/
  again : Path.Suffixed name
  /-- Before it looks at the ignore patterns, a scan goes by it as by the source's name. -/
  selected : ∀ (suffixes above : List String),
    FileTree.visitFile ⟨suffixes, []⟩ (above ++ [name])
      = if FileTree.visitFile ⟨suffixes, []⟩ (above ++ [source]) = [] then []
        else [.file (above ++ [name])]
  /-- Below any directory it is in the same language as the source. -/
  language : ∀ (directory : Path) given,
    Run.languageOf (directory.below [name]) given = Run.languageOf (directory.below [source]) given

/-- What is told by the name of a mutant of a source with a suffix, numbered from one on. -/
theorem tells_compose (hsource : Path.Suffixed source) {index : Nat} (hindex : 1 ≤ index) :
    Tells source index (compose source index) where
  made := ofIndex_of_pos hindex
  parts := by
    rw [parts_compose hsource]
    exact ⟨rfl, rfl⟩
  -- A name is taken apart in one way only, so both are told by it.
  only other number hother hnumber hmade := by
    obtain ⟨n, rfl⟩ := Int.eq_ofNat_of_zero_le (Int.le_trans (by decide) hnumber)
    have hname : compose source index = compose other n := compose_of_ofIndex hmade
    have hparts := parts_compose hother n
    rw [← hname, parts_compose hsource] at hparts
    obtain ⟨rfl, rfl⟩ := Prod.mk.inj hparts
    exact ⟨rfl, rfl⟩
  suffix := by
    rw [Path.suffix_ofText_of_plain (suffixed_compose hsource index).plain,
      Path.suffix_ofText_of_plain hsource.plain, suffixOf_compose hsource]
  again := suffixed_compose hsource index
  -- Whether a file is selected is told by its suffix.
  selected suffixes above := by
    have hignored : ∀ names, FileTree.ignoresFile ⟨suffixes, []⟩ names = false := fun _ => rfl
    simp only [FileTree.visitFile, List.getLastD_concat, suffixOf_compose hsource, hignored]
    split <;> simp
  language directory given := by
    have hsuffix : ∀ name, (directory.below [name]).suffix = Path.suffixOf name := by
      intro name
      rw [Path.suffix, Path.name, Path.below, List.getLastD_concat]
    unfold Run.languageOf
    rw [hsuffix, hsuffix, suffixOf_compose hsource]

end MutantName

/-! ## Sources that a scan is after -/

/-- Whatever passes the check of suffixes is not empty. -/
theorem ScanRules.ne_empty_of_checkSuffixItems {items : List Value} {checked : List String}
    (h : checkSuffixItems items = .ok checked) : ∀ suffix ∈ checked, suffix ≠ "" := by
  induction items generalizing checked with
  | nil =>
    cases h
    simp
  | cons item rest ih =>
    unfold checkSuffixItems at h
    split at h
    case h_1 hnone => cases hnone
    case h_2 suffix others hitem =>
      cases hitem
      split at h
      case h_1 c cs hsuffix =>
        -- It starts with a point.
        cases hrest : checkSuffixItems rest with
        | error failure =>
          rw [hrest] at h
          cases h
        | ok later =>
          rw [hrest] at h
          cases h
          refine List.forall_mem_cons.mpr ⟨?_, ih hrest⟩
          rintro rfl
          cases hsuffix
      case h_2 => cases h
      case h_3 => cases h
    case h_3 => cases h

/-- Every file that a scan finds has a suffix. -/
theorem Run.suffix_ne_of_mem_scan {σ : Type} {directory : Path} {suffixes patterns : Value}
    {files : List Path} {world world' : World σ}
    (h : scan directory suffixes patterns world = (.ok files, world')) :
    ∀ path ∈ files, path.suffix ≠ "" := by
  intro path hmem
  obtain ⟨rules, hrules, -, rfl, -⟩ := scan_eq_ok h
  obtain ⟨items, -, hchecked⟩ := ScanRules.checked_of_ofValues hrules
  exact ScanRules.ne_empty_of_checkSuffixItems hchecked _
    (FileTree.suffixOf_of_mem_sourceFiles hmem)

/--
The name of a mutant tells its source's name and its number, for all plain names with a suffix and
numbers from one on; and every file that a scan finds has a suffix.
-/
theorem MutantName.ofIndex_tells :
    (∀ source (index : Int), Path.Suffixed source → 1 ≤ index → ∃ name, Tells source index name) ∧
      ∀ (σ : Type) directory suffixes patterns files (world world' : World σ),
        Run.scan directory suffixes patterns world = (.ok files, world') →
          ∀ path ∈ files, path.suffix ≠ "" := by
  constructor
  · intro source index hsource hindex
    obtain ⟨n, rfl⟩ := Int.eq_ofNat_of_zero_le (Int.le_trans (by decide) hindex)
    exact ⟨compose source n, tells_compose hsource (Int.ofNat_le.mp hindex)⟩
  · intro σ directory suffixes patterns files world world' h
    exact Run.suffix_ne_of_mem_scan h

/-- A directory with one file, which has the name of a mutant of a mutant. -/
def layeredTree : FileTree where
  workDirectory := ["w"]
  entries := ⟨[(["w"], .directory), (["w", "in"], .directory),
    (["w", "in", "mut_mut_a.b_1.rs_3.rs_12.rs"], .file [])]⟩

/-- The name of the file is told to be that of the twelfth mutant of the third mutant of a source,
and a scan for files of Rust finds it. -/
theorem MutantName.layered_tells :
    Path.Suffixed "mut_a.b_1.rs_3.rs" ∧
      Tells "mut_a.b_1.rs_3.rs" 12 "mut_mut_a.b_1.rs_3.rs_12.rs" ∧
      MutantName.parts "mut_mut_a.b_1.rs_3.rs_12.rs" = ("mut_a.b_1.rs_3.rs", 12) ∧
      ∃ files, (Run.scan ⟨.relative, ["in"]⟩ (.texts [".rs"]) (.texts [])
          (World.fresh layeredTree () .empty)).1 = .ok files ∧
        files.map Path.text = ["in/mut_mut_a.b_1.rs_3.rs_12.rs"] ∧
        ∀ path ∈ files, path.suffix ≠ "" := by
  have hsource : Path.Suffixed "mut_a.b_1.rs_3.rs" := ⟨by decide, by decide⟩
  have hmade : ofIndex "mut_a.b_1.rs_3.rs" 12 = .ok "mut_mut_a.b_1.rs_3.rs_12.rs" := by rfl
  -- The source is itself named like a mutant.
  have hfound : ((Run.scan ⟨.relative, ["in"]⟩ (.texts [".rs"]) (.texts [])
      (World.fresh layeredTree () .empty)).1.toOption.map (List.map Path.text))
        = some ["in/mut_mut_a.b_1.rs_3.rs_12.rs"] := by
    decide +kernel
  obtain ⟨name, htells⟩ := ofIndex_tells.1 "mut_a.b_1.rs_3.rs" 12 hsource (by decide)
  obtain rfl := Except.ok.inj (htells.made.symm.trans hmade)
  refine ⟨hsource, htells, by decide, ?_⟩
  rcases hscan : Run.scan ⟨.relative, ["in"]⟩ (.texts [".rs"]) (.texts [])
      (World.fresh layeredTree () .empty) with ⟨stop | files, after⟩
  · rw [hscan] at hfound
    cases hfound
  · rw [hscan] at hfound
    exact ⟨files, rfl, Option.some.inj hfound,
      ofIndex_tells.2 _ _ _ _ files (World.fresh layeredTree () .empty) after hscan⟩

end SourceMutation
