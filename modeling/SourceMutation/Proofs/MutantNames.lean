import SourceMutation.Language
import SourceMutation.Mutant
import SourceMutation.Proofs.Directories

/-!
# Names of mutants

The name of a mutant tells its source's name and its number, as long as all sources have the suffix
of one language (`MutantName.compose_injective`).  It does not tell the source's directory: sources
of one name have mutants of one name.

The only doubt is about a name with a slash in it.  No file has such a name, but nothing here has to
know that: the suffix at the end of the mutant's name is then the language's or none at all, and
either way it is the same for two mutants of one name.
-/

namespace SourceMutation

/-! ## Fields and suffixes -/

theorem Fields.split_of_notMem {separator : Char} {cs : List Char} (h : separator ∉ cs) :
    split separator cs = [cs] := by
  induction cs with
  | nil => rfl
  | cons c rest ih =>
    obtain ⟨hc, hrest⟩ := not_or.mp (mt List.mem_cons.mpr h)
    simp [split, Ne.symm hc, ih hrest]

/-- What is put behind a text goes to its last field, if no separator is in it. -/
theorem Fields.split_append {separator : Char} {ending : List Char} (h : separator ∉ ending)
    (cs : List Char) :
    ∃ fields last, split separator (cs ++ ending) = fields ++ [last ++ ending] := by
  induction cs with
  | nil => exact ⟨[], [], split_of_notMem h⟩
  | cons c rest ih =>
    obtain ⟨fields, last, hrest⟩ := ih
    -- A separator starts a new field, and any other character belongs to the first one.
    by_cases hc : c = separator
    · exact ⟨[] :: fields, last, by simp [split, hc, hrest]⟩
    · cases fields with
      | nil => exact ⟨[], c :: last, by simp [split, hc, hrest]⟩
      | cons field fields => exact ⟨(c :: field) :: fields, last, by simp [split, hc, hrest]⟩

namespace Path

theorem fromLastPoint_append {ending : List Char} (h : '.' ∉ ending) (cs : List Char) :
    fromLastPoint (cs ++ '.' :: ending) = '.' :: ending := by
  have hpoint : ∀ c ∈ ending.reverse, (c != '.') = true := by
    intro c hc
    rw [bne_iff_ne]
    rintro rfl
    exact h (List.mem_reverse.mp hc)
  simp [fromLastPoint, List.takeWhile_append_of_pos hpoint]

/-- A name with a suffix has characters before its last point and behind it. -/
theorem exists_of_suffixOf {name : String} (h : suffixOf name ≠ "") :
    ∃ before ending, before ≠ [] ∧ ending ≠ [] ∧ '.' ∉ ending ∧
      name.toList = before ++ '.' :: ending ∧ suffixOf name = String.ofList ('.' :: ending) := by
  unfold suffixOf at h ⊢
  dsimp only at h ⊢
  split at h
  case isTrue => exact absurd rfl h
  case isFalse hlength =>
    rw [if_neg hlength]
    have hmem : '.' ∈ name.toList := by
      apply Decidable.byContradiction
      intro hnone
      simp [fromLastPoint, hnone] at hlength
    -- The first point from the end on is the last one.
    obtain ⟨ending, before, hreversed, hending⟩ :=
      List.eq_append_cons_of_mem (List.mem_reverse.mpr hmem)
    have hname : name.toList = before.reverse ++ '.' :: ending.reverse := by
      rw [← List.reverse_reverse name.toList, hreversed]
      simp
    have hpoint : '.' ∉ ending.reverse := by simpa using hending
    rw [hname, fromLastPoint_append hpoint] at hlength ⊢
    refine ⟨before.reverse, ending.reverse, ?_, ?_, hpoint, rfl, rfl⟩
    · intro hnil
      simp [hnil] at hlength
    · intro hnil
      simp [hnil] at hlength

/-- The suffix of a name goes on from its last point, if there are characters on both sides. -/
theorem suffixOf_of_toList {name : String} {before ending : List Char} (hbefore : before ≠ [])
    (hending : ending ≠ []) (hpoint : '.' ∉ ending) (hname : name.toList = before ++ '.' :: ending) :
    suffixOf name = String.ofList ('.' :: ending) := by
  have hlength : (before ++ '.' :: ending).length = before.length + ('.' :: ending).length :=
    List.length_append
  have hpositive := List.length_pos_iff.mpr hbefore
  have hlong : 2 ≤ ('.' :: ending).length := Nat.succ_le_succ (List.length_pos_iff.mpr hending)
  unfold suffixOf
  dsimp only
  rw [hname, fromLastPoint_append hpoint, if_neg]
  rw [Bool.or_eq_true, decide_eq_true_eq, beq_iff_eq, hlength]
  omega

theorem append_of_suffixOf {name ending : String} (h : suffixOf name = ending) (hne : ending ≠ "") :
    ∃ before, before ≠ [] ∧ name.toList = before ++ ending.toList := by
  subst h
  obtain ⟨before, ending, hbefore, -, -, hname, hsuffix⟩ := exists_of_suffixOf hne
  refine ⟨before, hbefore, ?_⟩
  rw [hsuffix, String.toList_ofList, hname]

end Path

/-- The text of a path tells its last part. -/
theorem Path.text_below_injective {path : Path} {name other : String}
    (h : (path.below [name]).text = (path.below [other]).text) : name = other := by
  have htext : ∀ name, (path.below [name]).text
      = path.anchor.text ++ "/".intercalate (path.parts ++ [name]) := by
    intro name
    unfold text below
    dsimp only
    split
    case h_1 hempty => simp at hempty
    case h_2 => rfl
  rw [htext, htext, String.append_right_inj] at h
  -- Without parts the name stands alone, and otherwise a slash comes before it.
  by_cases hparts : path.parts = []
  · simpa [hparts] using h
  · rw [String.intercalate_append_of_ne_nil hparts (by simp),
      String.intercalate_append_of_ne_nil hparts (by simp), String.append_right_inj] at h
    simpa using h

/-- A language's suffix is a point and letters. -/
theorem Language.toList_suffix (language : Language) :
    ∃ letters, language.suffix.toList = '.' :: letters ∧ letters ≠ [] ∧ ∀ c ∈ letters, c.isAlpha := by
  cases language with
  | rust => exact ⟨['r', 's'], rfl, by simp, by simp⟩
  | python => exact ⟨['p', 'y'], rfl, by simp, by simp⟩
  | javascript => exact ⟨['j', 's'], rfl, by simp, by simp⟩
  | typescript => exact ⟨['t', 's'], rfl, by simp, by simp⟩
  | go => exact ⟨['g', 'o'], rfl, by simp, by simp⟩

/-- The name at the end of a text has the suffix at the end of the text, or none. -/
theorem Path.suffix_ofText {language : Language} {name : String}
    (h : suffixOf name = language.suffix) :
    (ofText name).suffix = language.suffix ∨ (ofText name).suffix = "" := by
  obtain ⟨letters, hsuffix, hne, hletters⟩ := language.toList_suffix
  have hnotMem : ∀ c, c.isAlpha = false → c ∉ letters := by
    intro c hc hmem
    exact absurd (hletters c hmem) (by simp [hc])
  obtain ⟨before, -, hname⟩ := append_of_suffixOf h (by
    intro hempty
    simp [hempty] at hsuffix)
  have hslash : '/' ∉ language.suffix.toList := by
    simp [hsuffix, hnotMem '/' (by decide)]
  obtain ⟨fields, last, hfields⟩ := Fields.split_append hslash before
  -- The last field is neither empty nor a single point, so it is the name at the end.
  have hlast : (ofText name).name = String.ofList (last ++ language.suffix.toList) := by
    have hkept : (fun part : String => part != "" && part != ".")
        (String.ofList (last ++ language.suffix.toList)) = true := by
      dsimp only
      rw [hsuffix, Bool.and_eq_true, bne_iff_ne, bne_iff_ne]
      constructor
      · intro hempty
        simpa using congrArg String.toList hempty
      · intro hpoint
        have hlength := congrArg (fun text => text.toList.length) hpoint
        have hpositive := List.length_pos_iff.mpr hne
        simp at hlength
        omega
    rw [Path.name, ofText, partsOf, Fields.ofText, hname, hfields, List.map_append,
      List.filter_append, List.map_singleton]
    dsimp only
    rw [List.filter_cons_of_pos (p := fun part => part != "" && part != ".") hkept, List.filter_nil,
      List.getLastD_concat]
  rw [suffix, hlast, suffixOf, String.toList_ofList, hsuffix,
    fromLastPoint_append (hnotMem '.' (by decide))]
  split
  · exact .inr rfl
  · left
    rw [← hsuffix, String.ofList_toList]

namespace MutantName

/-- From one on, every number has a name. -/
theorem ofIndex_of_pos {source : String} {index : Nat} (hindex : 1 ≤ index) :
    ofIndex source index = .ok (compose source index) := by
  unfold ofIndex
  rw [if_neg (by omega)]

theorem toList_compose (source : String) (index : Nat) :
    (compose source index).toList
      = "mut_".toList ++ (source.toList ++ '_' :: Nat.toDigits 10 index
        ++ (Path.ofText source).suffix.toList) := by
  have hcompose : compose source index
      = "mut_" ++ source ++ "_" ++ index.repr ++ (Path.ofText source).suffix := rfl
  rw [hcompose]
  simp [Nat.toList_repr]

/-- What stands before and behind the last bar is told by the whole. -/
theorem append_bar_injective {first second ending ending' : List Char}
    (h : first ++ '_' :: ending = second ++ '_' :: ending') (hending : '_' ∉ ending)
    (hending' : '_' ∉ ending') : first = second ∧ ending = ending' := by
  rcases List.append_eq_append_iff.mp h with ⟨between, rfl, hrest⟩ | ⟨between, rfl, hrest⟩
  · cases between with
    | nil => simpa using hrest
    | cons c between => simp_all
  · cases between with
    | nil => simpa using hrest.symm
    | cons c between => simp_all

/-- A language's suffix does not end like a number. -/
theorem getLast?_toList_suffix (language : Language) :
    ∃ c, language.suffix.toList.getLast? = some c ∧ c.isDigit = false := by
  cases language <;> exact ⟨_, rfl, by decide⟩

/-- A name with a language's suffix behind its number is not one that ends with its number. -/
theorem append_suffix_ne (language : Language) (name other : List Char) (index number : Nat) :
    name ++ '_' :: Nat.toDigits 10 index ++ language.suffix.toList
      ≠ other ++ '_' :: Nat.toDigits 10 number := by
  intro h
  obtain ⟨c, hlast, hdigit⟩ := getLast?_toList_suffix language
  have hends := congrArg List.getLast? h
  rw [List.getLast?_append, hlast, Option.some_or, List.getLast?_append] at hends
  cases hdigits : (Nat.toDigits 10 number).getLast? with
  | none => exact absurd (List.getLast?_eq_none_iff.mp hdigits) Nat.toDigits_ne_nil
  | some d =>
    have hd := Nat.isDigit_of_mem_toDigits (by decide) (by decide) (List.mem_of_getLast? hdigits)
    simp [List.getLast?_cons, hdigits] at hends
    rw [hends, hd] at hdigit
    cases hdigit

/-- The name of a mutant tells the name of its source and its number. -/
theorem compose_injective {language : Language} {source other : String} {index number : Nat}
    (hsource : Path.suffixOf source = language.suffix)
    (hother : Path.suffixOf other = language.suffix)
    (h : compose source index = compose other number) : source = other ∧ index = number := by
  have hlists := congrArg String.toList h
  rw [toList_compose, toList_compose] at hlists
  have hrest := List.append_cancel_left hlists
  -- So either both names have the suffix or neither has it.
  have hsame : source.toList ++ '_' :: Nat.toDigits 10 index
      = other.toList ++ '_' :: Nat.toDigits 10 number := by
    rcases Path.suffix_ofText hsource with hfirst | hfirst <;>
      rcases Path.suffix_ofText hother with hsecond | hsecond <;>
      rw [hfirst, hsecond] at hrest
    · exact List.append_cancel_right hrest
    · exact absurd (by simpa using hrest) (append_suffix_ne language _ other.toList index number)
    · exact absurd (by simpa using hrest.symm) (append_suffix_ne language _ source.toList number index)
    · simpa using hrest
  obtain ⟨hname, hdigits⟩ := append_bar_injective hsame Nat.underscore_not_in_toDigits
    Nat.underscore_not_in_toDigits
  refine ⟨String.toList_injective hname, ?_⟩
  have hnumber := congrArg (fun digits => Nat.ofDigitChars 10 digits 0) hdigits
  simpa using hnumber

theorem plain_compose (source : String) (index : Nat) : FileTree.Plain (compose source index) := by
  refine ⟨?_, ?_, ?_⟩ <;>
  · intro h
    have hlists := congrArg String.toList h
    rw [toList_compose] at hlists
    simp at hlists

end MutantName

end SourceMutation
