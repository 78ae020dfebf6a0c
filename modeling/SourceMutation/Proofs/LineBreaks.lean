import SourceMutation.Text.Lines

/-!
# Breaks between lines

A text has as many lines as it has breaks, and one more if something follows the last of them.  So
the number of its lines does not depend on which breaks it has, and cannot get smaller when
something is appended to it; neither can a text become short enough by that (`Lines.text_measured`).

A carriage return with a newline behind it is one break.  Hence breaks are counted in two parts: the
characters that break a line, less the pairs among them (`Lines.breakCount`).  All proofs go through
a text from its front, where a pair, a single break or any other character stands
(`Lines.break_induct`).
-/

namespace SourceMutation.Lines

/-! ## Breaks -/

/-- A break between two lines. -/
inductive Break where
  | newline
  | carriageReturn
  /-- A carriage return and the newline right after it. -/
  | pair
  | verticalTab
  | formFeed
  | fileSeparator
  | groupSeparator
  | recordSeparator
  | nextLine
  | lineSeparator
  | paragraphSeparator

/-- How a break is written. -/
def Break.chars : Break → List Char
  | newline => ['\n']
  | carriageReturn => ['\r']
  | pair => ['\r', '\n']
  | verticalTab => ['\x0b']
  | formFeed => ['\x0c']
  | fileSeparator => ['\x1c']
  | groupSeparator => ['\x1d']
  | recordSeparator => ['\x1e']
  | nextLine => ['\u0085']
  | lineSeparator => ['\u2028']
  | paragraphSeparator => ['\u2029']

/-- The characters that are a break of their own. -/
def breakCharacters : List Char :=
  ['\n', '\r', '\x0b', '\x0c', '\x1c', '\x1d', '\x1e', '\u0085', '\u2028', '\u2029']

/-- How often a newline follows right after a carriage return. -/
def pairCount (cs : List Char) : Nat := (cs.zip cs.tail).count ('\r', '\n')

/-- How many breaks a text has: as many as it has such characters, but both of a pair are one. -/
def breakCount (cs : List Char) : Nat := cs.countP (· ∈ breakCharacters) - pairCount cs

/-- Whether a text has a last character, and that is not of a break. -/
def isUnfinished (cs : List Char) : Bool := cs.getLast?.any (· ∉ breakCharacters)

/-- A text with the same break in the place of each of its breaks. -/
def rebreak (ending : Break) : List Char → List Char
  | [] => []
  | '\r' :: '\n' :: rest => ending.chars ++ rebreak ending rest
  | c :: rest =>
    if c ∈ breakCharacters then ending.chars ++ rebreak ending rest else c :: rebreak ending rest

variable {c : Char} {cs rest : List Char} {ending : Break}

/-- A break is one of the characters that break a line. -/
theorem isBreak_iff : isBreak c = true ↔ c ∈ breakCharacters := by
  simp [isBreak, breakCharacters, or_assoc]

/-! ## Texts from their first break or character on

A carriage return and a newline behind it are one break of two characters.  So a text is taken apart
by pairs first, then by single breaks and other characters.
-/

/-- Whether a character is the carriage return of a pair, by what follows it. -/
def StartsPair (c : Char) (rest : List Char) : Prop := c = '\r' ∧ rest.head? = some '\n'

/-- A pair is a carriage return with a newline behind it. -/
theorem startsPair_iff : StartsPair c rest ↔ ∃ more, c = '\r' ∧ rest = '\n' :: more := by
  simp [StartsPair, List.head?_eq_some_iff]

/-- A text starts with a pair, with another break, or with a character of a line. -/
theorem break_induct {motive : List Char → Prop} (nil : motive [])
    (pair : ∀ rest, motive rest → motive ('\r' :: '\n' :: rest))
    (single : ∀ c rest, c ∈ breakCharacters → ¬StartsPair c rest → motive rest → motive (c :: rest))
    (plain : ∀ c rest, c ∉ breakCharacters → motive rest → motive (c :: rest))
    (cs : List Char) : motive cs := by
  fun_induction split cs with
  | case1 => exact nil
  | case2 rest ih => exact pair rest ih
  | case3 c rest hpair hbreak ih =>
    refine single c rest (isBreak_iff.mp hbreak) (fun hstarts => ?_) ih
    obtain ⟨more, hreturn, hmore⟩ := startsPair_iff.mp hstarts
    exact hpair more hreturn hmore
  | case4 c rest _ hbreak _ ih | case5 c rest _ hbreak _ _ _ ih =>
    exact plain c rest (mt isBreak_iff.mpr hbreak) ih

theorem split_nil : split [] = [] := rfl

theorem split_pair (rest : List Char) : split ('\r' :: '\n' :: rest) = [] :: split rest := rfl

/-- A single break ends an empty line. -/
theorem split_single (hbreak : c ∈ breakCharacters) (hpair : ¬StartsPair c rest) :
    split (c :: rest) = [] :: split rest := by
  rw [split.eq_def]
  split
  case h_1 hnone => cases hnone
  case h_2 hboth =>
    cases hboth
    exact absurd ⟨rfl, rfl⟩ hpair
  case h_3 hcons =>
    cases hcons
    exact if_pos (isBreak_iff.mpr hbreak)

/-- Any other character goes to the front of the first line. -/
theorem split_plain (hplain : c ∉ breakCharacters) :
    split (c :: rest) = (c :: (split rest).headD []) :: (split rest).tail := by
  rw [split.eq_def]
  split
  case h_1 hnone => cases hnone
  case h_2 hboth =>
    cases hboth
    exact absurd (by decide) hplain
  case h_3 hcons =>
    cases hcons
    rw [if_neg (mt isBreak_iff.mp hplain)]
    cases split rest <;> rfl

/-- A single break is replaced. -/
theorem rebreak_single (hbreak : c ∈ breakCharacters) (hpair : ¬StartsPair c rest) :
    rebreak ending (c :: rest) = ending.chars ++ rebreak ending rest := by
  rw [rebreak, if_pos hbreak]
  exact fun more hreturn hmore => hpair (startsPair_iff.mpr ⟨more, hreturn, hmore⟩)

/-- Any other character is left as it is. -/
theorem rebreak_plain (hplain : c ∉ breakCharacters) :
    rebreak ending (c :: rest) = c :: rebreak ending rest := by
  rw [rebreak, if_neg hplain]
  rintro more rfl
  exact absurd (by decide) hplain

/-- Only the empty text has no lines. -/
theorem split_eq_nil_iff : split cs = [] ↔ cs = [] := by
  induction cs using break_induct with
  | nil => simp [split_nil]
  | pair rest ih => simp [split_pair]
  | single c rest hbreak hpair ih => simp [split_single hbreak hpair]
  | plain c rest hplain ih => simp [split_plain hplain]

/-! ## The number of lines -/

/-- One more character makes one more pair at most. -/
theorem pairCount_cons (c : Char) (rest : List Char) [Decidable (StartsPair c rest)] :
    pairCount (c :: rest) = pairCount rest + if StartsPair c rest then 1 else 0 := by
  cases rest with
  | nil => simp [pairCount, StartsPair]
  | cons d more => simp [pairCount, StartsPair, List.count_cons]

theorem pairCount_of_not (hpair : ¬StartsPair c rest) : pairCount (c :: rest) = pairCount rest := by
  classical
  rw [pairCount_cons, if_neg hpair, Nat.add_zero]

/-- A break in front does not change whether something follows the last break. -/
theorem isUnfinished_break (hbreak : c ∈ breakCharacters) :
    isUnfinished (c :: rest) = isUnfinished rest := by
  cases rest with
  | nil => simp [isUnfinished, hbreak]
  | cons d more => simp [isUnfinished, List.getLast?_cons_cons]

/-- With any other character in front, a text is unfinished if it was so before, or was empty. -/
theorem isUnfinished_plain (hplain : c ∉ breakCharacters) :
    isUnfinished (c :: rest) = (rest.isEmpty || isUnfinished rest) := by
  cases rest with
  | nil => simp [isUnfinished, hplain]
  | cons d more => simp [isUnfinished, List.getLast?_cons_cons]

/-- Both characters of a pair are counted, so the pairs are counted to the lines again. -/
theorem length_split_add_pairCount (cs : List Char) :
    (split cs).length + pairCount cs
      = cs.countP (· ∈ breakCharacters) + (isUnfinished cs).toNat := by
  induction cs using break_induct with
  | nil => rfl
  -- The pair ends one line, and is counted as two characters and one pair.
  | pair rest ih =>
    have hreturn : '\r' ∈ breakCharacters := by decide
    have hnewline : '\n' ∈ breakCharacters := by decide
    have hpairs : pairCount ('\r' :: '\n' :: rest) = pairCount rest + 1 := by
      classical
      rw [pairCount_cons, if_pos ⟨rfl, rfl⟩, pairCount_of_not (by simp [StartsPair])]
    rw [split_pair, List.length_cons, hpairs, isUnfinished_break hreturn, isUnfinished_break hnewline,
      List.countP_cons_of_pos (by simpa using hreturn),
      List.countP_cons_of_pos (by simpa using hnewline)]
    omega
  | single c rest hbreak hpair ih =>
    rw [split_single hbreak hpair, List.length_cons, pairCount_of_not hpair,
      isUnfinished_break hbreak, List.countP_cons_of_pos (by simpa using hbreak)]
    omega
  | plain c rest hplain ih =>
    have hpair : ¬StartsPair c rest := by
      rintro ⟨rfl, -⟩
      exact absurd (by decide) hplain
    rw [split_plain hplain, List.length_cons, List.length_tail, pairCount_of_not hpair,
      isUnfinished_plain hplain, List.countP_cons_of_neg (by simpa using hplain)]
    cases rest with
    | nil => rfl
    | cons d more =>
      -- There is a line already, which the character only makes longer.
      have hsome : (split (d :: more)).length ≠ 0 := by
        simp [split_eq_nil_iff]
      rw [List.isEmpty_cons, Bool.false_or]
      omega

/-- There is a line where something follows the last break. -/
theorem toNat_isUnfinished_le (cs : List Char) : (isUnfinished cs).toNat ≤ (split cs).length := by
  cases cs with
  | nil => simp [isUnfinished]
  | cons c rest =>
    have hsome : (split (c :: rest)).length ≠ 0 := by simp [split_eq_nil_iff]
    have hone := Bool.toNat_le (isUnfinished (c :: rest))
    omega

/-- The characters that break a line are the breaks and the second halves of pairs. -/
theorem breakCount_add_pairCount (cs : List Char) :
    breakCount cs + pairCount cs = cs.countP (· ∈ breakCharacters) := by
  have hboth := length_split_add_pairCount cs
  have hlast := toNat_isUnfinished_le cs
  rw [breakCount]
  omega

/-- A text has as many lines as breaks, and one more if it does not end in one. -/
theorem length_split (cs : List Char) :
    (split cs).length = breakCount cs + (isUnfinished cs).toNat := by
  have hboth := length_split_add_pairCount cs
  have hbreaks := breakCount_add_pairCount cs
  omega

/-! ## Other breaks -/

/-- A break ends a line, whatever comes next, except for a carriage return before a newline. -/
theorem split_break_append (ending : Break)
    (hnext : ending = .carriageReturn → rest.head? ≠ some '\n') :
    split (ending.chars ++ rest) = [] :: split rest := by
  cases ending with
  | pair => rfl
  | carriageReturn => exact split_single (by decide) fun hpair => hnext rfl hpair.2
  | _ => exact split_single (by decide) (by simp [StartsPair])

/-- A text with carriage returns for breaks has no newline in front, so that nothing makes a pair
with it. -/
theorem head?_rebreak_return (cs : List Char) :
    (rebreak .carriageReturn cs).head? ≠ some '\n' := by
  induction cs using break_induct with
  | nil => simp [rebreak]
  | pair rest => simp [rebreak, Break.chars]
  | single c rest hbreak hpair => simp [rebreak_single hbreak hpair, Break.chars]
  | plain c rest hplain =>
    rw [rebreak_plain hplain, List.head?_cons]
    rintro ⟨⟩
    exact absurd (by decide) hplain

/-- The lines of a text are the same, whichever break ends them. -/
theorem split_rebreak (ending : Break) (cs : List Char) :
    split (rebreak ending cs) = split cs := by
  -- A carriage return as the new break must not meet a newline, or both would be one break.
  have hends : ∀ rest, split (ending.chars ++ rebreak ending rest)
      = [] :: split (rebreak ending rest) := by
    intro rest
    apply split_break_append
    rintro rfl
    exact head?_rebreak_return rest
  induction cs using break_induct with
  | nil => rfl
  | pair rest ih => rw [rebreak, hends, ih, split_pair]
  | single c rest hbreak hpair ih =>
    rw [rebreak_single hbreak hpair, hends, ih, split_single hbreak hpair]
  | plain c rest hplain ih =>
    rw [rebreak_plain hplain, split_plain hplain, ih, split_plain hplain]

/-! ## More text -/

/-- What is appended to a text takes none of its lines away, not even by making a pair. -/
theorem length_split_le (cs more : List Char) :
    (split cs).length ≤ (split (cs ++ more)).length := by
  induction cs using break_induct with
  | nil => simp [split_nil]
  | pair rest ih => simpa [split_pair] using ih
  | single c rest hbreak hpair ih =>
    rw [split_single hbreak hpair, List.cons_append]
    by_cases hmade : StartsPair c (rest ++ more)
    · -- The pair is made by what is appended, so the text ended in the carriage return.
      obtain rfl : rest = [] := by
        cases rest with
        | nil => rfl
        | cons d others => exact absurd ⟨hmade.1, by simpa using hmade.2⟩ hpair
      have hsome : (split (c :: ([] ++ more))).length ≠ 0 := by simp [split_eq_nil_iff]
      rw [split_nil, List.length_singleton]
      omega
    · rw [split_single hbreak hmade]
      simpa using ih
  | plain c rest hplain ih =>
    rw [List.cons_append, split_plain hplain, split_plain hplain]
    simp only [List.length_cons, List.length_tail]
    omega

/-- A text has no fewer lines with more text behind it. -/
theorem count_le_count_append (text more : String) : count text ≤ count (text ++ more) := by
  rw [count, count, String.toList_append]
  exact length_split_le _ _

/-! ## Texts that are short enough -/

/-- What the lines of a text, and whether they are few enough, depend on. -/
structure Measured (text : String) : Prop where
  /-- Every break ends a line, and a last line may be without one. -/
  count_eq : count text = breakCount text.toList + (isUnfinished text.toList).toNat
  /-- It does not matter which breaks it has. -/
  within_rebreak : ∀ ending limit,
    within (String.ofList (rebreak ending text.toList)) limit = within text limit
  /-- A text that is too long stays so, whatever is appended. -/
  within_append : ∀ more limit, within text limit = false → within (text ++ more) limit = false

/-- The lines of a text are counted by its breaks, whichever these are, and get no fewer. -/
theorem text_measured (text : String) : Measured text where
  count_eq := length_split text.toList
  within_rebreak ending limit := by
    rw [within, within, count, count, String.toList_ofList, split_rebreak]
  within_append more limit hlong := by
    have hmore := count_le_count_append text more
    simp only [within, decide_eq_false_iff_not, Int.not_lt] at hlong ⊢
    omega

/-- Two of the breaks are pairs, and the last one becomes a pair by what is appended. -/
theorem pairedText_measured :
    breakCount "a\r\n\n\r\nb\u2028c\r".toList = 5 ∧
      rebreak .newline "a\r\n\n\r\nb\u2028c\r".toList = "a\n\n\nb\nc\n".toList ∧
      within ("a\r\n\n\r\nb\u2028c\r" ++ "\n") 5 = false ∧
      Measured "a\r\n\n\r\nb\u2028c\r" := by
  have hmeasured := text_measured "a\r\n\n\r\nb\u2028c\r"
  exact ⟨by decide, by decide, hmeasured.within_append "\n" 5 (by decide), hmeasured⟩

end SourceMutation.Lines
