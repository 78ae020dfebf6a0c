import SourceMutation.Command.Display

/-!
# Values as JSON texts

`Json.Writes` is the grammar of compact JSON, with what each text stands for: a text in quotes
stands for the characters that its escapes and UTF-16 units spell.  The JSON of a value is such a
text and stands for the value (`Value.Written`), whatever is in it, as long as its real numbers are
finite.

It also has no character but printable ASCII, so that it fits on a line and nothing in it is taken
for a control sequence (`Display.plain_of_written`).

## Parts of the proof

- Whole numbers are written in decimal digits without leading zeros (`Json.writesInteger_toString`).
- Real numbers have digits, a point and perhaps an exponent, in one of four shapes that depend on
  where the point falls (`Json.isNumeral_digitsText`).
- A character is written as itself, as an escape of two characters, or as one or two UTF-16 units
  (`Json.writesChar_escape`).
- Lists and dictionaries put commas between their items (`Value.writesAll_intercalate`), and the
  induction over a value puts all of this together.
-/

namespace SourceMutation

namespace Json

/-! ## The grammar

The relations say which characters stand for what, without saying how a value is to be shown.  That
what is shown stands for the value is proved in the sections that follow.
-/

/-- Whether digits write a natural number: no zero stands in front of other digits. -/
inductive IsNatural : List Char → Prop
  | zero : IsNatural ['0']
  | positive {d : Char} {ds : List Char} (hlead : d ≠ '0') (hdigits : ∀ c ∈ d :: ds, c.isDigit) :
    IsNatural (d :: ds)

/-- Whether characters write an integer. -/
inductive WritesInteger : Int → List Char → Prop
  | natural {ds : List Char} (h : IsNatural ds) : WritesInteger (Nat.ofDigitChars 10 ds 0) ds
  | negative {ds : List Char} (h : IsNatural ds) :
    WritesInteger (-(Nat.ofDigitChars 10 ds 0 : Nat)) ('-' :: ds)

/-- Whether characters are a fraction, which may be missing. -/
inductive IsFraction : List Char → Prop
  | missing : IsFraction []
  | digits {d : Char} {ds : List Char} (hdigits : ∀ c ∈ d :: ds, c.isDigit) :
    IsFraction ('.' :: d :: ds)

/-- Whether characters are an exponent, which may be missing. -/
inductive IsExponent : List Char → Prop
  | missing : IsExponent []
  | digits {mark d : Char} {sign ds : List Char} (hmark : mark ∈ ['e', 'E'])
    (hsign : sign ∈ [[], ['+'], ['-']]) (hdigits : ∀ c ∈ d :: ds, c.isDigit) :
    IsExponent (mark :: sign ++ d :: ds)

/-- Whether characters write a number. -/
inductive IsNumeral : List Char → Prop
  | parts {sign whole fraction exponent : List Char} (hsign : sign ∈ [[], ['-']])
    (hwhole : IsNatural whole) (hfraction : IsFraction fraction)
    (hexponent : IsExponent exponent) : IsNumeral (sign ++ whole ++ fraction ++ exponent)

/-- What a hexadecimal digit stands for. -/
def hexValue? (c : Char) : Option Nat :=
  if '0' ≤ c ∧ c ≤ '9' then some (c.toNat - '0'.toNat)
  else if 'a' ≤ c ∧ c ≤ 'f' then some (10 + (c.toNat - 'a'.toNat))
  else if 'A' ≤ c ∧ c ≤ 'F' then some (10 + (c.toNat - 'A'.toNat))
  else none

/-- Whether characters are the escape of a UTF-16 unit. -/
inductive WritesUnit : Nat → List Char → Prop
  | digits {a b c d : Char} {i j k l : Nat} (ha : hexValue? a = some i) (hb : hexValue? b = some j)
    (hc : hexValue? c = some k) (hd : hexValue? d = some l) :
    WritesUnit (((i * 16 + j) * 16 + k) * 16 + l) ['\\', 'u', a, b, c, d]

/-- The characters that have short escapes, with the letters of these. -/
def shortEscapes : List (Char × Char) :=
  [('"', '"'), ('\\', '\\'), ('/', '/'), ('\x08', 'b'), ('\x0c', 'f'), ('\n', 'n'), ('\r', 'r'),
    ('\t', 't')]

/-- Whether characters inside quotes stand for one character. -/
inductive WritesChar (c : Char) : List Char → Prop
  | plain (hcontrol : 0x20 ≤ c.toNat) (hquote : c ≠ '"') (hslash : c ≠ '\\') : WritesChar c [c]
  | short {letter : Char} (h : (c, letter) ∈ shortEscapes) : WritesChar c ['\\', letter]
  | unit {cs : List Char} (h : WritesUnit c.toNat cs) : WritesChar c cs
  /-- Beyond the basic plane two surrogates stand for a character. -/
  | pair {high low : Nat} {cs ds : List Char} (hhigh : high < 0x400) (hlow : low < 0x400)
    (hvalue : c.toNat = 0x10000 + high * 0x400 + low) (hcs : WritesUnit (0xD800 + high) cs)
    (hds : WritesUnit (0xDC00 + low) ds) : WritesChar c (cs ++ ds)

/-- Whether characters inside quotes stand for others. -/
inductive WritesChars : List Char → List Char → Prop
  | nil : WritesChars [] []
  | cons {c : Char} {rest cs ds : List Char} (hfirst : WritesChar c cs)
    (hrest : WritesChars rest ds) : WritesChars (c :: rest) (cs ++ ds)

/-- Whether characters are a text in quotes. -/
inductive WritesText (s : String) : List Char → Prop
  | quoted {cs : List Char} (h : WritesChars s.toList cs) : WritesText s ('"' :: cs ++ ['"'])

/-- Whether characters are items with commas between them. -/
inductive WritesAll {α : Type} (writes : α → List Char → Prop) : List α → List Char → Prop
  | none : WritesAll writes [] []
  | one {a : α} {cs : List Char} (h : writes a cs) : WritesAll writes [a] cs
  | more {a b : α} {rest : List α} {cs ds : List Char} (hfirst : writes a cs)
    (hrest : WritesAll writes (b :: rest) ds) : WritesAll writes (a :: b :: rest) (cs ++ ',' :: ds)

/-- Whether characters are a key with a value. -/
inductive WritesPair (writes : Value → List Char → Prop) : String × Value → List Char → Prop
  | keyed {key : String} {v : Value} {cs ds : List Char} (hkey : WritesText key cs)
    (hvalue : writes v ds) : WritesPair writes (key, v) (cs ++ ':' :: ds)

/-- Whether characters are the JSON of a value.  Of a real number only the form is told. -/
inductive Writes : Value → List Char → Prop
  | null : Writes .none ['n', 'u', 'l', 'l']
  | yes : Writes (.bool true) ['t', 'r', 'u', 'e']
  | no : Writes (.bool false) ['f', 'a', 'l', 's', 'e']
  | integer {n : Int} {cs : List Char} (h : WritesInteger n cs) : Writes (.int n) cs
  | number {x : Real} {cs : List Char} (h : IsNumeral cs) : Writes (.real x) cs
  | text {s : String} {cs : List Char} (h : WritesText s cs) : Writes (.text s) cs
  | array {items : List Value} {cs : List Char} (h : WritesAll Writes items cs) :
    Writes (.list items) ('[' :: cs ++ [']'])
  | object {items : List (String × Value)} {cs : List Char}
    (h : WritesAll (WritesPair Writes) items cs) : Writes (.dict items) ('\x7b' :: cs ++ ['\x7d'])

/-! ## Visible characters -/

/-- Whether a character is printable ASCII. -/
def IsVisible (c : Char) : Prop := 0x20 ≤ c.toNat ∧ c.toNat ≤ 0x7E

instance (c : Char) : Decidable (IsVisible c) := inferInstanceAs (Decidable (_ ∧ _))

/-- Digits are visible. -/
theorem isVisible_of_isDigit {c : Char} (h : c.isDigit) : IsVisible c := by
  simp only [Char.isDigit, Bool.and_eq_true, decide_eq_true_eq, UInt32.le_iff_toNat_le] at h
  simp only [IsVisible, Char.toNat]
  have : c.val.toNat ≥ 48 := h.1
  have : c.val.toNat ≤ 57 := h.2
  omega

theorem isVisible_digits {cs : List Char} (h : ∀ c ∈ cs, c.isDigit) : ∀ c ∈ cs, IsVisible c :=
  fun c hc => isVisible_of_isDigit (h c hc)

/-! ## Numbers -/

/-- Only zero is written with a zero first. -/
theorem exists_lead_toDigits {n : Nat} (hpos : 0 < n) :
    ∃ d ds, Nat.toDigits 10 n = d :: ds ∧ d ≠ '0' := by
  induction n using Nat.strongRecOn with
  | ind n ih =>
    by_cases hsmall : n < 10
    · have hdigit : ∀ m < 10, 0 < m → m.digitChar ≠ '0' := by decide
      exact ⟨_, [], Nat.toDigits_of_lt_base hsmall, hdigit n hsmall hpos⟩
    · obtain ⟨d, ds, hdigits, hlead⟩ := ih (n / 10) (by omega) (by omega)
      rw [Nat.toDigits_of_base_le (by decide) (Nat.not_lt.mp hsmall), hdigits]
      exact ⟨d, ds ++ [(n % 10).digitChar], rfl, hlead⟩

theorem isDigit_toDigits {n : Nat} : ∀ c ∈ Nat.toDigits 10 n, c.isDigit := fun _ hmem =>
  Nat.isDigit_of_mem_toDigits (by decide) (by decide) hmem

/-- The decimal digits of a number are a number in JSON: they have no leading zero. -/
theorem isNatural_toDigits (n : Nat) : IsNatural (Nat.toDigits 10 n) := by
  rcases Nat.eq_zero_or_pos n with rfl | hpos
  · exact .zero
  · have hall := isDigit_toDigits (n := n)
    obtain ⟨d, ds, hdigits, hlead⟩ := exists_lead_toDigits hpos
    rw [hdigits] at hall ⊢
    exact .positive hlead hall

/-- An integer is shown by the digits of its size, with a sign in front if it is below zero. -/
theorem toList_toString (n : Int) :
    (∃ m : Nat, n = m ∧ (toString n).toList = Nat.toDigits 10 m) ∨
      ∃ m : Nat, n = -m ∧ (toString n).toList = '-' :: Nat.toDigits 10 m := by
  by_cases hsign : 0 ≤ n
  · obtain ⟨m, rfl⟩ := Int.eq_ofNat_of_zero_le hsign
    refine .inl ⟨m, rfl, ?_⟩
    show (toString m).toList = _
    rw [Nat.toString_eq_ofList_toDigits, String.toList_ofList]
  · obtain ⟨m, rfl⟩ := Int.eq_negSucc_of_lt_zero (Int.not_le.mp hsign)
    refine .inr ⟨m + 1, rfl, ?_⟩
    show ("-" ++ toString (m + 1)).toList = _
    simp

/-- A whole number is written with its decimal digits. -/
theorem writesInteger_toString (n : Int) : WritesInteger n (toString n).toList := by
  have hvalue : ∀ m : Nat, Nat.ofDigitChars 10 (Nat.toDigits 10 m) 0 = m := fun m =>
    Nat.ofDigitChars_ten_toDigits
  rcases toList_toString n with ⟨m, hn, hshown⟩ | ⟨m, hn, hshown⟩
  · have h := WritesInteger.natural (isNatural_toDigits m)
    rw [hvalue] at h
    rwa [hshown, hn]
  · have h := WritesInteger.negative (isNatural_toDigits m)
    rw [hvalue] at h
    rwa [hshown, hn]

/-- All characters of a whole number are visible. -/
theorem isVisible_toString (n : Int) : ∀ c ∈ (toString n).toList, IsVisible c := by
  rcases toList_toString n with ⟨m, -, hshown⟩ | ⟨m, -, hshown⟩
  · rw [hshown]
    exact isVisible_digits isDigit_toDigits
  · rw [hshown]
    exact List.forall_mem_cons.mpr ⟨by decide, isVisible_digits isDigit_toDigits⟩

/-! ## Texts -/

/-- A hexadecimal digit has the value that it is written for. -/
theorem hexValue?_hexDigit : ∀ i < 16, hexValue? (Utf8.hexDigit i) = some i := by decide

theorem isVisible_hexDigit : ∀ i < 16, IsVisible (Utf8.hexDigit i) := by decide

/-- Zeros that are taken off the front and put back again. -/
theorem replicate_dropWhile (cs : List Char) :
    List.replicate (cs.length - (cs.dropWhile (· == '0')).length) '0' ++ cs.dropWhile (· == '0')
      = cs := by
  induction cs with
  | nil => rfl
  | cons c rest ih =>
    by_cases hzero : c = '0'
    · have hle := (List.dropWhile_sublist (p := (· == '0')) (l := rest)).length_le
      rw [List.dropWhile_cons_of_pos (by simpa using hzero), List.length_cons,
        Nat.succ_sub hle, List.replicate_succ, List.cons_append, ih, hzero]
    · rw [List.dropWhile_cons_of_neg (by simpa using hzero)]
      simp

/-- A UTF-16 unit has four hexadecimal digits. -/
theorem toList_hex {n : Nat} (h : n < 0x10000) :
    (Utf8.hex 4 n).toList = [Utf8.hexDigit (n / 4096 % 16), Utf8.hexDigit (n / 256 % 16),
      Utf8.hexDigit (n / 16 % 16), Utf8.hexDigit (n % 16)] := by
  have hhigh : ∀ m, 0x10000 ≤ m → n / m % 16 = 0 := by
    intro m hm
    rw [Nat.div_eq_of_lt (by omega)]
  -- Of the eight digits the first four are zeros, which are dropped with any others in front.
  have hdigits : ((List.range 8).reverse.map fun i => Utf8.hexDigit (n / Nat.pow 16 i % 16))
      = ['0', '0', '0', '0'] ++ [Utf8.hexDigit (n / 4096 % 16), Utf8.hexDigit (n / 256 % 16),
          Utf8.hexDigit (n / 16 % 16), Utf8.hexDigit (n % 16)] := by
    show [Utf8.hexDigit (n / 0x10000000 % 16), Utf8.hexDigit (n / 0x1000000 % 16),
      Utf8.hexDigit (n / 0x100000 % 16), Utf8.hexDigit (n / 0x10000 % 16),
      Utf8.hexDigit (n / 4096 % 16), Utf8.hexDigit (n / 256 % 16), Utf8.hexDigit (n / 16 % 16),
      Utf8.hexDigit (n / 1 % 16)] = _
    rw [hhigh _ (by decide), hhigh _ (by decide), hhigh _ (by decide), hhigh _ (by decide),
      Nat.div_one]
    rfl
  have hdropped : ∀ cs : List Char, (['0', '0', '0', '0'] ++ cs).dropWhile (· == '0')
      = cs.dropWhile (· == '0') := fun _ => rfl
  rw [Utf8.hex, hdigits, hdropped, String.toList_ofList]
  -- Four digits are filled up with zeros again.
  exact replicate_dropWhile [Utf8.hexDigit (n / 4096 % 16), Utf8.hexDigit (n / 256 % 16),
    Utf8.hexDigit (n / 16 % 16), Utf8.hexDigit (n % 16)]

/-- A UTF-16 unit is written as an escape with its four hexadecimal digits. -/
theorem writesUnit_unit {n : Nat} (h : n < 0x10000) : WritesUnit n (unit n).toList := by
  have hmod : ∀ m, hexValue? (Utf8.hexDigit (m % 16)) = some (m % 16) := fun m =>
    hexValue?_hexDigit _ (Nat.mod_lt _ (by decide))
  have hwritten := WritesUnit.digits (hmod (n / 4096)) (hmod (n / 256)) (hmod (n / 16)) (hmod n)
  have hvalue : ((n / 4096 % 16 * 16 + n / 256 % 16) * 16 + n / 16 % 16) * 16 + n % 16 = n := by
    omega
  rw [hvalue] at hwritten
  rw [unit, String.toList_append, toList_hex h]
  exact hwritten

theorem isVisible_unit {n : Nat} (h : n < 0x10000) : ∀ c ∈ (unit n).toList, IsVisible c := by
  have hmod : ∀ m, IsVisible (Utf8.hexDigit (m % 16)) := fun m =>
    isVisible_hexDigit _ (Nat.mod_lt _ (by decide))
  rw [unit, String.toList_append, toList_hex h]
  simp [hmod, show IsVisible '\\' by decide, show IsVisible 'u' by decide]

theorem toNat_lt (c : Char) : c.toNat < 0x110000 := by
  rcases c.valid with h | ⟨-, h⟩
  · exact Nat.lt_trans h (by decide)
  · exact h

/-- A character is written as its UTF-16 units, one or a surrogate pair. -/
theorem writesChar_units (c : Char) : WritesChar c (units c).toList := by
  have hlt := toNat_lt c
  unfold units
  dsimp only
  split
  case isTrue hbasic => exact .unit (writesUnit_unit hbasic)
  case isFalse hbeyond =>
    rw [String.toList_append]
    -- The high surrogate has the upper ten bits, the low one the others.
    have hhigh : (c.toNat - 0x10000) / 0x400 < 0x400 := by omega
    have hlow : (c.toNat - 0x10000) % 0x400 < 0x400 := by omega
    exact .pair hhigh hlow (by omega) (writesUnit_unit (by omega)) (writesUnit_unit (by omega))

theorem isVisible_units (c : Char) : ∀ d ∈ (units c).toList, IsVisible d := by
  have hlt := toNat_lt c
  unfold units
  dsimp only
  split
  case isTrue hbasic => exact isVisible_unit hbasic
  case isFalse hbeyond =>
    rw [String.toList_append]
    exact List.forall_mem_append.mpr ⟨isVisible_unit (by omega), isVisible_unit (by omega)⟩

/-- What a character is escaped to stands for it, and can be seen. -/
theorem writesChar_escape (c : Char) :
    WritesChar c (escape c).toList ∧ ∀ d ∈ (escape c).toList, IsVisible d := by
  unfold escape
  split
  -- A character without a short escape stands for itself if it is visible.
  case h_8 hquote hslash _ _ _ _ _ =>
    split
    case isTrue hplain =>
      simp only [Bool.and_eq_true, decide_eq_true_eq] at hplain
      rw [String.toList_singleton]
      refine ⟨.plain hplain.1 hquote hslash, fun d hd => ?_⟩
      rw [List.mem_singleton.mp hd]
      exact hplain
    case isFalse => exact ⟨writesChar_units c, isVisible_units c⟩
  -- All that is left are the escapes of two characters.
  all_goals exact ⟨.short (by decide), by simp [IsVisible]⟩

/-- Characters are written one after another. -/
theorem writesChars_escape (cs : List Char) :
    WritesChars cs (cs.flatMap fun c => (escape c).toList) := by
  induction cs with
  | nil => exact .nil
  | cons c rest ih => exact .cons (writesChar_escape c).1 ih

theorem toList_text (s : String) :
    (text s).toList = '"' :: (s.toList.flatMap fun c => (escape c).toList) ++ ['"'] := by
  simp [text, List.flatMap, Function.comp_def]

/-- A text is written in quotes. -/
theorem writesText_text (s : String) : WritesText s (text s).toList := by
  rw [toList_text]
  exact .quoted (writesChars_escape s.toList)

/-- All characters of a written text are visible. -/
theorem isVisible_text (s : String) : ∀ c ∈ (text s).toList, IsVisible c := by
  have hquote : IsVisible '"' := by decide
  rw [toList_text]
  intro c hc
  simp only [List.cons_append, List.mem_cons, List.mem_append, List.mem_flatMap,
    List.not_mem_nil, or_false] at hc
  rcases hc with rfl | ⟨d, -, hmem⟩ | rfl
  · exact hquote
  · exact (writesChar_escape d).2 c hmem
  · exact hquote

/-! ## Real numbers -/

/-- Whether characters are digits, the first of which is not zero. -/
def Significant (cs : List Char) : Prop :=
  ∃ d ds, cs = d :: ds ∧ d ≠ '0' ∧ ∀ c ∈ d :: ds, c.isDigit

/-- Digits that start with one other than zero are a number in JSON. -/
theorem Significant.isNatural {cs : List Char} (h : Significant cs) : IsNatural cs := by
  obtain ⟨d, ds, rfl, hlead, hdigits⟩ := h
  exact .positive hlead hdigits

theorem Significant.ne_nil {cs : List Char} (h : Significant cs) : cs ≠ [] := by
  obtain ⟨d, ds, rfl, -⟩ := h
  simp

/-- More digits can stand behind them. -/
theorem Significant.append {cs ds : List Char} (h : Significant cs) (hds : ∀ c ∈ ds, c.isDigit) :
    Significant (cs ++ ds) := by
  obtain ⟨d, rest, rfl, hlead, hdigits⟩ := h
  have hall : ∀ c ∈ d :: rest ++ ds, c.isDigit := List.forall_mem_append.mpr ⟨hdigits, hds⟩
  exact ⟨d, rest ++ ds, rfl, hlead, hall⟩

/-- Fewer digits will do, as long as the first one is among them. -/
theorem Significant.take {cs : List Char} (h : Significant cs) {n : Nat} (hpos : 0 < n) :
    Significant (cs.take n) := by
  obtain ⟨d, rest, rfl, hlead, hdigits⟩ := h
  obtain ⟨m, rfl⟩ := Nat.exists_eq_succ_of_ne_zero (Nat.pos_iff_ne_zero.mp hpos)
  refine ⟨d, rest.take m, rfl, hlead, fun c hc => hdigits c ?_⟩
  exact List.mem_of_mem_take (i := m + 1) hc

theorem Significant.isDigit {cs : List Char} (h : Significant cs) : ∀ c ∈ cs, c.isDigit := by
  obtain ⟨d, rest, rfl, -, hdigits⟩ := h
  exact hdigits

/-- Without the zeros at the end, the digits of a positive number are still significant. -/
theorem significant_kept {n : Nat} (hpos : 0 < n) :
    Significant ((Nat.toDigits 10 n).reverse.dropWhile (· == '0')).reverse := by
  obtain ⟨d, ds, hdigits, hlead⟩ := exists_lead_toDigits hpos
  have hall : ∀ c ∈ d :: ds, c.isDigit := hdigits ▸ isDigit_toDigits
  -- Zeros are dropped from the end, where the first digit is not reached.
  have hkept : ∃ kept, ((d :: ds).reverse.dropWhile (· == '0')).reverse = d :: kept ∧
      ∀ c ∈ kept, c ∈ ds := by
    rw [List.reverse_cons, List.dropWhile_append]
    split
    case isTrue =>
      exact ⟨[], by simp [hlead], by simp⟩
    case isFalse =>
      refine ⟨(ds.reverse.dropWhile (· == '0')).reverse, by simp, fun c hc => ?_⟩
      exact List.mem_reverse.mp ((List.dropWhile_sublist _).subset (List.mem_reverse.mp hc))
  obtain ⟨kept, hkept, hmem⟩ := hkept
  rw [hdigits, hkept]
  refine ⟨d, kept, rfl, hlead, fun c hc => hall c ?_⟩
  rcases List.mem_cons.mp hc with rfl | hlater
  · exact List.mem_cons_self
  · exact List.mem_cons_of_mem _ (hmem c hlater)

theorem isFraction_zero : IsFraction ['.', '0'] := .digits (by simp)

/-- A point with digits behind it is a fraction. -/
theorem isFraction_of_ne_nil {cs : List Char} (hne : cs ≠ []) (hdigits : ∀ c ∈ cs, c.isDigit) :
    IsFraction ('.' :: cs) := by
  cases cs with
  | nil => exact absurd rfl hne
  | cons d ds => exact .digits hdigits

theorem isDigit_zeros {n : Nat} : ∀ c ∈ List.replicate n '0', c.isDigit := by
  intro c hc
  rw [List.eq_of_mem_replicate hc]
  decide

/-- An exponent has a sign and at least two digits. -/
theorem isExponent_exponentText (e : Int) : IsExponent (Real.exponentText e).toList := by
  have hdigits : ∀ c ∈ Nat.toDigits 10 e.natAbs, c.isDigit := isDigit_toDigits
  obtain ⟨d, ds, heq⟩ := List.exists_cons_of_ne_nil (Nat.toDigits_ne_nil (n := e.natAbs) (b := 10))
  -- Any sign, with a zero in front of the digits or none, makes an exponent.
  have hshape : ∀ sign ∈ [['+'], ['-']], ∀ pad ∈ [[], ['0']],
      IsExponent ('e' :: sign ++ (pad ++ Nat.toDigits 10 e.natAbs)) := by
    intro sign hsign pad hpad
    rw [heq] at hdigits ⊢
    rcases (by simpa using hpad : pad = [] ∨ pad = ['0']) with rfl | rfl
    · exact .digits (by decide) (List.mem_cons_of_mem _ hsign) hdigits
    · refine .digits (by decide) (List.mem_cons_of_mem _ hsign) fun c hc => ?_
      rcases List.mem_cons.mp hc with rfl | hlater
      · decide
      · exact hdigits c hlater
  have htext : (Real.exponentText e).toList = 'e' :: (if e < 0 then ['-'] else ['+'])
      ++ ((if (toString e.natAbs).length < 2 then ['0'] else []) ++ Nat.toDigits 10 e.natAbs) := by
    unfold Real.exponentText
    dsimp only
    split <;> split <;> simp
  rw [htext]
  refine hshape _ ?_ _ ?_
  · split <;> simp
  · split <;> simp

/-- Significant digits with a point or an exponent write a number. -/
theorem isNumeral_digitsText {sign : List Char} (hsign : sign ∈ [[], ['-']]) {digits : String}
    (h : Significant digits.toList) (point : Int) :
    IsNumeral (sign ++ (Real.digitsText digits point).toList) := by
  unfold Real.digitsText
  dsimp only
  split
  case isTrue =>
    split
    case isTrue =>
      -- Nothing stands before the point.
      have hdigits : ∀ c ∈ List.replicate (-point).toNat '0' ++ digits.toList, c.isDigit :=
        List.forall_mem_append.mpr ⟨isDigit_zeros, h.isDigit⟩
      have hfraction := isFraction_of_ne_nil (by simpa using fun _ => h.ne_nil) hdigits
      have hparts := IsNumeral.parts hsign .zero hfraction .missing
      simpa [Real.zeros] using hparts
    case isFalse hpositive =>
      split
      case isTrue =>
        -- Nothing but zeros stands from the digits to the point, and one after it.
        have hwhole := (h.append (isDigit_zeros (n := point.toNat - digits.toList.length))).isNatural
        have hparts := IsNumeral.parts hsign hwhole isFraction_zero .missing
        simpa [Real.zeros] using hparts
      -- The point falls within the digits.
      case isFalse hwithin =>
        have hwhole := (h.take (n := point.toNat) (by omega)).isNatural
        have hfraction : IsFraction ('.' :: digits.toList.drop point.toNat) :=
          isFraction_of_ne_nil (by simpa using hwithin) fun c hc =>
            h.isDigit c (List.mem_of_mem_drop hc)
        have hparts := IsNumeral.parts hsign hwhole hfraction .missing
        simpa using hparts
  -- The number is too large or too small for a point alone, so it has one digit before the point
  -- and an exponent.
  case isFalse =>
    have hexponent := isExponent_exponentText (point - 1)
    have hwhole := (h.take (n := 1) (by decide)).isNatural
    split
    case isTrue hempty =>
      have hparts := IsNumeral.parts hsign hwhole .missing hexponent
      simpa using hparts
    case isFalse hmore =>
      have hfraction : IsFraction ('.' :: digits.toList.drop 1) :=
        isFraction_of_ne_nil (by simpa using hmore) fun c hc =>
          h.isDigit c (List.mem_of_mem_drop hc)
      have hparts := IsNumeral.parts hsign hwhole hfraction hexponent
      simpa using hparts

/-- A finite number is written as one. -/
theorem isNumeral_text (negative : Bool) (digits : Nat) (exponent : Int) :
    IsNumeral (Real.finite negative digits exponent).text.toList := by
  have hsign : (if negative then "-" else "").toList ∈ [[], ['-']] := by
    cases negative <;> decide
  unfold Real.text
  dsimp only
  split
  -- Zero has a sign, too.
  case isTrue =>
    have hparts := IsNumeral.parts hsign .zero isFraction_zero .missing
    simpa using hparts
  case isFalse hne =>
    rw [String.toList_append]
    refine isNumeral_digitsText hsign ?_ _
    rw [String.toList_ofList, Nat.toString_eq_ofList_toDigits, String.toList_ofList]
    exact significant_kept (Nat.pos_of_ne_zero hne)

theorem IsNatural.visible {cs : List Char} (h : IsNatural cs) : ∀ c ∈ cs, IsVisible c := by
  cases h with
  | zero => simp [IsVisible]
  | positive _ hdigits => exact isVisible_digits hdigits

theorem IsFraction.visible {cs : List Char} (h : IsFraction cs) : ∀ c ∈ cs, IsVisible c := by
  cases h with
  | missing => simp
  | digits hdigits => exact List.forall_mem_cons.mpr ⟨by decide, isVisible_digits hdigits⟩

theorem IsExponent.visible {cs : List Char} (h : IsExponent cs) : ∀ c ∈ cs, IsVisible c := by
  cases h with
  | missing => simp
  | digits hmark hsign hdigits =>
    have hmarks : ∀ mark ∈ ['e', 'E'], IsVisible mark := by simp [IsVisible]
    have hsigns : ∀ sign ∈ [[], ['+'], ['-']], ∀ c ∈ sign, IsVisible c := by simp [IsVisible]
    have hfront := List.forall_mem_cons.mpr ⟨hmarks _ hmark, hsigns _ hsign⟩
    exact List.forall_mem_append.mpr ⟨hfront, isVisible_digits hdigits⟩

/-- All characters of a number are visible. -/
theorem IsNumeral.visible {cs : List Char} (h : IsNumeral cs) : ∀ c ∈ cs, IsVisible c := by
  cases h with
  | parts hsign hwhole hfraction hexponent =>
    have hsigns : ∀ sign ∈ [[], ['-']], ∀ c ∈ sign, IsVisible c := by simp [IsVisible]
    simp only [List.forall_mem_append]
    exact ⟨⟨⟨hsigns _ hsign, hwhole.visible⟩, hfraction.visible⟩, hexponent.visible⟩

end Json

open Json

/-! ## Values -/

namespace Value

/-- Whether the JSON of a value stands for it, and all of it can be seen. -/
structure Written (v : Value) : Prop where
  writes : Writes v v.json.toList
  visible : ∀ c ∈ v.json.toList, IsVisible c

theorem written_none : Written .none := ⟨.null, by simp [Value.json, Json.IsVisible]⟩

theorem written_bool (b : Bool) : Written (.bool b) := by
  cases b
  · exact ⟨.no, by simp [Value.json, Json.IsVisible]⟩
  · exact ⟨.yes, by simp [Value.json, Json.IsVisible]⟩

theorem written_int (n : Int) : Written (.int n) :=
  ⟨.integer (writesInteger_toString n), isVisible_toString n⟩

theorem written_text (s : String) : Written (.text s) :=
  ⟨.text (writesText_text s), isVisible_text s⟩

theorem jsonItems_eq_map (items : List Value) : jsonItems items = items.map json := by
  induction items with
  | nil => rfl
  | cons v rest ih => rw [jsonItems, ih, List.map_cons]

theorem jsonPairs_eq_map (items : List (String × Value)) :
    jsonPairs items = items.map fun item => Json.text item.1 ++ ":" ++ item.2.json := by
  induction items with
  | nil => rfl
  | cons item rest ih =>
    obtain ⟨key, v⟩ := item
    rw [jsonPairs, ih, List.map_cons]

/-- What is written item by item, with commas in between, are all items. -/
theorem writesAll_intercalate {α : Type} {writes : α → List Char → Prop} {shown : α → String}
    {items : List α} (h : ∀ a ∈ items, writes a (shown a).toList) :
    WritesAll writes items (",".intercalate (items.map shown)).toList := by
  induction items with
  | nil => exact .none
  | cons a rest ih =>
    obtain ⟨hfirst, hrest⟩ := List.forall_mem_cons.mp h
    cases rest with
    | nil => simpa using WritesAll.one hfirst
    | cons b more =>
      rw [List.map_cons, String.intercalate_cons_of_ne_nil (by simp), String.toList_append,
        String.toList_append, List.append_assoc]
      exact .more hfirst (ih hrest)

/-- Items with commas between them are visible if the items are. -/
theorem isVisible_intercalate {α : Type} {shown : α → String} {items : List α}
    (h : ∀ a ∈ items, ∀ c ∈ (shown a).toList, IsVisible c) :
    ∀ c ∈ (",".intercalate (items.map shown)).toList, IsVisible c := by
  induction items with
  | nil => simp
  | cons a rest ih =>
    obtain ⟨hfirst, hrest⟩ := List.forall_mem_cons.mp h
    cases rest with
    | nil => simpa using hfirst
    | cons b more =>
      rw [List.map_cons, String.intercalate_cons_of_ne_nil (by simp), String.toList_append,
        String.toList_append, List.append_assoc]
      have hothers := List.forall_mem_cons.mpr ⟨show IsVisible ',' by decide, ih hrest⟩
      exact List.forall_mem_append.mpr ⟨hfirst, hothers⟩

/-- Brackets around what can be seen can be seen. -/
theorem isVisible_bracketed {first last : Char} {inner : List Char} (hfirst : IsVisible first)
    (hlast : IsVisible last) (hinner : ∀ c ∈ inner, IsVisible c) :
    ∀ c ∈ first :: inner ++ [last], IsVisible c := by
  have hfront := List.forall_mem_cons.mpr ⟨hfirst, hinner⟩
  exact List.forall_mem_append.mpr ⟨hfront, List.forall_mem_singleton.mpr hlast⟩

/-- A list is written if its items are. -/
theorem written_list {items : List Value} (h : ∀ v ∈ items, v.Written) : Written (.list items) := by
  have hjson : (Value.list items).json.toList
      = '[' :: (",".intercalate (items.map json)).toList ++ [']'] := by
    rw [json, jsonItems_eq_map]
    simp
  constructor
  · rw [hjson]
    exact .array (writesAll_intercalate fun v hv => (h v hv).writes)
  · rw [hjson]
    exact isVisible_bracketed (by decide) (by decide)
      (isVisible_intercalate fun v hv => (h v hv).visible)

theorem written_texts (items : List String) : Written (.texts items) := by
  refine written_list fun v hv => ?_
  obtain ⟨s, -, rfl⟩ := List.mem_map.mp hv
  exact written_text s

/-- A dictionary is written if its values are. -/
theorem written_dict {items : List (String × Value)} (h : ∀ item ∈ items, item.2.Written) :
    Written (.dict items) := by
  have hjson : (Value.dict items).json.toList = '\x7b' :: (",".intercalate
      (items.map fun item => Json.text item.1 ++ ":" ++ item.2.json)).toList ++ ['\x7d'] := by
    rw [json, jsonPairs_eq_map]
    simp
  -- Its items are keys with a colon and a value behind them.
  have hpair : ∀ item : String × Value, (Json.text item.1 ++ ":" ++ item.2.json).toList
      = (Json.text item.1).toList ++ ':' :: item.2.json.toList := by
    intro item
    simp
  constructor
  · rw [hjson]
    refine .object (writesAll_intercalate fun item hitem => ?_)
    rw [hpair]
    exact .keyed (writesText_text item.1) (h item hitem).writes
  · rw [hjson]
    refine isVisible_bracketed (by decide) (by decide) (isVisible_intercalate fun item hitem => ?_)
    rw [hpair]
    have hvalue := List.forall_mem_cons.mpr ⟨show IsVisible ':' by decide, (h item hitem).visible⟩
    exact List.forall_mem_append.mpr ⟨isVisible_text item.1, hvalue⟩

/-- A finite real number is written as a JSON number. -/
theorem written_real (negative : Bool) (digits : Nat) (exponent : Int) :
    Written (.real (.finite negative digits exponent)) :=
  ⟨.number (isNumeral_text negative digits exponent),
    (isNumeral_text negative digits exponent).visible⟩

end Value

/-! ## Lines -/

/-- Where there is no escape character, there is no control sequence. -/
theorem ControlSequence.stripAfter_nil {cs : List Char} (h : ∀ c ∈ cs, c ≠ escape) :
    stripAfter [] cs = cs := by
  induction cs with
  | nil => rfl
  | cons c rest ih =>
    obtain ⟨hfirst, hrest⟩ := List.forall_mem_cons.mp h
    rw [stripAfter, role]
    dsimp only
    rw [if_neg hfirst, ih hrest]
    rfl

/-- Whether an output is one line, which is the JSON of an object, and nothing else. -/
def Json.IsLine (object : Value) (output : String) : Prop :=
  ∃ items cs, object = .dict items ∧ Writes object cs ∧ '\n' ∉ cs ∧
    output = String.ofList (cs ++ ['\n'])

/-- A line of JSON is not empty. -/
theorem Json.IsLine.ne_empty {object : Value} {output : String} (h : IsLine object output) :
    output ≠ "" := by
  obtain ⟨_, cs, -, -, -, rfl⟩ := h
  simp

/-- What is written and visible is shown as it is, on a line of its own. -/
theorem Display.plain_of_written {v : Value} (h : v.Written) : plain [v.json] = v.json ++ "\n" := by
  have hstrip : ControlSequence.strip v.json = v.json := by
    rw [ControlSequence.strip, ControlSequence.stripAfter_nil, String.ofList_toList]
    rintro c hc rfl
    exact absurd (h.visible _ hc) (by decide)
  simp [plain, unlines, hstrip]

/-- An object that is written is shown as one line. -/
theorem Display.isLine_plain {items : List (String × Value)} (h : (Value.dict items).Written) :
    IsLine (.dict items) (plain [(Value.dict items).json]) := by
  refine ⟨items, (Value.dict items).json.toList, rfl, h.writes, fun hmem => ?_, ?_⟩
  · exact absurd (h.visible _ hmem) (by decide)
  · rw [plain_of_written h, String.ofList_append, String.ofList_toList]

end SourceMutation
