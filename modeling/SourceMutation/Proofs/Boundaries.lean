import SourceMutation.Proofs.SafeSpans

/-!
# Spans between characters

Spans count bytes, texts have characters.  UTF-8 is a prefix code that finds its own step: a text
whose bytes stand anywhere among the bytes of another text stands there among its characters
(`Utf8.exists_pieces`), unless it is empty.

- `Harvest.characters_of_spans`: which spans of a source have a text and which can be replaced by
  any, and what comes out, in characters.
- `Harvest.substitute_undone`: putting back what a replacement took out gives back the source.
-/

namespace SourceMutation

namespace Utf8

/-! ## Texts among the bytes of a text

A byte that leads a sequence is never a continuation byte.  So a text that is not empty is only
found among the bytes of another one where characters start and end.
-/

@[simp] theorem encode_ofList (cs : List Char) :
    encode (String.ofList cs) = cs.flatMap String.utf8EncodeChar := by
  simp [encode]

/-- The bytes after those of some characters are read on their own. -/
theorem decodeAt_flatMap_append (pos : Nat) (cs : List Char) (rest : Bytes) :
    ∃ pos', decodeAt pos (cs.flatMap String.utf8EncodeChar ++ rest)
      = (cs ++ ·) <$> decodeAt pos' rest := by
  induction cs generalizing pos with
  | nil => exact ⟨pos, by simp⟩
  | cons c cs ih =>
    obtain ⟨pos', ih⟩ := ih (pos + (String.utf8EncodeChar c).length)
    refine ⟨pos', ?_⟩
    rw [List.flatMap_cons, List.append_assoc, decodeAt_char, ih]
    cases decodeAt pos' rest <;> rfl

/-- Characters whose bytes come first among the bytes of a text come first in the text. -/
theorem exists_after {before text : String} {rest : Bytes}
    (h : encode before ++ rest = encode text) :
    ∃ after, text = before ++ after ∧ encode after = rest := by
  -- Decoded from its front, the text begins with the characters of the first part.
  have hdecode : decodeAt 0 (encode before ++ rest) = .ok text.toList := by
    rw [h]
    exact decodeAt_flatMap 0 text.toList
  obtain ⟨pos, hsplit⟩ := decodeAt_flatMap_append 0 before.toList rest
  rw [show encode before ++ rest = before.toList.flatMap String.utf8EncodeChar ++ rest from rfl,
    hsplit] at hdecode
  cases hrest : decodeAt pos rest with
  | error fault =>
    rw [hrest] at hdecode
    cases hdecode
  | ok after =>
    rw [hrest] at hdecode
    -- What is left decodes to the other characters.
    have htext : before.toList ++ after = text.toList := Except.ok.inj hdecode
    refine ⟨String.ofList after, ?_, ?_⟩
    · rw [← String.toList_inj, String.toList_append, String.toList_ofList, htext]
    · rw [encode_ofList, flatMap_of_decodeAt hrest]

/-- A byte that leads a sequence stands between two characters, or before all of them. -/
theorem exists_of_firstByte {cs : List Char} {initial rest : Bytes} {b : UInt8}
    (h : cs.flatMap String.utf8EncodeChar = initial ++ b :: rest) (hb : b.IsUTF8FirstByte) :
    ∃ before after, cs = before ++ after ∧ before.flatMap String.utf8EncodeChar = initial ∧
      after.flatMap String.utf8EncodeChar = b :: rest := by
  induction cs generalizing initial with
  | nil => simp at h
  | cons c cs ih =>
    rw [List.flatMap_cons, List.append_eq_append_iff] at h
    obtain ⟨more, rfl, hmore⟩ | ⟨within, hchar, hwithin⟩ := h
    · -- The byte comes after the sequence of the first character.
      obtain ⟨before, after, rfl, rfl, hafter⟩ := ih hmore
      exact ⟨c :: before, after, rfl, List.flatMap_cons, hafter⟩
    · cases within with
      | nil =>
        -- It comes right after that sequence.
        refine ⟨[c], cs, rfl, ?_, ?_⟩
        · simpa using hchar
        · simpa using hwithin.symm
      | cons b' within =>
        obtain ⟨rfl, -⟩ := List.cons.inj hwithin
        -- No byte of a sequence looks like its first, so that nothing stands before this one.
        have hbound : initial.length < (String.utf8EncodeChar c).length := by simp [hchar]
        have hget : (String.utf8EncodeChar c)[initial.length] = b := by simp [hchar]
        have hzero : initial.length = 0 :=
          UInt8.isUTF8FirstByte_getElem_utf8EncodeChar.mp (hget ▸ hb)
        obtain rfl := List.length_eq_zero_iff.mp hzero
        refine ⟨[], c :: cs, rfl, rfl, ?_⟩
        rw [List.flatMap_cons, hchar, hwithin]
        rfl

/-- A text that is not empty starts with a byte that leads a sequence. -/
theorem exists_firstByte {text : String} (h : text ≠ "") :
    ∃ b rest, encode text = b :: rest ∧ b.IsUTF8FirstByte := by
  cases hcs : text.toList with
  | nil => exact absurd (String.toList_inj.mp hcs) h
  | cons c cs =>
    cases hchar : String.utf8EncodeChar c with
    | nil => exact absurd hchar String.utf8EncodeChar_ne_nil
    | cons b more =>
      refine ⟨b, more ++ cs.flatMap String.utf8EncodeChar, ?_, ?_⟩
      · rw [encode, hcs, List.flatMap_cons, hchar]
        rfl
      · have hbound : 0 < (String.utf8EncodeChar c).length := by simp [hchar]
        have hfirst : (String.utf8EncodeChar c)[0] = b := by simp [hchar]
        exact hfirst ▸ UInt8.isUTF8FirstByte_getElem_utf8EncodeChar.mpr rfl

/-- A text that is found among the bytes of a text is found among its characters. -/
theorem exists_pieces {middle text : String} {initial rest : Bytes} (hmiddle : middle ≠ "")
    (h : initial ++ encode middle ++ rest = encode text) :
    ∃ before after, text = before ++ middle ++ after ∧ encode before = initial ∧
      encode after = rest := by
  obtain ⟨b, more, hfirst, hb⟩ := exists_firstByte hmiddle
  have hsplit : text.toList.flatMap String.utf8EncodeChar = initial ++ b :: (more ++ rest) := by
    rw [show text.toList.flatMap String.utf8EncodeChar = encode text from rfl, ← h, hfirst]
    simp
  obtain ⟨before, tail, htext, hbefore, htail⟩ := exists_of_firstByte hsplit hb
  -- What starts with the text's first byte starts with the text.
  obtain ⟨after, htail, hafter⟩ : ∃ after, String.ofList tail = middle ++ after ∧
      encode after = rest := by
    apply exists_after
    rw [encode_ofList, htail, hfirst, List.cons_append]
  refine ⟨String.ofList before, after, ?_, ?_, hafter⟩
  · rw [String.append_assoc, ← htail, ← String.ofList_append, ← htext, String.ofList_toList]
  · rw [encode_ofList, hbefore]

/-- Characters whose bytes come last among the bytes of a text come last in the text. -/
theorem exists_before {after text : String} {initial : Bytes}
    (h : initial ++ encode after = encode text) :
    ∃ before, text = before ++ after ∧ encode before = initial := by
  by_cases hempty : after = ""
  · subst hempty
    refine ⟨text, by simp, ?_⟩
    simpa [encode] using h.symm
  · have h' : initial ++ encode after ++ [] = encode text := by simpa using h
    obtain ⟨before, rest, htext, hbefore, hrest⟩ := exists_pieces hempty h'
    have hnothing : rest = "" := encode_injective hrest
    exact ⟨before, by simp [htext, hnothing], hbefore⟩

/-! ## Characters before an offset -/

/-- How many of a text's characters are encoded within its first bytes. -/
def countWithin : List Char → Nat → Nat
  | [], _ => 0
  | c :: cs, size => if c.utf8Size ≤ size then countWithin cs (size - c.utf8Size) + 1 else 0

/-- The number of characters that are encoded before an offset into the bytes of a text. -/
def charactersBefore (text : String) (offset : Int) : Nat :=
  countWithin text.toList offset.toNat

/-- The characters of a text from one index up to another. -/
def slice (text : String) (start stop : Nat) : String :=
  String.ofList ((text.toList.take stop).drop start)

theorem countWithin_append (before after : List Char) :
    countWithin (before ++ after) (before.flatMap String.utf8EncodeChar).length
      = before.length := by
  induction before with
  | nil =>
    cases after with
    | nil => rfl
    | cons c after => exact if_neg (Nat.not_le.mpr (Char.utf8Size_pos c))
  | cons c before ih =>
    simp only [List.flatMap_cons, List.length_append, String.length_utf8EncodeChar]
    rw [List.cons_append, countWithin, if_pos (Nat.le_add_right _ _), Nat.add_sub_cancel_left, ih,
      List.length_cons]

/-- At a boundary the characters before an offset are those on its left. -/
theorem charactersBefore_append (before after : String) :
    charactersBefore (before ++ after) (encode before).length = before.length := by
  rw [charactersBefore, String.toList_append, Int.toNat_natCast, encode, countWithin_append,
    String.length_toList]

/-- The slices of a text at the seams of three texts that it is made of. -/
theorem slice_append (before covered after : String) :
    slice (before ++ covered ++ after) 0 before.length = before ∧
      slice (before ++ covered ++ after) before.length (before.length + covered.length) = covered ∧
      slice (before ++ covered ++ after) (before.length + covered.length)
        (before ++ covered ++ after).length = after := by
  refine ⟨?_, ?_, ?_⟩
  · simp [slice, ← String.length_toList]
  · simp [slice, ← String.length_toList, List.take_append]
  · rw [slice, ← String.length_toList (s := before ++ covered ++ after), List.take_length]
    simp [← String.length_toList, List.drop_append]

end Utf8

/-! ## Spans around a text -/

namespace Span

variable {span : Span} {before covered after text : String}

/-- A span lies between characters if it covers one of the texts that a text is made of. -/
theorem Covers.isBoundary (h : span.Covers before covered) :
    Utf8.IsBoundary (before ++ covered ++ after) span.startByte ∧
      Utf8.IsBoundary (before ++ covered ++ after) span.endByte := by
  obtain ⟨hstart, hend⟩ := h
  refine ⟨⟨before, covered ++ after, String.append_assoc, hstart⟩,
    ⟨before ++ covered, after, rfl, ?_⟩⟩
  rw [hend, Utf8.encode_append, List.length_append, Int.natCast_add]

/-- In characters a span covers as much as stands in it. -/
theorem Covers.charactersBefore (h : span.Covers before covered) (after : String) :
    Utf8.charactersBefore (before ++ covered ++ after) span.startByte = before.length ∧
      Utf8.charactersBefore (before ++ covered ++ after) span.endByte
        = before.length + covered.length := by
  obtain ⟨hstart, hend⟩ := h
  constructor
  · rw [hstart, String.append_assoc, Utf8.charactersBefore_append]
  · rw [hend, ← Int.natCast_add, ← List.length_append, ← Utf8.encode_append,
      Utf8.charactersBefore_append, String.length_append]

/-- Whether both ends of a span lie between characters of a text, or at its ends. -/
def OnBoundaries (span : Span) (text : String) : Prop :=
  Utf8.IsBoundary text span.startByte ∧ Utf8.IsBoundary text span.endByte

theorem OnBoundaries.cuts (h : span.OnBoundaries text) (horder : span.startByte ≤ span.endByte) :
    span.Cuts text := cuts_of_boundaries h.1 h.2 horder

theorem Cuts.onBoundaries (h : span.Cuts text) : span.OnBoundaries text := by
  obtain ⟨before, covered, after, rfl, hcovers⟩ := h
  exact Covers.isBoundary hcovers

/-- Whether a span of a mutated buffer covers what was put in the place of another span. -/
structure Fills (filled span : Span) (replacement : String) : Prop where
  startByte : filled.startByte = span.startByte
  endByte : filled.endByte = span.startByte + (Utf8.encode replacement).length

theorem Fills.covers {filled : Span} {replacement : String} (h : filled.Fills span replacement)
    (hcovers : span.Covers before covered) : filled.Covers before replacement := by
  obtain ⟨hstart, -⟩ := hcovers
  exact ⟨h.startByte.trans hstart, by rw [h.endByte, hstart]⟩

end Span

namespace Harvest

variable {harvest : Harvest} {span : Span} {before covered after text : String}

/-- A span covers a text if its bytes are those of the text, and those before it are a text's. -/
theorem covers_of_encode (hfits : span.Fits harvest.bytes.length)
    (hbefore : Utf8.encode before = harvest.before span)
    (hcovered : Utf8.encode covered = harvest.covered span) : span.Covers before covered := by
  have hlength : ((Utf8.encode covered).length : Int) = span.endByte - span.startByte := by
    rw [hcovered, length_covered hfits, Span.length]
  obtain ⟨hstart, horder, hend⟩ := hfits
  have hstart' : span.startByte = (Utf8.encode before).length := by
    rw [hbefore, Harvest.before, List.length_take]
    omega
  exact ⟨hstart', by omega⟩

/-- A text that is not empty can only be put in the place of a span between characters. -/
theorem cuts_of_substitute {replacement mutated : String} (htext : harvest.text = .ok text)
    (hreplacement : replacement ≠ "") (h : harvest.substitute span replacement = .ok mutated) :
    span.Cuts text := by
  obtain ⟨hfits, hmutated⟩ := substitute_eq_ok_iff.mp h
  -- The replacement is found in the mutated text, so that the bytes on its sides are texts.
  obtain ⟨before, after, -, hbefore, hafter⟩ := Utf8.exists_pieces hreplacement hmutated.symm
  have hpieces : Utf8.encode before ++ (harvest.covered span ++ Utf8.encode after)
      = Utf8.encode text := by
    rw [hbefore, hafter, ← List.append_assoc, before_covered_after hfits,
      text_eq_ok_iff.mp htext]
  -- So is what stood between them, before it was replaced.
  obtain ⟨tail, rfl, htail⟩ := Utf8.exists_after hpieces
  obtain ⟨covered, rfl, hcovered⟩ := Utf8.exists_before htail.symm
  exact ⟨before, covered, after, String.append_assoc.symm, covers_of_encode hfits hbefore hcovered⟩

/-- A span that is not empty only has a text if it lies between characters. -/
theorem cuts_of_textOf {own : String} (htext : harvest.text = .ok text)
    (hne : span.startByte ≠ span.endByte) (h : harvest.textOf span = .ok own) :
    span.Cuts text := by
  obtain ⟨hfits, hown⟩ := textOf_eq_ok_iff.mp h
  -- The empty text would stand at any offset.
  have hempty : own ≠ "" := by
    rintro rfl
    have hlength := length_covered hfits
    rw [← hown, show Utf8.encode "" = [] from rfl, Span.length, List.length_nil] at hlength
    omega
  have hbytes : harvest.before span ++ Utf8.encode own ++ harvest.after span
      = Utf8.encode text := by
    rw [hown, before_covered_after hfits, text_eq_ok_iff.mp htext]
  obtain ⟨before, after, rfl, hbefore, -⟩ := Utf8.exists_pieces hempty hbytes
  exact ⟨before, own, after, rfl, covers_of_encode hfits hbefore hown⟩

/-- An empty span has the empty text, wherever it lies. -/
theorem textOf_of_empty (hfits : span.Fits harvest.bytes.length)
    (hempty : span.startByte = span.endByte) : harvest.textOf span = .ok "" := by
  refine textOf_eq_ok_iff.mpr ⟨hfits, ?_⟩
  have hlength := length_covered hfits
  rw [Span.length, hempty, Int.sub_self] at hlength
  exact (List.length_eq_zero_iff.mp (Int.natCast_eq_zero.mp hlength)).symm

/-! ## Which spans can be used, and what comes out -/

/-- The failure of a span that does not fit the buffer. -/
def unfit (harvest : Harvest) (span : Span) : Failure :=
  .spanOwnership span.kind span.startByte span.endByte harvest.label harvest.bytes.length

theorem check_of_not_fits (h : ¬ span.Fits harvest.bytes.length) :
    harvest.check span = .error (harvest.unfit span) := if_neg h

theorem textOf_of_not_fits (h : ¬ span.Fits harvest.bytes.length) :
    harvest.textOf span = .error (harvest.unfit span) := by
  rw [textOf, check_of_not_fits h]
  rfl

theorem substitute_of_not_fits (h : ¬ span.Fits harvest.bytes.length) (replacement : String) :
    harvest.substitute span replacement = .error (harvest.unfit span) := by
  rw [substitute, check_of_not_fits h]
  rfl

/--
Reading and replacing the spans of a source.  A span that does not fit the buffer is refused,
whatever the bytes are.  Where the bytes are a text and the span fits, any text can take its place
exactly if both its ends are boundaries, and it has a text exactly if it is empty or both are; and
then its text is a slice of the source's characters, and a replacement goes between the other two.
-/
theorem characters_of_spans (harvest : Harvest) (span : Span) :
    (¬ span.Fits harvest.bytes.length →
      harvest.textOf span = .error (harvest.unfit span) ∧
        ∀ replacement, harvest.substitute span replacement = .error (harvest.unfit span)) ∧
    ∀ text, harvest.text = .ok text → span.Fits harvest.bytes.length →
      ((∀ replacement, ∃ mutated, harvest.substitute span replacement = .ok mutated) ↔
        span.OnBoundaries text) ∧
      ((∃ own, harvest.textOf span = .ok own) ↔
        span.startByte = span.endByte ∨ span.OnBoundaries text) ∧
      (span.OnBoundaries text →
        ∀ i j, i = Utf8.charactersBefore text span.startByte →
          j = Utf8.charactersBefore text span.endByte →
            harvest.textOf span = .ok (Utf8.slice text i j) ∧
            ∀ replacement, harvest.substitute span replacement
              = .ok (Utf8.slice text 0 i ++ replacement ++ Utf8.slice text j text.length)) := by
  refine ⟨fun h => ⟨textOf_of_not_fits h, substitute_of_not_fits h⟩, fun text htext hfits => ?_⟩
  have horder : span.startByte ≤ span.endByte := hfits.2.1
  have hbytes : harvest.bytes = Utf8.encode text :=
    (text_eq_ok_iff.mp htext).symm
  refine ⟨⟨fun h => ?_, fun h replacement => ?_⟩, ⟨fun ⟨own, hown⟩ => ?_, fun h => ?_⟩,
    fun h i j hi hj => ?_⟩
  · -- Any text that is not empty tells the boundaries.
    obtain ⟨mutated, hmutated⟩ := h "x"
    exact (cuts_of_substitute htext (by simp) hmutated).onBoundaries
  · obtain ⟨before, covered, after, rfl, hcovers⟩ := h.cuts horder
    exact ⟨_, substitute_of_covers hbytes hcovers replacement⟩
  · by_cases hempty : span.startByte = span.endByte
    · exact .inl hempty
    · exact .inr (cuts_of_textOf htext hempty hown).onBoundaries
  · obtain hempty | h := h
    · exact ⟨"", textOf_of_empty hfits hempty⟩
    · exact exists_textOf htext (h.cuts horder)
  · obtain ⟨before, covered, after, rfl, hcovers⟩ := h.cuts horder
    obtain ⟨hbefore, hend⟩ := Span.Covers.charactersBefore hcovers after
    subst hi hj
    obtain ⟨hleft, hmiddle, hright⟩ := Utf8.slice_append before covered after
    rw [hbefore, hend, hleft, hmiddle, hright]
    exact ⟨textOf_of_covers hbytes hcovers, substitute_of_covers hbytes hcovers⟩

/-- A source of two accented letters, each of two bytes. -/
def twoAccents : Harvest where
  bytes := [0xC3, 0xA9, 0xC3, 0xA9]
  spans := []
  path := none
  language := "rust"

theorem text_twoAccents : twoAccents.text = .ok "éé" :=
  text_eq_ok_iff.mpr (by decide)

/-- The second letter can be replaced by any text.  The halves in the middle have no text and cannot
be replaced by any, though the letters without them are a letter.  Between two halves is an empty
text, and no place for another. -/
theorem characters_of_twoAccents :
    let letter : Span := ⟨"name", 2, 4, ⟨0, 2⟩, ⟨0, 4⟩⟩
    let halves : Span := ⟨"halves", 1, 3, ⟨0, 1⟩, ⟨0, 3⟩⟩
    let between : Span := ⟨"between", 1, 1, ⟨0, 1⟩, ⟨0, 1⟩⟩
    let beyond : Span := ⟨"beyond", 2, 5, ⟨0, 2⟩, ⟨0, 5⟩⟩
    (twoAccents.textOf letter = .ok "é" ∧ twoAccents.substitute letter "or" = .ok "éor") ∧
      ((¬ ∃ own, twoAccents.textOf halves = .ok own) ∧
        (¬ ∀ replacement, ∃ mutated, twoAccents.substitute halves replacement = .ok mutated) ∧
        twoAccents.substitute halves "" = .ok "é") ∧
      ((∃ own, twoAccents.textOf between = .ok own) ∧ ¬ between.OnBoundaries "éé") ∧
      twoAccents.textOf beyond = .error (.spanOwnership "beyond" 2 5 "<memory>" 4) := by
  intro letter halves between beyond
  have hletter : letter.OnBoundaries "éé" :=
    ⟨⟨"é", "é", by decide, by decide⟩, ⟨"éé", "", by decide, by decide⟩⟩
  -- This span starts and ends within a character.
  have hhalves : ¬ ∃ own, twoAccents.textOf halves = .ok own := by
    rintro ⟨own, h⟩
    cases h
  -- An empty span within a character has a text, but a letter cannot be put there.
  have hbetween : ∀ mutated, twoAccents.substitute between "x" ≠ .ok mutated := by
    intro mutated h
    cases h
  have hfits : letter.Fits 4 ∧ halves.Fits 4 ∧ between.Fits 4 ∧ ¬ beyond.Fits 4 := by decide
  obtain ⟨-, -, hslices⟩ := (characters_of_spans twoAccents letter).2 "éé" text_twoAccents hfits.1
  obtain ⟨hown, hreplaced⟩ := hslices hletter 1 2 (by decide) (by decide)
  obtain ⟨hany, hread, -⟩ :=
    (characters_of_spans twoAccents halves).2 "éé" text_twoAccents hfits.2.1
  obtain ⟨hanyBetween, hreadBetween, -⟩ :=
    (characters_of_spans twoAccents between).2 "éé" text_twoAccents hfits.2.2.1
  refine ⟨⟨hown, hreplaced "or"⟩, ⟨hhalves, ?_, ?_⟩, ⟨hreadBetween.mpr (.inl rfl), ?_⟩, ?_⟩
  · exact fun h => hhalves (hread.mpr (.inr (hany.mp h)))
  · exact substitute_eq_ok_iff.mpr ⟨hfits.2.1, by decide⟩
  · intro h
    obtain ⟨mutated, hmutated⟩ := hanyBetween.mpr h "x"
    exact hbetween mutated hmutated
  · exact ((characters_of_spans twoAccents beyond).1 hfits.2.2.2).1

/-! ## Undoing a replacement -/

/--
A replacement can be undone.  Whatever takes the place of a span between characters, the span of the
mutated buffer that is as long in bytes as the replacement has the replacement for its text, and
with the text that was replaced in its place the buffer is the source again.  The mutated text is
the source's own exactly if the replacement is the text that it replaced.
-/
theorem substitute_undone (htext : harvest.text = .ok text) (hspan : span.OnBoundaries text)
    (replacement : String) :
    (span.endByte < span.startByte →
      harvest.textOf span = .error (harvest.unfit span) ∧
        harvest.substitute span replacement = .error (harvest.unfit span)) ∧
    (span.startByte ≤ span.endByte →
      ∃ own mutated, harvest.textOf span = .ok own ∧
        harvest.substitute span replacement = .ok mutated ∧
        (∀ (buffer : Harvest) (filled : Span), buffer.bytes = Utf8.encode mutated →
          filled.Fills span replacement →
            buffer.textOf filled = .ok replacement ∧
            ∃ restored, buffer.substitute filled own = .ok restored ∧
              Utf8.encode restored = harvest.bytes) ∧
        (mutated = text ↔ replacement = own)) := by
  constructor
  · intro hcrossed
    have hunfit : ¬ span.Fits harvest.bytes.length := fun hfits => by
      have horder := hfits.2.1
      omega
    exact ⟨textOf_of_not_fits hunfit, substitute_of_not_fits hunfit replacement⟩
  · intro horder
    have hbytes := (text_eq_ok_iff.mp htext).symm
    obtain ⟨before, covered, after, rfl, hcovers⟩ := hspan.cuts horder
    refine ⟨covered, before ++ replacement ++ after, textOf_of_covers hbytes hcovers,
      substitute_of_covers hbytes hcovers replacement, fun buffer filled hbuffer hfilled => ?_, ?_⟩
    · -- The mutated buffer is three texts as well, and the new span covers the middle one of them.
      have hfilled' := hfilled.covers hcovers
      exact ⟨textOf_of_covers hbuffer hfilled', _, substitute_of_covers hbuffer hfilled' covered,
        hbytes.symm⟩
    · rw [String.append_left_inj, String.append_right_inj]

/-- The second letter of two, replaced by one of four bytes, and put back. -/
theorem substitute_undone_twoAccents :
    let letter : Span := ⟨"name", 2, 4, ⟨0, 2⟩, ⟨0, 4⟩⟩
    letter.OnBoundaries "éé" ∧ twoAccents.substitute letter "𝄞" = .ok "é𝄞" ∧
      ∃ own, twoAccents.textOf letter = .ok own ∧
        ∀ buffer : Harvest, buffer.bytes = [0xC3, 0xA9, 0xF0, 0x9D, 0x84, 0x9E] →
          buffer.textOf ⟨"name", 2, 6, ⟨0, 2⟩, ⟨0, 6⟩⟩ = .ok "𝄞" ∧
          ∃ restored, buffer.substitute ⟨"name", 2, 6, ⟨0, 2⟩, ⟨0, 6⟩⟩ own = .ok restored ∧
            Utf8.encode restored = [0xC3, 0xA9, 0xC3, 0xA9] := by
  intro letter
  have hletter : letter.OnBoundaries "éé" :=
    ⟨⟨"é", "é", by decide, by decide⟩, ⟨"éé", "", by decide, by decide⟩⟩
  -- The replacement has four bytes, so that later offsets shift.
  have hmutated : twoAccents.substitute letter "𝄞" = .ok "é𝄞" :=
    substitute_eq_ok_iff.mpr ⟨by decide, by decide⟩
  obtain ⟨own, mutated, hown, hsubstitute, hundone, -⟩ :=
    (substitute_undone text_twoAccents hletter "𝄞").2 (by decide)
  obtain rfl : mutated = "é𝄞" := Except.ok.inj (hsubstitute.symm.trans hmutated)
  refine ⟨hletter, hmutated, own, hown, fun buffer hbuffer => ?_⟩
  exact hundone buffer _ (by rw [hbuffer]; decide) ⟨rfl, by decide⟩

end Harvest

end SourceMutation
