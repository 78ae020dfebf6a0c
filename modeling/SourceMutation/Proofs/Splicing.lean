import SourceMutation.Proofs.Replacements

/-!
# Texts of spans

What reading a span and replacing it come to in bytes (`textOf_eq_ok_iff`, `substitute_eq_ok_iff`),
and that a replacement changes the source exactly if it is not the span's own text
(`spliced_eq_bytes_iff`).

A corpus takes its candidates from the texts of spans and from nowhere else: whatever holds of the
texts that are added holds of all its candidates but the empty ones (`Corpus.Holds`).
-/

namespace SourceMutation

/-! ## Bytes of spans -/

namespace Harvest

variable {harvest : Harvest} {span : Span} {text : String}

theorem check_eq_ok_iff : harvest.check span = .ok () ↔ span.Fits harvest.bytes.length := by
  rw [check]
  split <;> simp [*]

/-- A source is the text that its bytes encode. -/
theorem text_eq_ok_iff : harvest.text = .ok text ↔ Utf8.encode text = harvest.bytes := by
  rw [Harvest.text, mapError_eq_ok, Utf8.decode_eq_ok_iff]

/-- Bytes that are decoded after a check of the span: the span fits, and the text encodes them. -/
theorem check_bind_eq_ok_iff {bytes : Bytes} :
    (do harvest.check span; (Utf8.decode bytes).mapError .decoding : Except Failure String)
        = .ok text ↔ span.Fits harvest.bytes.length ∧ Utf8.encode text = bytes := by
  rw [except_bind_eq_ok]
  simp only [mapError_eq_ok, Utf8.decode_eq_ok_iff]
  constructor
  · rintro ⟨⟨⟩, hfits, htext⟩
    exact ⟨check_eq_ok_iff.mp hfits, htext⟩
  · rintro ⟨hfits, htext⟩
    exact ⟨(), check_eq_ok_iff.mpr hfits, htext⟩

/-- A span's text is what its bytes encode. -/
theorem textOf_eq_ok_iff :
    harvest.textOf span = .ok text ↔
      span.Fits harvest.bytes.length ∧ Utf8.encode text = harvest.covered span :=
  check_bind_eq_ok_iff

theorem toOption_textOf_eq_some :
    (harvest.textOf span).toOption = some text ↔ harvest.textOf span = .ok text := by
  cases harvest.textOf span <;> simp [Except.toOption]

/-- A substitution gives the text that the spliced bytes encode. -/
theorem substitute_eq_ok_iff {replacement : String} :
    harvest.substitute span replacement = .ok text ↔
      span.Fits harvest.bytes.length ∧ Utf8.encode text = harvest.spliced span replacement :=
  check_bind_eq_ok_iff

/-- A span that fits cuts the source in three. -/
theorem before_covered_after (hfits : span.Fits harvest.bytes.length) :
    harvest.before span ++ harvest.covered span ++ harvest.after span = harvest.bytes := by
  obtain ⟨hstart, horder, -⟩ := hfits
  have hle : span.startByte.toNat ≤ span.endByte.toNat := by omega
  have htake : harvest.before span
      = (harvest.bytes.take span.endByte.toNat).take span.startByte.toNat := by
    rw [before, List.take_take, Nat.min_eq_left hle]
  rw [htake, covered, List.take_append_drop, after, List.take_append_drop]

/-- A replacement leaves the source as it was only if it is the span's own text. -/
theorem spliced_eq_bytes_iff (hfits : span.Fits harvest.bytes.length) (replacement : String) :
    harvest.spliced span replacement = harvest.bytes ↔
      Utf8.encode replacement = harvest.covered span := by
  conv => lhs; rhs; rw [← before_covered_after hfits]
  rw [spliced, List.append_left_inj, List.append_right_inj]

theorem length_covered (hfits : span.Fits harvest.bytes.length) :
    ((harvest.covered span).length : Int) = span.length := by
  obtain ⟨hstart, horder, hend⟩ := hfits
  simp only [covered, List.length_drop, List.length_take, Span.length]
  omega

end Harvest

/-! ## Spans on character boundaries -/

/-- Whether a span starts and ends between characters of a text. -/
def Span.Cuts (span : Span) (text : String) : Prop :=
  ∃ before covered after : String, text = before ++ covered ++ after ∧
    span.startByte = (Utf8.encode before).length ∧
    span.endByte = (Utf8.encode before).length + (Utf8.encode covered).length

/-- Whether a span covers the second of two texts that stand one after the other. -/
def Span.Covers (span : Span) (before covered : String) : Prop :=
  span.startByte = (Utf8.encode before).length ∧
    span.endByte = (Utf8.encode before).length + (Utf8.encode covered).length

theorem Utf8.encode_append (first second : String) :
    Utf8.encode (first ++ second) = Utf8.encode first ++ Utf8.encode second := by
  simp [Utf8.encode]

namespace Harvest

variable {harvest : Harvest} {span : Span} {text : String}

/-- Of a source that is three texts, the span that covers the middle one has these texts before it,
in it and after it. -/
theorem encode_of_covers {before covered after : String}
    (hbytes : harvest.bytes = Utf8.encode (before ++ covered ++ after))
    (hcovers : span.Covers before covered) :
    span.Fits harvest.bytes.length ∧ Utf8.encode before = harvest.before span ∧
      Utf8.encode covered = harvest.covered span ∧ Utf8.encode after = harvest.after span := by
  obtain ⟨hstart, hend⟩ := hcovers
  rw [Utf8.encode_append, Utf8.encode_append] at hbytes
  -- The offsets count bytes, so the bytes split where the texts do.
  have hstart' : span.startByte.toNat = (Utf8.encode before).length := by omega
  have hend' : span.endByte.toNat = (Utf8.encode before ++ Utf8.encode covered).length := by
    rw [List.length_append]
    omega
  refine ⟨⟨?_, ?_, ?_⟩, ?_, ?_, ?_⟩
  · omega
  · omega
  · rw [hbytes]
    simp only [List.length_append]
    omega
  · rw [Harvest.before, hbytes, hstart', List.append_assoc, List.take_left]
  · rw [Harvest.covered, hbytes, hstart', hend', List.take_left, List.drop_left]
  · rw [Harvest.after, hbytes, hend', List.drop_left]

theorem textOf_of_covers {before covered after : String}
    (hbytes : harvest.bytes = Utf8.encode (before ++ covered ++ after))
    (hcovers : span.Covers before covered) : harvest.textOf span = .ok covered := by
  obtain ⟨hfits, -, hcovered, -⟩ := encode_of_covers hbytes hcovers
  exact textOf_eq_ok_iff.mpr ⟨hfits, hcovered⟩

/-- A text in the place of a span leaves the texts on its sides as they are. -/
theorem substitute_of_covers {before covered after : String}
    (hbytes : harvest.bytes = Utf8.encode (before ++ covered ++ after))
    (hcovers : span.Covers before covered) (replacement : String) :
    harvest.substitute span replacement = .ok (before ++ replacement ++ after) := by
  obtain ⟨hfits, hbefore, -, hafter⟩ := encode_of_covers hbytes hcovers
  refine substitute_eq_ok_iff.mpr ⟨hfits, ?_⟩
  rw [Utf8.encode_append, Utf8.encode_append, hbefore, hafter, spliced]

theorem exists_textOf (htext : harvest.text = .ok text) (hcuts : span.Cuts text) :
    ∃ own, harvest.textOf span = .ok own := by
  obtain ⟨before, covered, after, rfl, hcovers⟩ := hcuts
  exact ⟨covered, textOf_of_covers (text_eq_ok_iff.mp htext).symm hcovers⟩

/-- A text in the place of a span between characters leaves a text. -/
theorem exists_make (htext : harvest.text = .ok text) (hcuts : span.Cuts text) (index : Nat)
    (replacement : Replacement) :
    ∃ mutant, Mutant.make harvest index span replacement = .ok mutant := by
  obtain ⟨before, covered, after, rfl, hcovers⟩ := hcuts
  have hbytes := (text_eq_ok_iff.mp htext).symm
  rw [Mutant.make, textOf_of_covers hbytes hcovers]
  show ∃ mutant, (harvest.substitute span replacement.text >>= _) = .ok mutant
  rw [substitute_of_covers hbytes hcovers]
  exact ⟨_, rfl⟩

end Harvest

/-- A mutant names the span that was replaced and the text in its place. -/
theorem Mutant.names_of_make {harvest : Harvest} {index : Nat} {span : Span}
    {replacement : Replacement} {mutant : Mutant}
    (h : Mutant.make harvest index span replacement = .ok mutant) :
    mutant.span = span ∧ mutant.replacement = replacement.text := by
  obtain ⟨replaced, -, h⟩ := except_bind_eq_ok.mp h
  obtain ⟨text, -, h⟩ := except_bind_eq_ok.mp h
  cases h
  exact ⟨rfl, rfl⟩

/-- What a mutant is made of, in bytes. -/
theorem Mutant.make_eq_ok {harvest : Harvest} {index : Nat} {span : Span}
    {replacement : Replacement} {mutant : Mutant}
    (h : Mutant.make harvest index span replacement = .ok mutant) :
    span.Fits harvest.bytes.length ∧
      Utf8.encode mutant.text = harvest.spliced span replacement.text := by
  obtain ⟨replaced, -, h⟩ := except_bind_eq_ok.mp h
  obtain ⟨text, htext, h⟩ := except_bind_eq_ok.mp h
  cases h
  exact Harvest.substitute_eq_ok_iff.mp htext

/-- What splicing offers for a span is not the span's own text. -/
theorem Harvest.Changes.encode_ne {harvest : Harvest} {span : Span} {text : String}
    (h : harvest.Changes span text) : Utf8.encode text ≠ harvest.covered span := by
  obtain ⟨-, own, hown, hne⟩ := h
  rw [← (textOf_eq_ok_iff.mp hown).2]
  exact fun heq => hne (Utf8.encode_injective heq)

/-- No mode offers a span's own text. -/
theorem Mode.Offers.encode_ne {mode : Mode} {harvest : Harvest} {corpus : Option Corpus}
    {span : Span} {replacement : Replacement} (hfits : span.Fits harvest.bytes.length)
    (h : mode.Offers harvest corpus span replacement) :
    Utf8.encode replacement.text ≠ harvest.covered span := by
  cases mode with
  | deleteOnly =>
    -- The empty text is the text of empty spans only, and these are not deleted.
    obtain ⟨hlength, rfl⟩ := h
    intro heq
    have hcovered := Harvest.length_covered hfits
    rw [← heq] at hcovered
    exact absurd hcovered (by simp [Deletion.replacement, Utf8.encode]; omega)
  | selfSplice =>
    obtain ⟨own, -, -, hchanges⟩ := h
    exact hchanges.encode_ne
  | splice =>
    cases corpus with
    | none => cases h
    | some corpus => exact h.2.encode_ne
  | spliceRandomKind =>
    cases corpus with
    | none => cases h
    | some corpus => exact h.2.encode_ne

/-! ## Candidates of a corpus -/

namespace Corpus

/-- Whether something holds of all candidates but the empty ones, each with its kind. -/
def Holds (P : String → String → Prop) (corpus : Corpus) : Prop :=
  ∀ kind, ∀ text ∈ corpus.candidates kind, text = "" ∨ P kind text

variable {P Q : String → String → Prop} {corpus : Corpus}

theorem holds_empty : Holds P empty := by
  intro kind text hmem
  cases hmem

theorem Holds.mono (h : corpus.Holds P) (hPQ : ∀ kind text, P kind text → Q kind text) :
    corpus.Holds Q :=
  fun kind text hmem => (h kind text hmem).imp_right (hPQ kind text)

/-- Listing candidates under a kind leaves those of other kinds as they were. -/
theorem candidates_set (listed seen : Ledger String (List String)) (kind other : String)
    (texts : List String) :
    candidates ⟨listed.set kind texts, seen⟩ other
      = if other = kind then texts else (listed.get? other).getD [] := by
  rw [candidates, Ledger.get?_set]
  split <;> rfl

theorem Holds.ensureKind (h : corpus.Holds P) (kind : String) : (corpus.ensureKind kind).Holds P := by
  rw [Corpus.ensureKind]
  split
  · exact h
  · intro other text hmem
    rw [candidates_set] at hmem
    split at hmem
    · exact .inl (List.mem_singleton.mp hmem)
    · exact h other text hmem

theorem Holds.add (h : corpus.Holds P) {kind snippet : String} (hsnippet : P kind snippet) :
    (corpus.add kind snippet).2.Holds P := by
  have hkind := h.ensureKind kind
  rw [Corpus.add]
  -- A text that was seen before is not listed again.
  split
  · exact hkind
  · intro other text hmem
    rw [candidates_set] at hmem
    split at hmem
    case isTrue heq =>
      subst heq
      rcases List.mem_append.mp hmem with hmem | hmem
      · exact hkind other text hmem
      · exact .inr (List.mem_singleton.mp hmem ▸ hsnippet)
    case isFalse => exact hkind other text hmem

/-- The texts of a source's spans are all that adding the source adds. -/
theorem Holds.addSpans {harvest : Harvest} (h : corpus.Holds P) {added : Nat} {spans : List Span}
    (hspans : ∀ span ∈ spans, ∀ text, harvest.textOf span = .ok text → P span.kind text) :
    (Corpus.addSpans harvest added spans corpus).2.Holds P := by
  induction spans generalizing corpus added with
  | nil => exact h
  | cons span rest ih =>
    rw [Corpus.addSpans]
    -- A span without a text ends the adding; what was added before stays.
    split
    · exact h
    case h_2 text htext =>
      exact ih (h.add (hspans span List.mem_cons_self text htext))
        fun other hmem => hspans other (List.mem_cons_of_mem _ hmem)

/-- The candidates of a source's own corpus are texts of its spans. -/
theorem holds_ofSource {harvest : Harvest} {own : Corpus} (h : ofSource harvest = .ok own) :
    own.Holds fun kind text =>
      ∃ span ∈ harvest.spans, span.kind = kind ∧ harvest.textOf span = .ok text := by
  have hadded : (Corpus.addSpans harvest 0 harvest.spans empty).2.Holds fun kind text =>
      ∃ span ∈ harvest.spans, span.kind = kind ∧ harvest.textOf span = .ok text :=
    holds_empty.addSpans fun span hspan text htext => ⟨span, hspan, rfl, htext⟩
  rw [ofSource, addSource] at h
  split at h
  case h_1 count corpus hcorpus =>
    cases h
    rwa [hcorpus] at hadded
  case h_2 => cases h

end Corpus

end SourceMutation
