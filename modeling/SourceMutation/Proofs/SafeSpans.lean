import SourceMutation.Proofs.Harvesting
import SourceMutation.Proofs.Refusals

/-!
# Spans that are safe to use

A harvest leaves out the nodes that end past the number of *characters* of their source, while spans
are checked against the number of *bytes*.  A text has no more characters than bytes
(`Utf8.length_le_length_encode`), so whatever a harvest records fits its buffer, however wild the
tree is that the parser gave.

- `Harvest.UsesFailBy` collects what is done with spans: reading and replacing them, adding their
  texts to a corpus, and the passes of all modes.
- `Run.harvest_safe` says that no such use fails because a span does not fit, and that none fails at
  all where the nodes lie between characters.
-/

namespace SourceMutation

variable {σ : Type}

/-! ## Characters and bytes -/

namespace Utf8

/-- A text has no more characters than bytes. -/
theorem length_le_length_encode (text : String) : text.length ≤ (encode text).length := by
  rw [encode, ← String.length_toList]
  induction text.toList with
  | nil => exact Nat.le_refl 0
  | cons c rest ih =>
    have hsize : 0 < (String.utf8EncodeChar c).length := by
      rw [String.length_utf8EncodeChar]
      exact Char.utf8Size_pos c
    rw [List.flatMap_cons, List.length_append, List.length_cons]
    omega

/-- Whether all characters of a text are ASCII. -/
def IsAscii (text : String) : Prop := ∀ c ∈ text.toList, c.toNat < 0x80

/-- A text of ASCII characters has a byte for each of them. -/
theorem IsAscii.length_encode {text : String} (h : IsAscii text) :
    (encode text).length = text.length := by
  rw [IsAscii] at h
  rw [encode, ← String.length_toList]
  generalize text.toList = cs at h
  induction cs with
  | nil => rfl
  | cons c rest ih =>
    have hsize : c.utf8Size = 1 :=
      Char.utf8Size_eq_one_iff.mpr
        (UInt32.le_iff_toNat_le.mpr (Nat.le_of_lt_succ (h c List.mem_cons_self)))
    rw [List.flatMap_cons, List.length_append, String.length_utf8EncodeChar, hsize,
      ih fun c hc => h c (List.mem_cons_of_mem _ hc), List.length_cons, Nat.add_comm]

/-- Whether an offset into the bytes of a text lies between two of its characters, or at an end. -/
def IsBoundary (text : String) (offset : Int) : Prop :=
  ∃ before after : String, text = before ++ after ∧ offset = (encode before).length

end Utf8

namespace Span

variable {span : Span} {text : String}

/-- Two boundaries in order cut a text in three. -/
theorem cuts_of_boundaries (hstart : Utf8.IsBoundary text span.startByte)
    (hend : Utf8.IsBoundary text span.endByte) (horder : span.startByte ≤ span.endByte) :
    span.Cuts text := by
  obtain ⟨before, rest, htext, hstart⟩ := hstart
  obtain ⟨upTo, after, htext', hend⟩ := hend
  have hshorter : (Utf8.encode before).length ≤ (Utf8.encode upTo).length := by omega
  -- Of two beginnings of one text one continues the other, and here it is the one with more bytes.
  have hbefore : before.toList <+: text.toList := by
    rw [htext, String.toList_append]
    exact List.prefix_append _ _
  have hupTo : upTo.toList <+: text.toList := by
    rw [htext', String.toList_append]
    exact List.prefix_append _ _
  obtain ⟨covered, hcovered⟩ : before.toList <+: upTo.toList := by
    obtain h | ⟨extra, h⟩ := List.prefix_or_prefix_of_prefix hbefore hupTo
    · exact h
    · have hsplit : before = upTo ++ String.ofList extra := by
        rw [← String.toList_inj, String.toList_append, String.toList_ofList, h]
      have hlong := Utf8.length_le_length_encode (String.ofList extra)
      rw [hsplit, Utf8.encode_append, List.length_append] at hshorter
      have hextra : extra = [] := by
        rw [← List.length_eq_zero_iff, ← String.length_ofList]
        omega
      simp [← h, hextra]
  have hsplit : upTo = before ++ String.ofList covered := by
    rw [← String.toList_inj, String.toList_append, String.toList_ofList, hcovered]
  refine ⟨before, String.ofList covered, after, ?_, hstart, ?_⟩
  · rw [htext', hsplit]
  · rw [hend, hsplit, Utf8.encode_append, List.length_append, Int.natCast_add]

end Span

/-! ## What is done with spans -/

/-- Whether a mode takes a count and a corpus: a count is not negative, and modes with a shared
corpus need one, and a count above zero. -/
def Mode.Takes (mode : Mode) (count : Int) (corpus : Option Corpus) : Prop :=
  0 ≤ count ∧ (mode.usesSharedCorpus = true → 1 ≤ count ∧ corpus.isSome = true)

/-- What a mode takes it does not refuse. -/
theorem Mode.Takes.refusal? {mode : Mode} {count : Int} {corpus : Option Corpus}
    (h : mode.Takes count corpus) : mode.refusal? count corpus = none := by
  obtain ⟨hcount, hshared⟩ := h
  unfold Mode.refusal?
  cases hmode : mode.usesSharedCorpus with
  | false => simp [checkCount, Int.not_lt.mpr hcount]
  | true =>
    obtain ⟨hpositive, hcorpus⟩ := hshared hmode
    have hne : count ≠ 0 := by omega
    simp [checkCount, Int.not_lt.mpr hcount, hne, Option.isSome_iff_ne_none.mp hcorpus]

namespace Harvest

/-- Whether whatever is done with the spans of a harvest fails only in some ways: reading and
replacing them, adding their texts to a new corpus and to one that is there, and the passes of
modes that are asked for some count and corpus. -/
structure UsesFailBy (S : Failure → Prop) (Asked : Mode → Int → Option Corpus → Prop)
    (found : Harvest) : Prop where
  textOf : ∀ span ∈ found.spans, ∀ failure, found.textOf span = .error failure → S failure
  substitute : ∀ span ∈ found.spans, ∀ replacement failure,
    found.substitute span replacement = .error failure → S failure
  ofSource : ∀ failure, Corpus.ofSource found = .error failure → S failure
  addSource : ∀ (corpus : Corpus) failure, (corpus.addSource found).1 = .error failure → S failure
  mutants : ∀ {σ : Type} [Chooser σ] (mode : Mode) (patience : Nat) (count : Int)
    (corpus : Option Corpus) (stall : StallLimit), Asked mode count corpus →
      Pass.FailsBy S (mode.mutants (σ := σ) patience found count corpus stall)

variable {found : Harvest} {span : Span} {text : String} {failure : Failure}

/-- A span that fits is not refused for want of fitting, whatever replaces it. -/
theorem category_of_fits (hfits : span.Fits found.bytes.length) {bytes : Bytes}
    (h : (do found.check span; (Utf8.decode bytes).mapError .decoding : Except Failure String)
      = .error failure) : failure.category = .decoding := by
  obtain hcheck | ⟨-, -, hdecode⟩ := except_bind_eq_error.mp h
  · rw [check_eq_ok_iff.mpr hfits] at hcheck
    cases hcheck
  · cases hbytes : Utf8.decode bytes with
    | ok text => rw [hbytes] at hdecode; cases hdecode
    | error fault => rw [hbytes] at hdecode; cases hdecode; rfl

/-- A pass that is refused was asked for a count or for a corpus that it cannot have. -/
theorem category_of_refusal {mode : Mode} {count : Int} {corpus : Option Corpus}
    (h : mode.refusal? count corpus = some failure) : failure.category ≠ .spanOwnership := by
  unfold Mode.refusal? at h
  split at h
  · cases h
    nofun
  -- What is left are the refusals of a count.
  · unfold checkCount at h
    split at h
    case h_2 => cases h
    rename_i hcount
    cases h
    split at hcount
    · cases hcount
      nofun
    · split at hcount <;> cases hcount
      nofun

/-- What can be done with spans fails in the ways in which mutants, substitutions and what is asked
of a mode can fail. -/
theorem usesFailBy_of_failsBy {S : Failure → Prop} {Asked : Mode → Int → Option Corpus → Prop}
    (hmake : found.FailsBy S)
    (hreplace : ∀ span ∈ found.spans, ∀ replacement failure,
      found.substitute span replacement = .error failure → S failure)
    (hasked : ∀ mode count corpus, Asked mode count corpus →
      ∀ failure, mode.refusal? count corpus = some failure → S failure) :
    found.UsesFailBy S Asked := by
  refine ⟨fun span hspan failure h => hmake.textOf hspan h, hreplace, ?_, ?_, ?_⟩
  · intro failure h
    obtain ⟨span, hspan, h⟩ := Splice.failure_of_ofSource h
    exact hmake.textOf hspan h
  · intro corpus failure h
    obtain ⟨span, hspan, h⟩ := Splice.failure_of_addSpans h
    exact hmake.textOf hspan h
  -- A pass is refused, or fails only where a mutant cannot be made.
  · intro σ _ mode patience count corpus stall hgiven state failure h
    cases hrefusal : mode.refusal? count corpus with
    | none => exact Mode.failsBy_mutants hrefusal hmake patience stall state failure h
    | some refusal =>
      rw [Mode.mutants_of_refusal hrefusal] at h
      cases h
      exact hasked mode count corpus hgiven failure hrefusal

/-- Spans that fit are never refused for want of fitting, whatever is asked for. -/
theorem usesFailBy_of_fits (hfits : ∀ span ∈ found.spans, span.Fits found.bytes.length) :
    found.UsesFailBy (fun failure => failure.category ≠ .spanOwnership) fun _ _ _ => True := by
  have hread : ∀ span ∈ found.spans, ∀ failure, found.textOf span = .error failure →
      failure.category ≠ .spanOwnership := fun span hspan failure h => by
    rw [category_of_fits (hfits span hspan) h]
    nofun
  have hreplace : ∀ span ∈ found.spans, ∀ replacement failure,
      found.substitute span replacement = .error failure → failure.category ≠ .spanOwnership :=
    fun span hspan replacement failure h => by
      rw [category_of_fits (hfits span hspan) h]
      nofun
  -- Making a mutant reads the text of its span and replaces it, and does no more.
  have hmake : found.FailsBy fun failure => failure.category ≠ .spanOwnership := by
    intro span hspan index replacement failure h
    obtain h | ⟨own, -, h⟩ := except_bind_eq_error.mp h
    · exact hread span hspan failure h
    · obtain h | ⟨text, -, h⟩ := except_bind_eq_error.mp h
      · exact hreplace span hspan _ failure h
      · cases h
  exact usesFailBy_of_failsBy hmake hreplace fun _ _ _ _ _ hrefusal => category_of_refusal hrefusal

/-- Spans between characters can be put to any use, short of what a mode does not take. -/
theorem usesFailBy_of_cuts (htext : found.text = .ok text)
    (hcuts : ∀ span ∈ found.spans, span.Cuts text) :
    found.UsesFailBy (fun _ => False) Mode.Takes := by
  refine usesFailBy_of_failsBy (failsBy_of_cuts htext hcuts) ?_ ?_
  · intro span hspan replacement failure h
    obtain ⟨before, covered, after, rfl, hcovers⟩ := hcuts span hspan
    rw [substitute_of_covers (text_eq_ok_iff.mp htext).symm hcovers] at h
    cases h
  · intro mode count corpus htakes failure hrefusal
    cases htakes.refusal?.symm.trans hrefusal

end Harvest

/-! ## Spans of any tree -/

/-- Whether a span does not end before it starts, nor start before the source. -/
def Span.Ordered (span : Span) : Prop := 0 ≤ span.startByte ∧ span.startByte ≤ span.endByte

namespace Run

/--
Harvesting a text whose parser can be loaded and has a tree of ordered nodes for it, which may lie
anywhere else.  What is recorded ends within the characters of the text, and so within its bytes, so
that no use of it fails for want of fitting.  If the nodes lie between characters, no use fails at
all.  And of an ASCII text, all nodes within the buffer are recorded, but those of excluded kinds.
-/
theorem harvest_safe {tools : Toolchain} {language : Language} {bytes : Bytes} {text : String}
    {root : SyntaxTree} {handle : Handle} {world : World σ}
    (htext : Utf8.decode bytes = .ok text)
    (hparser : (Grammars.parser tools.installed language world.grammars).answer = .ok handle)
    (hparse : tools.parse language bytes = .tree root)
    (hordered : ∀ span ∈ root.descendants, span.Ordered) (path : Option String) :
    ∃ found, (harvest tools bytes (.text language.name) path world).1 = .ok found ∧
      (∀ span ∈ found.spans, span.endByte ≤ text.length ∧ text.length ≤ found.bytes.length) ∧
      found.UsesFailBy (fun failure => failure.category ≠ .spanOwnership) (fun _ _ _ => True) ∧
      ((∀ span ∈ root.descendants,
          Utf8.IsBoundary text span.startByte ∧ Utf8.IsBoundary text span.endByte) →
        found.UsesFailBy (fun _ => False) Mode.Takes) ∧
      (Utf8.IsAscii text → ∀ span ∈ root.descendants, span.kind ∉ Harvest.excludedKinds →
        span.endByte ≤ bytes.length → span ∈ found.spans) := by
  have hencode := Utf8.encode_of_decode htext
  have hshorter : text.length ≤ bytes.length := by
    rw [← hencode]
    exact Utf8.length_le_length_encode text
  refine ⟨_, harvest_of_tree htext hparser hparse path, ?_, ?_, ?_, ?_⟩
  · intro span hspan
    exact ⟨(of_decide_eq_true (List.mem_filter.mp hspan).2).2, hshorter⟩
  -- A span that was recorded ends within the characters, and so within the bytes.
  · refine Harvest.usesFailBy_of_fits fun span hspan => ?_
    obtain ⟨hmem, hrecorded⟩ := List.mem_filter.mp hspan
    obtain ⟨hstart, horder⟩ := hordered span hmem
    have hend := (of_decide_eq_true hrecorded).2
    refine ⟨hstart, horder, ?_⟩
    show span.endByte ≤ (bytes.length : Int)
    omega
  · -- Between characters a span cuts the text, so that what is left of it can be decoded.
    intro hboundaries
    refine Harvest.usesFailBy_of_cuts (mapError_eq_ok.mpr htext) fun span hspan => ?_
    have hmem := (List.mem_filter.mp hspan).1
    obtain ⟨hstart, hend⟩ := hboundaries span hmem
    exact Span.cuts_of_boundaries hstart hend (hordered span hmem).2
  · -- An ASCII text has as many characters as bytes, and the guard lets pass what fits.
    intro hascii span hmem hkind hend
    refine List.mem_filter.mpr ⟨hmem, decide_eq_true ⟨hkind, ?_⟩⟩
    rw [← hascii.length_encode, hencode]
    exact hend

/-- A tree for the source `é x`, in which a node lies outside its parent, one has no bytes, and one
ends past the third of the three characters. -/
def looseTree : SyntaxTree :=
  .node ⟨"source_file", 0, 4, ⟨0, 0⟩, ⟨0, 4⟩⟩ [
    .node ⟨"blank", 2, 3, ⟨0, 2⟩, ⟨0, 3⟩⟩ [.node ⟨"identifier", 0, 2, ⟨0, 0⟩, ⟨0, 2⟩⟩ []],
    .node ⟨"empty", 3, 3, ⟨0, 3⟩, ⟨0, 3⟩⟩ [.node ⟨"identifier", 3, 4, ⟨0, 3⟩, ⟨0, 4⟩⟩ []]]

/-- A parser that always returns that tree. -/
def looseTools : Toolchain := ⟨fun _ => true, fun _ _ => .tree looseTree, 0⟩

/-- Harvesting with that tree, what is recorded can be put to any use. -/
theorem harvest_safe_looseTree :
    (∀ span ∈ looseTree.descendants, span.Ordered) ∧
      (∀ span ∈ looseTree.descendants,
        Utf8.IsBoundary "é x" span.startByte ∧ Utf8.IsBoundary "é x" span.endByte) ∧
      ∃ found, (harvest looseTools [0xC3, 0xA9, 0x20, 0x78] (.text Language.rust.name) none
          (World.fresh default () .empty)).1 = .ok found ∧
        (∀ span ∈ found.spans, span.endByte ≤ 3 ∧ 3 ≤ found.bytes.length) ∧
        found.UsesFailBy (fun _ => False) Mode.Takes := by
  have hordered : ∀ span ∈ looseTree.descendants, span.Ordered := by
    simp [looseTree, SyntaxTree.descendants, SyntaxTree.children, SyntaxTree.preorderAll,
      SyntaxTree.preorder, Span.Ordered]
  -- The first character has two bytes, and all spans lie between characters.
  have hzero : Utf8.IsBoundary "é x" 0 := ⟨"", "é x", rfl, by decide⟩
  have htwo : Utf8.IsBoundary "é x" 2 := ⟨"é", " x", by decide, by decide⟩
  have hthree : Utf8.IsBoundary "é x" 3 := ⟨"é ", "x", by decide, by decide⟩
  have hfour : Utf8.IsBoundary "é x" 4 := ⟨"é x", "", by decide, by decide⟩
  have hboundaries : ∀ span ∈ looseTree.descendants,
      Utf8.IsBoundary "é x" span.startByte ∧ Utf8.IsBoundary "é x" span.endByte := by
    simp [looseTree, SyntaxTree.descendants, SyntaxTree.children, SyntaxTree.preorderAll,
      SyntaxTree.preorder, hzero, htwo, hthree, hfour]
  have htext : Utf8.decode [0xC3, 0xA9, 0x20, 0x78] = .ok "é x" :=
    Utf8.decode_eq_ok_iff.mpr (by decide)
  have hparser : (Grammars.parser looseTools.installed .rust
      (World.fresh default () .empty).grammars).answer = .ok 1 := rfl
  have hparse : looseTools.parse .rust [0xC3, 0xA9, 0x20, 0x78] = .tree looseTree := rfl
  obtain ⟨found, hfound, hspans, -, huses, -⟩ :=
    harvest_safe htext hparser hparse hordered none
  exact ⟨hordered, hboundaries, found, hfound, hspans, huses hboundaries⟩

end Run

end SourceMutation
