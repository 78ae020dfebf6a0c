import SourceMutation.Proofs.Harvesting
import SourceMutation.Proofs.Splicing

/-!
# What a run writes

Whatever a run writes, whether it returns or stops later, is the source that it read last with the
bytes of one node replaced by a text that its mode allows (`Run.mutateAfter_explained`).

`Explained` says so of one writing by the events before it.  It is carried through a run in three
steps.

- The corpus pass leaves a corpus whose candidates were read in that pass (`Sourced`).
- The mutants of one source are explained by the reading of that source, which is the last one until
  the next source is read (`ReadLast`).
- What is explained stays explained while other sources are read, since more events come behind it
  only (`AllExplained`).
-/

namespace SourceMutation

variable {σ : Type}

/-! ## Explanations

An explanation looks back only: at the source that was read last and, with a shared corpus, at the
sources that its pass has read.  So events that come later do not spoil it.
-/

/-- Whether a harvest of a source lists a node. -/
def Listed (tools : Toolchain) (language : Language) (bytes : Bytes) (span : Span) : Prop :=
  ∃ root text, tools.parse language bytes = .tree root ∧ Utf8.decode bytes = .ok text ∧
    span ∈ root.descendants ∧ span.kind ∉ Harvest.excludedKinds ∧ span.endByte ≤ text.length

/-- Whether a text is what a listed node of a source covers. -/
def Snippet (tools : Toolchain) (language : Language) (bytes : Bytes) (span : Span)
    (text : String) : Prop :=
  Listed tools language bytes span ∧ span.Fits bytes.length ∧
    Utf8.encode text = (bytes.take span.endByte.toNat).drop span.startByte.toNat

/-- Whether a text of some kind is that of a node of a source that was read, and is short
enough to be harvested. -/
def ReadSnippet (tools : Toolchain) (language : Language) (maxLines : Nat) (events : List Event)
    (kind text : String) : Prop :=
  ∃ path bytes source span, .read path bytes ∈ events ∧ Utf8.decode bytes = .ok source ∧
    Lines.within source maxLines ∧ span.kind = kind ∧ Snippet tools language bytes span text

/-- Whether events are those of a corpus pass that ended well. -/
def CorpusPass (events pass : List Event) : Prop :=
  ∃ earlier later, events = earlier ++ .logged (.entered "build_corpus") ::
    (pass ++ .logged (.completed "build_corpus") :: later)

/-- Whether a text of some kind was read in a corpus pass. -/
def CorpusSnippet (tools : Toolchain) (plan : Plan) (events : List Event) (kind text : String) :
    Prop :=
  ∃ pass, CorpusPass events pass ∧ ReadSnippet tools plan.language plan.maxLines pass kind text

/-- What a plan's mode may put in the place of a node of a source, after some events. -/
def Plan.Puts (plan : Plan) (tools : Toolchain) (events : List Event) (original : Bytes)
    (span : Span) (text : String) : Prop :=
  match plan.mode with
  | .deleteOnly => text = "" ∧ span.startByte < span.endByte
  | .selfSplice =>
    text ≠ "" ∧ ∃ other, other.kind = span.kind ∧
      Snippet tools plan.language original other text
  | .splice => text ≠ "" ∧ CorpusSnippet tools plan events span.kind text
  | .spliceRandomKind => text ≠ "" ∧ ∃ kind, CorpusSnippet tools plan events kind text

/-- Whether a source is the one that was read last. -/
def ReadLast (events : List Event) (source : Path) (original : Bytes) : Prop :=
  ∃ earlier later, events = earlier ++ .read source original :: later ∧
    ∀ path bytes, .read path bytes ∉ later

/--
Whether bytes written to a path are a mutant of the source that was read last: the source with the
bytes of a listed node replaced by another text, which the mode allows there.
-/
def Explained (tools : Toolchain) (plan : Plan) (events : List Event) (path : Path)
    (bytes : Bytes) : Prop :=
  ∃ source original span text, ∃ index : Int,
    ReadLast events source original ∧
    path = plan.outputDirectory.below [MutantName.compose source.name index] ∧
    Listed tools plan.language original span ∧ span.Fits original.length ∧
    bytes = original.take span.startByte.toNat ++ Utf8.encode text
      ++ original.drop span.endByte.toNat ∧
    Utf8.encode text ≠ (original.take span.endByte.toNat).drop span.startByte.toNat ∧
    bytes ≠ original ∧ plan.Puts tools events original span text

/-- Whether every writing is explained by the events before it. -/
def AllExplained (tools : Toolchain) (plan : Plan) (events : List Event) : Prop :=
  ∀ before path bytes after, events = before ++ .wrote path bytes :: after →
    Explained tools plan before path bytes

/-! ## More events -/

variable {tools : Toolchain} {plan : Plan} {events : List Event}

/-- A snippet of the corpus is one after more events. -/
theorem CorpusSnippet.append {kind text : String} (h : CorpusSnippet tools plan events kind text)
    (more : List Event) : CorpusSnippet tools plan (events ++ more) kind text := by
  obtain ⟨pass, ⟨earlier, later, rfl⟩, hread⟩ := h
  exact ⟨pass, ⟨earlier, later ++ more, by simp⟩, hread⟩

/-- What a plan may put is not taken back by more events. -/
theorem Plan.Puts.append {original : Bytes} {span : Span} {text : String}
    (h : plan.Puts tools events original span text) (more : List Event) :
    plan.Puts tools (events ++ more) original span text := by
  cases hmode : plan.mode with
  | deleteOnly => simpa only [Plan.Puts, hmode] using h
  | selfSplice => simpa only [Plan.Puts, hmode] using h
  | splice =>
    simp only [Plan.Puts, hmode] at h ⊢
    exact ⟨h.1, h.2.append more⟩
  | spliceRandomKind =>
    simp only [Plan.Puts, hmode] at h ⊢
    obtain ⟨hempty, kind, hsnippet⟩ := h
    exact ⟨hempty, kind, hsnippet.append more⟩

/-- A source is the one that was read last until another one is read. -/
theorem ReadLast.append {source : Path} {original : Bytes} (h : ReadLast events source original)
    {more : List Event} (hmore : ∀ path bytes, .read path bytes ∉ more) :
    ReadLast (events ++ more) source original := by
  obtain ⟨earlier, later, rfl, hlater⟩ := h
  refine ⟨earlier, later ++ more, by simp, fun path bytes hmem => ?_⟩
  exact (List.mem_append.mp hmem).elim (hlater path bytes) (hmore path bytes)

/-- As long as no other source is read, an explanation holds. -/
theorem Explained.append {path : Path} {bytes : Bytes} (h : Explained tools plan events path bytes)
    {more : List Event} (hmore : ∀ path bytes, .read path bytes ∉ more) :
    Explained tools plan (events ++ more) path bytes := by
  obtain ⟨source, original, span, text, index, hread, hpath, hlisted, hfits, hbytes, hother, hne,
    hputs⟩ := h
  exact ⟨source, original, span, text, index, hread.append hmore, hpath, hlisted, hfits, hbytes,
    hother, hne, hputs.append more⟩

/-- Where nothing was written, all is explained. -/
theorem allExplained_nil : AllExplained tools plan [] := by
  intro before path bytes after heq
  simp at heq

/-- More writings are explained if each is explained by what came before it. -/
theorem allExplained_append {new : List Event} (h : AllExplained tools plan events)
    (hnew : ∀ before path bytes after, new = before ++ .wrote path bytes :: after →
      Explained tools plan (events ++ before) path bytes) :
    AllExplained tools plan (events ++ new) := by
  intro before path bytes after heq
  rcases append_eq_append_cons heq with ⟨rest, hrest⟩ | ⟨early, rfl, hnew'⟩
  · exact h before path bytes rest hrest
  · exact hnew early path bytes after hnew'

/-- Events that write nothing leave nothing to explain. -/
theorem AllExplained.append_of_not_wrote {new : List Event} (h : AllExplained tools plan events)
    (hnew : ∀ path bytes, .wrote path bytes ∉ new) : AllExplained tools plan (events ++ new) :=
  allExplained_append h fun before path bytes _ heq =>
    absurd (heq ▸ List.mem_append_right before List.mem_cons_self) (hnew path bytes)

/-! ## The corpus pass -/

/-- A text that was read is one after more events. -/
theorem ReadSnippet.append {language : Language} {maxLines : Nat} {kind text : String}
    (h : ReadSnippet tools language maxLines events kind text) (more : List Event) :
    ReadSnippet tools language maxLines (events ++ more) kind text := by
  obtain ⟨path, bytes, source, span, hread, hrest⟩ := h
  exact ⟨path, bytes, source, span, List.mem_append_left _ hread, hrest⟩

/-- The spans of a harvest are listed, and their texts are snippets. -/
theorem snippet_of_textOf {language : Language} {bytes : Bytes} {root : SyntaxTree}
    {source text : String} {path : Option String} {span : Span}
    (hparse : tools.parse language bytes = .tree root) (hsource : Utf8.decode bytes = .ok source)
    (hspan : span ∈ Harvest.spansOf source root)
    (htext : Harvest.textOf ⟨bytes, Harvest.spansOf source root, path, language.name⟩ span
      = .ok text) : Snippet tools language bytes span text := by
  obtain ⟨hfits, hcovered⟩ := Harvest.textOf_eq_ok_iff.mp htext
  obtain ⟨hmem, hrecords⟩ := List.mem_filter.mp hspan
  obtain ⟨hkind, hend⟩ := of_decide_eq_true hrecords
  exact ⟨⟨root, source, hparse, hsource, hmem, hkind, hend⟩, hfits, hcovered⟩

namespace Run

/-- A run only ever adds events, if it is respected by all relations that put up with reading. -/
private theorem events_grow {α : Type} {m : Run σ α}
    (h : Respects (World.Adds fun _ => True) m) {a : α} {world world' : World σ}
    (hrun : m world = (.ok a, world')) : ∃ new, world'.events = world.events ++ new := by
  obtain ⟨new, hnew, -⟩ := h.of_run hrun
  exact ⟨new, hnew⟩

/-- A file that is added to a corpus leaves candidates that were read. -/
theorem holds_addFile {language : Language} {maxLines : Nat} {path : Path} {corpus corpus' : Corpus}
    {isUsed : Bool} {world world' : World σ}
    (h : addFile tools language maxLines path corpus world = (.ok (isUsed, corpus'), world')) :
    ∃ new, world'.events = world.events ++ new ∧
      ∀ reads, corpus.Holds (ReadSnippet tools language maxLines reads) →
        corpus'.Holds (ReadSnippet tools language maxLines (reads ++ new)) := by
  obtain ⟨text, first, hread, hrest⟩ := Chance.bind_eq_ok.mp h
  obtain ⟨bytes, -, hdecode, rfl⟩ := readSource_eq_ok hread
  split at hrest
  case isTrue hshort =>
    obtain ⟨found, second, hfound, hrest⟩ := Chance.bind_eq_ok.mp hrest
    obtain ⟨more, hmore⟩ :=
      events_grow (respects_harvest (World.tolerant_adds fun _ => trivial) tools _ _ _) hfound
    rw [harvestText, Utf8.encode_of_decode hdecode] at hfound
    obtain ⟨root, source, hparse, hsource, rfl⟩ := harvest_eq_ok hfound
    cases hsource.symm.trans hdecode
    -- The spans of this file are the only new candidates, and this file has been read.
    have hadded : ∀ {reads : List Event},
        .read path bytes ∈ reads → corpus.Holds (ReadSnippet tools language maxLines reads) →
        (corpus.addSource ⟨bytes, Harvest.spansOf text root, some path.text, language.name⟩).2.Holds
          (ReadSnippet tools language maxLines reads) := fun hmem hreads =>
      hreads.addSpans fun span hspan snippet hsnippet =>
        ⟨path, bytes, text, span, hmem, hdecode, hshort, rfl,
          snippet_of_textOf hparse hdecode hspan hsnippet⟩
    rcases hafter : corpus.addSource
      ⟨bytes, Harvest.spansOf text root, some path.text, language.name⟩ with ⟨failure | added, after⟩
    · rw [hafter] at hrest
      cases hrest
    · rw [hafter] at hrest hadded
      dsimp only at hrest
      rw [log_bind_apply] at hrest
      cases hrest
      refine ⟨.read path bytes :: (more ++ [.logged _]), by simp [hmore]; rfl,
        fun reads hreads => hadded (by simp) ?_⟩
      exact hreads.mono fun kind text hsnippet => hsnippet.append _
  case isFalse =>
    rw [log_bind_apply] at hrest
    cases hrest
    refine ⟨[.read path bytes, .logged _], by simp; rfl, fun reads hreads => ?_⟩
    exact hreads.mono fun kind text hsnippet => hsnippet.append _

/-- Each candidate of a corpus that was added to was there before, or was read on the way. -/
theorem holds_addVisits {language : Language} {maxLines : Nat} {directory : Path}
    {visits : List Visit} {used : Nat} {corpus : Corpus} {added : Nat × Corpus}
    {world world' : World σ}
    (h : addVisits tools language maxLines directory visits used corpus world
      = (.ok added, world')) :
    -- Any reads may have come before, so that the next source can count those of this one.
    ∃ new, world'.events = world.events ++ new ∧
      ∀ reads, corpus.Holds (ReadSnippet tools language maxLines reads) →
        added.2.Holds (ReadSnippet tools language maxLines (reads ++ new)) := by
  induction visits generalizing used corpus world with
  | nil =>
    cases h
    exact ⟨[], by simp, fun reads hreads => by simpa using hreads⟩
  | cons visit rest ih =>
    rw [addVisits, logAll_bind_apply] at h
    cases hfile : visit.file? with
    | none =>
      rw [hfile] at h
      obtain ⟨new, hnew, hholds⟩ := ih h
      refine ⟨(visitLine? visit).toList.map Event.logged ++ new, by simp [hnew],
        fun reads hreads => ?_⟩
      rw [← List.append_assoc]
      exact hholds _ (hreads.mono fun kind text hsnippet => hsnippet.append _)
    | some names =>
      rw [hfile] at h
      obtain ⟨⟨isUsed, between⟩, first, hadded, hrest⟩ := Chance.bind_eq_ok.mp h
      obtain ⟨new, hnew, hholds⟩ := holds_addFile hadded
      obtain ⟨later, hlater, hholds'⟩ := ih hrest
      refine ⟨(visitLine? visit).toList.map Event.logged ++ new ++ later,
        by simp [hlater, hnew], fun reads hreads => ?_⟩
      rw [← List.append_assoc, ← List.append_assoc]
      exact hholds' _ (hholds _ (hreads.mono fun kind text hsnippet => hsnippet.append _))

/-- A limit that is a number is accepted as that number. -/
theorem checkMaxLines_of_ok {given limit : Nat}
    (h : Settings.checkMaxLines (.int given) = .ok limit) : limit = given := by
  simp only [Settings.checkMaxLines] at h
  split at h
  · cases h
  · cases h
    exact Int.toNat_natCast given

/-- A corpus that a pass returned has only candidates that the pass read. -/
theorem holds_buildCorpus {language : Language} {maxLines : Nat} {directory : Path}
    {patterns : Value} {corpus : Corpus} {world world' : World σ}
    (h : buildCorpus tools directory (.text language.name) (.int maxLines) patterns world
      = (.ok corpus, world')) :
    corpus.Holds fun kind text =>
      ∃ pass, CorpusPass world'.events pass ∧ ReadSnippet tools language maxLines pass kind text := by
  obtain ⟨last, hbody, rfl⟩ := traced_eq_ok h
  obtain ⟨limit, hlimit, hrest⟩ := ofExcept_bind_eq_ok.mp hbody
  cases checkMaxLines_of_ok hlimit
  rw [log_bind_apply] at hrest
  obtain ⟨checked, hchecked, hrest⟩ := ofExcept_bind_eq_ok.mp hrest
  cases (Grammars.checkLanguage_name language).symm.trans hchecked
  obtain ⟨rules, first, hrules, hrest⟩ := Chance.bind_eq_ok.mp hrest
  obtain ⟨earlier, hearlier⟩ :=
    events_grow (respects_scanRules (World.tolerant_adds fun _ => trivial) _ _) hrules
  obtain ⟨met, second, hmet, hrest⟩ := Chance.bind_eq_ok.mp hrest
  obtain ⟨scanned, hscanned⟩ :=
    events_grow (respects_visits (World.tolerant_adds fun _ => trivial) _ _) hmet
  obtain ⟨⟨used, built⟩, third, hadded, hrest⟩ := Chance.bind_eq_ok.mp hrest
  obtain ⟨new, hnew, hholds⟩ := holds_addVisits hadded
  dsimp only at hrest
  rw [log_bind_apply] at hrest
  cases hrest
  -- All that happened since the pass was entered belongs to it.
  obtain ⟨head, hhead⟩ : ∃ head, first.events
      = world.events ++ .logged (.entered "build_corpus") :: head :=
    ⟨.logged _ :: earlier, by simp [hearlier]; rfl⟩
  intro kind text hmem
  refine (hholds [] Corpus.holds_empty kind text hmem).imp_right ?_
  rintro ⟨path, bytes, source, span, hread, hsnippet⟩
  exact ⟨head ++ scanned ++ new ++ [.logged _],
    ⟨world.events, [], by simp [hnew, hscanned, hhead]; rfl⟩,
    path, bytes, source, span, by simp_all, hsnippet⟩

/-- What a corpus must be like after some events, if a plan has one. -/
def Sourced (tools : Toolchain) (plan : Plan) (events : List Event) (corpus : Option Corpus) :
    Prop :=
  ∀ shared, corpus = some shared → shared.Holds (CorpusSnippet tools plan events)

/-- The candidates of a corpus were read, whatever comes later. -/
theorem Sourced.append {corpus : Option Corpus} (h : Sourced tools plan events corpus)
    (more : List Event) : Sourced tools plan (events ++ more) corpus :=
  fun shared hshared => (h shared hshared).mono fun _ _ hsnippet => hsnippet.append more

/-- The corpus that a plan gets was read in a corpus pass. -/
theorem planCorpus_sourced {corpus : Option Corpus} {world world' : World σ}
    (h : planCorpus tools plan world = (.ok corpus, world')) :
    Sourced tools plan world'.events corpus := by
  rw [planCorpus] at h
  split at h
  · obtain ⟨shared, between, hshared, hrest⟩ := Chance.bind_eq_ok.mp h
    cases hrest
    rintro _ ⟨⟩
    exact holds_buildCorpus hshared
  · cases h
    rintro _ ⟨⟩

/-- The corpus of a run has candidates that the corpus pass has read. -/
theorem gather_sourced {files : List Path} {corpus : Option Corpus} {world world' : World σ}
    (h : gather tools plan world = (.ok (files, corpus), world')) :
    Sourced tools plan world'.events corpus := by
  obtain ⟨⟨⟩, first, -, hscan⟩ := Chance.bind_eq_ok.mp h
  obtain ⟨scanned, second, -, hplan⟩ := Chance.bind_eq_ok.mp hscan
  obtain ⟨built, third, hcorpus, hlast⟩ := Chance.bind_eq_ok.mp hplan
  cases hlast
  exact planCorpus_sourced hcorpus

/-- Logging, loading and drawing write nothing. -/
private theorem tolerant_keepsExplained : World.Tolerant fun first second : World σ =>
    AllExplained tools plan first.events → AllExplained tools plan second.events where
  refl _ h := h
  trans h h' hfirst := h' (h hfirst)
  logged world line h := by
    rw [World.events_after]
    exact h.append_of_not_wrote (by simp)
  loaded _ _ h := h
  drawn _ _ h := h

/-! ## One source -/

section Runs

variable [Chooser σ]

/-- What a mode offers for a span of a harvest is what the plan may put there. -/
theorem puts_of_offers {original : Bytes} {root : SyntaxTree} {source : String}
    {path : Option String} {corpus : Option Corpus} {span : Span} {replacement : Replacement}
    (hparse : tools.parse plan.language original = .tree root)
    (hsource : Utf8.decode original = .ok source) (hcorpus : Sourced tools plan events corpus)
    (hoffers : plan.mode.Offers
      ⟨original, Harvest.spansOf source root, path, plan.language.name⟩ corpus span replacement) :
    plan.Puts tools events original span replacement.text := by
  rw [Plan.Puts]
  -- Candidates come from texts of spans; the empty candidate is ruled out since it is not eligible.
  cases hmode : plan.mode with
  | deleteOnly =>
    rw [hmode] at hoffers
    obtain ⟨hlength, rfl⟩ := hoffers
    rw [Span.length] at hlength
    exact ⟨rfl, by omega⟩
  | selfSplice =>
    rw [hmode] at hoffers
    obtain ⟨own, hown, ⟨-, hlisted⟩, hempty, -⟩ := hoffers
    rcases Corpus.holds_ofSource hown span.kind _ hlisted with heq | ⟨other, hother, hkind, htext⟩
    · exact absurd heq hempty
    · exact ⟨hempty, other, hkind, snippet_of_textOf hparse hsource hother htext⟩
  | splice =>
    rw [hmode] at hoffers
    cases corpus with
    | none => cases hoffers
    | some shared =>
      obtain ⟨⟨-, hlisted⟩, hempty, -⟩ := hoffers
      rcases hcorpus shared rfl span.kind _ hlisted with heq | hsnippet
      · exact absurd heq hempty
      · exact ⟨hempty, hsnippet⟩
  | spliceRandomKind =>
    rw [hmode] at hoffers
    cases corpus with
    | none => cases hoffers
    | some shared =>
      obtain ⟨hlisted, hempty, -⟩ := hoffers
      rcases hcorpus shared rfl _ _ hlisted with heq | hsnippet
      · exact absurd heq hempty
      · exact ⟨hempty, _, hsnippet⟩

/-- A mutant of the source that was read last is explained. -/
theorem explained_of_made {original : Bytes} {root : SyntaxTree} {source : String}
    {path : Path} {label : Option String} {corpus : Option Corpus} {mutant : Mutant}
    (hread : ReadLast events path original)
    (hparse : tools.parse plan.language original = .tree root)
    (hsource : Utf8.decode original = .ok source) (hcorpus : Sourced tools plan events corpus)
    (hmade : mutant.Made ⟨original, Harvest.spansOf source root, label, plan.language.name⟩
      (plan.mode.Offers ⟨original, Harvest.spansOf source root, label, plan.language.name⟩ corpus))
    (index : Int) :
    Explained tools plan events (plan.outputDirectory.below [MutantName.compose path.name index])
      (Utf8.encode mutant.text) := by
  obtain ⟨_, span, replacement, hspan, hoffers, hmake⟩ := hmade
  obtain ⟨hfits, hbytes⟩ := Mutant.make_eq_ok hmake
  obtain ⟨hmem, hrecords⟩ := List.mem_filter.mp hspan
  obtain ⟨hkind, hend⟩ := of_decide_eq_true hrecords
  -- The text that is put there differs from the one that stood there, so the bytes do.
  have hother := hoffers.encode_ne hfits
  refine ⟨path, original, span, replacement.text, index, hread, rfl,
    ⟨root, source, hparse, hsource, hmem, hkind, hend⟩, hfits, hbytes, hother, ?_,
    puts_of_offers hparse hsource hcorpus hoffers⟩
  rw [hbytes]
  exact fun heq => hother ((Harvest.spliced_eq_bytes_iff hfits _).mp heq)

/-- What is written of a text is explained if the text was read last. -/
theorem mutateText_explained {corpus : Option Corpus} {path : Path} {original : Bytes}
    {source : String} {world : World σ} (hsource : Utf8.decode original = .ok source)
    (hread : ReadLast world.events path original)
    (hcorpus : Sourced tools plan world.events corpus)
    (hbefore : AllExplained tools plan world.events) :
    AllExplained tools plan (mutateText tools plan corpus path source world).2.events := by
  -- Nothing is read from here on, and whatever is written is a mutant of the text.
  have hadds : World.Adds (fun event => (∀ path bytes, event ≠ .read path bytes) ∧
      ∀ target bytes, event = .wrote target bytes →
        Explained tools plan world.events target bytes)
      world (mutateText tools plan corpus path source world).2 := by
    have htolerant : World.Tolerant (World.Adds (σ := σ) fun event =>
        (∀ path bytes, event ≠ .read path bytes) ∧ ∀ target bytes, event = .wrote target bytes →
          Explained tools plan world.events target bytes) :=
      World.tolerant_adds fun line => by simp
    rw [mutateText]
    split
    case isFalse =>
      exact respects_bind htolerant (respects_log htolerant _)
        (fun _ => respects_pure htolerant _) world
    case isTrue =>
      refine respects_bind_at htolerant (respects_harvest htolerant _ _ _ _ world)
        fun found first hfound => ?_
      rw [harvestText, Utf8.encode_of_decode hsource] at hfound
      obtain ⟨root, text, hparse, htext, rfl⟩ := harvest_eq_ok hfound
      cases htext.symm.trans hsource
      refine respects_bind_at htolerant (respects_mutants htolerant _ _ _ _ first)
        fun made second hmade => ?_
      obtain ⟨draft, chance, lines, hpass, rfl, -⟩ := mutants_eq_ok hmade
      refine respects_bind htolerant (respects_handOver htolerant _ _ fun world mutant _ =>
        World.adds_after (by simp) world) (fun _ => ?_) second
      refine respects_bind htolerant (respects_writeMutants htolerant ?_ ?_) fun _ =>
        respects_bind htolerant (respects_log htolerant _) fun _ => respects_pure htolerant _
      · intro world _
        exact ⟨[], (List.append_nil world.events).symm, by simp⟩
      · intro world' tree mutant hmutant index _
        refine World.adds_after ⟨by simp, ?_⟩ { world' with tree }
        rintro target bytes ⟨⟩
        have hmade' : mutant.Made _ _ := Mode.mutants_made plan.mode tools.patience plan.count
          corpus plan.stallLimit first.chance mutant (by rw [hpass]; exact hmutant)
        exact explained_of_made hread hparse hsource hcorpus hmade' index
  obtain ⟨new, hnew, hsort⟩ := hadds
  rw [hnew]
  -- What was explained when the text was read is so still, as nothing else has been read.
  refine allExplained_append hbefore fun before target bytes after heq => ?_
  have hmem : ∀ event ∈ before, event ∈ new := fun event hmem =>
    heq ▸ List.mem_append_left _ hmem
  refine ((hsort (.wrote target bytes) (heq ▸ by simp)).2 target bytes rfl).append ?_
  exact fun path bytes hmem' => (hsort _ (hmem _ hmem')).1 path bytes rfl

/-- All that is written in the turn of a source is explained. -/
theorem mutateFile_explained {corpus : Option Corpus} {path : Path} {world : World σ}
    (hcorpus : Sourced tools plan world.events corpus)
    (hbefore : AllExplained tools plan world.events) :
    AllExplained tools plan (mutateFile tools plan corpus path world).2.events := by
  rw [mutateFile, log_bind_apply, Chance.bind_apply]
  have hlogged : AllExplained tools plan
      (world.after (.logged (.info s!"filename : {path.name}"))).events := by
    rw [World.events_after]
    exact hbefore.append_of_not_wrote (by simp)
  cases hrun : (readSource path : Run σ String)
      (world.after (.logged (.info s!"filename : {path.name}"))) with
  | mk result between =>
    cases result with
    -- The source was not read, so nothing comes of it.
    | error stop =>
      cases readSource_eq_error hrun
      exact hlogged
    -- The source was read last of all, and its mutants are explained by that.
    | ok source =>
      obtain ⟨bytes, -, hsource, rfl⟩ := readSource_eq_ok hrun
      refine mutateText_explained hsource ⟨_, [], World.events_after _ _, by simp⟩ ?_ ?_
      · simp only [World.events_after, List.append_assoc]
        exact hcorpus.append _
      · rw [World.events_after]
        exact hlogged.append_of_not_wrote (by simp)

/-- All that is written in the turns of several sources is explained. -/
theorem mutateFiles_explained {corpus : Option Corpus} {paths : List Path} {world : World σ}
    (hcorpus : Sourced tools plan world.events corpus)
    (hbefore : AllExplained tools plan world.events) :
    AllExplained tools plan (mutateFiles tools plan corpus paths world).2.events := by
  induction paths generalizing world with
  | nil => exact hbefore
  | cons path rest ih =>
    rw [mutateFiles, Chance.bind_apply]
    -- A source may stop the run; what was written before stays explained all the same.
    have hfile : AllExplained tools plan (mutateFile tools plan corpus path world).2.events :=
      mutateFile_explained hcorpus hbefore
    have hgrows : World.Adds (fun _ => True) world (mutateFile tools plan corpus path world).2 :=
      respects_mutateFile (World.steps_adds _) path world
    cases hrun : mutateFile tools plan corpus path world with
    | mk result between =>
      rw [hrun] at hfile hgrows
      obtain ⟨new, hnew, -⟩ := hgrows
      cases result with
      | error stop => exact hfile
      | ok report =>
        have hrest := ih (hnew ▸ hcorpus.append new) hfile
        dsimp only
        rw [Chance.bind_apply]
        cases hrun' : mutateFiles tools plan corpus rest between with
        | mk result after =>
          rw [hrun'] at hrest
          cases result <;> exact hrest

/-! ## Whole runs -/

/-- All that is written when a plan is carried out is explained. -/
theorem carryOut_explained {world : World σ} (hbefore : AllExplained tools plan world.events) :
    AllExplained tools plan (carryOut tools plan world).2.events := by
  let R : World σ → World σ → Prop := fun first second =>
    AllExplained tools plan first.events → AllExplained tools plan second.events
  have hR : World.Tolerant R := tolerant_keepsExplained
  have hread : ∀ (world : World σ) path bytes, world.tree.read path = .ok bytes →
      R world (world.after (.read path bytes)) := by
    intro world path bytes _ h
    rw [World.events_after]
    exact h.append_of_not_wrote (by simp)
  -- Each part keeps what is explained; the pass that mutates needs the corpus that was gathered.
  suffices hrun : R world (carryOut tools plan world).2 from hrun hbefore
  refine respects_bind hR (respects_log hR _) (fun _ first => ?_) world
  refine respects_bind_at hR (respects_gather hR (fun _ _ h => h) hread first) ?_
  rintro ⟨files, corpus⟩ second hgathered
  refine respects_bind_at hR ?_ fun sources third _ =>
    respects_bind hR (respects_log hR _) (fun _ => respects_pure hR _) third
  exact mutateFiles_explained (gather_sourced hgathered)

/--
Whatever a run writes is explained by what happened before it, however the run gets its numbers,
and whether it returns or stops.
-/
theorem mutateAfter_explained {settings : Settings} {opening : Run σ Unit}
    (hopening : Opening settings opening) {tree : FileTree} {chance : σ} {grammars : Grammars}
    {before after : List Event} {path : Path} {bytes : Bytes}
    (h : (mutateAfter opening tools settings (World.fresh tree chance grammars)).2.events
      = before ++ .wrote path bytes :: after) :
    ∃ plan, settings.check tree = .ok plan ∧ Explained tools plan before path bytes := by
  cases hplan : settings.check tree with
  | error failure =>
    -- Settings that are refused end the run before it writes anything.
    have hR : World.Tolerant (World.Adds (σ := σ) fun event => event ≠ .wrote path bytes) :=
      World.tolerant_adds nofun
    have hadds : World.Adds _ _
        (mutateAfter opening tools settings (World.fresh tree chance grammars)).2 :=
      respects_mutateAfter hR hopening fun plan hok => nomatch hplan.symm.trans hok
    obtain ⟨new, hnew, hsort⟩ := hadds
    rw [hnew, World.events_fresh, List.nil_append] at h
    exact absurd rfl (hsort (.wrote path bytes) (h ▸ by simp))
  | ok plan =>
    have hrun : AllExplained tools plan
        (mutateAfter opening tools settings (World.fresh tree chance grammars)).2.events := by
      refine respects_mutateAfter tolerant_keepsExplained hopening (fun other hok world => ?_) ?_
      · cases hplan.symm.trans hok
        exact carryOut_explained
      · exact allExplained_nil
    exact ⟨plan, rfl, hrun before path bytes after h⟩

end Runs

/-! ### A run that splices two identifiers -/

/-- One source, `a b`, in the directory `in`. -/
def twoNamesTree : FileTree where
  workDirectory := ["w"]
  entries := ⟨[(["w"], .directory), (["w", "in"], .directory),
    (["w", "in", "a.rs"], .file [0x61, 0x20, 0x62])]⟩

/-- A parser that finds two identifiers of one byte each in every source. -/
def twoNamesTools : Toolchain where
  installed _ := true
  parse _ bytes := .tree (.node ⟨"source_file", 0, bytes.length, ⟨0, 0⟩, ⟨0, 3⟩⟩ [
    .node ⟨"identifier", 0, 1, ⟨0, 0⟩, ⟨0, 1⟩⟩ [],
    .node ⟨"identifier", 2, 3, ⟨0, 2⟩, ⟨0, 3⟩⟩ []])
  patience := 0

/-- All self splices of the sources in `in`, written to `out`. -/
def selfSplices : Settings where
  inputDirectory := ⟨.relative, ["in"]⟩
  outputDirectory := ⟨.relative, ["out"]⟩
  mode := .int 1
  count := .int 0
  language := .text "rust"
  maxLines := .int 500
  stallLimit := .int 100
  seed := .none
  ignorePatterns := .list []

/-- The events of that run, which draws nothing. -/
def twoNamesEvents : List Event :=
  (mutate twoNamesTools selfSplices (World.fresh twoNamesTree (⟨[]⟩ : Script) .empty)).2.events

/-- It writes `b b` first, and that is explained. -/
theorem twoNames_explained :
    twoNamesEvents = twoNamesEvents.take 11 ++
        .wrote ⟨.relative, ["out", "mut_a.rs_1.rs"]⟩ [0x62, 0x20, 0x62] ::
        twoNamesEvents.drop 12 ∧
      ∃ plan, selfSplices.check twoNamesTree = .ok plan ∧
        Explained twoNamesTools plan (twoNamesEvents.take 11)
          ⟨.relative, ["out", "mut_a.rs_1.rs"]⟩ [0x62, 0x20, 0x62] := by
  have h : twoNamesEvents = twoNamesEvents.take 11 ++
      .wrote ⟨.relative, ["out", "mut_a.rs_1.rs"]⟩ [0x62, 0x20, 0x62] ::
      twoNamesEvents.drop 12 := by decide +kernel
  exact ⟨h, mutateAfter_explained .given h⟩

end Run

end SourceMutation
