import Mathlib.Data.List.Nodup
import SourceMutation.Grammar

/-!
# Requests for grammars and parsers

What is kept after some requests, and how the next one is answered, whatever was asked for and
whichever grammar modules could be imported at each request (`Grammars.afterAll_answers`).

- A request either finds what it asks for among what is kept, or fails and leaves everything as it
  was, or makes what is missing (`Grammars.Request.Outcome`).
- What is kept is sound (`Grammars.Sound`): a parser is only made where a grammar is kept, and each
  object that is made gets a number that no other has.  Every request preserves that.
- Nothing that is kept is ever changed (`Grammars.Retains`), so that a request that was granted is
  granted again, with the same handle.
-/

namespace SourceMutation

/-- A language is known by its name. -/
theorem Language.name_injective : Function.Injective Language.name := by
  intro first second h
  have hsome := congrArg ofName? h
  rw [ofName?_name, ofName?_name] at hsome
  exact Option.some.inj hsome

namespace Grammars

variable {kept : Grammars} {language other : Language} {handle : Handle}

/-- What a request can ask for. -/
inductive Wanted where
  | grammar
  | parser
  deriving DecidableEq

/-- Where it is kept. -/
def Wanted.shelf : Wanted → Grammars → List (Language × Handle)
  | .grammar => Grammars.grammars
  | .parser => Grammars.parsers

/-- A request under any name, with the grammar modules that can be imported when it is made. -/
structure Request where
  wanted : Wanted
  name : String
  importable : String → Bool

namespace Request

/-- Whether the grammar of a language can be imported when a request is made. -/
def installed (request : Request) (language : Language) : Bool :=
  request.importable language.grammarModule

/-- Answers a request from what is kept. -/
def perform (request : Request) (kept : Grammars) : Loaded :=
  match request.wanted with
  | .grammar => ofValue (grammar request.installed) (.text request.name) kept
  | .parser => askParser request.installed (.text request.name) kept

/-- Whatever is asked for, a request may be answered with its name checked first. -/
theorem perform_eq (request : Request) (kept : Grammars) :
    request.perform kept = match request.wanted with
      | .grammar => ofValue (grammar request.installed) (.text request.name) kept
      | .parser => ofValue (parser request.installed) (.text request.name) kept := by
  rw [perform, askParser_eq]

/-- What is kept of a request. -/
def after (request : Request) (kept : Grammars) : Grammars := (request.perform kept).kept

end Request

/-- What is kept after some requests, one after the other, whether or not they succeed. -/
def afterAll (kept : Grammars) (requests : List Request) : Grammars :=
  requests.foldl (fun kept request => request.after kept) kept

/-! ## One request -/

/-- With a new grammar. -/
def withGrammar (kept : Grammars) (language : Language) : Grammars :=
  { kept with grammars := kept.grammars ++ [(language, kept.made)], made := kept.made + 1 }

/-- With a new parser. -/
def withParser (kept : Grammars) (language : Language) : Grammars :=
  { kept with parsers := kept.parsers ++ [(language, kept.made)], made := kept.made + 1 }

/-- Whether the grammar of a language is kept. -/
def HasGrammar (kept : Grammars) (language : Language) : Prop :=
  language ∈ kept.grammars.map (·.1)

/-- Whether the parser of a language is kept. -/
def HasParser (kept : Grammars) (language : Language) : Prop :=
  language ∈ kept.parsers.map (·.1)

/-- Nothing is found for a language that is not kept. -/
theorem lookup_eq_none_iff {entries : List (Language × Handle)} :
    List.lookup language entries = none ↔ language ∉ entries.map (·.1) := by
  rw [List.lookup_eq_none_iff, List.mem_map]
  constructor
  · rintro h ⟨entry, hentry, rfl⟩
    simpa using h entry hentry
  · intro h entry hentry
    simpa using fun heq => h ⟨entry, hentry, heq.symm⟩

/-- A language for which something is found is kept. -/
theorem mem_of_lookup {entries : List (Language × Handle)}
    (h : List.lookup language entries = some handle) : language ∈ entries.map (·.1) := by
  by_contra hnone
  rw [lookup_eq_none_iff.mpr hnone] at h
  cases h

/-- What can come of a request: an answer, and what is kept then. -/
inductive Request.Outcome (request : Request) (kept : Grammars) :
    Except Failure Handle → Grammars → Prop
  /-- There is no language of that name. -/
  | unregistered (hname : Language.ofName? request.name = none) :
      Outcome request kept (.error (.unsupportedLanguage request.name)) kept
  /-- What is asked for is kept already. -/
  | found {language : Language} {handle : Handle}
      (hname : Language.ofName? request.name = some language)
      (hfound : List.lookup language (request.wanted.shelf kept) = some handle) :
      Outcome request kept (.ok handle) kept
  /-- The grammar is not kept, and cannot be imported. -/
  | missing {language : Language} (hname : Language.ofName? request.name = some language)
      (hshelf : List.lookup language (request.wanted.shelf kept) = none)
      (hgrammar : ¬kept.HasGrammar language) (hinstalled : request.installed language = false) :
      Outcome request kept (.error (.grammarNotFound language.name language.installCommand)) kept
  /-- The grammar is imported. -/
  | grammarMade {language : Language} (hname : Language.ofName? request.name = some language)
      (hwanted : request.wanted = .grammar) (hgrammar : ¬kept.HasGrammar language)
      (hinstalled : request.installed language = true) :
      Outcome request kept (.ok kept.made) (kept.withGrammar language)
  /-- The parser is made of the grammar that is kept. -/
  | parserMade {language : Language} (hname : Language.ofName? request.name = some language)
      (hwanted : request.wanted = .parser) (hparser : ¬kept.HasParser language)
      (hgrammar : kept.HasGrammar language) :
      Outcome request kept (.ok kept.made) (kept.withParser language)
  /-- The grammar is imported and the parser made of it. -/
  | bothMade {language : Language} (hname : Language.ofName? request.name = some language)
      (hwanted : request.wanted = .parser) (hparser : ¬kept.HasParser language)
      (hgrammar : ¬kept.HasGrammar language) (hinstalled : request.installed language = true) :
      Outcome request kept (.ok (kept.made + 1)) ((kept.withGrammar language).withParser language)

/-- A request has no other outcomes. -/
theorem Request.perform_outcome (request : Request) (kept : Grammars) :
    request.Outcome kept (request.perform kept).answer (request.after kept) := by
  rw [Request.after, Request.perform_eq]
  unfold ofValue
  rw [checkLanguage_text]
  cases hname : Language.ofName? request.name with
  | none => cases request.wanted <;> exact .unregistered hname
  -- A grammar is made of its module, and a parser of its grammar, if they are not kept already.
  | some language =>
    cases hwanted : request.wanted with
    | grammar =>
      dsimp only
      rw [grammar]
      cases hgrammar : List.lookup language kept.grammars with
      | some handle => exact .found hname (by rw [hwanted]; exact hgrammar)
      | none =>
        have hnone : ¬kept.HasGrammar language := lookup_eq_none_iff.mp hgrammar
        cases hinstalled : request.installed language with
        | true => exact .grammarMade hname hwanted hnone hinstalled
        | false => exact .missing hname (by rw [hwanted]; exact hgrammar) hnone hinstalled
    | parser =>
      dsimp only
      rw [parser]
      cases hparser : List.lookup language kept.parsers with
      | some handle => exact .found hname (by rw [hwanted]; exact hparser)
      | none =>
        have hnew : ¬kept.HasParser language := lookup_eq_none_iff.mp hparser
        -- The parser is missing; its grammar may be kept, or can be made, or is missing as well.
        dsimp only [makeParser]
        rw [grammar]
        cases hgrammar : List.lookup language kept.grammars with
        | some handle => exact .parserMade hname hwanted hnew (mem_of_lookup hgrammar)
        | none =>
          have hnone : ¬kept.HasGrammar language := lookup_eq_none_iff.mp hgrammar
          cases hinstalled : request.installed language with
          | true => exact .bothMade hname hwanted hnew hnone hinstalled
          | false => exact .missing hname (by rw [hwanted]; exact hparser) hnone hinstalled

/-! ## What is kept

Grammars and parsers are numbered as they are made, so two objects are the same exactly if their
numbers are.
-/

/-- Everything that is kept. -/
def entries (kept : Grammars) : List (Language × Handle) := kept.grammars ++ kept.parsers

/-- Whether no object has the number of another one, or a number that is still to be given. -/
structure Numbered (kept : Grammars) : Prop where
  nodup : (kept.entries.map (·.2)).Nodup
  lt : ∀ entry ∈ kept.entries, entry.2 < kept.made

/-- The next number is given to one more object. -/
theorem Numbered.more {first second : Grammars} (h : first.Numbered)
    (hentries : second.entries.Perm ((language, first.made) :: first.entries))
    (hmade : second.made = first.made + 1) : second.Numbered where
  nodup := by
    rw [(hentries.map (·.2)).nodup_iff, List.map_cons, List.nodup_cons, List.mem_map]
    refine ⟨?_, h.nodup⟩
    rintro ⟨entry, hentry, heq⟩
    exact absurd heq (Nat.ne_of_lt (h.lt entry hentry))
  lt entry hentry := by
    rw [hmade]
    rcases List.mem_cons.mp (hentries.mem_iff.mp hentry) with rfl | hold
    · exact Nat.lt_succ_self _
    · exact Nat.lt_succ_of_lt (h.lt entry hold)

/-- Whether what is kept fits together. -/
structure Sound (kept : Grammars) : Prop where
  grammars_nodup : (kept.grammars.map (·.1)).Nodup
  parsers_nodup : (kept.parsers.map (·.1)).Nodup
  /-- A parser is made of a grammar, which is kept. -/
  hasGrammar : ∀ language, kept.HasParser language → kept.HasGrammar language
  numbered : kept.Numbered

/-- Nothing is kept at first, which is sound. -/
theorem sound_empty : Sound empty where
  grammars_nodup := .nil
  parsers_nodup := .nil
  hasGrammar _ h := h
  numbered := ⟨.nil, nofun⟩

/-- A language that is new can be added to others. -/
theorem nodup_concat {entries : List (Language × Handle)} (h : (entries.map (·.1)).Nodup)
    (hnew : language ∉ entries.map (·.1)) (handle : Handle) :
    ((entries ++ [(language, handle)]).map (·.1)).Nodup := by
  rw [((List.perm_append_singleton _ entries).map (·.1)).nodup_iff, List.map_cons]
  exact List.nodup_cons.mpr ⟨hnew, h⟩

/-- A grammar that is made is kept besides the others. -/
theorem hasGrammar_withGrammar : (kept.withGrammar language).HasGrammar other ↔
    kept.HasGrammar other ∨ other = language := by
  simp [HasGrammar, withGrammar]

/-- A parser that is made is kept besides the others. -/
theorem hasParser_withParser : (kept.withParser language).HasParser other ↔
    kept.HasParser other ∨ other = language := by
  simp [HasParser, withParser]

/-- Whatever is kept for a language, its grammar is. -/
theorem Sound.hasGrammar_of_kept (h : kept.Sound) {wanted : Wanted}
    (hkept : language ∈ (wanted.shelf kept).map (·.1)) : kept.HasGrammar language := by
  cases wanted with
  | grammar => exact hkept
  | parser => exact h.hasGrammar language hkept

/-- Making a grammar that was missing is sound. -/
theorem Sound.withGrammar (h : kept.Sound) (hnew : ¬kept.HasGrammar language) :
    (kept.withGrammar language).Sound where
  grammars_nodup := nodup_concat h.grammars_nodup hnew _
  parsers_nodup := h.parsers_nodup
  hasGrammar other hother := hasGrammar_withGrammar.mpr (.inl (h.hasGrammar other hother))
  numbered := h.numbered.more
    ((List.perm_append_singleton _ kept.grammars).append_right kept.parsers) rfl

/-- Making a parser that was missing is sound where its grammar is kept. -/
theorem Sound.withParser (h : kept.Sound) (hnew : ¬kept.HasParser language)
    (hgrammar : kept.HasGrammar language) : (kept.withParser language).Sound where
  grammars_nodup := h.grammars_nodup
  parsers_nodup := nodup_concat h.parsers_nodup hnew _
  hasGrammar other hother := by
    rcases hasParser_withParser.mp hother with hold | rfl
    · exact h.hasGrammar other hold
    · exact hgrammar
  numbered := by
    have hentries : (kept.withParser language).entries.Perm
        ((language, kept.made) :: kept.entries) := by
      rw [entries, Grammars.withParser, ← List.append_assoc]
      exact List.perm_append_singleton _ _
    exact h.numbered.more hentries rfl

/-- What is kept goes on fitting together, whatever comes of a request. -/
theorem Request.Outcome.sound {request : Request} {answer : Except Failure Handle}
    {later : Grammars} (h : request.Outcome kept answer later) (hkept : kept.Sound) :
    later.Sound := by
  cases h with
  | unregistered | found | missing => exact hkept
  | grammarMade _ _ hgrammar => exact hkept.withGrammar hgrammar
  | parserMade _ _ hparser hgrammar => exact hkept.withParser hparser hgrammar
  | bothMade _ _ hparser hgrammar =>
    exact (hkept.withGrammar hgrammar).withParser hparser (hasGrammar_withGrammar.mpr (.inr rfl))

/-! ## What stays kept -/

/-- Whether everything that was kept is kept still, and is the same object. -/
def Retains (first second : Grammars) : Prop :=
  ∀ (wanted : Wanted) language handle,
    List.lookup language (wanted.shelf first) = some handle →
      List.lookup language (wanted.shelf second) = some handle

theorem Retains.refl (kept : Grammars) : kept.Retains kept := fun _ _ _ h => h

theorem Retains.trans {first second third : Grammars} (h : first.Retains second)
    (h' : second.Retains third) : first.Retains third :=
  fun wanted language handle hfound => h' wanted language handle (h wanted language handle hfound)

/-- What is found is found with more behind it. -/
theorem lookup_append_of_some {entries more : List (Language × Handle)}
    (h : List.lookup language entries = some handle) :
    List.lookup language (entries ++ more) = some handle := by
  rw [List.lookup_append, h, Option.some_or]

/-- What is put behind others is found if it is new. -/
theorem lookup_concat_of_new {entries : List (Language × Handle)}
    (h : language ∉ entries.map (·.1)) (handle : Handle) :
    List.lookup language (entries ++ [(language, handle)]) = some handle := by
  rw [List.lookup_append, lookup_eq_none_iff.mpr h, Option.none_or, List.lookup_cons_self]

/-- Making a grammar changes nothing that is kept. -/
theorem retains_withGrammar (kept : Grammars) (language : Language) :
    kept.Retains (kept.withGrammar language)
  | .grammar, _, _, h => lookup_append_of_some h
  | .parser, _, _, h => h

/-- Making a parser changes nothing that is kept. -/
theorem retains_withParser (kept : Grammars) (language : Language) :
    kept.Retains (kept.withParser language)
  | .grammar, _, _, h => h
  | .parser, _, _, h => lookup_append_of_some h

/-- Whatever comes of a request, nothing that is kept is changed. -/
theorem Request.Outcome.retains {request : Request} {answer : Except Failure Handle}
    {later : Grammars} (h : request.Outcome kept answer later) : kept.Retains later := by
  cases h with
  | unregistered | found | missing => exact .refl kept
  | grammarMade => exact retains_withGrammar kept _
  | parserMade => exact retains_withParser kept _
  | bothMade => exact (retains_withGrammar kept _).trans (retains_withParser _ _)

/-- What is answered is kept from then on. -/
theorem Request.Outcome.kept_of_ok {request : Request} {later : Grammars}
    (h : request.Outcome kept (.ok handle) later) :
    ∃ language, Language.ofName? request.name = some language ∧
      List.lookup language (request.wanted.shelf later) = some handle := by
  cases h with
  | found hname hfound => exact ⟨_, hname, hfound⟩
  | grammarMade hname hwanted hnew | parserMade hname hwanted hnew | bothMade hname hwanted hnew =>
    refine ⟨_, hname, ?_⟩
    rw [hwanted]
    exact lookup_concat_of_new hnew _

/-- What is kept is answered, without a look at anything else. -/
theorem Request.perform_of_kept {request : Request}
    (hname : Language.ofName? request.name = some language)
    (hfound : List.lookup language (request.wanted.shelf kept) = some handle) :
    request.perform kept = ⟨.ok handle, kept, []⟩ := by
  rw [Request.perform_eq]
  unfold ofValue
  rw [checkLanguage_text, hname]
  -- What is asked for is on its shelf, and is looked up before anything is made.
  cases hwanted : request.wanted with
  | grammar =>
    rw [hwanted] at hfound
    dsimp only
    rw [grammar, show List.lookup language kept.grammars = some handle from hfound]
  | parser =>
    rw [hwanted] at hfound
    dsimp only
    rw [parser, show List.lookup language kept.parsers = some handle from hfound]

/-! ## Many requests -/

/-- What is kept stays sound through all requests. -/
theorem sound_afterAll (h : kept.Sound) (requests : List Request) :
    (kept.afterAll requests).Sound := by
  induction requests generalizing kept with
  | nil => exact h
  | cons request rest ih => exact ih ((request.perform_outcome kept).sound h)

/-- Nothing that is kept is changed by any requests. -/
theorem retains_afterAll (kept : Grammars) (requests : List Request) :
    kept.Retains (kept.afterAll requests) := by
  induction requests generalizing kept with
  | nil => exact .refl kept
  | cons request rest ih => exact (request.perform_outcome kept).retains.trans (ih _)

/-! ## What is asked for under names -/

/-- The names under which grammars are kept, in order. -/
def grammarNames (kept : Grammars) : List String := kept.grammars.map fun entry => entry.1.name

/-- The names under which parsers are kept, in order. -/
def parserNames (kept : Grammars) : List String := kept.parsers.map fun entry => entry.1.name

/-- A language is kept if its name is among the names of what is kept. -/
theorem mem_names_iff {entries : List (Language × Handle)} {name : String}
    (hname : Language.ofName? name = some language) :
    name ∈ entries.map (fun entry => entry.1.name) ↔ language ∈ entries.map (·.1) := by
  obtain rfl := Language.name_of_ofName? hname
  simp only [List.mem_map]
  constructor
  · rintro ⟨entry, hentry, heq⟩
    exact ⟨entry, hentry, Language.name_injective heq⟩
  · rintro ⟨entry, hentry, rfl⟩
    exact ⟨entry, hentry, rfl⟩

namespace Request

variable {request : Request} {answer : Except Failure Handle} {later : Grammars}

/-- A language is granted if its grammar is kept or can be imported. -/
theorem Outcome.isOk_iff (h : request.Outcome kept answer later) (hkept : kept.Sound) :
    (∃ handle, answer = .ok handle) ↔
      ∃ language, Language.ofName? request.name = some language ∧
        (kept.HasGrammar language ∨ request.installed language = true) := by
  cases h with
  | unregistered hnone => exact iff_of_false nofun (by simp [hnone])
  | found hname hfound =>
    -- Whatever is kept, its grammar is kept.
    have hgrammar := hkept.hasGrammar_of_kept (mem_of_lookup hfound)
    exact iff_of_true ⟨_, rfl⟩ ⟨_, hname, .inl hgrammar⟩
  | missing hname hshelf hgrammar hinstalled =>
    exact iff_of_false nofun (by simp [hname, hgrammar, hinstalled])
  | parserMade hname hwanted hparser hgrammar =>
    exact iff_of_true ⟨_, rfl⟩ ⟨_, hname, .inl hgrammar⟩
  | grammarMade hname hwanted hgrammar hinstalled =>
    exact iff_of_true ⟨_, rfl⟩ ⟨_, hname, .inr hinstalled⟩
  | bothMade hname hwanted hparser hgrammar hinstalled =>
    exact iff_of_true ⟨_, rfl⟩ ⟨_, hname, .inr hinstalled⟩

/-- Why a request fails, which keeps nothing of it. -/
theorem Outcome.of_error {failure : Failure}
    (h : request.Outcome kept (.error failure) later) :
    later = kept ∧
      (Language.ofName? request.name = none ∧ failure = .unsupportedLanguage request.name ∨
        ∃ language, Language.ofName? request.name = some language ∧
          failure = .grammarNotFound language.name language.installCommand) := by
  cases h with
  | unregistered hnone => exact ⟨rfl, .inl ⟨hnone, rfl⟩⟩
  | missing hname => exact ⟨rfl, .inr ⟨_, hname, rfl⟩⟩

/-- A name that is no language is refused. -/
theorem Outcome.of_unregistered (h : request.Outcome kept answer later)
    (hnone : Language.ofName? request.name = none) :
    answer = .error (.unsupportedLanguage request.name) := by
  cases h with
  | unregistered => rfl
  | found hname | missing hname | grammarMade hname | parserMade hname | bothMade hname =>
    rw [hnone] at hname
    cases hname

end Request

/-- Whether the names under which grammars and parsers are kept are as they should be. -/
structure Consistent (kept : Grammars) : Prop where
  /-- Nothing is kept but under the name of a language, -/
  registered : ∀ name ∈ kept.grammarNames ++ kept.parserNames,
    ∃ language, Language.ofName? name = some language
  /-- and once only. -/
  grammarNames_nodup : kept.grammarNames.Nodup
  parserNames_nodup : kept.parserNames.Nodup
  /-- Where there is a parser, there is the grammar. -/
  parserNames_subset : kept.parserNames ⊆ kept.grammarNames
  /-- All objects that are kept can be told apart. -/
  handles_nodup : (kept.entries.map (·.2)).Nodup

theorem Sound.consistent (h : kept.Sound) : kept.Consistent where
  registered name hname := by
    rw [grammarNames, parserNames, ← List.map_append] at hname
    obtain ⟨entry, -, rfl⟩ := List.mem_map.mp hname
    exact ⟨entry.1, Language.ofName?_name entry.1⟩
  -- A language is known by its name, so that names are as different as languages.
  grammarNames_nodup := by
    have hnames := h.grammars_nodup.map Language.name_injective
    rwa [List.map_map] at hnames
  parserNames_nodup := by
    have hnames := h.parsers_nodup.map Language.name_injective
    rwa [List.map_map] at hnames
  parserNames_subset := by
    intro name hname
    obtain ⟨entry, hentry, rfl⟩ := List.mem_map.mp hname
    exact (mem_names_iff (Language.ofName?_name entry.1)).mpr
      (h.hasGrammar entry.1 (List.mem_map_of_mem hentry))
  handles_nodup := h.numbered.nodup

/-- How a request is answered from what is kept after earlier ones. -/
structure Answered (earlier : List Request) (request : Request) : Prop where
  consistent : (empty.afterAll earlier).Consistent
  /-- A language is granted exactly if its grammar is kept, or can be imported now. -/
  granted_iff : ∀ language, Language.ofName? request.name = some language →
    ((∃ handle, (request.perform (empty.afterAll earlier)).answer = .ok handle) ↔
      request.name ∈ (empty.afterAll earlier).grammarNames ∨
        request.importable language.grammarModule = true)
  /-- What was granted before is granted again, and is the same object. -/
  again : ∀ before first between, earlier = before ++ first :: between →
    first.wanted = request.wanted → first.name = request.name →
    ∀ handle, (first.perform (empty.afterAll before)).answer = .ok handle →
      (request.perform (empty.afterAll earlier)).answer = .ok handle
  /-- Other names are refused. -/
  unregistered : Language.ofName? request.name = none →
    (request.perform (empty.afterAll earlier)).answer
      = .error (.unsupportedLanguage request.name)
  /-- A failure leaves everything as it was, and tells other names from languages. -/
  refused : ∀ failure, (request.perform (empty.afterAll earlier)).answer = .error failure →
    request.after (empty.afterAll earlier) = empty.afterAll earlier ∧
      (Language.ofName? request.name = none ∧ failure = .unsupportedLanguage request.name ∨
        ∃ language, Language.ofName? request.name = some language ∧
          failure = .grammarNotFound language.name language.installCommand)
  /-- A parser that is kept under the name can be answered before the name is checked. -/
  unchecked : ∀ handle, (empty.afterAll earlier).parserNamed? request.name = some handle →
    request.wanted = .parser →
    request.perform (empty.afterAll earlier) = ⟨.ok handle, empty.afterAll earlier, []⟩

/-- Whatever was asked for before, and whichever modules could be imported then. -/
theorem afterAll_answers (earlier : List Request) (request : Request) :
    Answered earlier request := by
  have hsound : (empty.afterAll earlier).Sound := sound_afterAll sound_empty earlier
  have houtcome := request.perform_outcome (empty.afterAll earlier)
  exact {
    consistent := hsound.consistent
    granted_iff := by
      intro language hname
      rw [houtcome.isOk_iff hsound, hname, grammarNames, mem_names_iff hname]
      constructor
      · rintro ⟨other, hother, hgranted⟩
        obtain rfl := Option.some.inj hother
        exact hgranted
      · intro hgranted
        exact ⟨language, rfl, hgranted⟩
    again := by
      rintro before first between rfl hwanted hname handle hfirst
      have hkept := first.perform_outcome (empty.afterAll before)
      rw [hfirst] at hkept
      obtain ⟨language, hlanguage, hlookup⟩ := hkept.kept_of_ok
      -- It was kept at once, and still is after the requests in between.
      have hretained := retains_afterAll (first.after (empty.afterAll before)) between _ _ _ hlookup
      have hall : empty.afterAll (before ++ first :: between)
          = (first.after (empty.afterAll before)).afterAll between := by
        rw [afterAll, List.foldl_append, List.foldl_cons]
        rfl
      rw [hwanted, ← hall] at hretained
      rw [Request.perform_of_kept (hname ▸ hlanguage) hretained]
    unregistered := houtcome.of_unregistered
    refused := by
      intro failure hfailed
      rw [hfailed] at houtcome
      exact houtcome.of_error
    -- What is kept under a name is found before the name is checked.
    unchecked := by
      intro handle hnamed hwanted
      rw [Request.perform, hwanted]
      dsimp only [askParser, lookedUp, parserUnder?]
      rw [hnamed] }

/-- The module is there for the second request only, and no language has the last name. -/
theorem goneModule_answered :
    let gone : Request := ⟨.parser, "rust", fun _ => false⟩
    let earlier := [gone, ⟨.grammar, "rust", (· == "tree_sitter_rust")⟩, gone,
      ⟨.parser, "cobol", fun _ => true⟩]
    (gone.perform (empty.afterAll [])).answer
        = .error (.grammarNotFound "rust" "pip install tree-sitter-rust") ∧
      (empty.afterAll earlier).grammarNames = ["rust"] ∧
      (empty.afterAll earlier).parserNames = ["rust"] ∧
      (gone.perform (empty.afterAll earlier)).answer = .ok 1 ∧
      Answered earlier gone := by
  intro gone earlier
  exact ⟨rfl, rfl, rfl, rfl, afterAll_answers earlier gone⟩

end Grammars

end SourceMutation
