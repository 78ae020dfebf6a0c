import SourceMutation.Corpus
import SourceMutation.Run.Sources
import SourceMutation.Settings

/-!
# The corpus of a directory

The texts of the spans of all files below a directory that are short enough.  Each file is
harvested on its own, in the order of the scan, and the first one that fails ends the pass.
-/

namespace SourceMutation.Run

variable {σ : Type}

/-- What is told of a file that has too many lines. -/
def tooLong (maxLines : Nat) : String := s!"{maxLines} lines or more"

/-- Adds one file to a corpus.  Answers whether the file was short enough. -/
def addFile (tools : Toolchain) (language : Language) (maxLines : Nat) (path : Path)
    (corpus : Corpus) : Run σ (Bool × Corpus) := do
  let text ← readSource path
  if Lines.within text maxLines then
    let harvest ← harvestText tools text language path
    match corpus.addSource harvest with
    | (.error failure, _) => fail failure
    | (.ok added, corpus) =>
      log (.debug s!"Added {added} new snippets from '{path.text}'")
      return (true, corpus)
  else
    log (.debug s!"Skipping '{path.text}' for corpus: {tooLong maxLines}")
    return (false, corpus)

/-- Adds the files that a scan meets, after `used` files. -/
def addVisits (tools : Toolchain) (language : Language) (maxLines : Nat) (directory : Path) :
    List Visit → (used : Nat) → Corpus → Run σ (Nat × Corpus)
  | [], used, corpus => return (used, corpus)
  | visit :: rest, used, corpus => do
    logAll (visitLine? visit).toList
    match visit.file? with
    | none => addVisits tools language maxLines directory rest used corpus
    | some names =>
      let (isUsed, corpus) ← addFile tools language maxLines (directory.below names) corpus
      addVisits tools language maxLines directory rest (if isUsed then used + 1 else used) corpus

/--
The corpus of the files below a directory.  Language, line limit and ignore patterns are given as
values and checked when they are needed.
-/
def buildCorpus (tools : Toolchain) (directory : Path) (language maxLines patterns : Value) :
    Run σ Corpus :=
  traced "build_corpus" do
    let maxLines ← ofExcept (Settings.checkMaxLines maxLines)
    log (.info s!"Building {language.shown} corpus from '{directory.text}'")
    let language ← ofExcept (Grammars.checkLanguage language)
    let rules ← scanRules (.texts language.suffixes) patterns
    let visits ← visits directory rules
    let (used, corpus) ← addVisits tools language maxLines directory visits 0 .empty
    log (.info (s!"Corpus built from {used} files: {corpus.size} kinds, "
      ++ s!"{corpus.snippetCount} snippets"))
    return corpus

end SourceMutation.Run
