import SourceMutation.Proofs.Effects

/-!
# What a harvest comes to

`Run.harvest_lists_descendants` says what harvesting comes to where the parser can be loaded and has
a tree, `Run.harvest_eq_ok` what is known of any harvest that returned.  The loop over cursors was
dealt with before; here it meets the run that it is part of.
-/

namespace SourceMutation

variable {σ : Type}

/-- Under its own name a language is given its own parser. -/
theorem Grammars.askParser_name (installed : Language → Bool) (language : Language)
    (kept : Grammars) :
    askParser installed (.text language.name) kept = parser installed language kept := by
  rw [askParser_eq, ofValue, checkLanguage_name]

namespace Run

/-- A harvest that returned is that of the source's tree. -/
theorem harvest_eq_ok {tools : Toolchain} {language : Language} {bytes : Bytes}
    {path : Option String} {world world' : World σ} {found : Harvest}
    (h : harvest tools bytes (.text language.name) path world = (.ok found, world')) :
    ∃ root text, tools.parse language bytes = .tree root ∧ Utf8.decode bytes = .ok text ∧
      found = ⟨bytes, Harvest.spansOf text root, path, language.name⟩ := by
  rw [harvest, Grammars.checkLanguage_name] at h
  dsimp only at h
  obtain ⟨⟨⟩, loaded, -, hrest⟩ := Chance.bind_eq_ok.mp h
  obtain ⟨checked, hchecked, hrest⟩ := ofExcept_bind_eq_ok.mp hrest
  cases hchecked
  obtain ⟨parsed, hparsed, hrest⟩ := ofExcept_bind_eq_ok.mp hrest
  -- What is logged about the harvest does not change it.
  have hfound : parsed = found := by
    split at hrest <;>
    · cases hrest
      rfl
  exact Harvest.ofParse_eq_ok_iff.mp (hfound ▸ hparsed)

/-- A text is harvested if its parser can be loaded and has a tree for it. -/
theorem harvest_of_tree {tools : Toolchain} {language : Language} {bytes : Bytes} {text : String}
    {root : SyntaxTree} {handle : Handle} {world : World σ}
    (htext : Utf8.decode bytes = .ok text)
    (hparser : (Grammars.parser tools.installed language world.grammars).answer = .ok handle)
    (hparse : tools.parse language bytes = .tree root) (path : Option String) :
    (harvest tools bytes (.text language.name) path world).1
      = .ok ⟨bytes, Harvest.spansOf text root, path, language.name⟩ := by
  have hharvest : Harvest.ofParse bytes language.name path (tools.parse language bytes)
      = .ok ⟨bytes, Harvest.spansOf text root, path, language.name⟩ :=
    Harvest.ofParse_eq_ok_iff.mpr ⟨root, text, hparse, htext, rfl⟩
  -- The parser is loaded, its language is known, and then there is only the parse to use.
  rw [harvest, Grammars.checkLanguage_name, Chance.bind_apply, loadParser_apply,
    Grammars.askParser_name, hparser]
  dsimp only
  rw [Chance.bind_apply, ofExcept_ok_apply]
  dsimp only
  rw [hharvest, Chance.bind_apply, ofExcept_ok_apply]
  dsimp only
  split <;> rfl

/--
Harvesting a text whose parser can be loaded and has a tree for it.  The cursor stands on each node
below the root in turn, in pre-order, and on none after the last one; recorded are those that are
not excluded and end within the characters of the text.
-/
theorem harvest_lists_descendants {tools : Toolchain} {language : Language} {bytes : Bytes}
    {text : String} {root : SyntaxTree} {handle : Handle} {world : World σ}
    (htext : Utf8.decode bytes = .ok text)
    (hparser : (Grammars.parser tools.installed language world.grammars).answer = .ok handle)
    (hparse : tools.parse language bytes = .tree root) (path : Option String) :
    (∀ n, (Cursor.placeAfter root n).map (fun place => place.2.focus.span)
        = root.descendants[n]?) ∧
      Cursor.placeAfter root root.descendants.length = none ∧
      (harvest tools bytes (.text language.name) path world).1 =
        .ok {
          bytes, path
          spans := root.descendants.filter fun span =>
            span.kind ∉ Harvest.excludedKinds ∧ span.endByte ≤ text.length
          language := language.name } := by
  refine ⟨Cursor.placeAfter_eq_getElem? root, ?_, harvest_of_tree htext hparser hparse path⟩
  -- There is no place behind the last descendant.
  have hplace := Cursor.placeAfter_eq_getElem? root root.descendants.length
  rw [List.getElem?_eq_none (Nat.le_refl _)] at hplace
  exact Option.map_eq_none_iff.mp hplace

/-- A tree for the source `é;`, in which an excluded node and one that ends past the second of the
two characters have nodes below them. -/
def accentTree : SyntaxTree :=
  .node ⟨"source_file", 0, 3, ⟨0, 0⟩, ⟨0, 3⟩⟩ [
    .node ⟨"line_comment", 0, 2, ⟨0, 0⟩, ⟨0, 2⟩⟩ [.node ⟨"identifier", 0, 2, ⟨0, 0⟩, ⟨0, 2⟩⟩ []],
    .node ⟨"statement", 0, 3, ⟨0, 0⟩, ⟨0, 3⟩⟩ [.node ⟨"empty", 2, 2, ⟨0, 2⟩, ⟨0, 2⟩⟩ []]]

/-- Harvesting `é;` with that tree records the two nodes at the bottom. -/
theorem harvest_lists_accentTree :
    (harvest ⟨fun _ => true, fun _ _ => .tree accentTree, 0⟩ [0xC3, 0xA9, 0x3B]
        (.text Language.rust.name) none (World.fresh default () .empty)).1
      = .ok ⟨[0xC3, 0xA9, 0x3B], [⟨"identifier", 0, 2, ⟨0, 0⟩, ⟨0, 2⟩⟩,
          ⟨"empty", 2, 2, ⟨0, 2⟩, ⟨0, 2⟩⟩], none, "rust"⟩ := by
  have hspans : (accentTree.descendants.filter fun span =>
      span.kind ∉ Harvest.excludedKinds ∧ span.endByte ≤ ("é;".length : Int))
        = [⟨"identifier", 0, 2, ⟨0, 0⟩, ⟨0, 2⟩⟩, ⟨"empty", 2, 2, ⟨0, 2⟩, ⟨0, 2⟩⟩] := by
    decide +kernel
  rw [← hspans]
  exact (harvest_lists_descendants (Utf8.decode_eq_ok_iff.mpr (by decide)) rfl rfl none).2.2

end Run

end SourceMutation
