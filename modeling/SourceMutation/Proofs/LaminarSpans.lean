import Mathlib.Data.List.Chain
import SourceMutation.Proofs.Harvesting

/-!
# Spans of nested trees

In a syntax tree a parser's nodes lie inside one another: each node's extent holds those of its
children, which come one after the other (`SyntaxTree.Nested`).  A harvest keeps this order,
although it leaves out nodes and goes on below them.  Of any two spans that it lists, the later one
lies inside the earlier one or after it, and the starts never go back (`Run.harvest_laminar`).

What is left out for its end is left out with all that holds it.  So the nodes below a listed node
are listed, but those of excluded kinds, and they stand right behind it.
-/

namespace SourceMutation

/-! ## Extents -/

namespace Span

/-- Whether a span has an extent, and that lies inside another's. -/
def Inside (inner outer : Span) : Prop :=
  outer.startByte ≤ inner.startByte ∧ inner.startByte ≤ inner.endByte ∧
    inner.endByte ≤ outer.endByte

instance (inner outer : Span) : Decidable (inner.Inside outer) :=
  inferInstanceAs (Decidable (_ ∧ _ ∧ _))

/-- Whether a span ends before another starts, or where it starts. -/
def Before (first second : Span) : Prop := first.endByte ≤ second.startByte

instance (first second : Span) : Decidable (first.Before second) :=
  inferInstanceAs (Decidable (_ ≤ _))

variable {inner middle outer first second : Span}

theorem Inside.trans (h : inner.Inside middle) (h' : middle.Inside outer) : inner.Inside outer :=
  ⟨Int.le_trans h'.1 h.1, h.2.1, Int.le_trans h.2.2 h'.2.2⟩

/-- What lies inside two spans is before and after as they are. -/
theorem Before.of_inside {left right : Span} (h : first.Before second) (hleft : left.Inside first)
    (hright : right.Inside second) : left.Before right :=
  Int.le_trans hleft.2.2 (Int.le_trans h hright.1)

end Span

/-! ## Nested trees -/

namespace SyntaxTree

/-- Whether each node's extent holds those of its children, and these come one after the other. -/
inductive Nested : SyntaxTree → Prop
  | node {span : Span} {children : List SyntaxTree}
      (hinside : ∀ child ∈ children, child.span.Inside span)
      (hordered : children.IsChain fun first second => first.span.Before second.span)
      (hchildren : ∀ child ∈ children, Nested child) : Nested (.node span children)

theorem nested_iff {span : Span} {children : List SyntaxTree} :
    (node span children).Nested ↔
      (∀ child ∈ children, child.span.Inside span) ∧
        (children.IsChain fun first second => first.span.Before second.span) ∧
        ∀ child ∈ children, child.Nested := by
  constructor
  · rintro ⟨hinside, hordered, hchildren⟩
    exact ⟨hinside, hordered, hchildren⟩
  · rintro ⟨hinside, hordered, hchildren⟩
    exact .node hinside hordered hchildren

/-- Whether a tree is part of another one, below its top node. -/
inductive Below (sub : SyntaxTree) : SyntaxTree → Prop
  | child {span : Span} {children : List SyntaxTree} (hmem : sub ∈ children) :
      Below sub (.node span children)
  | deeper {span : Span} {children : List SyntaxTree} {child : SyntaxTree}
      (hmem : child ∈ children) (hbelow : Below sub child) : Below sub (.node span children)

/-! ### Listings -/

theorem preorder_eq (tree : SyntaxTree) : tree.preorder = tree.span :: tree.descendants := by
  cases tree
  rfl

theorem preorderAll_eq_flatMap (trees : List SyntaxTree) :
    preorderAll trees = trees.flatMap preorder := by
  induction trees with
  | nil => rfl
  | cons tree rest ih => rw [preorderAll, ih, List.flatMap_cons]

theorem descendants_node (span : Span) (children : List SyntaxTree) :
    (node span children).descendants = children.flatMap preorder :=
  preorderAll_eq_flatMap children

variable {tree sub root : SyntaxTree}

/-- A part of a tree is listed in one piece. -/
theorem Below.exists_append (h : sub.Below root) :
    ∃ before after, root.descendants = before ++ sub.preorder ++ after := by
  induction h with
  | child hmem =>
    obtain ⟨front, back, rfl⟩ := List.append_of_mem hmem
    refine ⟨front.flatMap preorder, back.flatMap preorder, ?_⟩
    rw [descendants_node, List.flatMap_append, List.flatMap_cons, List.append_assoc]
  | deeper hmem _ ih =>
    rename_i child _
    obtain ⟨front, back, rfl⟩ := List.append_of_mem hmem
    obtain ⟨before, after, hpart⟩ := ih
    refine ⟨front.flatMap preorder ++ child.span :: before, after ++ back.flatMap preorder, ?_⟩
    rw [descendants_node, List.flatMap_append, List.flatMap_cons, preorder_eq child, hpart]
    simp

theorem Below.mem_descendants (h : sub.Below root) : sub.span ∈ root.descendants := by
  obtain ⟨before, after, hpart⟩ := h.exists_append
  rw [hpart, preorder_eq]
  simp

/-! ### Extents in a nested tree

A listing goes through a tree from a node to what is below it.  So a later span lies inside an
earlier one or behind it, and never around it.
-/

theorem Nested.of_below (hroot : root.Nested) (h : sub.Below root) : sub.Nested := by
  induction h with
  | child hmem =>
    cases hroot with
    | node _ _ hchildren => exact hchildren _ hmem
  | deeper hmem _ ih =>
    cases hroot with
    | node _ _ hchildren => exact ih (hchildren _ hmem)

/-- Everything below a node lies inside it. -/
theorem Nested.inside (h : tree.Nested) : ∀ span ∈ tree.descendants, span.Inside tree.span := by
  induction h with
  | node hinside _ _ ih =>
    intro span hmem
    rw [descendants_node] at hmem
    obtain ⟨child, hchild, hmem⟩ := List.mem_flatMap.mp hmem
    rw [preorder_eq] at hmem
    rcases List.mem_cons.mp hmem with rfl | hdeeper
    · exact hinside child hchild
    · exact (ih child hchild span hdeeper).trans (hinside child hchild)

/-- So a child and everything below it lies inside a span that the child lies inside. -/
theorem Nested.inside_of_mem_preorder {span outer : Span} (h : tree.Nested)
    (houter : tree.span.Inside outer) (hmem : span ∈ tree.preorder) : span.Inside tree.span := by
  rw [preorder_eq] at hmem
  rcases List.mem_cons.mp hmem with rfl | hdeeper
  · exact ⟨Int.le_refl _, houter.2.1, Int.le_refl _⟩
  · exact h.inside span hdeeper

/-- Siblings that come one after the other are before all later ones. -/
theorem pairwise_before {span : Span} {children : List SyntaxTree}
    (hinside : ∀ child ∈ children, child.span.Inside span)
    (hordered : children.IsChain fun first second => first.span.Before second.span) :
    children.Pairwise fun first second => first.span.Before second.span := by
  induction children with
  | nil => exact .nil
  | cons child rest ih =>
    obtain ⟨hfirst, hrest⟩ := List.isChain_cons.mp hordered
    have hlater := ih (fun other hmem => hinside other (List.mem_cons_of_mem _ hmem)) hrest
    refine List.pairwise_cons.mpr ⟨fun other hother => ?_, hlater⟩
    cases rest with
    | nil => cases hother
    | cons second others =>
      have hsecond := hfirst second rfl
      rcases List.mem_cons.mp hother with rfl | hfar
      · exact hsecond
      · -- The second one has an extent, and what comes after that comes after the first one, too.
        have hextent := (hinside second (by simp)).2.1
        have hafter := (List.pairwise_cons.mp hlater).1 other hfar
        exact Int.le_trans hsecond (Int.le_trans hextent hafter)

/-- Of two nodes below the root, the later one lies inside the earlier one or after it. -/
theorem Nested.pairwise (h : tree.Nested) :
    tree.descendants.Pairwise fun earlier later =>
      later.Inside earlier ∨ earlier.Before later := by
  induction h with
  | node hinside hordered hchildren ih =>
    rw [descendants_node, List.pairwise_flatMap]
    constructor
    · intro child hchild
      rw [preorder_eq, List.pairwise_cons]
      exact ⟨fun span hmem => .inl ((hchildren child hchild).inside span hmem), ih child hchild⟩
    · -- The extents of two siblings are apart, and so is what lies inside them.
      refine (pairwise_before hinside hordered).imp_of_mem ?_
      intro first second hfirst hsecond hbefore left hleft right hright
      exact .inr (hbefore.of_inside
        ((hchildren first hfirst).inside_of_mem_preorder (hinside first hfirst) hleft)
        ((hchildren second hsecond).inside_of_mem_preorder (hinside second hsecond) hright))

end SyntaxTree

/-! ## Harvests of nested trees -/

namespace Harvest

variable {text : String} {root sub : SyntaxTree}

/-- Of a node that is listed, all nodes below it are listed but those of excluded kinds. -/
theorem filter_records_preorder (hsub : sub.Nested) (hrecords : Records text.length sub.span) :
    sub.preorder.filter (fun span => Records text.length span)
      = sub.span :: sub.descendants.filter fun span => span.kind ∉ excludedKinds := by
  rw [SyntaxTree.preorder_eq, List.filter_cons, if_pos (decide_eq_true hrecords)]
  congr 1
  refine List.filter_congr fun span hmem => decide_eq_decide.mpr ?_
  -- It ends with the node at the latest, and so within the characters of the text.
  have hend := (hsub.inside span hmem).2.2
  exact and_iff_left (Int.le_trans hend hrecords.2)

/-- What is known of the spans of a nested tree, for a text. -/
structure Laminar (found : Harvest) (root : SyntaxTree) (text : String) : Prop where
  /-- The starts never go back. -/
  starts : found.spans.Pairwise fun earlier later => earlier.startByte ≤ later.startByte
  /-- A later span lies inside an earlier one or after it. -/
  apart : found.spans.Pairwise fun earlier later => later.Inside earlier ∨ earlier.Before later
  /-- A listed node is followed by all nodes below it, but those of excluded kinds. -/
  whole : ∀ sub : SyntaxTree, sub.Below root → sub.span ∈ found.spans →
    ∃ before after, root.descendants = before ++ sub.preorder ++ after ∧
      found.spans = before.filter (fun span => Records text.length span)
        ++ sub.span :: sub.descendants.filter (fun span => span.kind ∉ excludedKinds)
        ++ after.filter (fun span => Records text.length span)
  /-- A node of a kind that is not excluded is only left out if all nodes above it are. -/
  lost : ∀ outer inner : SyntaxTree, outer.Below root → inner.Below outer →
    inner.span.kind ∉ excludedKinds → inner.span ∉ found.spans → outer.span ∉ found.spans

/-- The harvest of a nested tree is laminar. -/
theorem laminar_of_nested {found : Harvest} (hnested : root.Nested)
    (hspans : found.spans = spansOf text root) : found.Laminar root text := by
  have hapart : found.spans.Pairwise fun earlier later =>
      later.Inside earlier ∨ earlier.Before later := by
    rw [hspans]
    exact hnested.pairwise.filter _
  have hextent : ∀ span ∈ found.spans, span.startByte ≤ span.endByte := by
    intro span hmem
    rw [hspans] at hmem
    exact (hnested.inside span (List.mem_filter.mp hmem).1).2.1
  have hwhole : ∀ sub : SyntaxTree, sub.Below root → sub.span ∈ found.spans →
      ∃ before after, root.descendants = before ++ sub.preorder ++ after ∧
        found.spans = before.filter (fun span => Records text.length span)
          ++ sub.span :: sub.descendants.filter (fun span => span.kind ∉ excludedKinds)
          ++ after.filter (fun span => Records text.length span) := by
    intro sub hbelow hlisted
    rw [hspans] at hlisted ⊢
    obtain ⟨before, after, hpart⟩ := hbelow.exists_append
    have hrecords := of_decide_eq_true (List.mem_filter.mp hlisted).2
    refine ⟨before, after, hpart, ?_⟩
    rw [spansOf, hpart, List.filter_append, List.filter_append,
      filter_records_preorder (hnested.of_below hbelow) hrecords]
  refine ⟨?_, hapart, hwhole, ?_⟩
  · -- A span that lies after another one starts where that ends, and so not before its start.
    refine hapart.imp_of_mem fun {earlier later} hearlier _ h => ?_
    rcases h with hinside | hbefore
    · exact hinside.1
    · exact Int.le_trans (hextent earlier hearlier) hbefore
  · intro outer inner houter hinner hkind hlost hlisted
    obtain ⟨before, after, -, hall⟩ := hwhole outer houter hlisted
    have hbelow : inner.span ∈ outer.descendants.filter fun span => span.kind ∉ excludedKinds :=
      List.mem_filter.mpr ⟨hinner.mem_descendants, decide_eq_true hkind⟩
    apply hlost
    rw [hall]
    exact List.mem_append_left _ (List.mem_append_right _ (List.mem_cons_of_mem _ hbelow))

end Harvest

namespace Run

variable {σ : Type}

/--
Harvesting a text whose parser can be loaded and has a nested tree for it.  The spans that are
listed start one after the other, and of any two of them the later one lies inside the earlier one
or after it.  The nodes below a listed one are listed, but those of excluded kinds.
-/
theorem harvest_laminar {tools : Toolchain} {language : Language} {bytes : Bytes} {text : String}
    {root : SyntaxTree} {handle : Handle} {world : World σ}
    (htext : Utf8.decode bytes = .ok text)
    (hparser : (Grammars.parser tools.installed language world.grammars).answer = .ok handle)
    (hparse : tools.parse language bytes = .tree root) (hnested : root.Nested)
    (path : Option String) :
    ∃ found, (harvest tools bytes (.text language.name) path world).1 = .ok found ∧
      found.Laminar root text :=
  ⟨_, harvest_of_tree htext hparser hparse path, Harvest.laminar_of_nested hnested rfl⟩

/-- A tree for the source `é(x)`: a call that ends past the fourth of the four characters, like the
list of its arguments; a path with a name of the same extent, both of two bytes; brackets; and a
place where an argument is missing. -/
def callTree : SyntaxTree :=
  .node ⟨"source_file", 0, 5, ⟨0, 0⟩, ⟨0, 5⟩⟩ [
    .node ⟨"call", 0, 5, ⟨0, 0⟩, ⟨0, 5⟩⟩ [
      .node ⟨"path", 0, 2, ⟨0, 0⟩, ⟨0, 2⟩⟩ [.node ⟨"name", 0, 2, ⟨0, 0⟩, ⟨0, 2⟩⟩ []],
      .node ⟨"arguments", 2, 5, ⟨0, 2⟩, ⟨0, 5⟩⟩ [
        .node ⟨"(", 2, 3, ⟨0, 2⟩, ⟨0, 3⟩⟩ [],
        .node ⟨"name", 3, 4, ⟨0, 3⟩, ⟨0, 4⟩⟩ [],
        .node ⟨"missing", 4, 4, ⟨0, 4⟩, ⟨0, 4⟩⟩ [],
        .node ⟨")", 4, 5, ⟨0, 4⟩, ⟨0, 5⟩⟩ []]]]

/-- A parser that always returns that tree. -/
def callTools : Toolchain := ⟨fun _ => true, fun _ _ => .tree callTree, 0⟩

/-- Harvesting `é(x)` with that tree leaves out the call and the arguments, and lists the four nodes
in them that are not brackets. -/
theorem harvest_laminar_callTree :
    callTree.Nested ∧
      ∃ found, (harvest callTools [0xC3, 0xA9, 0x28, 0x78, 0x29] (.text Language.rust.name) none
          (World.fresh default () .empty)).1 = .ok found ∧
        found.Laminar callTree "é(x)" ∧
        found.spans.map (fun span => (span.kind, span.startByte, span.endByte))
          = [("path", 0, 2), ("name", 0, 2), ("name", 3, 4), ("missing", 4, 4)] := by
  -- Each child lies within its parent and behind the child before it.
  have hnested : callTree.Nested := by
    simp [callTree, SyntaxTree.nested_iff, SyntaxTree.span, Span.Inside, Span.Before]
  have htext : Utf8.decode [0xC3, 0xA9, 0x28, 0x78, 0x29] = .ok "é(x)" :=
    Utf8.decode_eq_ok_iff.mpr (by decide)
  have hparser : (Grammars.parser callTools.installed .rust
      (World.fresh default () .empty).grammars).answer = .ok 1 := rfl
  have hparse : callTools.parse .rust [0xC3, 0xA9, 0x28, 0x78, 0x29] = .tree callTree := rfl
  obtain ⟨found, hfound, hlaminar⟩ := harvest_laminar htext hparser hparse hnested none
  refine ⟨hnested, found, hfound, hlaminar, ?_⟩
  rw [harvest_of_tree htext hparser hparse none] at hfound
  cases hfound
  decide +kernel

end Run

end SourceMutation
