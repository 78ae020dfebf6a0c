import SourceMutation.Proofs.Decoding
import SourceMutation.Run.Sources

/-!
# Harvests list the nodes below the root in pre-order

The walk of a cursor is a loop over moves, with a counter for the depth and no recursion on the
tree.  Here it is compared with the recursive listing `SyntaxTree.descendants`:

- `placeAfter_eq_getElem?`: after `n` moves the cursor stands on the `n`-th node below the root,
  and the walk has ended once there is no such node;
- `visit_eq_filterMap`: what a walk collects is what is recorded of the listing.

The invariant is `Cursor.todo`, the nodes that a walk has still to visit from where it stands.
-/

namespace SourceMutation

namespace Cursor

variable {α : Type}

/-! ## The places of a walk -/

/-- Where a walk stands after a number of moves: its depth and its cursor; `none` once it has
ended. -/
def placeAfter (tree : SyntaxTree) : Nat → Option (Nat × Cursor)
  | 0 => (start tree).firstChild?.map fun first => (1, first)
  | n + 1 => (placeAfter tree n).bind fun place => advance place.1 place.2

/-- From its first place a walk has all nodes below the root to visit. -/
theorem todoFrom_placeAfter_zero (tree : SyntaxTree) :
    todoFrom (placeAfter tree 0) = tree.descendants := by
  obtain ⟨span, children⟩ := tree
  cases children with
  | nil => rfl
  | cons child rest =>
    simp [placeAfter, start, firstChild?, SyntaxTree.children, todoFrom, todo, pending, parent?,
      SyntaxTree.descendants, SyntaxTree.preorderAll]

/-- Each move leaves out the first of the nodes to visit. -/
theorem todoFrom_placeAfter (tree : SyntaxTree) (n : Nat) :
    todoFrom (placeAfter tree n) = tree.descendants.drop n := by
  induction n with
  | zero => rw [todoFrom_placeAfter_zero, List.drop_zero]
  | succ n ih =>
    rw [placeAfter, ← List.drop_drop, ← ih]
    cases placeAfter tree n with
    | none => rfl
    | some place =>
      rw [todoFrom, todo_eq_cons]
      rfl

theorem head?_todoFrom (place : Option (Nat × Cursor)) :
    (todoFrom place).head? = place.map fun at' => at'.2.focus.span := by
  cases place with
  | none => rfl
  | some place =>
    rw [todoFrom, todo_eq_cons]
    rfl

/-- After `n` moves a walk stands on the `n`-th node below the root, if there is one. -/
theorem placeAfter_eq_getElem? (tree : SyntaxTree) (n : Nat) :
    (placeAfter tree n).map (fun place => place.2.focus.span) = tree.descendants[n]? := by
  rw [← head?_todoFrom, todoFrom_placeAfter, List.head?_drop]

/-! ## What a walk collects -/

/-- A visit collects what is recorded of the node, and then what the later visits collect. -/
theorem visitFrom_eq (record : Span → Option α) (depth : Nat) (cursor : Cursor) :
    visitFrom record depth cursor = (record cursor.focus.span).toList ++
      (advance depth cursor).elim [] fun place => visitFrom record place.1 place.2 := by
  rw [visitFrom]
  cases record cursor.focus.span with
  | none =>
    dsimp only
    split <;> simp [*]
  | some a =>
    dsimp only
    split <;> simp [*]

theorem visitFrom_eq_filterMap (record : Span → Option α) (depth : Nat) (cursor : Cursor) :
    visitFrom record depth cursor = (todo depth cursor).filterMap record := by
  -- Each visit leaves fewer nodes to visit, which is also why the walk ends.
  induction hn : (todo depth cursor).length using Nat.strongRecOn generalizing depth cursor with
  | ind n ih =>
    have hlater : (advance depth cursor).elim [] (fun place => visitFrom record place.1 place.2)
        = (todoFrom (advance depth cursor)).filterMap record := by
      cases hnext : advance depth cursor with
      | none => rfl
      | some place =>
        exact ih _ (hn ▸ length_todo_lt_of_advance hnext) place.1 place.2 rfl
    rw [visitFrom_eq, hlater, todo_eq_cons, List.filterMap_cons]
    cases record cursor.focus.span <;> rfl

/-- A walk collects what is recorded of the nodes below the root, in pre-order. -/
theorem visit_eq_filterMap (record : Span → Option α) (tree : SyntaxTree) :
    visit record tree = tree.descendants.filterMap record := by
  rw [visit, ← todoFrom_placeAfter_zero, placeAfter]
  -- A root without children has no first place, and the listing is empty, too.
  cases (start tree).firstChild? with
  | none => rfl
  | some first => exact visitFrom_eq_filterMap record 1 first

end Cursor

/-! ## Harvests -/

namespace Harvest

/-- Whether a harvest of a source with this many characters lists a node. -/
def Records (characters : Nat) (span : Span) : Prop :=
  span.kind ∉ excludedKinds ∧ span.endByte ≤ characters

instance (characters : Nat) (span : Span) : Decidable (Records characters span) :=
  inferInstanceAs (Decidable (_ ∧ _))

theorem record_eq_guard (characters : Nat) (span : Span) :
    record characters span = if Records characters span then some span else none := by
  by_cases hkind : span.kind ∈ excludedKinds
  · simp [record, Records, hkind]
  · by_cases hend : span.endByte ≤ characters
    · simp [record, Records, hkind, hend, Int.not_lt.mpr hend]
    · simp [record, Records, hkind, hend, Int.not_le.mp hend]

/-- The spans of a harvested tree. -/
def spansOf (text : String) (root : SyntaxTree) : List Span :=
  root.descendants.filter fun span => Records text.length span

theorem visit_record (text : String) (root : SyntaxTree) :
    Cursor.visit (record text.length) root = spansOf text root := by
  rw [Cursor.visit_eq_filterMap, spansOf, ← List.filterMap_eq_filter]
  congr 1
  funext span
  rw [record_eq_guard]
  by_cases h : Records text.length span <;> simp [h, Option.guard]

/-- A source can be harvested exactly if it has a tree and is a text. -/
theorem ofParse_eq_ok_iff {bytes : Bytes} {language : String} {path : Option String}
    {parse : Parse} {harvest : Harvest} :
    ofParse bytes language path parse = .ok harvest ↔
      ∃ root text, parse = .tree root ∧ Utf8.decode bytes = .ok text ∧
        harvest = ⟨bytes, spansOf text root, path, language⟩ := by
  cases parse with
  | refused reason => simp [ofParse]
  | nothing => simp [ofParse]
  | tree root =>
    cases htext : Utf8.decode bytes with
    | error fault =>
      have hfailed : ofParse bytes language path (.tree root) = .error (.decoding fault) := by
        simp only [ofParse, htext]
        rfl
      simp [hfailed]
    -- The cursor records the spans of the descendants in order.
    | ok text =>
      have hfound : ofParse bytes language path (.tree root)
          = .ok ⟨bytes, spansOf text root, path, language⟩ := by
        simp only [ofParse, htext, ← visit_record]
        rfl
      simp [hfound, eq_comm]

end Harvest

end SourceMutation
