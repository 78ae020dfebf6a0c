import SourceMutation.Tree.SyntaxTree

/-!
# Cursors

A cursor stands on one node of a syntax tree and can move to the first child, to the next sibling,
or back up to the parent.  It carries what it needs for that: the siblings on its right, and for
each ancestor the siblings on that one's right.

`Cursor.visit` walks a tree with a cursor and a depth counter, without recursion on the tree, and
collects the nodes it meets.  `Cursor.todo` lists what a walk has still to visit; each move makes
the list shorter by one, so that every walk ends.
-/

namespace SourceMutation

/-- A node, its later siblings, and the same for each of its ancestors, the parent first. -/
structure Cursor where
  /-- The node the cursor stands on. -/
  focus : SyntaxTree
  /-- The later siblings of the node. -/
  right : List SyntaxTree
  /-- The ancestors, the parent first, each with its later siblings. -/
  up : List (SyntaxTree × List SyntaxTree)
  deriving Inhabited

namespace Cursor

/-- A cursor on the top node of a tree. -/
def start (tree : SyntaxTree) : Cursor := ⟨tree, [], []⟩

/-! ## Moves -/

/-- To the first child. -/
def firstChild? (cursor : Cursor) : Option Cursor :=
  match cursor.focus.children with
  | [] => none
  | child :: rest => some ⟨child, rest, (cursor.focus, cursor.right) :: cursor.up⟩

/-- To the next sibling. -/
def nextSibling? (cursor : Cursor) : Option Cursor :=
  match cursor.right with
  | [] => none
  | sibling :: rest => some ⟨sibling, rest, cursor.up⟩

/-- To the parent. -/
def parent? (cursor : Cursor) : Option Cursor :=
  match cursor.up with
  | [] => none
  | (parent, right) :: rest => some ⟨parent, right, rest⟩

/-! ## The way through a tree -/

/--
Climbs from a node whose descendants are all visited to the next node to visit: the next sibling
of the node, or of its nearest ancestor that has one.  `depth` counts the levels below the root;
`none` once the root is reached.
-/
def climb : Nat → Cursor → Option (Nat × Cursor)
  | 0, _ => none
  | depth + 1, cursor =>
    match cursor.nextSibling? with
    | some next => some (depth + 1, next)
    | none =>
      match cursor.parent? with
      | some parent => climb depth parent
      | none => none

/--
Goes on from a node that was just visited: to its first child, or else up to the next node to
visit.  `none` once all nodes are visited.
-/
def advance (depth : Nat) (cursor : Cursor) : Option (Nat × Cursor) :=
  match cursor.firstChild? with
  | some child => some (depth + 1, child)
  | none => climb depth cursor

/-! ## What is still to be visited -/

/-- The nodes that a climb still leads to, in pre-order: those below the later siblings of the
cursor's node and of its ancestors, `depth` levels up. -/
def pending : Nat → Cursor → List Span
  | 0, _ => []
  | depth + 1, cursor =>
    SyntaxTree.preorderAll cursor.right ++
      match cursor.parent? with
      | some parent => pending depth parent
      | none => []

/-- The nodes from the cursor's own on, in pre-order. -/
def todo (depth : Nat) (cursor : Cursor) : List Span :=
  cursor.focus.preorder ++ pending depth cursor

/-- What is to be visited from a place on; nothing once all nodes are visited. -/
def todoFrom : Option (Nat × Cursor) → List Span
  | none => []
  | some (depth, cursor) => todo depth cursor

theorem pending_eq_todoFrom_climb (depth : Nat) (cursor : Cursor) :
    pending depth cursor = todoFrom (climb depth cursor) := by
  induction depth generalizing cursor with
  | zero => rfl
  | succ depth ih =>
    obtain ⟨focus, right, up⟩ := cursor
    cases right with
    | cons sibling rest =>
      simp [pending, climb, nextSibling?, todoFrom, todo, SyntaxTree.preorderAll, parent?]
    | nil =>
      cases up with
      | nil => rfl
      | cons above up => exact ih ⟨above.1, above.2, up⟩

/-- Going on leaves out just the node that was visited. -/
theorem todo_eq_cons (depth : Nat) (cursor : Cursor) :
    todo depth cursor = cursor.focus.span :: todoFrom (advance depth cursor) := by
  obtain ⟨⟨span, children⟩, right, up⟩ := cursor
  cases children with
  | nil =>
    rw [todo, pending_eq_todoFrom_climb]
    rfl
  | cons child rest =>
    simp [todo, advance, firstChild?, todoFrom, pending, parent?, SyntaxTree.children,
      SyntaxTree.span, SyntaxTree.preorder, SyntaxTree.preorderAll]

theorem length_todo_lt_of_advance {depth depth' : Nat} {cursor cursor' : Cursor}
    (h : advance depth cursor = some (depth', cursor')) :
    (todo depth' cursor').length < (todo depth cursor).length := by
  rw [todo_eq_cons depth cursor, h]
  exact Nat.lt_succ_self _

/-! ## The walk -/

/-- Visits the cursor's node and all nodes after it, and collects what `record` makes of each. -/
def visitFrom {α : Type} (record : Span → Option α) (depth : Nat) (cursor : Cursor) : List α :=
  let later :=
    match hnext : advance depth cursor with
    | some (depth', cursor') =>
      have := length_todo_lt_of_advance hnext
      visitFrom record depth' cursor'
    | none => []
  match record cursor.focus.span with
  | some a => a :: later
  | none => later
termination_by (todo depth cursor).length

/-- Visits every node below the root in pre-order and collects what `record` makes of each. -/
def visit {α : Type} (record : Span → Option α) (tree : SyntaxTree) : List α :=
  match (start tree).firstChild? with
  | none => []
  | some first => visitFrom record 1 first

end Cursor

end SourceMutation
