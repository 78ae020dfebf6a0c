import SourceMutation.Text.Utf8
import SourceMutation.Tree.Span

/-!
# Syntax trees

An ordered tree of spans, as a parser gives it, and the listing of its nodes in pre-order: a node
before its descendants, and after all of its earlier siblings' descendants.
-/

namespace SourceMutation

/-- A syntax tree: a node and its children, first child first. -/
inductive SyntaxTree where
  | node (span : Span) (children : List SyntaxTree)
  deriving Inhabited

namespace SyntaxTree

/-- The span of a tree's top node. -/
def span : SyntaxTree → Span
  | .node span _ => span

/-- The trees below a tree's top node. -/
def children : SyntaxTree → List SyntaxTree
  | .node _ children => children

mutual

/-- How many nodes a tree has. -/
def size : SyntaxTree → Nat
  | .node _ children => sizeAll children + 1

/-- How many nodes several trees have. -/
def sizeAll : List SyntaxTree → Nat
  | [] => 0
  | tree :: rest => tree.size + sizeAll rest

end

mutual

/-- The nodes of a tree in pre-order. -/
def preorder : SyntaxTree → List Span
  | .node span children => span :: preorderAll children

/-- The nodes of several trees, one tree after another. -/
def preorderAll : List SyntaxTree → List Span
  | [] => []
  | tree :: rest => tree.preorder ++ preorderAll rest

end

/-- The nodes below the top node, in pre-order. -/
def descendants (tree : SyntaxTree) : List Span := preorderAll tree.children

end SyntaxTree

/-- What a parser answers. -/
inductive Parse where
  /-- A tree of the whole source. -/
  | tree (root : SyntaxTree)
  /-- No tree, and no reason. -/
  | nothing
  /-- No tree, and the reason in words. -/
  | refused (reason : String)
  deriving Inhabited

/-- Whether a parser found any node below the top one. -/
def Parse.hasNodes : Parse → Bool
  | .tree root => !root.children.isEmpty
  | _ => false

end SourceMutation
