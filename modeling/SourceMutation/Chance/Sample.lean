import SourceMutation.Chance.Chooser

/-!
# Samples

`k` items of a list, at distinct places, in the order in which they are drawn.

Two ways are used.  From a short list, items are taken out of a pool: a place of the pool is drawn,
and the pool's last item moves there.  From a long list, places are drawn until one comes up that
has not been used.  Which way is taken depends on `k` and on the length alone: a pool is used as
long as it is not larger than a set of `k` items would be.
-/

namespace SourceMutation.Sample

/-- The size of a set of `k` items, for `k` above 5: 4 to the power of `log₄ (3 k)`, rounded up. -/
def setSpace (k : Nat) : Nat :=
  Nat.pow 4 (((List.range (k + 2)).find? fun e => 3 * k ≤ Nat.pow 4 e).getD (k + 2))

/-- The largest pool that is used for `k` items. -/
def poolLimit (k : Nat) : Nat := if 5 < k then 21 + setSpace k else 21

/-! ## From a pool -/

/--
Draws `k` items.  `pool` holds the items that are left, and each draw takes one of them; its place
is filled by the last one.
-/
def fromPool {σ α : Type} [Chooser σ] : (k : Nat) → (pool : List α) → Chance σ (List α)
  | 0, _ => return []
  | k + 1, pool => do
    let i ← Chance.below pool.length
    let item := pool.get i
    let rest :=
      match pool.getLast? with
      | some last => (pool.set i last).dropLast
      | none => []
    return item :: (← fromPool k rest)

/-! ## From unused places -/

/-- Draws places until one is not in `used`, at most `fuel` times. -/
def unusedPlace {σ : Type} [Chooser σ] (size : Nat) (used : List Nat) :
    (fuel : Nat) → Chance σ (Fin size)
  | 0 => throw .unfinished
  | fuel + 1 => do
    let i ← Chance.below size
    if used.contains i.val then unusedPlace size used fuel else return i

/-- Draws `k` items at places that are not in `used`. -/
def fromUnused {σ α : Type} [Chooser σ] (patience : Nat) (items : List α) :
    (k : Nat) → (used : List Nat) → Chance σ (List α)
  | 0, _ => return []
  | k + 1, used => do
    let i ← unusedPlace items.length used patience
    return items.get i :: (← fromUnused patience items k (i.val :: used))

/-! ## Both ways -/

/--
Draws `k` items of a list that has at least as many.  A draw of an unused place gives up after
`patience` places.
-/
def ofList {σ α : Type} [Chooser σ] (patience : Nat) (items : List α) (k : Nat) :
    Chance σ (List α) :=
  if items.length ≤ poolLimit k then fromPool k items
  else fromUnused patience items k []

end SourceMutation.Sample
