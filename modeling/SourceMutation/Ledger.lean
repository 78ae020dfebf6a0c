/-!
# Ledgers

A table that keeps its keys in the order in which they were first entered.  Entering a key again
changes its value and not its place.
-/

namespace SourceMutation

/-- A table with its keys in order of first entry. -/
structure Ledger (κ : Type) (α : Type) where
  /-- The keys and their values, first entry first. -/
  entries : List (κ × α)
  deriving Inhabited

namespace Ledger

variable {κ α : Type} [DecidableEq κ]

/-- The ledger with no keys. -/
def empty : Ledger κ α := ⟨[]⟩

/-- The value under a key. -/
def get? (ledger : Ledger κ α) (key : κ) : Option α :=
  (ledger.entries.find? fun entry => entry.1 = key).map (·.2)

/-- Whether a key has been entered. -/
def contains (ledger : Ledger κ α) (key : κ) : Bool := (ledger.get? key).isSome

/-- The keys, first entry first. -/
def keys (ledger : Ledger κ α) : List κ := ledger.entries.map (·.1)

/-- The values, in the order of their keys. -/
def values (ledger : Ledger κ α) : List α := ledger.entries.map (·.2)

/-- Enters a value in a list of entries. -/
def enter (key : κ) (value : α) : List (κ × α) → List (κ × α)
  | [] => [(key, value)]
  | entry :: rest =>
    if entry.1 = key then (key, value) :: rest else entry :: enter key value rest

/-- Enters a value under a key: in the key's place if it has one, at the end if not. -/
def set (ledger : Ledger κ α) (key : κ) (value : α) : Ledger κ α :=
  ⟨enter key value ledger.entries⟩

/-! ## What entering a value does to the values -/

theorem find?_enter_self (key : κ) (value : α) (entries : List (κ × α)) :
    (enter key value entries).find? (fun entry => entry.1 = key) = some (key, value) := by
  induction entries with
  | nil => simp [enter]
  | cons entry rest ih => by_cases h : entry.1 = key <;> simp [enter, h, ih]

theorem find?_enter_of_ne {key other : κ} (h : other ≠ key) (value : α) (entries : List (κ × α)) :
    (enter key value entries).find? (fun entry => entry.1 = other)
      = entries.find? (fun entry => entry.1 = other) := by
  induction entries with
  | nil => simp [enter, Ne.symm h]
  | cons entry rest ih =>
    by_cases hk : entry.1 = key
    · simp [enter, hk, Ne.symm h]
    · by_cases ho : entry.1 = other <;> simp [enter, hk, ho, h, ih]

/-- A key has the value entered last under it; other keys keep theirs. -/
theorem get?_set (ledger : Ledger κ α) (key other : κ) (value : α) :
    (ledger.set key value).get? other = if other = key then some value else ledger.get? other := by
  by_cases h : other = key
  · subst h
    simp [get?, set, find?_enter_self]
  · simp [get?, set, h, find?_enter_of_ne h]

@[simp] theorem get?_empty (key : κ) : (empty : Ledger κ α).get? key = none := rfl

/-! ## What entering a value does to the keys and to sums -/

/-- The keys are what has a value. -/
theorem mem_keys_iff (ledger : Ledger κ α) (key : κ) :
    key ∈ ledger.keys ↔ (ledger.get? key).isSome := by
  simp [keys, get?]

theorem get?_eq_none_iff {ledger : Ledger κ α} {key : κ} :
    ledger.get? key = none ↔ key ∉ ledger.keys := by
  rw [mem_keys_iff, Option.not_isSome_iff_eq_none]

/-- What is found under a key was entered under it. -/
theorem mem_entries_of_get? {ledger : Ledger κ α} {key : κ} {value : α}
    (h : ledger.get? key = some value) : (key, value) ∈ ledger.entries := by
  obtain ⟨⟨found, _⟩, hfound, rfl⟩ := Option.map_eq_some_iff.mp h
  obtain rfl : found = key := by simpa using List.find?_some hfound
  exact List.mem_of_find?_eq_some hfound

theorem map_fst_enter (key : κ) (value : α) (entries : List (κ × α)) :
    (enter key value entries).map (·.1)
      = if key ∈ entries.map (·.1) then entries.map (·.1) else entries.map (·.1) ++ [key] := by
  induction entries with
  | nil => simp [enter]
  | cons entry rest ih =>
    by_cases hk : entry.1 = key
    · simp [enter, hk]
    · have hkey : key ≠ entry.1 := Ne.symm hk
      simp only [enter, hk, if_false, List.map_cons, ih, List.mem_cons, hkey, false_or]
      split <;> simp

/-- A new key comes last; one that was entered before keeps its place. -/
theorem keys_set (ledger : Ledger κ α) (key : κ) (value : α) :
    (ledger.set key value).keys
      = if key ∈ ledger.keys then ledger.keys else ledger.keys ++ [key] :=
  map_fst_enter key value ledger.entries

theorem sum_map_enter (weigh : α → Nat) (key : κ) (value : α) (entries : List (κ × α)) :
    ((enter key value entries).map fun entry => weigh entry.2).foldr (· + ·) 0
        + (((entries.find? fun entry => entry.1 = key).map (·.2)).map weigh).getD 0
      = (entries.map fun entry => weigh entry.2).foldr (· + ·) 0 + weigh value := by
  induction entries with
  | nil => simp [enter]
  | cons entry rest ih =>
    by_cases hk : entry.1 = key
    · simp [enter, hk]
      omega
    · simp [enter, hk] at ih ⊢
      omega

/-- In a sum over the values, the value under the key gives way to the one entered. -/
theorem sum_values_set (weigh : α → Nat) (ledger : Ledger κ α) (key : κ) (value : α) :
    ((ledger.set key value).values.map weigh).foldr (· + ·) 0
        + ((ledger.get? key).map weigh).getD 0
      = (ledger.values.map weigh).foldr (· + ·) 0 + weigh value := by
  have h := sum_map_enter weigh key value ledger.entries
  simpa [values, set, get?, Function.comp_def] using h

/-! ## Ledgers with distinct keys -/

/-- What was entered under a key is found under it, if each key has one entry. -/
theorem get?_of_mem_entries {ledger : Ledger κ α} (hkeys : ledger.keys.Nodup) {key : κ} {value : α}
    (h : (key, value) ∈ ledger.entries) : ledger.get? key = some value := by
  obtain ⟨entries⟩ := ledger
  induction entries with
  | nil => cases h
  | cons entry rest ih =>
    obtain ⟨hnew, hrest⟩ := List.nodup_cons.mp hkeys
    rcases List.mem_cons.mp h with rfl | hmem
    · simp [get?]
    · have hother : entry.1 ≠ key := by
        rintro rfl
        exact hnew (List.mem_map.mpr ⟨_, hmem, rfl⟩)
      have hfound := ih hrest hmem
      simpa [get?, hother] using hfound

/-- The entries are told by the keys, in order, and by what is found under each. -/
theorem entries_eq_map {ledger : Ledger κ α} (hkeys : ledger.keys.Nodup) (default : α) :
    ledger.entries = ledger.keys.map fun key => (key, (ledger.get? key).getD default) := by
  rw [keys, List.map_map]
  conv => lhs; rw [← List.map_id ledger.entries]
  apply List.map_congr_left
  intro entry hmem
  simp [get?_of_mem_entries hkeys hmem]

theorem values_eq_map {ledger : Ledger κ α} (hkeys : ledger.keys.Nodup) (default : α) :
    ledger.values = ledger.keys.map fun key => (ledger.get? key).getD default := by
  rw [values, entries_eq_map hkeys default, List.map_map]
  rfl

/-- Ledgers with the same keys and the same values under them are the same. -/
theorem eq_of_get?_eq [Inhabited α] {first second : Ledger κ α} (hkeys : first.keys = second.keys)
    (hnodup : first.keys.Nodup) (hvalues : ∀ key, first.get? key = second.get? key) :
    first = second := by
  have hentries : first.entries = second.entries := by
    rw [entries_eq_map hnodup default, entries_eq_map (hkeys ▸ hnodup) default, hkeys]
    simp only [hvalues]
  cases first
  cases second
  exact congrArg mk hentries

end Ledger

end SourceMutation
