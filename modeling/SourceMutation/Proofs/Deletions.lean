import Mathlib.Data.List.FinRange
import SourceMutation.Proofs.Boundaries
import SourceMutation.Proofs.OwnTexts

/-!
# Deletions

A deletion takes one span with a text out of its source.  Spans are told apart by their places,
since several of them may cover the same bytes and have the same kind.

- A sample has its items from distinct places, whichever way it is drawn and whatever numbers come
  up (`Sample.exists_labels`): from a pool from which what was drawn is taken out, or by places that
  were not used before.
- A mutant lacks a span if its text is that of the source without the bytes of the span
  (`Deletion.Lacks`).  Its bytes are as many less as the span has.
- So asked for all mutants, the pass deletes every span that has a text, once and in order; asked
  for some, it deletes spans at as many distinct places, or at all of them in another order if there
  are no more (`Deletion.deletes_of_boundaries`).
-/

namespace SourceMutation

variable {σ α ι : Type}

/-! ## Places of a sample

A sample is drawn from a pool or by unused places.  In both ways no place comes up twice, although
equal spans may stand at different places.
-/

namespace Sample

/-- What is left of a pool when the item at a place is taken and the last one moves there. -/
def leftOver (pool : List α) (place : Nat) : List α :=
  match pool.getLast? with
  | some last => (pool.set place last).dropLast
  | none => []

theorem leftOver_map (f : ι → α) (labels : List ι) (place : Nat) :
    leftOver (labels.map f) place = (leftOver labels place).map f := by
  unfold leftOver
  rw [List.getLast?_map]
  cases labels.getLast? with
  | none => rfl
  | some last => rw [Option.map_some, List.map_dropLast, List.map_set]

/-- The item that is taken and those that are left make up the pool. -/
theorem perm_leftOver {pool : List α} {place : Nat} (h : place < pool.length) :
    (pool[place] :: leftOver pool place).Perm pool := by
  obtain rfl | ⟨front, last, rfl⟩ := List.eq_nil_or_concat' pool
  · exact absurd h (Nat.not_lt_zero place)
  have hleft : leftOver (front ++ [last]) place
      = ((front ++ [last]).set place last).dropLast := by
    rw [leftOver, List.getLast?_concat]
  rw [hleft]
  rcases Nat.lt_or_ge place front.length with hlt | hle
  · rw [List.set_append_left _ _ hlt, List.dropLast_concat, List.getElem_append_left hlt]
    calc (front[place] :: front.set place last).Perm
          (front[place] :: last :: front.eraseIdx place) :=
        (List.set_perm_cons_eraseIdx hlt last).cons _
      List.Perm _ (last :: front[place] :: front.eraseIdx place) := .swap _ _ _
      List.Perm _ (last :: front) := (List.getElem_cons_eraseIdx_perm hlt).cons _
      List.Perm _ (front ++ [last]) := (List.perm_append_singleton last front).symm
  · -- The last item itself is taken.
    obtain rfl : place = front.length := by
      rw [List.length_append, List.length_singleton] at h
      omega
    rw [List.getElem_concat_length rfl, List.set_append_right _ _ (Nat.le_refl _), Nat.sub_self,
      List.set_cons_zero, List.dropLast_concat]
    exact (List.perm_append_singleton last front).symm

variable [Chooser σ] {f : ι → α} {labels : List ι} {drawn : List α} {patience k : Nat}
  {state state' : σ}

/-- What is drawn from a pool was in it, each item once. -/
theorem subperm_of_fromPool
    (h : (fromPool k (labels.map f) : Chance σ (List α)) state = (.ok drawn, state')) :
    ∃ chosen : List ι, chosen.Subperm labels ∧ drawn = chosen.map f := by
  induction k generalizing labels drawn state with
  | zero =>
    cases h
    exact ⟨[], List.nil_subperm, rfl⟩
  | succ k ih =>
    obtain ⟨i, between, -, h⟩ := Chance.bind_eq_ok.mp h
    obtain ⟨others, last, hothers, hlast⟩ := Chance.bind_eq_ok.mp h
    cases hlast
    -- The first place is drawn, and the others are drawn from what is left over.
    change fromPool k (leftOver (labels.map f) i) between = _ at hothers
    rw [leftOver_map] at hothers
    obtain ⟨chosen, hchosen, rfl⟩ := ih hothers
    have hi : i.val < labels.length := by simpa using i.isLt
    refine ⟨labels[i.val] :: chosen, ?_, ?_⟩
    · exact ((List.subperm_cons _).mpr hchosen).trans (perm_leftOver hi).subperm
    · simp

theorem not_mem_of_unusedPlace {size fuel : Nat} {used : List Nat} {place : Fin size}
    (h : (unusedPlace size used fuel : Chance σ (Fin size)) state = (.ok place, state')) :
    place.val ∉ used := by
  induction fuel generalizing state with
  | zero => cases h
  | succ fuel ih =>
    obtain ⟨i, between, -, h⟩ := Chance.bind_eq_ok.mp h
    split at h
    case isTrue => exact ih h
    case isFalse hfree =>
      cases h
      simpa using hfree

/-- What is drawn from unused places comes from distinct ones, and from none that was used
before. -/
theorem labels_of_fromUnused {used : List Nat} (hlabels : labels.Nodup)
    (h : (fromUnused patience (labels.map f) k used : Chance σ (List α)) state
      = (.ok drawn, state')) :
    ∃ chosen : List ι, chosen.Nodup ∧ chosen ⊆ labels ∧
      (∀ (place : Nat) (hplace : place < labels.length), place ∈ used →
        labels[place] ∉ chosen) ∧ drawn = chosen.map f := by
  induction k generalizing used drawn state with
  | zero =>
    cases h
    exact ⟨[], .nil, List.nil_subset _, fun _ _ _ => List.not_mem_nil, rfl⟩
  | succ k ih =>
    obtain ⟨i, between, hplace, h⟩ := Chance.bind_eq_ok.mp h
    obtain ⟨others, last, hothers, hlast⟩ := Chance.bind_eq_ok.mp h
    cases hlast
    have hfresh := not_mem_of_unusedPlace hplace
    obtain ⟨chosen, hnodup, hsub, havoids, rfl⟩ := ih hothers
    have hi : i.val < labels.length := by simpa using i.isLt
    refine ⟨labels[i.val] :: chosen, ?_, ?_, ?_, by simp⟩
    · exact List.nodup_cons.mpr ⟨havoids i hi List.mem_cons_self, hnodup⟩
    · exact List.cons_subset.mpr ⟨List.getElem_mem hi, hsub⟩
    · intro place hlt hused hmem
      rcases List.mem_cons.mp hmem with heq | hmem
      · -- The place that was drawn had not been used.
        rw [hlabels.getElem_inj_iff] at heq
        exact hfresh (heq ▸ hused)
      · exact havoids place hlt (List.mem_cons_of_mem _ hused) hmem

/-- The items of a sample bear distinct labels, if those of the list do. -/
theorem exists_labels (hlabels : labels.Nodup)
    (h : (ofList patience (labels.map f) k : Chance σ (List α)) state = (.ok drawn, state')) :
    ∃ chosen : List ι, chosen.Nodup ∧ chosen ⊆ labels ∧ drawn = chosen.map f := by
  rw [ofList] at h
  split at h
  · obtain ⟨chosen, hchosen, rfl⟩ := subperm_of_fromPool h
    obtain ⟨arranged, hperm, hsub⟩ := hchosen
    exact ⟨chosen, hperm.nodup (hlabels.sublist hsub),
      List.Subset.trans hperm.symm.subset hsub.subset, rfl⟩
  · obtain ⟨chosen, hnodup, hsub, -, rfl⟩ := labels_of_fromUnused hlabels h
    exact ⟨chosen, hnodup, hsub, rfl⟩

end Sample

/-! ## Places of spans -/

namespace Harvest

/-- The places of the spans that have a text to delete, in order. -/
def deletablePlaces (harvest : Harvest) : List (Fin harvest.spans.length) :=
  (List.finRange harvest.spans.length).filter fun place => 0 < (harvest.spans.get place).length

variable {harvest : Harvest} {text : String}

theorem nodup_deletablePlaces (harvest : Harvest) : harvest.deletablePlaces.Nodup :=
  (List.nodup_finRange _).filter _

theorem mem_deletablePlaces {place : Fin harvest.spans.length} :
    place ∈ harvest.deletablePlaces ↔ 0 < (harvest.spans.get place).length := by
  simp [deletablePlaces]

/-- The spans that a deletion may take are those at these places. -/
theorem spans_eq_map (harvest : Harvest) :
    Deletion.spans harvest = harvest.deletablePlaces.map harvest.spans.get := by
  conv_lhs => rw [Deletion.spans, ← List.map_get_finRange harvest.spans, List.filter_map]
  rfl

theorem length_deletablePlaces (harvest : Harvest) :
    harvest.deletablePlaces.length = harvest.deletable := by
  rw [deletable, List.countP_eq_length_filter, ← List.length_map harvest.spans.get,
    ← harvest.spans_eq_map]
  rfl

/-- A span with a text lies between characters if its ends do. -/
theorem cuts_of_mem_deletablePlaces {place : Fin harvest.spans.length}
    (hboundaries : ∀ span ∈ harvest.spans, span.OnBoundaries text)
    (hplace : place ∈ harvest.deletablePlaces) : (harvest.spans.get place).Cuts text := by
  apply (hboundaries _ (List.get_mem _ _)).cuts
  have hlength := mem_deletablePlaces.mp hplace
  rw [Span.length] at hlength
  omega

end Harvest

/-! ## Mutants that lack a span -/

namespace Mutant

/-- A mutant without its number. -/
def unnumbered (mutant : Mutant) : Mutant := { mutant with index := 0 }

/-- What a mutant is made of tells everything about it but its number. -/
theorem make_unnumbered {harvest : Harvest} {index : Nat} {span : Span}
    {replacement : Replacement} {mutant : Mutant}
    (h : make harvest index span replacement = .ok mutant) :
    make harvest 0 span replacement = .ok mutant.unnumbered := by
  obtain ⟨own, hown, h⟩ := except_bind_eq_ok.mp h
  obtain ⟨text, htext, h⟩ := except_bind_eq_ok.mp h
  cases h
  rw [make, hown]
  change (harvest.substitute span replacement.text >>= _) = _
  rw [htext]
  rfl

end Mutant

namespace Deletion

variable {harvest : Harvest} {places : List (Fin harvest.spans.length)} {made : List Mutant}
  {text : String}

/-- Whether mutants lack the spans at some places, one after the other, and are numbered from
one. -/
structure Lacks (harvest : Harvest) (places : List (Fin harvest.spans.length))
    (made : List Mutant) : Prop where
  spans : made.map Mutant.span = places.map harvest.spans.get
  indices : made.map Mutant.index = (List.range places.length).map fun (k : Nat) => (k + 1 : Int)
  /-- Apart from its number a mutant is told by its span. -/
  makes : ∀ mutant ∈ made,
    Mutant.make harvest 0 mutant.span replacement = .ok mutant.unnumbered
  /-- The bytes on both sides of the span are left, and no other. -/
  texts : ∀ mutant ∈ made,
    Utf8.encode mutant.text = harvest.before mutant.span ++ harvest.after mutant.span
  shorter : ∀ mutant ∈ made,
    ((Utf8.encode mutant.text).length : Int) = harvest.bytes.length - mutant.span.length

theorem Lacks.length (h : Lacks harvest places made) : made.length = places.length := by
  simpa using congrArg List.length h.spans

/-- Mutants that lack the same spans are the same, in another order and under other numbers. -/
theorem Lacks.perm {others : List (Fin harvest.spans.length)} {all : List Mutant}
    (h : Lacks harvest places made) (hall : Lacks harvest others all)
    (hperm : places.Perm others) :
    (made.map Mutant.unnumbered).Perm (all.map Mutant.unnumbered) := by
  -- But for its number a mutant is told by the span that it lacks.
  have htold : ∀ {places : List (Fin harvest.spans.length)} {made : List Mutant},
      Lacks harvest places made →
      (made.map Mutant.unnumbered).map Except.ok
        = (places.map harvest.spans.get).map fun span =>
            Mutant.make harvest 0 span replacement := by
    intro places made h
    rw [← h.spans, List.map_map, List.map_map]
    exact List.map_congr_left fun mutant hmem => (h.makes mutant hmem).symm
  rw [← List.map_perm_map_iff (f := Except.ok (ε := Failure)) fun _ _ => Except.ok.inj, htold h,
    htold hall]
  exact (hperm.map _).map _

/-- The bytes that a deletion leaves. -/
theorem length_of_make {index : Nat} {span : Span} {mutant : Mutant}
    (h : Mutant.make harvest index span replacement = .ok mutant) :
    Utf8.encode mutant.text = harvest.before span ++ harvest.after span ∧
      ((Utf8.encode mutant.text).length : Int) = harvest.bytes.length - span.length := by
  obtain ⟨hfits, htext⟩ := Mutant.make_eq_ok h
  have hspliced : harvest.spliced span replacement.text
      = harvest.before span ++ harvest.after span := by
    simp [Harvest.spliced, replacement, Utf8.encode]
  have hcovered := Harvest.length_covered hfits
  have hwhole := congrArg List.length (Harvest.before_covered_after hfits)
  rw [List.length_append, List.length_append] at hwhole
  refine ⟨htext.trans hspliced, ?_⟩
  rw [htext, hspliced, List.length_append]
  omega

/-- Spans that lie between characters are deleted one after the other. -/
theorem exists_each (htext : harvest.text = .ok text)
    (hcuts : ∀ place ∈ places, (harvest.spans.get place).Cuts text) :
    ∃ made, each harvest (places.map harvest.spans.get) = ⟨made, .complete⟩ ∧
      Lacks harvest places made := by
  have hmakes : ∀ pair ∈ (places.map harvest.spans.get).map fun span => (span, replacement),
      ∀ index, ∃ mutant, Mutant.make harvest index pair.1 pair.2 = .ok mutant := by
    intro pair hpair index
    obtain ⟨span, hspan, rfl⟩ := List.mem_map.mp hpair
    obtain ⟨place, hplace, rfl⟩ := List.mem_map.mp hspan
    exact Harvest.exists_make htext (hcuts place hplace) index replacement
  obtain ⟨made, hdraft, hlength, hmade⟩ := Draft.exists_ofList hmakes 1
  rw [List.length_map, List.length_map] at hlength
  have hplaces : ∀ (k : Nat) (hk : k < made.length),
      Mutant.make harvest (1 + k) (harvest.spans.get places[k]) replacement = .ok made[k] := by
    intro k hk
    refine hmade k (harvest.spans.get places[k], replacement) _ ?_ (List.getElem?_eq_getElem hk)
    simp [hlength ▸ hk]
  -- What is told of each mutant comes from how it was made, wherever it stands.
  have hmember : ∀ mutant ∈ made, ∃ index,
      Mutant.make harvest index mutant.span replacement = .ok mutant := by
    intro mutant hmem
    obtain ⟨k, hk, rfl⟩ := List.mem_iff_getElem.mp hmem
    refine ⟨1 + k, ?_⟩
    rw [(Mutant.names_of_make (hplaces k hk)).1]
    exact hplaces k hk
  refine ⟨made, hdraft, ?_, ?_, fun mutant hmem => ?_, fun mutant hmem => ?_,
    fun mutant hmem => ?_⟩
  · refine List.ext_getElem (by simp [hlength]) fun k hk _ => ?_
    rw [List.getElem_map, List.getElem_map]
    exact (Mutant.names_of_make (hplaces k (by simpa using hk))).1
  · refine List.ext_getElem (by simp [hlength]) fun k hk _ => ?_
    rw [List.getElem_map, Mutant.index_of_make (hplaces k (by simpa using hk))]
    simp [Int.add_comm]
  all_goals obtain ⟨index, hmake⟩ := hmember mutant hmem
  · exact Mutant.make_unnumbered hmake
  · exact (length_of_make hmake).1
  · exact (length_of_make hmake).2

/-! ## The pass -/

/-- What deleting spans of a source makes. -/
structure Deletes (harvest : Harvest) (all : List Mutant) : Prop where
  /-- Asked for all mutants, the pass makes these, without a choice. -/
  exhaustive : ∀ {σ : Type} [Chooser σ] (patience : Nat) (state : σ),
    mutants patience harvest 0 state = (⟨all, .complete⟩, state)
  /-- They lack the spans that have a text, in order. -/
  lacks : Lacks harvest harvest.deletablePlaces all
  length : all.length = harvest.deletable
  /-- Asked for some, the pass deletes spans at distinct places, as many as are asked for if there
  are so many.  If there are no more, its mutants are all mutants in another order. -/
  drawn : ∀ {σ : Type} [Chooser σ] (patience count : Nat) (state : σ) (made : List Mutant),
    1 ≤ count → (mutants patience harvest count state).1.result = .ok made →
      made.length = min count harvest.deletable ∧
        (∃ places : List (Fin harvest.spans.length), places.Nodup ∧
          (∀ place ∈ places, 0 < (harvest.spans.get place).length) ∧ Lacks harvest places made) ∧
        (harvest.deletable ≤ count →
          (made.map Mutant.unnumbered).Perm (all.map Mutant.unnumbered))
  /-- If it has no result, then for want of numbers. -/
  stops : ∀ {σ : Type} [Chooser σ] (patience count : Nat) (state : σ) (stop : Stop),
    (mutants patience harvest count state).1.result = .error stop → stop = .unfinished

section Pass

variable [Chooser σ] {patience count : Nat} {state : σ}

/-- A pass that draws deletes the spans of a sample. -/
theorem mutants_of_sample (hcount : 1 ≤ count) (state : σ) :
    mutants patience harvest count state
      = Pass.ofChance (Sample.ofList patience (harvest.deletablePlaces.map harvest.spans.get)
          (min count harvest.deletable)) (fun drawn state => (each harvest drawn, state)) state := by
  have hcheck : checkCount count true = .ok count := by simp [checkCount]
  obtain ⟨n, rfl⟩ := Nat.exists_eq_add_of_le' hcount
  have hlength : (spans harvest).length = harvest.deletable := by
    rw [harvest.spans_eq_map, List.length_map, harvest.length_deletablePlaces]
  rw [mutants, hcheck]
  dsimp only
  rw [hlength, harvest.spans_eq_map]
  rfl

/-- A pass that draws runs out of numbers, or deletes spans at distinct places. -/
theorem draws (htext : harvest.text = .ok text)
    (hboundaries : ∀ span ∈ harvest.spans, span.OnBoundaries text) (hcount : 1 ≤ count)
    (state : σ) :
    (mutants patience harvest count state).1.result = .error .unfinished ∨
      ∃ places made, (mutants patience harvest count state).1 = ⟨made, .complete⟩ ∧
        places.Nodup ∧ places ⊆ harvest.deletablePlaces ∧
        places.length = min count harvest.deletable ∧ Lacks harvest places made := by
  rw [mutants_of_sample hcount, Pass.ofChance]
  split
  case h_1 drawn between hdrawn =>
    -- A sample draws places, so that spans that look alike stay apart.
    obtain ⟨places, hnodup, hsub, rfl⟩ :=
      Sample.exists_labels harvest.nodup_deletablePlaces hdrawn
    obtain ⟨made, hmade, hlacks⟩ := exists_each htext fun place hplace =>
      Harvest.cuts_of_mem_deletablePlaces hboundaries (hsub hplace)
    have hlength := Sample.length_of_ofList hdrawn
    rw [List.length_map] at hlength
    exact .inr ⟨places, made, hmade, hnodup, hsub, hlength, hlacks⟩
  case h_2 stop between hstop =>
    cases stop with
    | unfinished => exact .inl rfl
    | failed failure =>
      -- Drawing a sample does not fail, so it was stopped for want of numbers.
      have hnone : (Sample.ofList patience (harvest.deletablePlaces.map harvest.spans.get)
          (min count harvest.deletable) : Chance σ _).FailsBy fun _ => False :=
        Sample.failsBy_ofList _ _ _
      exact (hnone state failure (congrArg Prod.fst hstop)).elim

end Pass

/--
On a source whose spans lie between characters, deleting spans makes one mutant for each span that
has a text, in order, if no number is asked for; and mutants that lack spans at distinct places
otherwise, whatever numbers come up.
-/
theorem deletes_of_boundaries (htext : harvest.text = .ok text)
    (hboundaries : ∀ span ∈ harvest.spans, span.OnBoundaries text) :
    ∃ all, Deletes harvest all := by
  have hcuts : ∀ place ∈ harvest.deletablePlaces, (harvest.spans.get place).Cuts text :=
    fun place hplace => Harvest.cuts_of_mem_deletablePlaces hboundaries hplace
  obtain ⟨all, hall, hlacks⟩ := exists_each htext hcuts
  have hlength : all.length = harvest.deletable :=
    hlacks.length.trans harvest.length_deletablePlaces
  have hexhaustive : ∀ {σ : Type} [Chooser σ] (patience : Nat) (state : σ),
      mutants patience harvest 0 state = (⟨all, .complete⟩, state) := by
    intro σ _ patience state
    rw [← hall, ← harvest.spans_eq_map]
    rfl
  refine ⟨all, hexhaustive, hlacks, hlength, ?_, ?_⟩
  · intro σ _ patience count state made hcount hmade
    rcases draws htext hboundaries hcount state with hstop | ⟨places, drawn, hdrawn, hnodup, hsub,
      hplaces, hlacking⟩
    · cases hstop.symm.trans hmade
    rw [hdrawn] at hmade
    cases hmade
    refine ⟨hlacking.length.trans hplaces, ⟨places, hnodup, fun place hplace =>
      Harvest.mem_deletablePlaces.mp (hsub hplace), hlacking⟩, fun henough => ?_⟩
    -- As many distinct places as there are, are all of them.
    have hall : harvest.deletablePlaces.length ≤ places.length := by
      rw [hplaces, harvest.length_deletablePlaces]
      omega
    exact hlacking.perm hlacks ((hnodup.subperm hsub).perm_of_length_le hall)
  · intro σ _ patience count state stop hstop
    rcases Nat.eq_zero_or_pos count with rfl | hcount
    · rw [show ((0 : Nat) : Int) = 0 from rfl, hexhaustive] at hstop
      cases hstop
    · rcases draws htext hboundaries hcount state with hnone | ⟨places, drawn, hdrawn, -⟩
      · exact Except.error.inj (hstop.symm.trans hnone)
      · rw [hdrawn] at hstop
        cases hstop

/-- The span of the name at a place of a source whose names have one letter. -/
def oneLetter (place : Nat) : Span :=
  ⟨"name", place, place + 1, ⟨0, place⟩, ⟨0, place + 1⟩⟩

/-- A source of many names.  An empty one stands first, and the fourth one is recorded again
last. -/
def manyNames : Harvest where
  bytes := Utf8.encode "abcdefghijklmnopqrstuv"
  spans := ⟨"name", 0, 0, ⟨0, 0⟩, ⟨0, 0⟩⟩ :: (List.range 22).map oneLetter ++ [oneLetter 3]
  path := none
  language := "rust"

/-- There are too many of them for a pool to draw two from.  The name that is recorded twice can be
drawn twice, while a place that comes up again is passed over. -/
theorem manyNames_deleted :
    manyNames.text = .ok "abcdefghijklmnopqrstuv" ∧
      (∀ span ∈ manyNames.spans, span.OnBoundaries "abcdefghijklmnopqrstuv") ∧
      manyNames.deletable = 23 ∧ Sample.poolLimit 2 < 23 ∧
      (mutants 2 manyNames 2 (⟨[3, 3, 22]⟩ : Script)).1.mutants.map Mutant.span
        = [oneLetter 3, oneLetter 3] ∧
      ∃ all, Deletes manyNames all := by
  have htext : manyNames.text = .ok "abcdefghijklmnopqrstuv" :=
    Harvest.text_eq_ok_iff.mpr rfl
  -- The text is ASCII, so each offset lies between two characters.
  have hboundary : ∀ offset : Nat, offset < 23 →
      Utf8.IsBoundary "abcdefghijklmnopqrstuv" offset := by
    intro offset hoffset
    have hlengths : ∀ k : Nat, k < 23 → (k : Int)
        = (Utf8.encode (String.ofList ("abcdefghijklmnopqrstuv".toList.take k))).length := by
      decide +kernel
    refine ⟨_, String.ofList ("abcdefghijklmnopqrstuv".toList.drop offset), ?_,
      hlengths offset hoffset⟩
    rw [← String.ofList_append, List.take_append_drop, String.ofList_toList]
  have hletter : ∀ place < 22, (oneLetter place).OnBoundaries "abcdefghijklmnopqrstuv" :=
    fun place hplace => ⟨hboundary place (by omega), hboundary (place + 1) (by omega)⟩
  have hboundaries : ∀ span ∈ manyNames.spans,
      span.OnBoundaries "abcdefghijklmnopqrstuv" := by
    intro span hspan
    rcases List.mem_append.mp hspan with hspan | hspan
    -- The empty span, which is not deletable, the letters, and one of the letters again.
    · rcases List.mem_cons.mp hspan with rfl | hspan
      · exact ⟨hboundary 0 (by decide), hboundary 0 (by decide)⟩
      · obtain ⟨place, hplace, rfl⟩ := List.mem_map.mp hspan
        exact hletter place (List.mem_range.mp hplace)
    · obtain rfl := List.mem_singleton.mp hspan
      exact hletter 3 (by decide)
  exact ⟨htext, hboundaries, by decide +kernel, by decide +kernel, by decide +kernel,
    deletes_of_boundaries htext hboundaries⟩

end Deletion

end SourceMutation
