import SourceMutation.Proofs.Scripts

/-!
# Sequences of draws

The draw loop learns of its generator and of its draw function only what each draw picks and yields.
`DrawLoop.Feed` is what it learns: a sequence of draws without end, for any generator that goes on
giving numbers and any draw function that does not fail.  Every sequence is one (`Feed.ofTape`).

On such a sequence the loop is a filter.  As long as it has neither enough mutants nor given up, it
has made the mutants of the accepted draws so far, and has them numbered (`Feed.advance`).  So it is
told by the sequence alone where the loop ends, if it ends at all, and with which mutants
(`DrawLoop.mutants_of_feed`).

A call is given some patience, and ends somewhere if it ends there with any patience that is large
enough, and is unfinished with any that is too small (`Pass.EndsAt`).

- Asked for nothing, it ends at once.
- If none of the first draws is accepted, it gives up at the limit.
- If one of them is, it ends where enough draws were accepted, and if there are never enough it does
  not end.
-/

namespace SourceMutation

variable {σ : Type}

/-! ## Calls with enough patience -/

/-- Whether a call ends in a draft and a state as soon as it may make so many draws, and would go on
drawing if it may only make fewer. -/
structure Pass.EndsAt (pass : Nat → Pass σ) (start : σ) (enough : Nat) (draft : Draft) (after : σ) :
    Prop where
  ends : ∀ patience, enough ≤ patience → pass patience start = (draft, after)
  waits : ∀ patience, patience < enough → (pass patience start).1.ending = .stopped .unfinished

/-- A call that would go on drawing has no result. -/
theorem Draft.result_of_unfinished {draft : Draft} (h : draft.ending = .stopped .unfinished) :
    draft.result = .error .unfinished := by
  rw [result, h]

/-- Nothing else comes out of a call than what it ends in. -/
theorem Pass.EndsAt.eq_of_result {pass : Nat → Pass σ} {start after : σ} {enough patience : Nat}
    {draft : Draft} (h : Pass.EndsAt pass start enough draft after) {made : List Mutant}
    (hmade : (pass patience start).1.result = .ok made) :
    enough ≤ patience ∧ draft.result = .ok made := by
  by_cases henough : enough ≤ patience
  · rw [h.ends patience henough] at hmade
    exact ⟨henough, hmade⟩
  · have hwaits := Draft.result_of_unfinished (h.waits patience (by omega))
    cases hwaits.symm.trans hmade

/-- A result that is there changes nothing. -/
theorem Chance.ofExcept_apply {α : Type} {result : Except Failure α} {a : α} (h : result = .ok a)
    (state : σ) : (ofExcept result : Chance σ α) state = (.ok a, state) := by
  rw [h]
  rfl

theorem Draft.afterAll_after (made : List Mutant) (mutant : Mutant) (draft : Draft) :
    afterAll made (after mutant draft) = afterAll (made ++ [mutant]) draft := by
  simp [afterAll, after]

/-! ## Sequences

A feed is any endless sequence of draws, whether or not a generator would ever draw it.  What the
loop makes of a feed depends on which of its draws can be accepted.
-/

instance Harvest.decidableChanges (harvest : Harvest) (span : Span) (text : String) :
    Decidable (harvest.Changes span text) :=
  match hown : harvest.textOf span with
  | .ok own =>
    decidable_of_iff (text ≠ "" ∧ text ≠ own)
      (and_congr_right fun _ =>
        ⟨fun hne => ⟨own, hown, hne⟩, fun ⟨_, hother, hne⟩ =>
          Except.ok.inj (hother.symm.trans hown) ▸ hne⟩)
  | .error _ => .isFalse fun ⟨_, _, hother, _⟩ => by cases hown.symm.trans hother

namespace DrawLoop

/-- A sequence of draws without end, with the states before, between and after them. -/
structure Feed [Chooser σ] (harvest : Harvest) (draw : Draw σ) (start : σ) where
  /-- The state after so many draws. -/
  state : Nat → σ
  /-- The span that is picked. -/
  span : Nat → Span
  /-- What is drawn for the span, if anything. -/
  drawn : Nat → Option Replacement
  state_zero : state 0 = start
  draws : ∀ n, ∃ between, Chance.pick harvest.spans (state n) = (.ok (span n), between) ∧
    draw (span n) between = (.ok (drawn n), state (n + 1))

namespace Feed

variable [Chooser σ] {harvest : Harvest} {draw : Draw σ} {start : σ}

/-- Whether a draw can be accepted: something was drawn, it is not empty, and it is not the text of
the span that was picked. -/
def Accepted (feed : Feed harvest draw start) (n : Nat) : Prop :=
  ∃ replacement ∈ feed.drawn n, harvest.Changes (feed.span n) replacement.text

instance (feed : Feed harvest draw start) : DecidablePred feed.Accepted := fun n =>
  inferInstanceAs (Decidable (∃ replacement ∈ feed.drawn n, _))

/-- Which of the first `n` draws are accepted, in order. -/
def accepted (feed : Feed harvest draw start) (n : Nat) : List Nat :=
  (List.range n).filter fun k => feed.Accepted k

/-- Whether the first `n` draws and no fewer have `count` accepted ones among them. -/
structure Fills (feed : Feed harvest draw start) (count n : Nat) : Prop where
  enough : (feed.accepted n).length = count
  least : ∀ m < n, (feed.accepted m).length < count

/-- Whether mutants are those of the accepted ones among the first `n` draws: one for each, in
order, numbered from one. -/
structure Makes (feed : Feed harvest draw start) (n : Nat) (made : List Mutant) : Prop where
  length : made.length = (feed.accepted n).length
  made : ∀ i k mutant, (feed.accepted n)[i]? = some k → made[i]? = some mutant →
    ∃ replacement ∈ feed.drawn k,
      Mutant.make harvest (i + 1) (feed.span k) replacement = .ok mutant

variable {feed : Feed harvest draw start} {count stall n : Nat}

/-! ### Accepted draws -/

theorem accepted_succ_of_accepted (h : feed.Accepted n) :
    feed.accepted (n + 1) = feed.accepted n ++ [n] := by
  simp [accepted, List.range_succ, h]

theorem accepted_succ_of_not (h : ¬feed.Accepted n) : feed.accepted (n + 1) = feed.accepted n := by
  simp [accepted, List.range_succ, h]

theorem length_accepted_le {m : Nat} (h : m ≤ n) :
    (feed.accepted m).length ≤ (feed.accepted n).length :=
  ((List.range_sublist.mpr h).filter _).length_le

theorem accepted_eq_nil_iff : feed.accepted n = [] ↔ ∀ k < n, ¬feed.Accepted k := by
  simp [accepted, List.filter_eq_nil_iff]

/-- Where enough draws are accepted, there is a first place where they are. -/
theorem exists_fills (h : count ≤ (feed.accepted n).length) : ∃ m, feed.Fills count m := by
  induction n with
  | zero =>
    have hzero : (feed.accepted 0).length = 0 := rfl
    exact ⟨0, by omega, fun m hm => absurd hm m.not_lt_zero⟩
  | succ n ih =>
    by_cases hbefore : count ≤ (feed.accepted n).length
    · exact ih hbefore
    · refine ⟨n + 1, ?_, fun m hm => ?_⟩
      · -- One draw brings one accepted draw at most.
        by_cases haccepted : feed.Accepted n
        · rw [accepted_succ_of_accepted haccepted, List.length_append, List.length_singleton] at h ⊢
          omega
        · rw [accepted_succ_of_not haccepted] at h
          exact absurd h hbefore
      · have hle : (feed.accepted m).length ≤ (feed.accepted n).length :=
          length_accepted_le (Nat.lt_succ_iff.mp hm)
        omega

/-! ### One draw -/

theorem spans_ne_nil (feed : Feed harvest draw start) : harvest.spans ≠ [] := by
  obtain ⟨between, hpick, -⟩ := feed.draws 0
  exact List.ne_nil_of_mem (Chance.mem_of_pick hpick)

theorem span_mem (feed : Feed harvest draw start) (n : Nat) : feed.span n ∈ harvest.spans := by
  obtain ⟨between, hpick, -⟩ := feed.draws n
  exact Chance.mem_of_pick hpick

/-- The loop rejects a draw that cannot be accepted. -/
theorem once_of_not_accepted (htexts : ∀ span ∈ harvest.spans, ∃ own, harvest.textOf span = .ok own)
    (h : ¬feed.Accepted n) (index : Nat) :
    once harvest draw index (feed.state n) = (.ok none, feed.state (n + 1)) := by
  obtain ⟨between, hpick, hdraw⟩ := feed.draws n
  refine Chance.bind_eq_ok.mpr ⟨_, _, hpick, Chance.bind_eq_ok.mpr ⟨_, _, hdraw, ?_⟩⟩
  cases hdrawn : feed.drawn n with
  | none => rfl
  | some replacement =>
    obtain ⟨own, hown⟩ := htexts _ (feed.span_mem n)
    refine Chance.bind_eq_ok.mpr ⟨own, _, Chance.ofExcept_apply hown _, ?_⟩
    -- Something was drawn, so it is not accepted because it is not eligible.
    have hblocked : ¬isEligible replacement.text own = true := by
      intro heligible
      obtain ⟨hempty, hother⟩ := isEligible_iff.mp heligible
      exact h ⟨replacement, hdrawn, hempty, own, hown, hother⟩
    rw [if_neg hblocked]
    rfl

/-- The loop makes a mutant of a draw that can be accepted. -/
theorem once_of_accepted (hmakes : ∀ span ∈ harvest.spans, ∀ index replacement,
      ∃ mutant, Mutant.make harvest index span replacement = .ok mutant)
    (h : feed.Accepted n) (index : Nat) :
    ∃ replacement ∈ feed.drawn n, ∃ mutant,
      Mutant.make harvest index (feed.span n) replacement = .ok mutant ∧
        once harvest draw index (feed.state n) = (.ok (some mutant), feed.state (n + 1)) := by
  obtain ⟨between, hpick, hdraw⟩ := feed.draws n
  obtain ⟨replacement, hdrawn, hempty, own, hown, hother⟩ := h
  obtain ⟨mutant, hmake⟩ := hmakes _ (feed.span_mem n) index replacement
  refine ⟨replacement, hdrawn, mutant, hmake, ?_⟩
  -- The steps of a draw, in order: a span, a candidate, the span's text, a look, and the mutant.
  refine Chance.bind_eq_ok.mpr ⟨_, _, hpick, Chance.bind_eq_ok.mpr ⟨_, _, hdraw, ?_⟩⟩
  rw [Option.mem_def.mp hdrawn]
  refine Chance.bind_eq_ok.mpr ⟨own, _, Chance.ofExcept_apply hown _, ?_⟩
  rw [if_pos (isEligible_iff.mpr ⟨hempty, hother⟩)]
  exact Chance.bind_eq_ok.mpr ⟨mutant, _, Chance.ofExcept_apply hmake _, rfl⟩

/-! ### The loop -/

/-- Before any draw nothing is made. -/
theorem makes_zero (feed : Feed harvest draw start) : feed.Makes 0 [] where
  length := rfl
  made i k mutant h := by cases h

theorem Makes.of_not_accepted {made : List Mutant} (h : feed.Makes n made)
    (hnot : ¬feed.Accepted n) : feed.Makes (n + 1) made where
  length := by rw [accepted_succ_of_not hnot, h.length]
  made i k mutant hk := h.made i k mutant (accepted_succ_of_not hnot ▸ hk)

/-- An accepted draw adds its mutant to those before it, under the next number. -/
theorem Makes.of_accepted {made : List Mutant} (h : feed.Makes n made) (haccepted : feed.Accepted n)
    {replacement : Replacement} (hdrawn : replacement ∈ feed.drawn n) {mutant : Mutant}
    (hmake : Mutant.make harvest (made.length + 1) (feed.span n) replacement = .ok mutant) :
    feed.Makes (n + 1) (made ++ [mutant]) where
  length := by
    rw [accepted_succ_of_accepted haccepted, List.length_append, List.length_append, h.length]
    rfl
  made i k other hk hother := by
    rw [accepted_succ_of_accepted haccepted] at hk
    rcases Nat.lt_trichotomy i made.length with hlt | rfl | hgt
    · rw [List.getElem?_append_left (h.length ▸ hlt)] at hk
      rw [List.getElem?_append_left hlt] at hother
      exact h.made i k other hk hother
    · -- The last number is that of the new mutant.
      rw [h.length, List.getElem?_concat_length] at hk
      rw [List.getElem?_concat_length] at hother
      cases hk
      cases hother
      exact ⟨replacement, hdrawn, hmake⟩
    -- There are no mutants behind the new one.
    · have hnone : (made ++ [mutant])[i]? = none := by
        apply List.getElem?_eq_none
        rw [List.length_append, List.length_singleton]
        omega
      cases hnone.symm.trans hother

/--
As long as a loop has neither enough mutants nor given up, it has made the mutants of the accepted
ones among its draws, and stands before the next draw.
-/
theorem advance (feed : Feed harvest draw start)
    (htexts : ∀ span ∈ harvest.spans, ∃ own, harvest.textOf span = .ok own)
    (hmakes : ∀ span ∈ harvest.spans, ∀ index replacement,
      ∃ mutant, Mutant.make harvest index span replacement = .ok mutant) (n : Nat)
    (hmissing : ∀ m < n, (feed.accepted m).length < count)
    (hstall : ∀ m < n, feed.accepted m = [] → m < stall) :
    ∃ made, feed.Makes n made ∧ ∀ patience,
      more harvest draw (some stall) (n + patience) count 0 0 start
        = Prod.map (Draft.afterAll made) id
            (more harvest draw (some stall) patience (count - made.length) made.length n
              (feed.state n)) := by
  -- The induction follows the draws; each is one more step of the loop, accepted or not.
  induction n with
  | zero =>
    refine ⟨[], feed.makes_zero, fun patience => ?_⟩
    rw [Nat.zero_add, feed.state_zero]
    rfl
  | succ n ih =>
    obtain ⟨made, hmade, hmore⟩ := ih (fun m hm => hmissing m (by omega))
      fun m hm => hstall m (by omega)
    have hlast : made.length < count := hmade.length ▸ hmissing n (Nat.lt_succ_self n)
    obtain ⟨missing, hcount⟩ : ∃ missing, count - made.length = missing + 1 :=
      ⟨count - made.length - 1, by omega⟩
    -- The loop does not give up here: it has a mutant, or has not drawn often enough.
    have hgoes : ¬(made.length = 0 ∧ StallLimit.exceededBy (some stall) (n + 1) = true) := by
      rintro ⟨hnone, hexceeded⟩
      have hbelow := hstall n (Nat.lt_succ_self n)
        (List.length_eq_zero_iff.mp (hmade.length ▸ hnone))
      simp only [StallLimit.exceededBy, decide_eq_true_eq] at hexceeded
      omega
    by_cases haccepted : feed.Accepted n
    · obtain ⟨replacement, hdrawn, mutant, hmake, honce⟩ :=
        once_of_accepted hmakes haccepted (made.length + 1)
      refine ⟨made ++ [mutant], hmade.of_accepted haccepted hdrawn hmake, fun patience => ?_⟩
      rw [Nat.add_assoc, Nat.add_comm 1, hmore, hcount, more_accept hgoes honce, Prod.map_map]
      have hrest : count - (made ++ [mutant]).length = missing := by
        rw [List.length_append, List.length_singleton]
        omega
      rw [hrest, List.length_append, List.length_singleton]
      congr 1
      funext draft
      exact Draft.afterAll_after made mutant draft
    · refine ⟨made, hmade.of_not_accepted haccepted, fun patience => ?_⟩
      rw [Nat.add_assoc, Nat.add_comm 1, hmore, hcount,
        more_reject hgoes (once_of_not_accepted htexts haccepted _), ← hcount]

/-- Where a draw is accepted in time, the limit is not reached without an accepted one. -/
theorem lt_of_accepted_eq_nil {m : Nat} (hfirst : ∃ n < stall, feed.Accepted n)
    (h : feed.accepted m = []) : m < stall := by
  obtain ⟨n, hn, haccepted⟩ := hfirst
  have hle : ¬n < m := fun hlt => accepted_eq_nil_iff.mp h n hlt haccepted
  omega

/-- A loop that may make `n` draws only, and still misses mutants after them, does not end. -/
theorem unfinished (feed : Feed harvest draw start)
    (htexts : ∀ span ∈ harvest.spans, ∃ own, harvest.textOf span = .ok own)
    (hmakes : ∀ span ∈ harvest.spans, ∀ index replacement,
      ∃ mutant, Mutant.make harvest index span replacement = .ok mutant)
    (hmissing : ∀ m ≤ n, (feed.accepted m).length < count)
    (hstall : ∀ m < n, feed.accepted m = [] → m < stall) :
    (more harvest draw (some stall) n count 0 0 start).1.ending = .stopped .unfinished := by
  obtain ⟨made, hmade, hmore⟩ :=
    feed.advance htexts hmakes n (fun m hm => hmissing m (Nat.le_of_lt hm)) hstall
  obtain ⟨missing, hcount⟩ : ∃ missing, count - made.length = missing + 1 := by
    have hlast := hmade.length ▸ hmissing n n.le_refl
    exact ⟨count - made.length - 1, by omega⟩
  -- With no draws left, the loop stops where it stands.
  have hnone := hmore 0
  rw [hcount] at hnone
  exact congrArg (fun call => call.1.ending) hnone

/-! ## What a call comes to -/

/-- A call that draws `count` mutants from a sequence. -/
theorem mutants_eq_more (feed : Feed harvest draw start) (patience : Nat) (stall : StallLimit) :
    mutants patience harvest count draw stall start
      = more harvest draw stall patience count 0 0 start := by
  have hspans : harvest.spans.isEmpty = false := by
    rw [List.isEmpty_eq_false_iff]
    exact feed.spans_ne_nil
  rw [mutants, hspans]
  rfl

/-- What a call comes to by the sequence that it draws, for a count and a limit. -/
structure Settles (feed : Feed harvest draw start) (count stall : Nat) : Prop where
  /-- Asked for nothing, the call draws nothing. -/
  nothing : count = 0 →
    Pass.EndsAt (mutants · harvest count draw (some stall)) start 0 .nothing start
  /-- If none of the first draws is accepted, it gives up after as many as the limit allows. -/
  givesUp : 0 < count → (∀ n < stall, ¬feed.Accepted n) →
    Pass.EndsAt (mutants · harvest count draw (some stall)) start (stall + 1) ⟨[], .gaveUp⟩
      (feed.state stall)
  /-- If one of them is, the call ends right after the `count`-th accepted draw, and returns the
  mutants of the accepted ones. -/
  completes : 0 < count → (∃ n < stall, feed.Accepted n) → ∀ n, feed.Fills count n →
    ∃ made, feed.Makes n made ∧
      Pass.EndsAt (mutants · harvest count draw (some stall)) start n ⟨made, .complete⟩
        (feed.state n)
  /-- So it returns exactly if the sequence has as many accepted draws. -/
  returns_iff : 0 < count → (∃ n < stall, feed.Accepted n) →
    ((∃ patience made,
        (mutants patience harvest count draw (some stall) start).1.result = .ok made) ↔
      ∃ n, (feed.accepted n).length = count)
  /-- A list that is returned has no mutants, or as many as were asked for. -/
  lengths : ∀ patience made,
    (mutants patience harvest count draw (some stall) start).1.result = .ok made →
      made.length = 0 ∨ made.length = count

theorem endsAt_nothing (feed : Feed harvest draw start) (stall : Nat) :
    Pass.EndsAt (mutants · harvest (0 : Nat) draw (some stall)) start 0 .nothing start := by
  refine ⟨fun patience _ => ?_, fun patience h => absurd h patience.not_lt_zero⟩
  rw [feed.mutants_eq_more]
  cases patience <;> rfl

section Settled

variable (feed : Feed harvest draw start)
  (htexts : ∀ span ∈ harvest.spans, ∃ own, harvest.textOf span = .ok own)
  (hmakes : ∀ span ∈ harvest.spans, ∀ index replacement,
    ∃ mutant, Mutant.make harvest index span replacement = .ok mutant)
include htexts hmakes

theorem endsAt_gaveUp (hcount : 0 < count) (hnone : ∀ n < stall, ¬feed.Accepted n) :
    Pass.EndsAt (mutants · harvest count draw (some stall)) start (stall + 1) ⟨[], .gaveUp⟩
      (feed.state stall) := by
  have hempty : ∀ m ≤ stall, feed.accepted m = [] :=
    fun m hm => accepted_eq_nil_iff.mpr fun k hk => hnone k (by omega)
  have hmissing : ∀ m ≤ stall, (feed.accepted m).length < count := by
    intro m hm
    rw [hempty m hm]
    exact hcount
  constructor
  · intro patience henough
    obtain ⟨later, rfl⟩ : ∃ later, patience = stall + (later + 1) :=
      ⟨patience - (stall + 1), by omega⟩
    obtain ⟨made, hmade, hmore⟩ :=
      feed.advance htexts hmakes stall (fun m hm => hmissing m (Nat.le_of_lt hm))
        fun m hm _ => hm
    have hnothing : made = [] :=
      List.length_eq_zero_iff.mp (hmade.length.trans (congrArg _ (hempty stall stall.le_refl)))
    subst hnothing
    obtain ⟨missing, rfl⟩ : ∃ missing, count = missing + 1 := ⟨count - 1, by omega⟩
    -- With as many draws as the limit allows, the next look at it ends the loop.
    have hexceeded : (0 : Nat) = 0 ∧ StallLimit.exceededBy (some stall) (stall + 1) = true := by
      refine ⟨rfl, ?_⟩
      simp only [StallLimit.exceededBy, decide_eq_true_eq]
      omega
    rw [feed.mutants_eq_more, hmore]
    exact congrArg (Prod.map (Draft.afterAll []) id) (more_gaveUp hexceeded)
  · intro patience hbelow
    rw [feed.mutants_eq_more]
    exact feed.unfinished htexts hmakes (fun m hm => hmissing m (by omega)) fun m hm _ => by omega

theorem endsAt_complete (hfirst : ∃ n < stall, feed.Accepted n) (hfills : feed.Fills count n) :
    ∃ made, feed.Makes n made ∧
      Pass.EndsAt (mutants · harvest count draw (some stall)) start n ⟨made, .complete⟩
        (feed.state n) := by
  -- The first accepted draw comes before the limit, so the loop does not give up.
  have hstall : ∀ m, feed.accepted m = [] → m < stall :=
    fun m hm => lt_of_accepted_eq_nil hfirst hm
  obtain ⟨made, hmade, hmore⟩ := feed.advance htexts hmakes n hfills.least fun m _ => hstall m
  refine ⟨made, hmade, ?_, ?_⟩
  · intro patience henough
    obtain ⟨later, rfl⟩ : ∃ later, patience = n + later := ⟨patience - n, by omega⟩
    -- Nothing is missing after that many draws.
    have hnone : count - made.length = 0 := by
      have henough := hfills.enough
      have hlength := hmade.length
      omega
    rw [feed.mutants_eq_more, hmore, hnone, more]
    simp [Draft.afterAll, Draft.nothing]
  · intro patience hbelow
    rw [feed.mutants_eq_more]
    exact feed.unfinished htexts hmakes (fun m hm => hfills.least m (by omega)) fun m _ => hstall m

/-- A call with a draw accepted in time returns only once as many are accepted as it was asked
for. -/
theorem exists_fills_of_result (hfirst : ∃ n < stall, feed.Accepted n) {patience : Nat}
    {made : List Mutant}
    (hmade : (mutants patience harvest count draw (some stall) start).1.result = .ok made) :
    ∃ n, feed.Fills count n := by
  by_cases henough : ∃ n, count ≤ (feed.accepted n).length
  · obtain ⟨n, hn⟩ := henough
    exact exists_fills hn
  · -- With fewer accepted draws than mutants, the loop never ends.
    have hmissing : ∀ m, (feed.accepted m).length < count :=
      fun m => Nat.lt_of_not_le fun hle => henough ⟨m, hle⟩
    rw [feed.mutants_eq_more, Draft.result_of_unfinished (feed.unfinished htexts hmakes
      (fun m _ => hmissing m) fun m _ => lt_of_accepted_eq_nil hfirst)] at hmade
    cases hmade

theorem settles (count stall : Nat) : feed.Settles count stall := by
  have hnothing : count = 0 →
      Pass.EndsAt (mutants · harvest count draw (some stall)) start 0 .nothing start := by
    rintro rfl
    exact feed.endsAt_nothing stall
  refine ⟨hnothing, feed.endsAt_gaveUp htexts hmakes, ?_, ?_, ?_⟩
  · intro hcount hfirst n hfills
    exact feed.endsAt_complete htexts hmakes hfirst hfills
  · intro hcount hfirst
    -- A loop that returns has accepted enough, and a feed that accepts enough fills it somewhere.
    constructor
    · rintro ⟨patience, made, hmade⟩
      obtain ⟨n, hfills⟩ := feed.exists_fills_of_result htexts hmakes hfirst hmade
      exact ⟨n, hfills.enough⟩
    · rintro ⟨n, henough⟩
      obtain ⟨m, hfills⟩ := exists_fills (Nat.le_of_eq henough.symm)
      obtain ⟨made, hmade, hends⟩ := feed.endsAt_complete htexts hmakes hfirst hfills
      exact ⟨m, made, by rw [hends.ends m m.le_refl]; rfl⟩
  · intro patience made hmade
    rcases Nat.eq_zero_or_pos count with hzero | hcount
    · cases ((hnothing hzero).eq_of_result hmade).2
      exact .inl rfl
    -- Whether anything is accepted before the limit decides between the two ways to end.
    · by_cases hfirst : ∃ n < stall, feed.Accepted n
      · obtain ⟨n, hfills⟩ := feed.exists_fills_of_result htexts hmakes hfirst hmade
        obtain ⟨others, hothers, hends⟩ := feed.endsAt_complete htexts hmakes hfirst hfills
        cases (hends.eq_of_result hmade).2
        exact .inr (hothers.length.trans hfills.enough)
      · have hnone : ∀ n < stall, ¬feed.Accepted n :=
          fun n hn haccepted => hfirst ⟨n, hn, haccepted⟩
        cases ((feed.endsAt_gaveUp htexts hmakes hcount hnone).eq_of_result hmade).2
        exact .inl rfl

end Settled

end Feed

end DrawLoop

/-! ## All sequences -/

/-- Numbers written in advance, without end. -/
structure Tape where
  numbers : Nat → Nat
  /-- How many numbers were taken. -/
  used : Nat

/-- A tape gives its next number if that lies below the bound, and nothing otherwise. -/
instance : Chooser Tape where
  below bound tape :=
    if h : tape.numbers tape.used < bound then
      some (⟨tape.numbers tape.used, h⟩, { tape with used := tape.used + 1 })
    else none

/-- Draws what is written in advance for the number taken last. -/
def Tape.draw (drawn : Nat → Option Replacement) : Draw Tape := fun _ tape =>
  (.ok (drawn (tape.used - 1)), tape)

theorem Chance.pick_of_below {α : Type} [Chooser σ] {items : List α} {state after : σ}
    {i : Fin items.length} (h : Chooser.below items.length state = some (i, after)) :
    (pick items : Chance σ α) state = (.ok (items.get i), after) := by
  cases items with
  | nil => exact i.elim0
  | cons item rest =>
    have hbelow : (below (item :: rest).length : Chance σ _) state = (.ok i, after) := by
      rw [below, h]
    exact Chance.bind_eq_ok.mpr ⟨i, after, hbelow, rfl⟩

namespace DrawLoop

/-- Every sequence of picks and of what is drawn for them is one that the loop can be fed. -/
def Feed.ofTape (harvest : Harvest) (places : Nat → Fin harvest.spans.length)
    (drawn : Nat → Option Replacement) :
    Feed harvest (Tape.draw drawn) ⟨fun n => places n, 0⟩ where
  state n := ⟨fun n => places n, n⟩
  span n := harvest.spans.get (places n)
  drawn := drawn
  state_zero := rfl
  draws n := by
    refine ⟨⟨fun n => places n, n + 1⟩, Chance.pick_of_below ?_, rfl⟩
    simp only [Chooser.below, dif_pos (places n).isLt]

/--
On a source whose spans lie between characters, what a call of the loop comes to is told by the
sequence that it draws: whether it returns, after how many draws, and which mutants.  Without spans
there is nothing to draw.
-/
theorem mutants_of_feed [Chooser σ] {harvest : Harvest} {text : String}
    (htext : harvest.text = .ok text) (hcuts : ∀ span ∈ harvest.spans, span.Cuts text)
    (draw : Draw σ) (start : σ) (count stall : Nat) :
    (harvest.spans = [] →
      Pass.EndsAt (mutants · harvest count draw (some stall)) start 0 .nothing start) ∧
    ∀ feed : Feed harvest draw start, feed.Settles count stall := by
  constructor
  · intro hnone
    refine ⟨fun patience _ => ?_, fun patience h => absurd h patience.not_lt_zero⟩
    rw [mutants, hnone]
    rfl
  · intro feed
    exact feed.settles (fun span hspan => Harvest.exists_textOf htext (hcuts span hspan))
      (fun span hspan => Harvest.exists_make htext (hcuts span hspan)) count stall

/-- The names `é` and `x`, without anything between them. -/
def touching : Harvest where
  bytes := [0xC3, 0xA9, 0x78]
  spans := [⟨"name", 0, 2, ⟨0, 0⟩, ⟨0, 2⟩⟩, ⟨"name", 2, 3, ⟨0, 2⟩, ⟨0, 3⟩⟩]
  path := none
  language := "rust"

/-- What is drawn for the two names in turn: for the first `x` nothing but itself, then `x` for `é`,
then nothing and an empty text, and then `é` for `x`. -/
def touchingDrawn (n : Nat) : Option Replacement :=
  [none, some ⟨"x", "name"⟩, some ⟨"x", "name"⟩, none, some ⟨"", "name"⟩, some ⟨"é", ""⟩][n]?.join

/-- Picks of both names in turn, with these draws. -/
def touchingDraws : Feed touching (Tape.draw touchingDrawn) ⟨fun n => n % 2, 0⟩ :=
  .ofTape touching (fun n => ⟨n % 2, Nat.mod_lt n (by decide)⟩) touchingDrawn

/-- Of these, two draws are accepted, the first of them just in time for a limit of three. -/
theorem touching_settled :
    touching.text = .ok "éx" ∧ (∀ span ∈ touching.spans, span.Cuts "éx") ∧
      touchingDraws.accepted 6 = [2, 5] ∧
      ∃ made, touchingDraws.Makes 6 made ∧
        Pass.EndsAt (mutants · touching (2 : Nat) (Tape.draw touchingDrawn) (some (3 : Nat)))
          ⟨fun n => n % 2, 0⟩ 6 ⟨made, .complete⟩ (touchingDraws.state 6) := by
  have htext : touching.text = .ok "éx" := by
    have hbytes : touching.bytes = Utf8.encode "éx" := by decide +kernel
    rw [Harvest.text, hbytes, Utf8.decode_encode]
    rfl
  have hcuts : ∀ span ∈ touching.spans, span.Cuts "éx" := by
    intro span hspan
    rcases List.mem_cons.mp hspan with rfl | hspan
    · exact ⟨"", "é", "x", by decide +kernel, by decide +kernel, by decide +kernel⟩
    · obtain rfl := List.mem_singleton.mp hspan
      exact ⟨"é", "x", "", by decide +kernel, by decide +kernel, by decide +kernel⟩
  -- The third draw and the sixth are accepted, the first of them within the limit of three.
  have haccepted : touchingDraws.accepted 6 = [2, 5] := by decide +kernel
  have hfirst : ∃ n < 3, touchingDraws.Accepted n := ⟨2, by decide, by decide +kernel⟩
  have hfills : touchingDraws.Fills 2 6 := ⟨congrArg List.length haccepted, by decide +kernel⟩
  have hsettles := (mutants_of_feed htext hcuts (Tape.draw touchingDrawn) _ 2 3).2 touchingDraws
  exact ⟨htext, hcuts, haccepted, hsettles.completes (by decide) hfirst 6 hfills⟩

end DrawLoop

end SourceMutation
