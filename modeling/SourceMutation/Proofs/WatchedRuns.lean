import Mathlib.Algebra.Ring.Nat
import SourceMutation.Command.Perform
import SourceMutation.Proofs.Effects

/-!
# Runs that are watched

A run with a bar over its sources is the same run without one, but for the bar: it comes to the same
result, with the same files, numbers and grammars, and logs, reads, hands over and writes the same
in the same order (`Run.trackAfter_watches`).

Of bars there is at most one, and it tells how the run ended (`Run.LeavesBars`):

- A run that returns leaves a bar at its end, unless there are no sources to track.
- A run that stops at a source leaves the bar at the sources before that one.
- A run that stops before its first source leaves none.

A run without a bar leaves none, of course (`Run.bars_mutateAfter`).

A bar that was left at its end is drawn in full and tells a hundred percent, although both come from
quotients in double precision (`Bar.text_full`).
-/

namespace SourceMutation

variable {σ α β : Type}

/-! ## Worlds that differ in bars -/

namespace World

/-- Whether two worlds are the same but for some bars that were left in the first one besides. -/
structure BesidesBars (watched plain : World σ) (left : List (Nat × Nat)) : Prop where
  tree : watched.tree = plain.tree
  chance : watched.chance = plain.chance
  grammars : watched.grammars = plain.grammars
  /-- All other events are the same, in the same order. -/
  events : watched.events.filter (fun event => event.bar?.isNone)
    = plain.events.filter (fun event => event.bar?.isNone)
  bars : watched.bars = plain.bars ++ left

variable {watched plain : World σ} {left : List (Nat × Nat)}

theorem BesidesBars.refl (world : World σ) : world.BesidesBars world [] :=
  ⟨rfl, rfl, rfl, rfl, (List.append_nil _).symm⟩

/-- An event adds its bar, if it is one. -/
@[simp] theorem bars_after (world : World σ) (event : Event) :
    (world.after event).bars = world.bars ++ event.bar?.toList := by
  rw [bars, events_after, List.filterMap_append, ← bars]
  cases event <;> rfl

/-- Whatever a run does that is not watched, it leaves no bar. -/
theorem steps_bars (directory : Path) :
    Steps directory fun first second : World σ => second.bars = first.bars where
  refl _ := rfl
  trans h h' := h'.trans h
  logged world line := by simp [Event.bar?]
  loaded _ _ := rfl
  drawn _ _ := rfl
  read world path bytes _ := by simp [Event.bar?]
  accepted world source mutant := by simp [Event.bar?]
  made _ _ := rfl
  wrote world path bytes tree _ := by
    rw [bars_after]
    exact List.append_nil _

/-- What else is told in both worlds makes no difference. -/
theorem BesidesBars.after (h : watched.BesidesBars plain left) {event : Event}
    (hevent : event.bar? = none) : (watched.after event).BesidesBars (plain.after event) left where
  tree := h.tree
  chance := h.chance
  grammars := h.grammars
  events := by rw [events_after, events_after, List.filter_append, List.filter_append, h.events]
  bars := by simp [hevent, h.bars]

/-- One more bar is one more bar. -/
theorem besidesBars_after_tracked (world : World σ) (done total : Nat) :
    (world.after (.tracked done total)).BesidesBars world [(done, total)] where
  tree := rfl
  chance := rfl
  grammars := rfl
  events := by simp [Event.bar?]
  bars := by simp [Event.bar?]

/-- Whatever is told by other events is told in both worlds alike. -/
theorem BesidesBars.filterMap_eq (h : watched.BesidesBars plain left) {f : Event → Option β}
    (hf : ∀ done total, f (.tracked done total) = none) :
    watched.events.filterMap f = plain.events.filterMap f := by
  have hother : ∀ events : List Event, events.filterMap f
      = (events.filter fun event => event.bar?.isNone).filterMap f := by
    intro events
    have hsame : (fun event : Event => if event.bar?.isNone then f event else none) = f := by
      funext event
      cases event with
      | logged | read | accepted | wrote => rfl
      | tracked done total => exact (hf done total).symm
    rw [List.filterMap_filter, hsame]
  rw [hother, hother plain.events, h.events]

/-- The same was handed over. -/
theorem BesidesBars.acceptances (h : watched.BesidesBars plain left) :
    watched.acceptances = plain.acceptances := h.filterMap_eq fun _ _ => rfl

/-- The same was written. -/
theorem BesidesBars.writings (h : watched.BesidesBars plain left) :
    watched.writings = plain.writings := h.filterMap_eq fun _ _ => rfl

/-- The same was logged. -/
theorem BesidesBars.lines (h : watched.BesidesBars plain left) :
    watched.lines = plain.lines := h.filterMap_eq fun _ _ => rfl

end World

/-! ## Passes over the sources

A bar is recorded where the pass ends, by how far it came.  Until then the watched pass does what
the other one does.
-/

namespace Run

/-- Whether a run ends like the same run without a bar, but for some bars. -/
def Watches (watched plain : Except Stop α × World σ) (left : List (Nat × Nat)) : Prop :=
  watched.1 = plain.1 ∧ watched.2.BesidesBars plain.2 left

/-- Which bars are left over some sources, by what comes of going over them. -/
inductive LeavesBars : Except Stop (List SourceReport) → List (Nat × Nat) → Prop
  /-- There are no sources to track. -/
  | none : LeavesBars (.ok []) []
  /-- All sources are behind the bar. -/
  | full {sources : List SourceReport} (h : sources ≠ []) :
    LeavesBars (.ok sources) [(sources.length, sources.length)]
  /-- A source failed, and those before it are behind the bar. -/
  | early {failure : Failure} {done total : Nat} (h : done < total) :
    LeavesBars (.error (.failed failure)) [(done, total)]
  /-- The first source was not come to, or a source does not come to an end. -/
  | untracked {stop : Stop} : LeavesBars (.error stop) []

section Runs

variable [Chooser σ] (tools : Toolchain)

/-- A bar over some sources, of which some are behind it already, is left at its end or before. -/
theorem trackFiles_watches (plan : Plan) (corpus : Option Corpus) (paths : List Path) (done : Nat)
    (world : World σ) :
    ∃ left, Watches (trackFiles tools plan corpus (done + paths.length) done paths world)
        (mutateFiles tools plan corpus paths world) left ∧
      match (mutateFiles tools plan corpus paths world).1 with
      | .ok reports => reports.length = paths.length ∧
          left = [(done + paths.length, done + paths.length)]
      | .error (.failed _) => ∃ behind, behind < done + paths.length ∧
          left = [(behind, done + paths.length)]
      | .error .unfinished => left = [] := by
  induction paths generalizing done world with
  | nil => exact ⟨_, ⟨rfl, World.besidesBars_after_tracked world done done⟩, rfl, rfl⟩
  | cons path rest ih =>
    rw [trackFiles, mutateFiles, Chance.bind_apply, Chance.bind_apply, Chance.tryCatch_apply]
    rcases mutateFile tools plan corpus path world with ⟨(failure | _) | report, between⟩
    · -- The bar is left at the source that fails.
      exact ⟨_, ⟨rfl, World.besidesBars_after_tracked between done _⟩, done, by simp, rfl⟩
    · exact ⟨[], ⟨rfl, .refl between⟩, rfl⟩
    · obtain ⟨left, hwatches, hleft⟩ := ih (done + 1) between
      have hcount : done + (path :: rest).length = done + 1 + rest.length := by
        rw [List.length_cons]
        omega
      dsimp only
      rw [hcount, Chance.bind_apply, Chance.bind_apply]
      refine ⟨left, ?_⟩
      generalize trackFiles tools plan corpus (done + 1 + rest.length) (done + 1) rest between
        = watched at hwatches ⊢
      generalize mutateFiles tools plan corpus rest between = plain at hwatches hleft ⊢
      obtain ⟨result, after⟩ := watched
      obtain ⟨result', after'⟩ := plain
      obtain ⟨rfl, hworlds⟩ := hwatches
      rcases result with (failure | _) | reports
      · exact ⟨⟨rfl, hworlds⟩, hleft⟩
      · exact ⟨⟨rfl, hworlds⟩, hleft⟩
      · obtain ⟨hlength, rfl⟩ := hleft
        exact ⟨⟨rfl, hworlds⟩, by simp [hlength], rfl⟩

/-- The pass over the sources is the same with a bar, and leaves the bar that its end asks for. -/
theorem mutateTracked_watches (plan : Plan) (corpus : Option Corpus) (paths : List Path)
    (world : World σ) :
    ∃ left, Watches (mutateTracked tools plan corpus paths world)
        (mutateFiles tools plan corpus paths world) left ∧
      LeavesBars (mutateFiles tools plan corpus paths world).1 left := by
  cases paths with
  -- There are no sources to track.
  | nil => exact ⟨[], ⟨rfl, .refl world⟩, .none⟩
  | cons path rest =>
    obtain ⟨left, hwatches, hleft⟩ :=
      trackFiles_watches tools plan corpus (path :: rest) 0 world
    rw [Nat.zero_add] at hwatches hleft
    refine ⟨left, hwatches, ?_⟩
    generalize (mutateFiles tools plan corpus (path :: rest) world).1 = result at hleft ⊢
    -- A failure leaves the bar behind, the want of numbers leaves none, and a result leaves it in
    -- full.
    rcases result with (failure | _) | reports
    · obtain ⟨behind, hbehind, rfl⟩ := hleft
      exact .early hbehind
    · obtain rfl := hleft
      exact .untracked
    · obtain ⟨hlength, rfl⟩ := hleft
      rw [← hlength]
      exact .full (List.ne_nil_of_length_eq_add_one hlength)

/-! ## Whole runs -/

/-- A plan is carried out in the same way with a bar over its sources. -/
theorem carryOut_watches (plan : Plan) (world : World σ) :
    ∃ left, Watches (carryOutBy (mutateTracked tools plan) tools plan world)
        (carryOut tools plan world) left ∧
      LeavesBars ((carryOut tools plan world).1.map Summary.sources) left := by
  rw [carryOut, carryOutBy, carryOutBy, log_bind_apply, log_bind_apply, Chance.bind_apply,
    Chance.bind_apply]
  rcases gather tools plan (world.after (.logged (startLine plan))) with
    ⟨stop | ⟨files, corpus⟩, gathered⟩
  · exact ⟨[], ⟨rfl, .refl gathered⟩, .untracked⟩
  -- Both have gathered the same, and are at the pass that the bar is over.
  · obtain ⟨left, hwatches, hleft⟩ :=
      mutateTracked_watches tools plan corpus files gathered
    dsimp only
    rw [Chance.bind_apply, Chance.bind_apply]
    refine ⟨left, ?_⟩
    generalize mutateTracked tools plan corpus files gathered = watched at hwatches ⊢
    generalize mutateFiles tools plan corpus files gathered = plain at hwatches hleft ⊢
    obtain ⟨result, after⟩ := watched
    obtain ⟨result', after'⟩ := plain
    obtain ⟨rfl, hworlds⟩ := hwatches
    rcases result with stop | sources
    · exact ⟨⟨rfl, hworlds⟩, hleft⟩
    · exact ⟨⟨rfl, hworlds.after rfl⟩, hleft⟩

omit [Chooser σ] tools in
/-- Lines around a step stand around it with a bar, too. -/
theorem traced_watches {watched plain : Run σ Summary} {start : World σ} (step : String)
    (h : ∃ left, Watches (watched (start.after (.logged (.entered step))))
        (plain (start.after (.logged (.entered step)))) left ∧
      LeavesBars ((plain (start.after (.logged (.entered step)))).1.map Summary.sources) left) :
    ∃ left, Watches (traced step watched start) (traced step plain start) left ∧
      LeavesBars ((traced step plain start).1.map Summary.sources) left := by
  obtain ⟨left, hwatches, hleft⟩ := h
  refine ⟨left, ?_⟩
  rw [traced, traced, log_bind_apply, log_bind_apply, Chance.bind_apply, Chance.bind_apply,
    Chance.tryCatch_apply, Chance.tryCatch_apply]
  generalize watched (start.after (.logged (.entered step))) = one at hwatches ⊢
  generalize plain (start.after (.logged (.entered step))) = other at hwatches hleft ⊢
  obtain ⟨result, after⟩ := one
  obtain ⟨result', after'⟩ := other
  obtain ⟨rfl, hworlds⟩ := hwatches
  -- The same line is logged behind both, if any.
  rcases result with (failure | _) | summary
  · exact ⟨⟨rfl, hworlds.after rfl⟩, hleft⟩
  · exact ⟨⟨rfl, hworlds⟩, hleft⟩
  · exact ⟨⟨rfl, hworlds.after rfl⟩, hleft⟩

/-- Watching a run changes nothing of it, and leaves at most one bar. -/
theorem trackAfter_watches (opening : Run σ Unit) (settings : Settings) (start : World σ) :
    ∃ left, Watches (trackAfter opening tools settings start)
        (mutateAfter opening tools settings start) left ∧
      LeavesBars ((mutateAfter opening tools settings start).1.map Summary.sources) left := by
  apply traced_watches
  rw [Chance.bind_apply, Chance.bind_apply, tree_apply]
  dsimp only
  rw [World.tree_after]
  generalize start.after (.logged (.entered "run_mutation")) = entered
  rw [Chance.bind_apply, Chance.bind_apply]
  -- A run that stops before it goes over its sources leaves no bar.
  rcases hcheck : settings.check start.tree with failure | plan
  · exact ⟨[], ⟨rfl, .refl entered⟩, .untracked⟩
  · rw [ofExcept_ok_apply]
    dsimp only
    rw [Chance.bind_apply, Chance.bind_apply]
    rcases opening entered with ⟨stop | _, opened⟩
    · exact ⟨[], ⟨rfl, .refl opened⟩, .untracked⟩
    · exact carryOut_watches tools plan opened

/-- Without a bar over its sources a run leaves none. -/
theorem bars_mutateAfter {settings : Settings} {opening : Run σ Unit}
    (hopening : Opening settings opening) (start : World σ) :
    (mutateAfter opening tools settings start).2.bars = start.bars :=
  mutateAfter_respects World.steps_bars hopening start

end Runs

end Run

/-! ## Bars in full -/

/-- A multiple is divided without a rest. -/
theorem Rounding.nearest_mul {k d : Nat} (h : 0 < d) : nearest (k * d) d = k := by
  rw [nearest, Nat.mul_mod_left, Nat.mul_div_cancel k h]
  have hnot : ¬ d = 0 := Nat.pos_iff_ne_zero.mp h
  simp [hnot]

/-- A quotient that comes out even is not rounded. -/
theorem Real.quotient_mul {k d : Nat} (hd : 0 < d) (hk : k < 2 ^ 53) :
    ∃ j : Nat, quotient (k * d) d = (k * 2 ^ j, -(j : Int)) := by
  unfold quotient
  simp only [Nat.pow_eq]
  generalize hguess : ((k * d).log2 : Int) - d.log2 - 53 = guess
  -- With a whole quotient of so few bits no bit has to go.
  have hlog : (k * d).log2 < d.log2 + 54 := by
    by_cases hzero : k * d = 0
    · rw [hzero]
      exact Nat.succ_pos _
    · rw [Nat.log2_lt hzero]
      calc k * d < 2 ^ 53 * 2 ^ (d.log2 + 1) := Nat.mul_lt_mul'' hk Nat.lt_log2_self
        _ = 2 ^ (d.log2 + 54) := by rw [← Nat.pow_add]; congr 1; omega
  have hle : guess ≤ 0 := by omega
  have hlow : guess = 0 →
      k * d * 2 ^ (-guess).toNat / (d * 2 ^ guess.toNat) < 2 ^ 53 := by
    rintro rfl
    simpa [Nat.mul_div_cancel k hd] using hk
  generalize hexponent : max (if decide (k * d * 2 ^ (-guess).toNat / (d * 2 ^ guess.toNat) < 2 ^ 53)
    then guess else guess + 1) (-1074) = e
  have hnone : e ≤ 0 := by
    rw [← hexponent]
    split
    · omega
    · rename_i hnot
      have hne : guess ≠ 0 := fun h => hnot (decide_eq_true (hlow h))
      omega
  have hwhole : e.toNat = 0 := Int.toNat_of_nonpos hnone
  refine ⟨(-e).toNat, Prod.ext ?_ (by dsimp only; omega)⟩
  rw [hwhole, Nat.pow_zero, Nat.mul_one, Nat.mul_right_comm]
  exact Rounding.nearest_mul hd

/-- A bar at its end is full. -/
theorem Bar.halves_full {n : Nat} (h : 0 < n) : halves n n = 2 * width := by
  obtain ⟨j, hj⟩ := Real.quotient_mul h (show 2 * width < 2 ^ 53 by decide)
  rw [halves, hj]
  simp

/-- A bar at its end tells a hundred percent. -/
theorem Bar.percentage_full {n : Nat} (h : 0 < n) : percentage n n = 100 := by
  obtain ⟨j, hj⟩ := Real.quotient_mul h (show 1 < 2 ^ 53 by decide)
  obtain ⟨i, hi⟩ := Real.quotient_mul (Nat.two_pow_pos j) (show 100 < 2 ^ 53 by decide)
  rw [Nat.one_mul, Nat.one_mul] at hj
  rw [Nat.mul_comm] at hi
  simp [percentage, hj, hi, Rounding.nearest_mul (Nat.two_pow_pos i)]

/-- What is shown of a bar that was left at its end. -/
theorem Bar.text_full {n : Nat} (h : 0 < n) (time : Value) :
    text time n n
      = "Mutating " ++ String.ofList (List.replicate width '━') ++ " 100% "
          ++ clock (seconds time) := by
  have hdrawn : padded width false (drawn n n) = String.ofList (List.replicate width '━') := by
    rw [drawn, halves_full h]
    decide +kernel
  have hpercentage : padded 3 true (toString (percentage n n)) = "100" := by
    rw [percentage_full h]
    decide +kernel
  have hend : (decide (n < n) && decide (seconds time = 0)) = false := by simp
  have hbefore : "Mutating " ++ String.ofList (List.replicate width '━') ++ " " ++ "100" ++ "% "
      = "Mutating " ++ String.ofList (List.replicate width '━') ++ " 100% " := by
    decide +kernel
  rw [text, hdrawn, hpercentage, hend]
  exact congrArg (· ++ clock (seconds time)) hbefore

/-! ## Runs that a command line asks for -/

namespace Command

variable {options : MutateOptions}

/-- Which bars are left of a run that a command line asks for, by what the run comes to. -/
def LeavesBars (options : MutateOptions) (result : Except Stop Summary) (left : List (Nat × Nat)) :
    Prop :=
  if options.isWatched then Run.LeavesBars (result.map Summary.sources) left else left = []

/-- A command line that asks for no bar runs without one. -/
theorem seededRun_of_not_isWatched (h : options.isWatched = false) (tools : Toolchain)
    (settings : Settings) : seededRun options tools settings = Run.mutateSeeded tools settings := by
  simp [seededRun, h]

/-- A run that a command line asks for is one from the settings' seed, watched or not. -/
theorem seededRun_watches (options : MutateOptions) (tools : Toolchain) (settings : Settings)
    (start : World Twister) :
    ∃ left, Run.Watches (seededRun options tools settings start)
        (Run.mutateSeeded tools settings start) left ∧
      LeavesBars options (Run.mutateSeeded tools settings start).1 left := by
  unfold LeavesBars
  cases hwatched : options.isWatched with
  | true =>
    have hseeded : seededRun options tools settings = Run.trackSeeded tools settings := by
      simp [seededRun, hwatched]
    rw [hseeded]
    exact Run.trackAfter_watches tools (Run.seed settings.seed) settings start
  | false =>
    rw [seededRun_of_not_isWatched hwatched]
    exact ⟨[], ⟨rfl, .refl _⟩, rfl⟩

end Command

end SourceMutation
