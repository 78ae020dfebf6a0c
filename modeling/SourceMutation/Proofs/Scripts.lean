import SourceMutation.Proofs.Splicing

/-!
# Draws from a script

A computation that chooses by a script reads it from the front: what it did with some picks it does
with these picks before any others (`Chance.Takes`), and it stops for want of a pick only where the
next pick is none of the possible ones (`Chance.Reads`).

For the draw loop this says that a loop that has run out of draws can be taken up where it stands
(`DrawLoop.more_resumes`), and that picks of one acceptable draw, repeated, bring it to its end
(`DrawLoop.more_completes`).
-/

namespace SourceMutation

variable {α β : Type}

/-! ## Reading a script -/

namespace Chance

/-- Whether a computation makes a result of some picks and leaves the picks after them alone. -/
def Takes (m : Chance Script α) (picks : List Nat) (a : α) : Prop :=
  ∀ later, m ⟨picks ++ later⟩ = (.ok a, ⟨later⟩)

/-- A computation that takes its picks one by one from the front. -/
structure Reads (m : Chance Script α) : Prop where
  takes : ∀ {script a rest}, m script = (.ok a, rest) →
    ∃ picks, script.picks = picks ++ rest.picks ∧ m.Takes picks a
  /-- The first item of a list can always be chosen. -/
  wants : ∀ {script rest}, m script = (.error .unfinished, rest) → rest.picks.head? ≠ some 0

variable {m : Chance Script α} {f : α → Chance Script β} {picks first second : List Nat}

theorem takes_pure (a : α) : Takes (pure a) [] a := fun _ => rfl

/-- What two parts do with their picks, both do with the picks of one behind those of the other. -/
theorem Takes.bind {a : α} {b : β} (hm : m.Takes first a) (hf : (f a).Takes second b) :
    (m >>= f).Takes (first ++ second) b := by
  intro later
  rw [bind_apply, List.append_assoc, hm]
  exact hf later

/-- A pick takes the next number of the script as the place of an item. -/
theorem pick_apply {items : List α} (hitems : items ≠ []) (picks : List Nat) :
    (pick items : Chance Script α) ⟨picks⟩ =
      match picks with
      | [] => (.error .unfinished, ⟨[]⟩)
      | next :: rest =>
        if h : next < items.length then (.ok items[next], ⟨rest⟩)
        else (.error .unfinished, ⟨next :: rest⟩) := by
  cases items with
  | nil => exact absurd rfl hitems
  | cons item others =>
    show ((below (item :: others).length >>= fun i => pure ((item :: others).get i) :
      Chance Script α) ⟨picks⟩) = _
    rw [bind_apply, below]
    cases picks with
    | nil => rfl
    | cons next rest =>
      -- The next number is a place of the list or is refused and stays.
      by_cases h : next < (item :: others).length
      · simp only [Chooser.below, dif_pos h]
        rfl
      · simp only [Chooser.below, dif_neg h]

/-- Picking a place takes one number. -/
theorem takes_pick {items : List α} {i : Nat} (hi : i < items.length) :
    Takes (pick items) [i] items[i] := by
  intro later
  rw [pick_apply (List.ne_nil_of_length_pos (Nat.zero_lt_of_lt hi))]
  exact dif_pos hi

/-- A result that is given takes no number. -/
theorem takes_ofExcept {result : Except Failure α} {a : α} (h : result = .ok a) :
    Takes (ofExcept result) [] a := by
  subst h
  exact takes_pure a

theorem reads_pure (a : α) : Reads (pure a) where
  takes h := by
    cases h
    exact ⟨[], rfl, takes_pure a⟩
  wants h := by cases h

/-- A result that is given reads nothing. -/
theorem reads_ofExcept (result : Except Failure α) : Reads (ofExcept result) where
  takes {script a rest} h := by
    have hok := ofExcept_eq_ok h
    have hrest := (takes_ofExcept hok) script.picks
    rw [List.nil_append, h] at hrest
    cases hrest
    exact ⟨[], rfl, takes_ofExcept hok⟩
  wants h := by cases result <;> cases h

/-- Two parts read a script from the front if each of them does. -/
theorem Reads.bind (hm : m.Reads) (hf : ∀ a, (f a).Reads) : (m >>= f).Reads where
  takes h := by
    obtain ⟨a, between, hfirst, hsecond⟩ := bind_eq_ok.mp h
    obtain ⟨first, hscript, htakes⟩ := hm.takes hfirst
    obtain ⟨second, hbetween, hthen⟩ := (hf a).takes hsecond
    refine ⟨first ++ second, ?_, htakes.bind hthen⟩
    rw [hscript, hbetween, List.append_assoc]
  wants {script rest} h := by
    rw [bind_apply] at h
    split at h
    case h_1 a between hfirst => exact (hf a).wants h
    case h_2 stop between hfirst =>
      cases h
      exact hm.wants hfirst

/-- Picking reads the next number, and wants one of a place. -/
theorem reads_pick (items : List α) : Reads (pick items) := by
  by_cases hitems : items = []
  · subst hitems
    exact ⟨fun h => (nomatch h), fun h => (nomatch h)⟩
  · constructor
    · rintro ⟨picks⟩ a rest h
      rw [pick_apply hitems] at h
      cases picks with
      | nil => cases h
      | cons next picks =>
        dsimp only at h
        split at h
        case isTrue hlt =>
          cases h
          exact ⟨[next], rfl, takes_pick hlt⟩
        case isFalse => cases h
    · rintro ⟨picks⟩ rest h
      rw [pick_apply hitems] at h
      cases picks with
      | nil =>
        cases h
        simp
      | cons next picks =>
        dsimp only at h
        split at h
        case isTrue => cases h
        case isFalse hge =>
          -- A list with items has a first one, so what was refused is not its place.
          cases h
          have hpos := List.length_pos_iff.mpr hitems
          intro hzero
          cases hzero
          exact hge hpos

end Chance

/-! ## The draw loop on a script -/

/-- A draft with mutants before its own. -/
def Draft.afterAll (mutants : List Mutant) (draft : Draft) : Draft :=
  ⟨mutants ++ draft.mutants, draft.ending⟩

namespace DrawLoop

section Steps

variable {σ : Type} [Chooser σ] {harvest : Harvest} {draw : Draw σ} {stall : StallLimit}
  {fuel missing made attempts : Nat} {state between : σ}

/-- A loop that made nothing gives up at its limit. -/
theorem more_gaveUp (hgives : made = 0 ∧ stall.exceededBy (attempts + 1)) :
    more harvest draw stall (fuel + 1) (missing + 1) made attempts state
      = (⟨[], .gaveUp⟩, state) :=
  if_pos hgives

/-- A loop goes on after a draw that is not accepted. -/
theorem more_reject (hgoes : ¬(made = 0 ∧ stall.exceededBy (attempts + 1)))
    (h : once harvest draw (made + 1) state = (.ok none, between)) :
    more harvest draw stall (fuel + 1) (missing + 1) made attempts state
      = more harvest draw stall fuel (missing + 1) made (attempts + 1) between := by
  rw [more]
  simp only [if_neg hgoes, h]

/-- A loop puts an accepted mutant in front of those that come later. -/
theorem more_accept {mutant : Mutant} (hgoes : ¬(made = 0 ∧ stall.exceededBy (attempts + 1)))
    (h : once harvest draw (made + 1) state = (.ok (some mutant), between)) :
    more harvest draw stall (fuel + 1) (missing + 1) made attempts state
      = Prod.map (Draft.after mutant) id
          (more harvest draw stall fuel missing (made + 1) (attempts + 1) between) := by
  rw [more]
  simp only [if_neg hgoes, h]
  rfl

/-- A loop stops where a draw stops. -/
theorem more_stop {stop : Stop} (hgoes : ¬(made = 0 ∧ stall.exceededBy (attempts + 1)))
    (h : once harvest draw (made + 1) state = (.error stop, between)) :
    more harvest draw stall (fuel + 1) (missing + 1) made attempts state
      = (⟨[], .stopped stop⟩, between) := by
  rw [more]
  simp only [if_neg hgoes, h]

end Steps

variable {harvest : Harvest} {draw : Draw Script} {stall : StallLimit}
  {fuel missing made attempts : Nat} {picks : List Nat}

/--
A loop that ran out of draws while its script went on with a pick of the first item can be taken up
where it stands: with more draws, and with any later picks.
-/
theorem more_resumes (hreads : ∀ index, (once harvest draw index).Reads) {script rest : Script}
    {mutants : List Mutant}
    (h : more harvest draw stall fuel missing made attempts script
      = (⟨mutants, .stopped .unfinished⟩, rest))
    (hrest : rest.picks.head? = some 0) :
    mutants.length < missing ∧ ∃ picks, script.picks = picks ++ rest.picks ∧
      ∀ extra later,
        more harvest draw stall (fuel + extra) missing made attempts ⟨picks ++ later⟩
          = Prod.map (Draft.afterAll mutants) id
              (more harvest draw stall extra (missing - mutants.length) (made + mutants.length)
                (attempts + fuel) ⟨later⟩) := by
  -- The induction follows the draws that were made; what is left is the loop with none made yet.
  induction fuel generalizing missing made attempts script mutants with
  | zero =>
    cases missing with
    | zero => cases h
    | succ missing =>
      cases h
      refine ⟨Nat.succ_pos missing, [], rfl, fun extra later => ?_⟩
      rw [Nat.zero_add]
      rfl
  | succ fuel ih =>
    cases missing with
    | zero => cases h
    | succ missing =>
      by_cases hgives : made = 0 ∧ stall.exceededBy (attempts + 1)
      · rw [more_gaveUp hgives] at h
        cases h
      · rcases honce : once harvest draw (made + 1) script with ⟨stop | (_ | mutant), between⟩
        case error =>
          rw [more_stop hgives honce] at h
          cases h
          -- A draw that stopped for want of a pick would have taken that of the first item.
          exact absurd hrest ((hreads _).wants honce)
        case ok.none =>
          -- The draw is rejected again, and the loop behind it is taken up.
          rw [more_reject hgives honce] at h
          obtain ⟨first, hscript, htakes⟩ := (hreads _).takes honce
          obtain ⟨hlength, picks, hbetween, hresumes⟩ := ih h
          refine ⟨hlength, first ++ picks, ?_, fun extra later => ?_⟩
          · rw [hscript, hbetween, List.append_assoc]
          · rw [Nat.add_right_comm, List.append_assoc, more_reject hgives (htakes _), hresumes,
              Nat.add_assoc attempts 1 fuel, Nat.add_comm 1 fuel]
        case ok.some =>
          -- The draw is accepted again, and its mutant stands before those of the loop behind it.
          rw [more_accept hgives honce] at h
          obtain ⟨first, hscript, htakes⟩ := (hreads _).takes honce
          rcases hmore : more harvest draw stall fuel missing (made + 1) (attempts + 1) between
            with ⟨⟨others, ending⟩, state⟩
          rw [hmore] at h
          cases h
          obtain ⟨hlength, picks, hbetween, hresumes⟩ := ih hmore
          refine ⟨Nat.succ_lt_succ hlength, first ++ picks, ?_, fun extra later => ?_⟩
          · rw [hscript, hbetween, List.append_assoc]
          · have hmade : made + 1 + others.length = made + (mutant :: others).length := by
              rw [List.length_cons]
              omega
            have hmissing : missing - others.length = missing + 1 - (mutant :: others).length := by
              rw [List.length_cons]
              omega
            rw [Nat.add_right_comm, List.append_assoc, more_accept hgives (htakes _), hresumes,
              Nat.add_assoc attempts 1 fuel, Nat.add_comm 1 fuel, hmade, hmissing]
            rfl

/-- One draw reads the span, and then what the draw of a candidate reads. -/
theorem reads_once (hdraw : ∀ span, (draw span).Reads) (index : Nat) :
    (once harvest draw index).Reads := by
  apply (Chance.reads_pick harvest.spans).bind
  intro span
  apply (hdraw span).bind
  rintro (_ | replacement)
  · exact Chance.reads_pure none
  · apply (Chance.reads_ofExcept _).bind
    intro own
    split
    · exact (Chance.reads_ofExcept _).bind fun mutant => Chance.reads_pure (some mutant)
    · exact Chance.reads_pure none

/-- Picks of a span and of something that can replace it are accepted. -/
theorem takes_once {i index : Nat} (hi : i < harvest.spans.length) {replacement : Replacement}
    (hdraw : (draw harvest.spans[i]).Takes picks (some replacement)) {own : String}
    (hown : harvest.textOf harvest.spans[i] = .ok own)
    (heligible : isEligible replacement.text own = true) {mutant : Mutant}
    (hmake : Mutant.make harvest index harvest.spans[i] replacement = .ok mutant) :
    (once harvest draw index).Takes (i :: picks) (some mutant) := by
  have hall : (once harvest draw index).Takes ([i] ++ (picks ++ ([] ++ ([] ++ []))))
      (some mutant) := by
    refine (Chance.takes_pick hi).bind (hdraw.bind ((Chance.takes_ofExcept hown).bind ?_))
    rw [if_pos heligible]
    exact (Chance.takes_ofExcept hmake).bind (Chance.takes_pure (some mutant))
  simpa using hall

/-- Picks that are accepted, taken again and again, make all mutants that are missing. -/
theorem more_completes (missing : Nat)
    (hpicks : ∀ index, ∃ mutant, (once harvest draw index).Takes picks (some mutant))
    (hgoes : ¬(made = 0 ∧ stall.exceededBy (attempts + 1))) :
    ∃ mutants, mutants.length = missing ∧
      more harvest draw stall missing missing made attempts
          ⟨(List.replicate missing picks).flatten⟩
        = (⟨mutants, .complete⟩, ⟨[]⟩) := by
  induction missing generalizing made attempts with
  | zero => exact ⟨[], rfl, rfl⟩
  | succ missing ih =>
    obtain ⟨mutant, htakes⟩ := hpicks (made + 1)
    -- From the first mutant on there is no limit.
    have hlater : ¬(made + 1 = 0 ∧ stall.exceededBy (attempts + 1 + 1)) :=
      fun h => Nat.succ_ne_zero made h.1
    obtain ⟨mutants, hlength, hmore⟩ := ih hlater
    refine ⟨mutant :: mutants, congrArg (· + 1) hlength, ?_⟩
    rw [List.replicate_succ, List.flatten_cons, more_accept hgoes (htakes _), hmore]
    rfl

end DrawLoop

end SourceMutation
