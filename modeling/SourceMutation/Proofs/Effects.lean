import SourceMutation.Proofs.Preorder
import SourceMutation.Run.Mutation

/-!
# What the steps of a run do to a world

A run takes a world to a world, whether it returns or stops.  This module has what is needed to
speak of that without looking into the monad of runs.

## Equations

The equations take a run apart step by step (`Chance.bind_apply`, `Run.readSource_apply`, ...).
Where a step returns, or stops, they are also stated backwards: from what a run came to, to what its
parts came to (`Chance.bind_eq_ok`, `Chance.bind_eq_error`, `Run.traced_eq_ok`).

## Relations that runs respect

A run respects a relation of worlds if the relation holds between the world before it and the world
after it (`Run.Respects`).

- A relation is tolerant if it puts up with logging, loading grammars and drawing numbers
  (`World.Tolerant`).  For these there is one lemma for each step that does no more than that, and
  one with a condition for each step that reads, hands over, makes a directory or writes.
- A relation that puts up with all of that (`World.Steps`) is respected by whole runs
  (`Run.mutateAfter_respects`).

Two relations are used throughout: `World.Adds`, by which only events of some sort are added, and
`World.SameTree`, by which the files stay as they are.
-/

namespace SourceMutation

variable {σ α β : Type}

/-! ## Events -/

/-- An element of two lists in a row stands in the first one or in the second one. -/
theorem append_eq_append_cons {first second before after : List α} {a : α}
    (h : first ++ second = before ++ a :: after) :
    (∃ rest, first = before ++ a :: rest) ∨
      ∃ middle, before = first ++ middle ∧ second = middle ++ a :: after := by
  rcases List.append_eq_append_iff.mp h with ⟨middle, hbefore, hsecond⟩ | ⟨rest, hfirst, hrest⟩
  · exact .inr ⟨middle, hbefore, hsecond⟩
  · cases rest with
    | nil => exact .inr ⟨[], by simpa using hfirst.symm, hrest.symm⟩
    | cons other rest =>
      rw [List.cons_append, List.cons.injEq] at hrest
      obtain ⟨rfl, -⟩ := hrest
      exact .inl ⟨rest, hfirst⟩

namespace World

/-- The world after one more event. -/
def after (world : World σ) (event : Event) : World σ :=
  { world with history := event :: world.history }

@[simp] theorem events_after (world : World σ) (event : Event) :
    (world.after event).events = world.events ++ [event] := by
  simp [after, events]

@[simp] theorem tree_after (world : World σ) (event : Event) :
    (world.after event).tree = world.tree := rfl

@[simp] theorem chance_after (world : World σ) (event : Event) :
    (world.after event).chance = world.chance := rfl

@[simp] theorem grammars_after (world : World σ) (event : Event) :
    (world.after event).grammars = world.grammars := rfl

/-- The world after lines were logged. -/
def afterLines (world : World σ) (lines : List LogLine) : World σ :=
  lines.foldl (fun world line => world.after (.logged line)) world

@[simp] theorem tree_afterLines (world : World σ) (lines : List LogLine) :
    (world.afterLines lines).tree = world.tree := by
  induction lines generalizing world with
  | nil => rfl
  | cons line rest ih => exact ih (world.after (.logged line))

@[simp] theorem events_afterLines (world : World σ) (lines : List LogLine) :
    (world.afterLines lines).events = world.events ++ lines.map Event.logged := by
  induction lines generalizing world with
  | nil => simp [afterLines]
  | cons line rest ih =>
    rw [afterLines, List.foldl_cons, ← afterLines, ih, events_after]
    simp

@[simp] theorem events_fresh (tree : FileTree) (chance : σ) (grammars : Grammars) :
    (fresh tree chance grammars).events = [] := rfl

/-- One more line after some lines. -/
theorem after_afterLines (world : World σ) (lines : List LogLine) (line : LogLine) :
    (world.afterLines lines).after (.logged line) = world.afterLines (lines ++ [line]) := by
  rw [afterLines, afterLines, List.foldl_append]
  rfl

end World

/-! ## Taking computations apart -/

/-- A result of two parts is there if both are. -/
theorem except_bind_eq_ok {ε : Type} {x : Except ε α} {f : α → Except ε β} {b : β} :
    (x >>= f) = .ok b ↔ ∃ a, x = .ok a ∧ f a = .ok b := by
  cases x with
  | error e =>
    constructor
    · intro h
      cases h
    · rintro ⟨a, h, -⟩
      cases h
  | ok a =>
    constructor
    · intro h
      exact ⟨a, rfl, h⟩
    · rintro ⟨a, h, h'⟩
      cases h
      exact h'

/-- A result of two parts is missing if one of them is. -/
theorem except_bind_eq_error {ε : Type} {x : Except ε α} {f : α → Except ε β} {e : ε} :
    (x >>= f) = .error e ↔ x = .error e ∨ ∃ a, x = .ok a ∧ f a = .error e := by
  cases x with
  | error other =>
    constructor
    · intro h
      cases h
      exact .inl rfl
    · rintro (h | ⟨a, h, -⟩)
      · cases h
        rfl
      · cases h
  | ok a =>
    constructor
    · intro h
      exact .inr ⟨a, rfl, h⟩
    · rintro (h | ⟨a, h, h'⟩)
      · cases h
      · cases h
        exact h'

/-- Renaming errors changes no result. -/
theorem mapError_eq_ok {ε δ : Type} {x : Except ε α} {f : ε → δ} {a : α} :
    x.mapError f = .ok a ↔ x = .ok a := by
  cases x with
  | error e =>
    constructor <;>
    · intro h
      cases h
  | ok b =>
    constructor <;>
    · intro h
      cases h
      rfl

/-- A name that is made for an index is composed of the name of the source and the index. -/
theorem compose_of_ofIndex {source name : String} {index : Int}
    (h : MutantName.ofIndex source index = .ok name) : name = MutantName.compose source index := by
  unfold MutantName.ofIndex at h
  split at h
  · cases h
  · cases h
    rfl

namespace Chance

/-- What two parts come to: the second one goes on where the first one has returned. -/
theorem bind_apply (m : Chance σ α) (f : α → Chance σ β) (state : σ) :
    (m >>= f) state =
      match m state with
      | (.ok a, state) => f a state
      | (.error stop, state) => (.error stop, state) := by
  show ExceptT.bind m f state = _
  simp only [ExceptT.bind, ExceptT.mk, bind, StateT.bind, ExceptT.bindCont]
  rcases m state with ⟨_ | _, _⟩ <;> rfl

/-- What is given as a result is what is returned. -/
theorem ofExcept_eq_ok {result : Except Failure α} {state state' : σ} {a : α}
    (h : (ofExcept result : Chance σ α) state = (.ok a, state')) : result = .ok a := by
  cases result with
  | error failure => cases h
  | ok b =>
    cases h
    rfl

/-- A step that may fail leaves the state to the next one as it was. -/
theorem ofExcept_bind_eq_ok {result : Except Failure α} {f : α → Chance σ β}
    {state state' : σ} {b : β} :
    (ofExcept result >>= f) state = (.ok b, state') ↔
      ∃ a, result = .ok a ∧ f a state = (.ok b, state') := by
  rw [bind_apply]
  -- A result that is given leaves the source of numbers as it is.
  cases result with
  | error failure =>
    constructor
    · intro h
      cases h
    · rintro ⟨a, h, -⟩
      cases h
  | ok a =>
    constructor
    · intro h
      exact ⟨a, rfl, h⟩
    · rintro ⟨a, h, h'⟩
      cases h
      exact h'

/-- What a part with a handler comes to: the handler goes on where the part has stopped. -/
theorem tryCatch_apply (m : Chance σ α) (handle : Stop → Chance σ α) (state : σ) :
    (tryCatch m handle : Chance σ α) state =
      match m state with
      | (.ok a, state) => (.ok a, state)
      | (.error stop, state) => handle stop state := by
  show ExceptT.tryCatch m handle state = _
  simp only [ExceptT.tryCatch, ExceptT.mk, bind, StateT.bind]
  rcases m state with ⟨_ | _, _⟩ <;> rfl

/-- A computation of two parts returns if both do. -/
theorem bind_eq_ok {m : Chance σ α} {f : α → Chance σ β} {state state' : σ} {b : β} :
    (m >>= f) state = (.ok b, state') ↔
      ∃ a between, m state = (.ok a, between) ∧ f a between = (.ok b, state') := by
  rw [bind_apply]
  rcases m state with ⟨stop | a, between⟩
  · constructor
    · intro h
      cases h
    · rintro ⟨a, between, h, -⟩
      cases h
  · constructor
    · intro h
      exact ⟨a, between, rfl, h⟩
    · rintro ⟨a, between, h, h'⟩
      cases h
      exact h'

/-- A computation of two parts stops if the first part does, or the second one after it. -/
theorem bind_eq_error {m : Chance σ α} {f : α → Chance σ β} {state state' : σ} {stop : Stop} :
    (m >>= f) state = (.error stop, state') ↔
      m state = (.error stop, state') ∨
        ∃ a between, m state = (.ok a, between) ∧ f a between = (.error stop, state') := by
  rw [bind_apply]
  rcases m state with ⟨other | a, between⟩
  · constructor
    · intro h
      cases h
      exact .inl rfl
    · rintro (h | ⟨a, between, h, -⟩)
      · cases h
        rfl
      · cases h
  · constructor
    · intro h
      exact .inr ⟨a, between, rfl, h⟩
    · rintro (h | ⟨a, between, h, h'⟩)
      · cases h
      · cases h
        exact h'

end Chance

/-! ## Drafts and their results -/

namespace Draft

variable {draft : Draft}

/-- The mutants of a draft that has a result are its result. -/
theorem mutants_of_result {made : List Mutant} (h : draft.result = .ok made) :
    draft.mutants = made := by
  obtain ⟨mutants, ending⟩ := draft
  cases ending with
  | complete => exact Except.ok.inj h
  | gaveUp => exact Except.ok.inj h
  | stopped stop => cases h

/-- A draft without a result was stopped by what it has instead. -/
theorem ending_of_result {stop : Stop} (h : draft.result = .error stop) :
    draft.ending = .stopped stop := by
  obtain ⟨mutants, ending⟩ := draft
  cases ending with
  | complete | gaveUp => cases h
  | stopped other => rw [Except.error.inj h]

end Draft

namespace Run

@[simp] theorem pure_apply (a : α) (world : World σ) :
    (pure a : Run σ α) world = (.ok a, world) := rfl

@[simp] theorem throw_apply (stop : Stop) (world : World σ) :
    (throw stop : Run σ α) world = (.error stop, world) := rfl

@[simp] theorem fail_apply (failure : Failure) (world : World σ) :
    (fail failure : Run σ α) world = (.error (.failed failure), world) := rfl

@[simp] theorem ofExcept_ok_apply (a : α) (world : World σ) :
    (ofExcept (.ok a) : Run σ α) world = (.ok a, world) := rfl

@[simp] theorem ofExcept_error_apply (failure : Failure) (world : World σ) :
    (ofExcept (.error failure) : Run σ α) world = (.error (.failed failure), world) := rfl

@[simp] theorem tree_apply (world : World σ) :
    (tree : Run σ FileTree) world = (.ok world.tree, world) := rfl

@[simp] theorem setTree_apply (tree : FileTree) (world : World σ) :
    (setTree tree : Run σ Unit) world = (.ok (), { world with tree }) := rfl

@[simp] theorem setChance_apply (chance : σ) (world : World σ) :
    (setChance chance : Run σ Unit) world = (.ok (), { world with chance }) := rfl

@[simp] theorem record_apply (event : Event) (world : World σ) :
    (record event : Run σ Unit) world = (.ok (), world.after event) := rfl

@[simp] theorem log_apply (line : LogLine) (world : World σ) :
    (log line : Run σ Unit) world = (.ok (), world.after (.logged line)) := rfl

/-- A run goes on from a result as any other part does. -/
theorem ofExcept_eq_chance (result : Except Failure α) :
    (ofExcept result : Run σ α) = Chance.ofExcept result := by
  cases result <;> rfl

/-- A result that is given is what a run returns of it. -/
theorem ofExcept_eq_ok {result : Except Failure α} {a : α} {world world' : World σ}
    (h : (ofExcept result : Run σ α) world = (.ok a, world')) : result = .ok a := by
  rw [ofExcept_eq_chance] at h
  exact Chance.ofExcept_eq_ok h

/-- A run goes on from a given result if it is one. -/
theorem ofExcept_bind_eq_ok {result : Except Failure α} {f : α → Run σ β} {world world' : World σ}
    {b : β} :
    (ofExcept result >>= f) world = (.ok b, world') ↔
      ∃ a, result = .ok a ∧ f a world = (.ok b, world') := by
  rw [ofExcept_eq_chance]
  exact Chance.ofExcept_bind_eq_ok

/-- What comes after a line goes on with the line logged. -/
theorem log_bind_apply (line : LogLine) (f : Unit → Run σ α) (world : World σ) :
    (log line >>= f) world = f () (world.after (.logged line)) := by
  rw [Chance.bind_apply, log_apply]

theorem logAll_apply (lines : List LogLine) (world : World σ) :
    (logAll lines : Run σ Unit) world = (.ok (), world.afterLines lines) := by
  induction lines generalizing world with
  | nil => rfl
  | cons line rest ih =>
    rw [logAll, Chance.bind_apply, log_apply]
    exact ih (world.after (.logged line))

/-- A pass draws its numbers from the world, and leaves the others there. -/
theorem draft_apply (pass : Pass σ) (world : World σ) :
    (draft pass : Run σ Draft) world
      = (.ok (pass world.chance).1, { world with chance := (pass world.chance).2 }) := rfl

/-- Loading a parser keeps what was loaded and logs it, whether there is a parser or not. -/
theorem loadParser_apply (tools : Toolchain) (given : Value) (world : World σ) :
    (loadParser tools given : Run σ Unit) world =
      (match (Grammars.askParser tools.installed given world.grammars).answer with
        | .ok _ => .ok ()
        | .error failure => .error (.failed failure),
        { world with grammars := (Grammars.askParser tools.installed given world.grammars).kept
          }.afterLines (Grammars.askParser tools.installed given world.grammars).log) := by
  show (logAll _ >>= _ : Run σ Unit) _ = _
  rw [Chance.bind_apply, logAll_apply]
  dsimp only
  cases (Grammars.askParser tools.installed given world.grammars).answer <;> rfl

theorem logAll_bind_apply (lines : List LogLine) (f : Unit → Run σ α) (world : World σ) :
    (logAll lines >>= f) world = f () (world.afterLines lines) := by
  rw [Chance.bind_apply, logAll_apply]

/-- Making mutants comes to the result of a pass in the plan's mode, and logs lines. -/
theorem mutants_apply [Chooser σ] {tools : Toolchain} {plan : Plan} {harvest : Harvest}
    {corpus : Option Corpus} {world : World σ} {draft : Draft} {chance : σ}
    (hpass : plan.mode.mutants tools.patience harvest plan.count corpus plan.stallLimit world.chance
      = (draft, chance)) :
    ∃ lines, mutants tools plan harvest corpus world
      = (draft.result, World.afterLines { world with chance } lines) := by
  rw [mutants, Chance.bind_apply, draft_apply, hpass]
  dsimp only
  rw [logAll_bind_apply, Draft.result]
  -- A pass that gave up logs one line more than its mutants.
  cases draft.ending with
  | complete | stopped stop => exact ⟨_, rfl⟩
  | gaveUp =>
    dsimp only
    rw [log_bind_apply, World.after_afterLines]
    exact ⟨_, rfl⟩

/-- The mutants of a source are those of a pass in the plan's mode; each of them is logged. -/
theorem mutants_eq_ok [Chooser σ] {tools : Toolchain} {plan : Plan} {harvest : Harvest}
    {corpus : Option Corpus} {made : List Mutant} {world world' : World σ}
    (h : mutants tools plan harvest corpus world = (.ok made, world')) :
    ∃ draft chance lines,
      plan.mode.mutants tools.patience harvest plan.count corpus plan.stallLimit world.chance
        = (draft, chance) ∧
      made = draft.mutants ∧ world' = World.afterLines { world with chance } lines := by
  rcases hpass : plan.mode.mutants tools.patience harvest plan.count corpus plan.stallLimit
    world.chance with ⟨draft, chance⟩
  obtain ⟨lines, hrun⟩ := mutants_apply hpass
  have hboth := h.symm.trans hrun
  have hresult : draft.result = .ok made := (congrArg Prod.fst hboth).symm
  exact ⟨draft, chance, lines, rfl, (Draft.mutants_of_result hresult).symm,
    congrArg Prod.snd hboth⟩

/-- A pass whose mutants go on has a result. -/
theorem result_of_mutants [Chooser σ] {tools : Toolchain} {plan : Plan} {harvest : Harvest}
    {corpus : Option Corpus} {made : List Mutant} {world world' : World σ}
    (h : mutants tools plan harvest corpus world = (.ok made, world')) :
    (plan.mode.mutants tools.patience harvest plan.count corpus plan.stallLimit
      world.chance).1.result = .ok made := by
  rcases hpass : plan.mode.mutants tools.patience harvest plan.count corpus plan.stallLimit
    world.chance with ⟨draft, chance⟩
  obtain ⟨lines, hrun⟩ := mutants_apply hpass
  exact congrArg Prod.fst (hrun.symm.trans h)

/-- What reading a source comes to: its bytes have to be there and to decode. -/
theorem readSource_apply (path : Path) (world : World σ) :
    (readSource path : Run σ String) world =
      match world.tree.read path with
      | .error fault => (.error (.failed (.ofFault (.sourceRead path.text) fault)), world)
      | .ok bytes =>
        match Utf8.decode bytes with
        | .error fault => (.error (.failed (.sourceRead path.text fault.message)), world)
        | .ok text => (.ok text, world.after (.read path bytes)) := by
  rw [readSource, Chance.bind_apply, tree_apply]
  dsimp only
  cases world.tree.read path with
  | error fault => rfl
  | ok bytes =>
    dsimp only
    cases Utf8.decode bytes with
    | error fault => rfl
    | ok text => rfl

/-- A source that was read is a file with bytes that decode, and the reading stands in the log. -/
theorem readSource_eq_ok {path : Path} {world world' : World σ} {text : String}
    (h : (readSource path : Run σ String) world = (.ok text, world')) :
    ∃ bytes, world.tree.read path = .ok bytes ∧ Utf8.decode bytes = .ok text ∧
      world' = world.after (.read path bytes) := by
  rw [readSource_apply] at h
  split at h
  case h_1 => cases h
  case h_2 bytes hbytes =>
    split at h
    case h_1 => cases h
    case h_2 text hdecode =>
      cases h
      exact ⟨bytes, hbytes, hdecode, rfl⟩

/-- A source that cannot be read leaves the world as it was. -/
theorem readSource_eq_error {path : Path} {world world' : World σ} {stop : Stop}
    (h : (readSource path : Run σ String) world = (.error stop, world')) : world' = world := by
  rw [readSource_apply] at h
  split at h
  case h_1 =>
    cases h
    rfl
  case h_2 =>
    split at h
    case h_1 =>
      cases h
      rfl
    case h_2 => cases h

/-- What writing a file of the output comes to. -/
theorem writeOutput_apply (path : Path) (bytes : Bytes) (world : World σ) :
    (writeOutput path bytes : Run σ Unit) world =
      match world.tree.write path bytes with
      | .error fault => (.error (.failed (.ofFault (.outputWrite path.text) fault)), world)
      | .ok tree => (.ok (), World.after { world with tree } (.wrote path bytes)) := by
  rw [writeOutput, Chance.bind_apply, tree_apply]
  dsimp only
  cases world.tree.write path bytes <;> rfl

/-- What ensuring the output directory comes to: what stands at its path is left alone. -/
theorem ensureOutputDirectory_apply (path : Path) (world : World σ) :
    (ensureOutputDirectory path : Run σ Unit) world =
      match world.tree.isPresent path with
      | .error fault => (.error (.failed (.file fault)), world)
      | .ok true => (.ok (), world)
      | .ok false =>
        match world.tree.ensureDirectories path with
        | (.ok (), tree) =>
          (.ok (), World.after { world with tree }
            (.logged (.info s!"Created output directory: {path.text}")))
        | (.error fault, tree) =>
          (.error (.failed (.ofFault (.outputWrite path.text) fault)), { world with tree }) := by
  rw [ensureOutputDirectory, Chance.bind_apply, tree_apply]
  dsimp only
  -- Nothing is made where something stands already, whatever it is.
  rcases world.tree.isPresent path with fault | _ | _
  · rfl
  · dsimp only
    rw [Chance.bind_apply, setTree_apply]
    dsimp only
    rcases world.tree.ensureDirectories path with ⟨_ | _, after⟩ <;> rfl
  · rfl

/-- A traced step returns if its body does; it logs a line before and one after. -/
theorem traced_eq_ok {step : String} {body : Run σ α} {a : α} {world world' : World σ}
    (h : traced step body world = (.ok a, world')) :
    ∃ between, body (world.after (.logged (.entered step))) = (.ok a, between) ∧
      world' = between.after (.logged (.completed step)) := by
  rw [traced, log_bind_apply] at h
  -- The handler only logs and stops again, so a result comes from the body itself.
  obtain ⟨result, between, hbody, hrest⟩ := Chance.bind_eq_ok.mp h
  rw [log_bind_apply] at hrest
  cases hrest
  rw [Chance.tryCatch_apply] at hbody
  split at hbody
  case h_1 after hafter =>
    cases hbody
    exact ⟨between, hafter, rfl⟩
  case h_2 stop after _ =>
    obtain ⟨⟨⟩, third, -, hthrow⟩ := Chance.bind_eq_ok.mp hbody
    cases hthrow

/-! ## Relations that a run respects

What holds across a run is shown step by step.  Many relations put up with lines, grammars and
numbers (`World.Tolerant`), so that only what is read, handed over and written has to be looked at.
-/

/-- Whether a relation holds between the worlds before and after a run. -/
def Respects (R : World σ → World σ → Prop) (m : Run σ α) : Prop :=
  ∀ world, R world (m world).2

/-- What holds across a run holds between the worlds that it leads from and to. -/
theorem Respects.of_run {R : World σ → World σ → Prop} {m : Run σ α} (h : Respects R m)
    {world world' : World σ} {result : Except Stop α} (hrun : m world = (result, world')) :
    R world world' := by
  have hrespects := h world
  rwa [hrun] at hrespects

end Run

/-- Relations between a world and a later one that put up with whatever only logs, loads grammars
or draws numbers. -/
structure World.Tolerant (R : World σ → World σ → Prop) : Prop where
  refl : ∀ world, R world world
  trans : ∀ {first second third}, R first second → R second third → R first third
  logged : ∀ world line, R world (world.after (.logged line))
  loaded : ∀ (world : World σ) grammars, R world { world with grammars }
  drawn : ∀ (world : World σ) chance, R world { world with chance }

namespace Run

variable {R : World σ → World σ → Prop}

/-! ## Steps that a tolerant relation puts up with -/

section Tolerant

variable (hR : World.Tolerant R)

include hR

theorem respects_pure (a : α) : Respects R (pure a : Run σ α) := fun world => hR.refl world

theorem respects_throw (stop : Stop) : Respects R (throw stop : Run σ α) :=
  fun world => hR.refl world

/-- From one world on, the second part need only respect the relation where the first part leads. -/
theorem respects_bind_at {m : Run σ α} {f : α → Run σ β} {world : World σ}
    (hm : R world (m world).2)
    (hf : ∀ a between, m world = (.ok a, between) → R between (f a between).2) :
    R world ((m >>= f) world).2 := by
  rw [Chance.bind_apply]
  cases hrun : m world with
  | mk result between =>
    rw [hrun] at hm
    cases result with
    -- If the first part stops, the second one does nothing.
    | error stop => exact hm
    | ok a => exact hR.trans hm (hf a between hrun)

/-- A run of two parts respects what both parts respect. -/
theorem respects_bind {m : Run σ α} {f : α → Run σ β} (hm : Respects R m)
    (hf : ∀ a, Respects R (f a)) : Respects R (m >>= f) :=
  fun world => respects_bind_at hR (hm world) fun a between _ => hf a between

/-- A run with a handler respects what the run and the handler respect. -/
theorem respects_tryCatch_at {m : Run σ α} {handle : Stop → Run σ α} {world : World σ}
    (hm : R world (m world).2) (hhandle : ∀ stop, Respects R (handle stop)) :
    R world ((tryCatch m handle : Run σ α) world).2 := by
  rw [Chance.tryCatch_apply]
  cases hrun : m world with
  | mk result between =>
    rw [hrun] at hm
    cases result with
    | error stop => exact hR.trans hm (hhandle stop between)
    | ok a => exact hm

theorem respects_ofExcept (result : Except Failure α) : Respects R (ofExcept result : Run σ α) := by
  cases result with
  | error failure => exact respects_throw hR _
  | ok a => exact respects_pure hR a

theorem respects_log (line : LogLine) : Respects R (log line : Run σ Unit) :=
  fun world => hR.logged world line

theorem respects_logAll (lines : List LogLine) : Respects R (logAll lines : Run σ Unit) := by
  induction lines with
  | nil => exact respects_pure hR ()
  | cons line rest ih => exact respects_bind hR (respects_log hR line) fun _ => ih

theorem respects_tree : Respects R (tree : Run σ FileTree) := fun world => hR.refl world

theorem respects_draft (pass : Pass σ) : Respects R (draft pass : Run σ Draft) :=
  fun world => hR.drawn world (pass world.chance).2

/-- Loading a parser changes the kept grammars and logs. -/
theorem respects_loadParser (tools : Toolchain) (given : Value) :
    Respects R (loadParser tools given : Run σ Unit) := by
  intro world
  -- The grammars come first, since they stay even where there is no parser.
  refine hR.trans (hR.loaded world (Grammars.askParser tools.installed given world.grammars).kept) ?_
  refine respects_bind hR (respects_logAll hR _) (fun _ => ?_) _
  cases (Grammars.askParser tools.installed given world.grammars).answer with
  | ok handle => exact respects_pure hR ()
  | error failure => exact respects_throw hR _

/-- A traced step respects what its body does from the world on in which it starts. -/
theorem respects_traced_at (step : String) {body : Run σ α} {world : World σ}
    (hbody : R (world.after (.logged (.entered step)))
      (body (world.after (.logged (.entered step)))).2) :
    R world (traced step body world).2 := by
  rw [traced, log_bind_apply]
  refine hR.trans (hR.logged world (.entered step)) (respects_bind_at hR
    (respects_tryCatch_at hR hbody fun stop => ?_) fun a between _ => ?_)
  · refine respects_bind hR ?_ fun _ => respects_throw hR stop
    cases stop with
    | failed failure => exact respects_log hR _
    | unfinished => exact respects_pure hR ()
  · exact respects_bind hR (respects_log hR _) (fun _ => respects_pure hR a) between

theorem respects_traced (step : String) {body : Run σ α} (hbody : Respects R body) :
    Respects R (traced step body) :=
  fun _ => respects_traced_at hR step (hbody _)

/-! ### Sources -/

/-- Harvesting loads a parser and logs, and does nothing else. -/
theorem respects_harvest (tools : Toolchain) (bytes : Bytes) (given : Value)
    (path : Option String) : Respects R (harvest tools bytes given path) := by
  refine respects_bind hR (respects_loadParser hR tools given) fun _ => ?_
  refine respects_bind hR (respects_ofExcept hR _) fun language => ?_
  refine respects_bind hR (respects_ofExcept hR _) fun harvest => ?_
  split
  · exact respects_bind hR (respects_log hR _) fun _ => respects_pure hR _
  · exact respects_pure hR _

theorem respects_scanRules (suffixes patterns : Value) :
    Respects R (scanRules suffixes patterns : Run σ ScanRules) := by
  refine respects_bind hR (respects_ofExcept hR _) fun rules => ?_
  split
  · exact respects_bind hR (respects_log hR _) fun _ => respects_pure hR _
  · exact respects_pure hR _

theorem respects_visits (directory : Path) (rules : ScanRules) :
    Respects R (visits directory rules : Run σ (List Visit)) := by
  have hmet : Respects R
      (do return (← tree).visits directory rules : Run σ (List Visit)) :=
    respects_bind hR (respects_tree hR) fun _ => respects_pure hR _
  rw [visits]
  split
  · exact respects_bind hR (respects_throw hR _) fun _ => hmet
  · exact hmet

/-- A scan looks at the files, and logs what it passes over. -/
theorem respects_scan (directory : Path) (suffixes patterns : Value) :
    Respects R (scan directory suffixes patterns : Run σ (List Path)) :=
  respects_bind hR (respects_scanRules hR _ _) fun _ =>
    respects_bind hR (respects_visits hR _ _) fun _ =>
      respects_bind hR (respects_logAll hR _) fun _ => respects_pure hR _

/-- Reading a source adds one event, unless it fails. -/
theorem respects_readSource {path : Path}
    (hread : ∀ world bytes, world.tree.read path = .ok bytes →
      R world (world.after (.read path bytes))) :
    Respects R (readSource path : Run σ String) := by
  intro world
  cases hrun : (readSource path : Run σ String) world with
  | mk result after =>
    cases result with
    | error stop =>
      rw [readSource_eq_error hrun]
      exact hR.refl world
    | ok text =>
      obtain ⟨bytes, hbytes, -, rfl⟩ := readSource_eq_ok hrun
      exact hread world bytes hbytes

/-! ### Corpora -/

/-- Adding a file to a corpus reads it. -/
theorem respects_addFile (tools : Toolchain) (language : Language) (maxLines : Nat) (path : Path)
    (corpus : Corpus)
    (hread : ∀ world bytes, world.tree.read path = .ok bytes →
      R world (world.after (.read path bytes))) :
    Respects R (addFile tools language maxLines path corpus) := by
  refine respects_bind hR (respects_readSource hR hread) fun text => ?_
  split
  · refine respects_bind hR (respects_harvest hR _ _ _ _) fun harvest => ?_
    split
    · exact respects_throw hR _
    · exact respects_bind hR (respects_log hR _) fun _ => respects_pure hR _
  · exact respects_bind hR (respects_log hR _) fun _ => respects_pure hR _

/-- Adding what a scan met reads each of the files. -/
theorem respects_addVisits (tools : Toolchain) (language : Language) (maxLines : Nat)
    (directory : Path) (visits : List Visit) (used : Nat) (corpus : Corpus)
    (hread : ∀ world path bytes, world.tree.read path = .ok bytes →
      R world (world.after (.read path bytes))) :
    Respects R (addVisits tools language maxLines directory visits used corpus) := by
  induction visits generalizing used corpus with
  | nil => exact respects_pure hR _
  | cons visit rest ih =>
    refine respects_bind hR (respects_logAll hR _) fun _ => ?_
    -- What is no file is only logged.
    split
    · exact ih used corpus
    · refine respects_bind hR (respects_addFile hR _ _ _ _ _ fun world => hread world _) ?_
      exact fun added => ih _ added.2

/-- Building a corpus reads the files that it is built from. -/
theorem respects_buildCorpus (tools : Toolchain) (directory : Path)
    (language maxLines patterns : Value)
    (hread : ∀ world path bytes, world.tree.read path = .ok bytes →
      R world (world.after (.read path bytes))) :
    Respects R (buildCorpus tools directory language maxLines patterns) :=
  respects_traced hR _ <|
    respects_bind hR (respects_ofExcept hR _) fun _ =>
      respects_bind hR (respects_log hR _) fun _ =>
        respects_bind hR (respects_ofExcept hR _) fun _ =>
          respects_bind hR (respects_scanRules hR _ _) fun _ =>
            respects_bind hR (respects_visits hR _ _) fun _ =>
              respects_bind hR (respects_addVisits hR _ _ _ _ _ _ _ hread) fun _ =>
                respects_bind hR (respects_log hR _) fun _ => respects_pure hR _

/-! ### Mutants -/

/-- Making mutants draws numbers and logs. -/
theorem respects_mutants [Chooser σ] (tools : Toolchain) (plan : Plan) (harvest : Harvest)
    (corpus : Option Corpus) : Respects R (mutants tools plan harvest corpus : Run σ _) := by
  refine respects_bind hR (respects_draft hR _) fun draft => ?_
  refine respects_bind hR (respects_logAll hR _) fun _ => ?_
  split
  · exact respects_pure hR _
  · exact respects_bind hR (respects_log hR _) fun _ => respects_pure hR _
  · exact respects_throw hR _

/-- Handing mutants over records each of them. -/
theorem respects_handOver (source : Path) (mutants : List Mutant)
    (haccepted : ∀ world mutant, mutant ∈ mutants →
      R world (world.after (.accepted source mutant))) :
    Respects R (handOver source mutants : Run σ Unit) := by
  induction mutants with
  | nil => exact respects_pure hR _
  | cons mutant rest ih =>
    refine respects_bind hR (fun world => haccepted world mutant List.mem_cons_self) fun _ => ?_
    exact ih fun world mutant hmem => haccepted world mutant (List.mem_cons_of_mem _ hmem)

/-! ### Output -/

/-- Directories are made only where nothing stands. -/
theorem respects_ensureOutputDirectory (path : Path)
    (hmake : ∀ world : World σ, world.tree.isPresent path = .ok false →
      R world { world with tree := (world.tree.ensureDirectories path).2 }) :
    Respects R (ensureOutputDirectory path : Run σ Unit) := by
  intro world
  rw [ensureOutputDirectory_apply]
  cases hpresent : world.tree.isPresent path with
  | error fault => exact hR.refl world
  | ok answer =>
    cases answer with
    | true => exact hR.refl world
    -- Only here anything is made; a line is logged if that succeeds.
    | false =>
      have hmade := hmake world hpresent
      dsimp only
      rcases hmaking : world.tree.ensureDirectories path with ⟨_ | _, after⟩ <;>
        rw [hmaking] at hmade
      · exact hmade
      · exact hR.trans hmade (hR.logged _ _)

/-- Writing changes the files if it succeeds, and nothing if it fails. -/
theorem respects_writeOutput {path : Path} {bytes : Bytes}
    (hwrite : ∀ (world : World σ) tree, world.tree.write path bytes = .ok tree →
      R world (World.after { world with tree } (.wrote path bytes))) :
    Respects R (writeOutput path bytes : Run σ Unit) := by
  intro world
  rw [writeOutput_apply]
  cases htree : world.tree.write path bytes with
  | error fault => exact hR.refl world
  | ok tree => exact hwrite world tree htree

/-- Writing mutants under their names writes one after another. -/
theorem respects_writeNumbered {directory : Path} {source : String} {index : Nat}
    {mutants : List Mutant}
    (hwrite : ∀ (world : World σ) tree, ∀ mutant ∈ mutants, ∀ index : Int,
      world.tree.write (directory.below [MutantName.compose source index])
        (Utf8.encode mutant.text) = .ok tree →
      R world (World.after { world with tree }
        (.wrote (directory.below [MutantName.compose source index]) (Utf8.encode mutant.text)))) :
    Respects R (writeNumbered directory source index mutants : Run σ (List Path)) := by
  induction mutants generalizing index with
  | nil => exact respects_pure hR _
  | cons mutant rest ih =>
    intro world
    refine respects_bind_at hR (respects_ofExcept hR _ world) fun name between hname => ?_
    -- A name comes from the number of its mutant.
    obtain rfl := compose_of_ofIndex (ofExcept_eq_ok hname)
    refine respects_bind hR (respects_writeOutput hR fun world tree => ?_) (fun _ => ?_) between
    · exact hwrite world tree mutant List.mem_cons_self index
    · refine respects_bind hR (ih fun world tree other hmem => ?_) fun _ => respects_pure hR _
      exact hwrite world tree other (List.mem_cons_of_mem _ hmem)

/-- Writing mutants makes the output directory first. -/
theorem respects_writeMutants {directory source : Path} {mutants : List Mutant}
    (hmake : ∀ world : World σ, world.tree.isPresent directory = .ok false →
      R world { world with tree := (world.tree.ensureDirectories directory).2 })
    (hwrite : ∀ (world : World σ) tree, ∀ mutant ∈ mutants, ∀ index : Int,
      world.tree.write (directory.below [MutantName.compose source.name index])
        (Utf8.encode mutant.text) = .ok tree →
      R world (World.after { world with tree }
        (.wrote (directory.below [MutantName.compose source.name index])
          (Utf8.encode mutant.text)))) :
    Respects R (writeMutants directory source mutants : Run σ (List Path)) := by
  rw [writeMutants]
  split
  · exact respects_pure hR _
  · exact respects_bind hR (respects_ensureOutputDirectory hR _ hmake) fun _ =>
      respects_bind hR (respects_writeNumbered hR hwrite) fun _ =>
        respects_bind hR (respects_log hR _) fun _ => respects_pure hR _

/-! ### Corpora of plans -/

theorem respects_planCorpus {tools : Toolchain} {plan : Plan}
    (hread : ∀ world path bytes, world.tree.read path = .ok bytes →
      R world (world.after (.read path bytes))) :
    Respects R (planCorpus tools plan : Run σ (Option Corpus)) := by
  rw [planCorpus]
  split
  · exact respects_bind hR (respects_buildCorpus hR _ _ _ _ _ hread) fun _ => respects_pure hR _
  · exact respects_pure hR _

/-- Gathering makes the output directory and reads the sources if a corpus is needed. -/
theorem respects_gather {tools : Toolchain} {plan : Plan}
    (hmake : ∀ world : World σ, world.tree.isPresent plan.outputDirectory = .ok false →
      R world { world with tree := (world.tree.ensureDirectories plan.outputDirectory).2 })
    (hread : ∀ world path bytes, world.tree.read path = .ok bytes →
      R world (world.after (.read path bytes))) :
    Respects R (gather tools plan : Run σ (List Path × Option Corpus)) :=
  respects_bind hR (respects_ensureOutputDirectory hR _ hmake) fun _ =>
    respects_bind hR (respects_scan hR _ _ _) fun _ =>
      respects_bind hR (respects_planCorpus hR hread) fun _ => respects_pure hR _

/-! ### Texts of sources -/

/-- Mutating a text reads nothing. -/
theorem respects_mutateText_by [Chooser σ] {tools : Toolchain} {plan : Plan}
    {corpus : Option Corpus} {path : Path} {text : String}
    (haccepted : ∀ world mutant, R world (world.after (.accepted path mutant)))
    (hmade : ∀ world : World σ, world.tree.isPresent plan.outputDirectory = .ok false →
      R world { world with tree := (world.tree.ensureDirectories plan.outputDirectory).2 })
    (hwrote : ∀ (world : World σ) path bytes tree, world.tree.write path bytes = .ok tree →
      R world (World.after { world with tree } (.wrote path bytes))) :
    Respects R (mutateText tools plan corpus path text) := by
  rw [mutateText]
  split
  -- A text that is short enough is harvested, mutated, handed over and written.
  · refine respects_bind hR (respects_harvest hR _ _ _ _) fun harvest => ?_
    refine respects_bind hR (respects_mutants hR _ _ _ _) fun mutants => ?_
    refine respects_bind hR (respects_handOver hR _ _ fun world mutant _ =>
      haccepted world mutant) fun _ => ?_
    refine respects_bind hR (respects_writeMutants hR hmade
      fun world tree _ _ _ => hwrote world _ _ tree) fun _ => ?_
    exact respects_bind hR (respects_log hR _) fun _ => respects_pure hR _
  · exact respects_bind hR (respects_log hR _) fun _ => respects_pure hR _

end Tolerant

/-- How a run comes by its numbers: it draws from those of the world, or first puts the generator
of the settings' seed there. -/
inductive Opening (settings : Settings) : {σ : Type} → Run σ Unit → Prop
  | given {σ : Type} : Opening settings (return () : Run σ Unit)
  | seeded : Opening settings (seed settings.seed)

/-- Opening a run draws at most a seed. -/
theorem Opening.respects {settings : Settings} {opening : Run σ Unit}
    (h : Opening settings opening) (hR : World.Tolerant R) : Respects R opening := by
  cases h with
  | given => exact respects_pure hR ()
  | seeded =>
    intro world
    rw [seed]
    rcases Twister.ofSetting settings.seed with failure | _ | twister
    · exact hR.refl world
    · exact hR.refl world
    · exact hR.drawn world twister

/-- Until its sources are gathered, a run that opens has only logged and prepared its numbers. -/
theorem Opening.respects_start {settings : Settings} {opening : Run σ Unit}
    (h : Opening settings opening) (hR : World.Tolerant R) {start opened : World σ}
    (hopened : opening (start.after (.logged (.entered "run_mutation"))) = (.ok (), opened))
    (line : LogLine) : R start (opened.after (.logged line)) := by
  have hentered := hR.logged start (.entered "run_mutation")
  have hprepared := (h.respects hR).of_run hopened
  exact hR.trans hentered (hR.trans hprepared (hR.logged opened line))

/-- A run does nothing but log before its settings have passed. -/
theorem respects_mutateAfter [Chooser σ] (hR : World.Tolerant R) {tools : Toolchain}
    {settings : Settings} {opening : Run σ Unit} (hopening : Opening settings opening)
    {world : World σ}
    (hcarry : ∀ plan, settings.check world.tree = .ok plan → Respects R (carryOut tools plan)) :
    R world (mutateAfter opening tools settings world).2 := by
  refine respects_traced_at hR "run_mutation" ?_
  refine respects_bind_at hR (respects_tree hR _) fun tree between htree => ?_
  cases htree
  cases hplan : settings.check world.tree with
  | error failure =>
    -- Refused settings end the run here.
    rw [World.tree_after, hplan]
    exact hR.refl _
  | ok plan =>
    rw [World.tree_after, hplan]
    exact respects_bind hR (hopening.respects hR) (fun _ => hcarry plan hplan) _

end Run

/-! ## Relations that hold across every step -/

/-- Relations between a world and a later one that hold across whatever a run does: besides what
`Tolerant` lists, it reads, hands mutants over, makes its output directory and writes. -/
structure World.Steps (directory : Path) (R : World σ → World σ → Prop) : Prop
    extends World.Tolerant R where
  read : ∀ (world : World σ) path bytes, world.tree.read path = .ok bytes →
    R world (world.after (.read path bytes))
  accepted : ∀ (world : World σ) source mutant, R world (world.after (.accepted source mutant))
  made : ∀ world : World σ, world.tree.isPresent directory = .ok false →
    R world { world with tree := (world.tree.ensureDirectories directory).2 }
  wrote : ∀ (world : World σ) path bytes tree, world.tree.write path bytes = .ok tree →
    R world (World.after { world with tree } (.wrote path bytes))

namespace Run

section Steps

variable [Chooser σ] {R : World σ → World σ → Prop} {tools : Toolchain} {plan : Plan}
  {corpus : Option Corpus} (hR : World.Steps plan.outputDirectory R)

include hR

theorem respects_mutateText (path : Path) (text : String) :
    Respects R (mutateText tools plan corpus path text) :=
  respects_mutateText_by hR.toTolerant (fun world mutant => hR.accepted world path mutant) hR.made
    hR.wrote

theorem respects_mutateFile (path : Path) : Respects R (mutateFile tools plan corpus path) :=
  respects_bind hR.toTolerant (respects_log hR.toTolerant _) fun _ =>
    respects_bind hR.toTolerant (respects_readSource hR.toTolerant fun world => hR.read world path)
      fun text => respects_mutateText hR path text

theorem respects_mutateFiles (paths : List Path) :
    Respects R (mutateFiles tools plan corpus paths) := by
  induction paths with
  | nil => exact respects_pure hR.toTolerant _
  | cons path rest ih =>
    exact respects_bind hR.toTolerant (respects_mutateFile hR path) fun _ =>
      respects_bind hR.toTolerant ih fun _ => respects_pure hR.toTolerant _

theorem respects_carryOut : Respects R (carryOut tools plan : Run σ Summary) := by
  have hT := hR.toTolerant
  refine respects_bind hT (respects_log hT _) fun _ => ?_
  refine respects_bind hT (respects_gather hT hR.made hR.read) ?_
  rintro ⟨files, corpus⟩
  refine respects_bind hT (respects_mutateFiles hR files) fun sources => ?_
  exact respects_bind hT (respects_log hT _) fun _ => respects_pure hT _

end Steps

/-- What holds across every step holds across a whole run, whether it returns or stops. -/
theorem mutateAfter_respects [Chooser σ] {R : World σ → World σ → Prop} {tools : Toolchain}
    {settings : Settings} {opening : Run σ Unit} (hR : ∀ directory, World.Steps directory R)
    (hopening : Opening settings opening) : Respects R (mutateAfter opening tools settings) := by
  intro world
  apply respects_mutateAfter (hR settings.outputDirectory).toTolerant hopening
  intro plan _
  exact respects_carryOut (hR plan.outputDirectory)

end Run

/-! ## Two relations -/

namespace World

/-- Only events of some sort are added. -/
def Adds (S : Event → Prop) (first second : World σ) : Prop :=
  ∃ new, second.events = first.events ++ new ∧ ∀ event ∈ new, S event

theorem adds_after {S : Event → Prop} {event : Event} (h : S event) (world : World σ) :
    Adds S world (world.after event) :=
  ⟨[event], events_after world event, by simpa using h⟩

theorem tolerant_adds {S : Event → Prop} (hlogged : ∀ line, S (.logged line)) :
    Tolerant (Adds (σ := σ) S) where
  refl world := ⟨[], (List.append_nil _).symm, by simp⟩
  trans := by
    rintro first second third ⟨new, hnew, hsort⟩ ⟨new', hnew', hsort'⟩
    refine ⟨new ++ new', by rw [hnew', hnew, List.append_assoc], fun event hmem => ?_⟩
    exact (List.mem_append.mp hmem).elim (hsort event) (hsort' event)
  logged world line := adds_after (hlogged line) world
  loaded world _ := ⟨[], (List.append_nil world.events).symm, by simp⟩
  drawn world _ := ⟨[], (List.append_nil world.events).symm, by simp⟩

/-- Events are only ever added. -/
theorem steps_adds (directory : Path) : Steps directory (Adds (σ := σ) fun _ => True) where
  toTolerant := tolerant_adds fun _ => trivial
  read world _ _ _ := adds_after trivial world
  accepted world _ _ := adds_after trivial world
  made world _ := ⟨[], (List.append_nil world.events).symm, by simp⟩
  wrote world _ _ tree _ := adds_after trivial { world with tree }

/-- The files stay as they are. -/
def SameTree (first second : World σ) : Prop := second.tree = first.tree

theorem tolerant_sameTree : Tolerant (SameTree (σ := σ)) where
  refl _ := rfl
  trans h h' := h'.trans h
  logged _ _ := rfl
  loaded _ _ := rfl
  drawn _ _ := rfl

end World

end SourceMutation
