import SourceMutation.Proofs.Directories
import SourceMutation.Proofs.Effects

/-!
# What stands where after a run

The events of a run account for the files it leaves and for the bytes it read: a location holds what
was written there last, or else what it held at first, and a source was read as its location stood
at that moment (`World.Accounts`).

Which location a path means is asked of a final tree.  That is no restriction, since a path that
was read or written at some moment leads to the same place ever after.
-/

namespace SourceMutation

variable {σ : Type}

/-! ## Writings to a location -/

/-- The bytes that an event writes to a location, by where paths lead in a tree. -/
def Event.bytesTo? (tree : FileTree) (location : Location) : Event → Option Bytes
  | .wrote path bytes =>
    match tree.locate path with
    | .ok place => if place = location then some bytes else none
    | .error _ => none
  | _ => none

/-- The bytes that events write to a location last. -/
def lastWritten (tree : FileTree) (events : List Event) (location : Location) : Option Bytes :=
  (events.filterMap (Event.bytesTo? tree location)).getLast?

variable {tree final : FileTree} {location place : Location}

@[simp] theorem lastWritten_nil : lastWritten tree [] location = none := rfl

/-- Later writings count before earlier ones. -/
theorem lastWritten_append (events more : List Event) :
    lastWritten tree (events ++ more) location
      = (lastWritten tree more location).or (lastWritten tree events location) := by
  simp only [lastWritten, List.filterMap_append, List.getLast?_append]

theorem lastWritten_singleton (event : Event) :
    lastWritten tree [event] location = event.bytesTo? tree location := by
  unfold lastWritten
  cases h : event.bytesTo? tree location <;> simp [h]

theorem Event.bytesTo?_wrote {path : Path} {bytes : Bytes} (h : tree.locate path = .ok place) :
    (Event.wrote path bytes).bytesTo? tree location
      = if place = location then some bytes else none := by
  simp only [bytesTo?, h]

/-- Bytes count as written to a location if some event wrote them there. -/
theorem wrote_of_lastWritten {events : List Event} {bytes : Bytes}
    (h : lastWritten tree events location = some bytes) :
    ∃ path, .wrote path bytes ∈ events ∧ tree.locate path = .ok location := by
  obtain ⟨event, hmem, hbytes⟩ := List.mem_filterMap.mp (List.mem_of_getLast? h)
  cases event with
  | logged | read | accepted | tracked => cases hbytes
  | wrote path written =>
    unfold Event.bytesTo? at hbytes
    dsimp only at hbytes
    split at hbytes
    -- The path leads somewhere, and what was written counts if that is the location asked for.
    case h_1 place hplace =>
      split at hbytes
      case isTrue heq =>
        cases hbytes
        exact ⟨path, hmem, heq ▸ hplace⟩
      case isFalse => cases hbytes
    case h_2 => cases hbytes

/-- Where nothing was written, nothing was written last. -/
theorem lastWritten_eq_none {events : List Event}
    (h : ∀ target bytes, .wrote target bytes ∈ events → tree.locate target ≠ .ok location) :
    lastWritten tree events location = none := by
  cases hlast : lastWritten tree events location with
  | none => rfl
  | some bytes =>
    obtain ⟨target, hmem, htarget⟩ := wrote_of_lastWritten hlast
    exact absurd htarget (h target bytes hmem)

/-- Where something was written, something was written last. -/
theorem lastWritten_isSome {events : List Event} {path : Path} {bytes : Bytes}
    (hmem : .wrote path bytes ∈ events) (hlocate : tree.locate path = .ok location) :
    (lastWritten tree events location).isSome := by
  unfold lastWritten
  rw [List.getLast?_isSome]
  apply List.ne_nil_of_mem (a := bytes)
  refine List.mem_filterMap.mpr ⟨_, hmem, ?_⟩
  rw [Event.bytesTo?_wrote hlocate, if_pos rfl]

/-- The files that were written are those that events of a world wrote. -/
theorem World.mem_writings {world : World σ} {path : Path} {bytes : Bytes} :
    (path, bytes) ∈ world.writings ↔ .wrote path bytes ∈ world.events := by
  rw [World.writings, List.mem_filterMap]
  constructor
  · rintro ⟨event, hmem, hwritten⟩
    cases event with
    | wrote =>
      cases hwritten
      exact hmem
    | logged | read | accepted | tracked => cases hwritten
  · intro hmem
    exact ⟨_, hmem, rfl⟩

/-! ## Accounts

An account is kept of places rather than of paths, since two paths may lead to one file.
-/

/-- Whether new events account for a later tree and for what was read on the way to it. -/
structure Accounted (first second : FileTree) (new : List Event) : Prop where
  grounded : second.Grounded
  keeps : first.Keeps second
  /-- No link is made. -/
  links : ∀ location target, second.entry? location = some (.link target) →
    first.entry? location = some (.link target)
  /-- A location holds what was written there last, or what it held at first. -/
  files : ∀ final, second.Keeps final → ∀ location,
    second.fileAt location = (lastWritten final new location).or (first.fileAt location)
  /-- Whatever was written can be found. -/
  written : ∀ final, second.Keeps final → ∀ path bytes, .wrote path bytes ∈ new →
    ∃ location, final.locate path = .ok location
  /-- Whatever was read stood there. -/
  reads : ∀ final, second.Keeps final → ∀ before path bytes after,
    new = before ++ .read path bytes :: after →
    ∃ location, final.locate path = .ok location ∧
      (lastWritten final before location).or (first.fileAt location) = some bytes

theorem Accounted.nil (h : tree.Grounded) : Accounted tree tree [] where
  grounded := h
  keeps := .refl tree
  links _ _ hlink := hlink
  files _ _ _ := rfl
  written _ _ _ _ hmem := nomatch hmem
  reads _ _ _ _ _ _ heq := by simp at heq

/-- Accounts of what follows one another make one account. -/
theorem Accounted.append {first second third : FileTree} {new new' : List Event}
    (h : Accounted first second new) (h' : Accounted second third new') :
    Accounted first third (new ++ new') where
  grounded := h'.grounded
  keeps := h.keeps.trans h'.keeps
  links location target hlink := h.links location target (h'.links location target hlink)
  files final hfinal location := by
    rw [h'.files final hfinal, h.files final (h'.keeps.trans hfinal), lastWritten_append,
      Option.or_assoc]
  written final hfinal path bytes hmem := by
    rcases List.mem_append.mp hmem with hmem | hmem
    · exact h.written final (h'.keeps.trans hfinal) path bytes hmem
    · exact h'.written final hfinal path bytes hmem
  reads final hfinal before path bytes after heq := by
    rcases append_eq_append_cons heq with ⟨rest, hrest⟩ | ⟨middle, rfl, hmiddle⟩
    · exact h.reads final (h'.keeps.trans hfinal) before path bytes rest hrest
    · -- What the second part found at first is what the first part left.
      obtain ⟨location, hlocation, hbytes⟩ := h'.reads final hfinal middle path bytes after hmiddle
      refine ⟨location, hlocation, ?_⟩
      rw [lastWritten_append, Option.or_assoc, ← h.files final (h'.keeps.trans hfinal)]
      exact hbytes

/-- What neither reads nor writes leaves the files as they are. -/
theorem Accounted.of_quiet (h : tree.Grounded) {event : Event}
    (hread : ∀ path bytes, event ≠ .read path bytes)
    (hwrote : ∀ path bytes, event ≠ .wrote path bytes) : Accounted tree tree [event] := by
  -- Such an event is no writing, so nothing was written last.
  have hnone : ∀ final location, lastWritten final [event] location = none := by
    intro final location
    rw [lastWritten_singleton]
    cases event with
    | wrote path bytes => exact absurd rfl (hwrote path bytes)
    | logged | read | accepted | tracked => rfl
  refine { Accounted.nil h with files := ?_, written := ?_, reads := ?_ }
  · intro final _ location
    rw [hnone, Option.none_or]
  · intro final _ path bytes hmem
    exact absurd (List.mem_singleton.mp hmem).symm (hwrote path bytes)
  · intro final _ before path bytes after heq
    have hmem : Event.read path bytes ∈ [event] := heq ▸ by simp
    exact absurd (List.mem_singleton.mp hmem).symm (hread path bytes)

theorem Accounted.of_read (h : tree.Grounded) {path : Path} {bytes : Bytes}
    (hread : tree.read path = .ok bytes) : Accounted tree tree [.read path bytes] := by
  obtain ⟨location, hlocation, hbytes⟩ := FileTree.read_eq_ok_iff.mp hread
  refine { Accounted.nil h with files := ?_, written := ?_, reads := ?_ }
  · intro final _ other
    rw [lastWritten_singleton]
    rfl
  · intro final _ target written hmem
    simp at hmem
  · intro final hfinal before target read after heq
    -- The one reading has nothing before it.
    have hbefore : before = [] := by
      have hlength := congrArg List.length heq
      simp at hlength
      exact List.eq_nil_of_length_eq_zero (by omega)
    subst hbefore
    cases heq
    refine ⟨location, FileTree.locate_keeps hfinal hlocation, ?_⟩
    rw [lastWritten_nil, Option.none_or]
    exact hbytes

theorem Accounted.of_makes {first second : FileTree} (h : first.Grounded)
    (hmade : first.MakesDirectories second) : Accounted first second [] where
  grounded := hmade.grounded h
  keeps := hmade.keeps
  links location target hlink := by
    rcases hmade.others location with hsame | ⟨-, hdirectory⟩
    · rwa [← hsame]
    · rw [hdirectory] at hlink
      cases hlink
  files final _ location := by
    rw [lastWritten_nil, Option.none_or, hmade.fileAt_eq]
  written _ _ _ _ hmem := nomatch hmem
  reads _ _ _ _ _ _ heq := by simp at heq

theorem Accounted.of_write (h : tree.Grounded) {path : Path} {bytes : Bytes} {after : FileTree}
    (hwrite : tree.write path bytes = .ok after) : Accounted tree after [.wrote path bytes] := by
  obtain ⟨location, htarget, rfl⟩ := FileTree.write_eq_ok_iff.mp hwrite
  have hput := FileTree.mayPut_of_writeTarget h htarget bytes
  have hlocate : (tree.put location (.file bytes)).locate path = .ok location :=
    FileTree.locate_put h htarget
  refine ⟨hput.grounded h, hput.keeps, ?_, ?_, ?_, ?_⟩
  -- A file is no link, so all links stood before.
  · intro other target hlink
    rw [FileTree.entry_put hput.ne_nil] at hlink
    by_cases heq : other = location
    · rw [if_pos heq] at hlink
      cases hlink
    · rwa [if_neg heq] at hlink
  -- Where the file was put, the last writing is this one; elsewhere there is none.
  · intro final hfinal other
    rw [lastWritten_singleton, Event.bytesTo?_wrote (FileTree.locate_keeps hfinal hlocate)]
    unfold FileTree.fileAt
    rw [FileTree.entry_put hput.ne_nil]
    by_cases heq : other = location
    · simp [heq]
    · simp [heq, Ne.symm heq]
  · intro final hfinal target written hmem
    cases List.mem_singleton.mp hmem
    exact ⟨location, FileTree.locate_keeps hfinal hlocate⟩
  · intro final _ before target read later heq
    have hmem : Event.read target read ∈ [Event.wrote path bytes] := heq ▸ by simp
    cases List.mem_singleton.mp hmem

/-- Where nothing was written, the same stands as at first. -/
theorem Accounted.fileAt_eq {first second : FileTree} {new : List Event}
    (h : Accounted first second new)
    (hunwritten : ∀ target bytes, .wrote target bytes ∈ new →
      second.locate target ≠ .ok location) :
    second.fileAt location = first.fileAt location := by
  rw [h.files second (.refl second), lastWritten_eq_none hunwritten, Option.none_or]

/-- What was not written over is read as it was read before. -/
theorem Accounted.read_again {first second : FileTree} {new : List Event}
    (h : Accounted first second new) {path : Path} {bytes : Bytes}
    (hread : first.read path = .ok bytes)
    (hapart : ∀ target written, .wrote target written ∈ new →
      second.locate target ≠ second.locate path) : second.read path = .ok bytes := by
  obtain ⟨location, hlocation, hbytes⟩ := FileTree.read_eq_ok_iff.mp hread
  have hthere : second.locate path = .ok location := FileTree.locate_keeps h.keeps hlocation
  refine FileTree.read_eq_ok_iff.mpr ⟨location, hthere, ?_⟩
  rw [h.fileAt_eq fun target written hmem => hthere ▸ hapart target written hmem]
  exact hbytes

/-- What was read where nothing was written stood there from the first, and stands there still. -/
theorem Accounted.fileAt_of_read {first second : FileTree} {new : List Event}
    (h : Accounted first second new) {path : Path} {bytes : Bytes} (hread : .read path bytes ∈ new)
    (hapart : ∀ target written, .wrote target written ∈ new →
      second.locate target ≠ second.locate path) :
    ∃ location, second.locate path = .ok location ∧ first.fileAt location = some bytes ∧
      second.fileAt location = some bytes := by
  obtain ⟨before, after, rfl⟩ := List.append_of_mem hread
  obtain ⟨location, hlocation, hbytes⟩ :=
    h.reads second (.refl second) before path bytes after rfl
  rw [hlocation] at hapart
  rw [lastWritten_eq_none fun target written hmem =>
    hapart target written (List.mem_append_left _ hmem), Option.none_or] at hbytes
  exact ⟨location, hlocation, hbytes, (h.fileAt_eq hapart).trans hbytes⟩

/-! ## Runs -/

/-- Whether the events between two worlds account for the files of the later one. -/
def World.Accounts (first second : World σ) : Prop :=
  first.tree.Grounded →
    ∃ new, second.events = first.events ++ new ∧ Accounted first.tree second.tree new

namespace World

theorem Accounts.of_event {world : World σ} {tree : FileTree} {event : Event}
    (h : world.tree.Grounded → Accounted world.tree tree [event]) :
    Accounts world (World.after { world with tree } event) :=
  fun hgrounded => ⟨[event], events_after { world with tree } event, h hgrounded⟩

/-- Every step of a run keeps to its account. -/
theorem steps_accounts (directory : Path) : Steps directory (Accounts (σ := σ)) where
  refl world hgrounded := ⟨[], (List.append_nil _).symm, .nil hgrounded⟩
  trans := by
    intro first second third h h' hgrounded
    obtain ⟨new, hnew, hfirst⟩ := h hgrounded
    obtain ⟨new', hnew', hsecond⟩ := h' hfirst.grounded
    exact ⟨new ++ new', by rw [hnew', hnew, List.append_assoc], hfirst.append hsecond⟩
  logged _ _ := .of_event fun hgrounded => .of_quiet hgrounded nofun nofun
  loaded world _ hgrounded := ⟨[], (List.append_nil world.events).symm, .nil hgrounded⟩
  drawn world _ hgrounded := ⟨[], (List.append_nil world.events).symm, .nil hgrounded⟩
  read _ _ _ hread := .of_event fun hgrounded => .of_read hgrounded hread
  accepted _ _ _ := .of_event fun hgrounded => .of_quiet hgrounded nofun nofun
  -- Directories that are made leave no event.
  made world _ hgrounded := ⟨[], (List.append_nil world.events).symm,
    .of_makes hgrounded (FileTree.makesDirectories_ensureDirectories world.tree directory)⟩
  wrote _ _ _ _ hwrite := .of_event fun hgrounded => .of_write hgrounded hwrite

end World

/-- The events of a run account for what it read and for what it leaves. -/
theorem Run.mutateAfter_accounted [Chooser σ] {tools : Toolchain} {settings : Settings}
    {opening : Run σ Unit} (hopening : Opening settings opening) {tree : GroundedTree}
    {chance : σ} {grammars : Grammars} {result : Except Stop Summary} {world : World σ}
    (h : mutateAfter opening tools settings (World.fresh tree chance grammars) = (result, world)) :
    Accounted tree world.tree world.events := by
  obtain ⟨new, hnew, haccounted⟩ :=
    mutateAfter_respects World.steps_accounts hopening (World.fresh tree chance grammars)
      tree.grounded
  rw [h, World.events_fresh, List.nil_append] at hnew
  rw [h] at haccounted
  rwa [← hnew] at haccounted

/-! ## Grounded worlds -/

/-- A world whose tree is grounded. -/
structure GroundedWorld (σ : Type) extends World σ where
  grounded : tree.Grounded

instance : Coe (GroundedWorld σ) (World σ) := ⟨GroundedWorld.toWorld⟩

/-- The world before a run over a grounded tree. -/
def GroundedWorld.fresh (tree : GroundedTree) (chance : σ) (grammars : Grammars) :
    GroundedWorld σ :=
  ⟨World.fresh tree chance grammars, tree.grounded⟩

end SourceMutation
