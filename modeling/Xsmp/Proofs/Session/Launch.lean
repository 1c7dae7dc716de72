import Xsmp.Proofs.Session.Unmoved

/-!
# Launching the programs of a phase

A phase goes through the list of programs once. It tries to launch those that
belong to it and are not disabled (its `roster`), in the order of the list, and
waits for those of them that it could launch, unless they are regular
applications. `LaunchStep` says what happens at one position, and `Launches` what
that comes to over any number of them.
-/

namespace Xsmp

/-- The positions of the programs whose launch was tried. -/
def Effect.tried? : Effect → Option Nat
  | .launched position _ _ => some position
  | _ => none

/-- The positions of the programs that were launched. -/
def Effect.process? : Effect → Option Nat
  | .launched position _ (some _) => some position
  | _ => none

/-- Every program belongs to a phase between the start of the session and its running. -/
theorem Manifest.phase_mem (manifest : Manifest) :
    manifest.phase ∈
      [Phase.initialization, .windowManager, .panel, .desktop, .application] := by
  unfold Manifest.phase
  cases manifest.text? "X-GNOME-Autostart-Phase" with
  | none => simp
  | some tag =>
      simp only [Option.map_some, Option.getD_some]
      unfold Phase.ofTag
      split <;> simp

namespace Session

variable {w : Surroundings} {session : Session} {position : Nat}

def tries (effects : List Effect) : List Nat := effects.filterMap Effect.tried?

def processes (effects : List Effect) : List Nat := effects.filterMap Effect.process?

@[simp] theorem tries_append (effects more : List Effect) :
    tries (effects ++ more) = tries effects ++ tries more := List.filterMap_append

@[simp] theorem processes_append (effects more : List Effect) :
    processes (effects ++ more) = processes effects ++ processes more := List.filterMap_append

/-- What is launched was tried. -/
theorem processes_sublist (effects : List Effect) :
    (processes effects).Sublist (tries effects) := by
  induction effects with
  | nil => exact .slnil
  | cons effect effects ih =>
      cases effect with
      | launched position id pid =>
          cases pid with
          | none => exact ih.cons position
          | some pid => exact ih.cons_cons position
      | _ => exact ih

/-! ## Who takes part in a phase -/

/-- What the programs are. Launching changes what is known of a program, and never this. -/
def manifests (session : Session) : List Manifest := session.programs.map Program.manifest

theorem getElem?_manifests (session : Session) (position : Nat) :
    session.manifests[position]? = session.programs[position]?.map Program.manifest :=
  List.getElem?_map

/-- Whether a phase launches the program at a position. -/
def takesPart (w : Surroundings) (phase : Phase) (manifests : List Manifest) (position : Nat) :
    Bool :=
  manifests[position]?.any fun manifest => manifest.phase == phase && !w.disabled manifest

/-- The positions of the programs that a phase launches, in the order of the list. -/
def roster (w : Surroundings) (phase : Phase) (manifests : List Manifest) : List Nat :=
  (List.range manifests.length).filter (takesPart w phase manifests)

theorem takesPart_iff {phase : Phase} {manifests : List Manifest} :
    takesPart w phase manifests position = true ↔ ∃ manifest, manifests[position]? = some manifest
      ∧ manifest.phase = phase ∧ w.disabled manifest = false := by
  cases hmanifest : manifests[position]? with
  | none => simp [takesPart, hmanifest]
  | some manifest => simp [takesPart, hmanifest]

theorem mem_roster {phase : Phase} {manifests : List Manifest} :
    position ∈ roster w phase manifests ↔ ∃ manifest, manifests[position]? = some manifest
      ∧ manifest.phase = phase ∧ w.disabled manifest = false := by
  rw [roster, List.mem_filter, takesPart_iff]
  refine ⟨fun h => h.2, fun h => ⟨?_, h⟩⟩
  obtain ⟨_, hmanifest, _⟩ := h
  exact List.mem_range.mpr (List.getElem?_eq_some_iff.mp hmanifest).1

/-- A roster is in the order of the list. -/
theorem roster_ascending (w : Surroundings) (phase : Phase) (manifests : List Manifest) :
    (roster w phase manifests).Pairwise (· < ·) :=
  List.Pairwise.filter _ List.pairwise_lt_range

/-- Only the phases between the start and the running of a session have programs. -/
theorem roster_eq_nil {phase : Phase} (manifests : List Manifest)
    (h : phase = .startup ∨ ¬phase < .running) : roster w phase manifests = [] := by
  refine List.eq_nil_iff_forall_not_mem.mpr fun position hposition => ?_
  obtain ⟨manifest, _, hphase, _⟩ := mem_roster.mp hposition
  have hmem := manifest.phase_mem
  rw [hphase] at hmem
  revert h hmem
  cases phase <;> decide

/-! ## One position -/

/-- What is tried at one position. -/
inductive LaunchStep (w : Surroundings) (position : Nat) (session : Session) : Prop
  /-- The program has no part in the phase. -/
  | skips (h : takesPart w session.phase session.manifests position = false)
      (turn : launchAt w position session = { session })
  /-- The launch is tried, under an identifier made for it. -/
  | tries (program : Program) (h : session.programs[position]? = some program)
      (part : takesPart w session.phase session.manifests position = true)
      (id : String) (ids : ClientIds)
      (made : session.ids.mint (w.clock (some position)) = (id, ids))
      (pid : Option Pid)
      (launch : pid = w.launch (session.programs.countP (·.pid.isSome)) position
        { program with clientId := some id })
      (turn : launchAt w position session = {
        session := { session with
          ids
          programs := session.programs.set position
            { program with clientId := some id, pid := pid.or program.pid }
          pending :=
            if pid.isSome ∧ session.phase < .application then session.pending ++ [position]
            else session.pending }
        effects := [.launched position id pid] })

theorem launchStep (w : Surroundings) (position : Nat) (session : Session) :
    LaunchStep w position session := by
  cases hprogram : session.programs[position]? with
  | none =>
      refine .skips ?_ ?_
      · simp [takesPart, getElem?_manifests, hprogram]
      · simp [launchAt, hprogram]
  | some program =>
      by_cases hpart : program.manifest.phase = session.phase ∧ w.disabled program.manifest = false
      · let made := session.ids.mint (w.clock (some position))
        refine .tries program hprogram ?_ made.1 made.2 rfl _ rfl ?_
        · simp [takesPart, getElem?_manifests, hprogram, hpart]
        · have hneg : ¬(program.manifest.phase ≠ session.phase
              ∨ w.disabled program.manifest = true) := by simp [hpart]
          simp only [launchAt, hprogram, hneg, if_false]
          rfl
      · have hskip : program.manifest.phase ≠ session.phase
            ∨ w.disabled program.manifest = true := by
          by_cases hphase : program.manifest.phase = session.phase
          · exact .inr (by simpa [hphase] using hpart)
          · exact .inl hphase
        refine .skips ?_ ?_
        · simpa [takesPart, getElem?_manifests, hprogram] using hpart
        · simp only [launchAt, hprogram, hskip, if_true]

/-! ## Any number of positions -/

/-- A program that the phase may wait for: it belongs to the phase, has its identifier and
runs. -/
def Ready (session : Session) (position : Nat) : Prop :=
  ∃ program, session.programs[position]? = some program ∧ program.manifest.phase = session.phase
    ∧ program.clientId.isSome = true ∧ program.pid.isSome = true

/-- What the launch of programs comes to. -/
structure Launches (w : Surroundings) (session : Session) (turn : Turn) : Prop where
  /-- All other parts of the session are as they were. -/
  frame : ∃ ids programs pending, turn.session = { session with ids, programs, pending }
  manifests : turn.session.manifests = session.manifests
  /-- What was launched is waited for, but for the regular applications. -/
  pending : turn.session.pending = session.pending
    ++ (if session.phase < .application then processes turn.effects else [])
  /-- What could be waited for before still can. -/
  keep : ∀ position, Ready session position → Ready turn.session position
  ready : ∀ position ∈ processes turn.effects, Ready turn.session position
  /-- A program that is launched is given its identifier. -/
  effects : ∀ effect ∈ turn.effects, ∃ position id pid, effect = .launched position id pid
    ∧ ∃ launched program, session.manifests[position]? = some program.manifest
      ∧ program.clientId = some id ∧ pid = w.launch launched position program
  ids : Mints w session.ids turn.effects turn.session.ids

theorem launches_rest (session : Session) : Launches w session { session } :=
  ⟨⟨_, _, _, rfl⟩, rfl, by simp [processes], fun _ h => h, by simp [processes], by simp,
    mints_of_none (by simp)⟩

theorem Launches.phase {turn : Turn} (h : Launches w session turn) :
    turn.session.phase = session.phase := by
  obtain ⟨_, _, _, heq⟩ := h.frame
  rw [heq]

theorem Launches.andThen {turn : Turn} {next : Session → Turn} (h : Launches w session turn)
    (hn : Launches w turn.session (next turn.session)) :
    Launches w session (turn.andThen next) where
  frame := by
    obtain ⟨_, _, _, heq⟩ := h.frame
    obtain ⟨ids, programs, pending, hnext⟩ := hn.frame
    refine ⟨ids, programs, pending, ?_⟩
    rw [Turn.andThen_session, hnext, heq]
  manifests := hn.manifests.trans h.manifests
  pending := by
    rw [Turn.andThen_session, hn.pending, h.pending, h.phase, Turn.andThen_effects,
      processes_append, List.append_assoc]
    split
    · rfl
    · simp
  keep := fun position hready => hn.keep position (h.keep position hready)
  ready := by
    intro position hposition
    rw [Turn.andThen_effects, processes_append] at hposition
    rcases List.mem_append.mp hposition with hposition | hposition
    · exact hn.keep position (h.ready position hposition)
    · exact hn.ready position hposition
  effects := by
    intro effect he
    rcases List.mem_append.mp he with he | he
    · exact h.effects effect he
    · rw [← h.manifests]
      exact hn.effects effect he
  ids := h.ids.append hn.ids

theorem launches_launchAt (w : Surroundings) (position : Nat) (session : Session) :
    Launches w session (launchAt w position session) := by
  cases launchStep w position session with
  | skips _ hturn =>
      rw [hturn]
      exact launches_rest session
  | tries program hprogram hpart id ids hmade pid hlaunch hturn =>
      obtain ⟨hlength, hget⟩ := List.getElem?_eq_some_iff.mp hprogram
      obtain ⟨manifest, hmanifest, hphase, _⟩ := takesPart_iff.mp hpart
      have hsame : program.manifest = manifest := by
        rw [getElem?_manifests, hprogram] at hmanifest
        exact Option.some.inj hmanifest
      rw [hturn]
      refine ⟨⟨_, _, _, rfl⟩, ?_, ?_, ?_, ?_, ?_, ?_⟩
      · -- the manifest is written back as it was
        have hlength' : position < session.manifests.length := by
          simpa [Session.manifests] using hlength
        have hself : session.manifests[position] = program.manifest := by
          simp [Session.manifests, hget]
        show (session.programs.set position _).map Program.manifest = session.manifests
        rw [List.map_set]
        exact hself ▸ List.set_getElem_self hlength'
      · cases pid with
        | none => simp [processes, Effect.process?]
        | some pid =>
            by_cases happ : session.phase < .application
            · simp [processes, Effect.process?, happ]
            · simp [happ]
      · intro other hready
        obtain ⟨old, hold, hbelongs, hid, hpid⟩ := hready
        by_cases hsame : position = other
        · subst hsame
          have hprogram' : program = old := Option.some.inj (hprogram.symm.trans hold)
          subst hprogram'
          refine ⟨_, List.getElem?_set_self hlength, hbelongs, rfl, ?_⟩
          cases pid with
          | none => exact hpid
          | some pid => rfl
        · exact ⟨old, (List.getElem?_set_ne hsame).trans hold, hbelongs, hid, hpid⟩
      · intro other hother
        cases pid with
        | none => exact absurd hother (by simp [processes, Effect.process?])
        | some pid =>
            have hsame : other = position := by simpa [processes, Effect.process?] using hother
            subst hsame
            exact ⟨_, List.getElem?_set_self hlength, by rw [hsame]; exact hphase, rfl, rfl⟩
      · intro effect he
        rw [List.mem_singleton.mp he]
        refine ⟨position, id, pid, rfl, _, { program with clientId := some id }, ?_, rfl, hlaunch⟩
        rw [hmanifest, hsame]
      · have hpair := Prod.mk.inj hmade
        exact ⟨hpair.1.symm, hpair.2.symm⟩

theorem launches_launchEach (w : Surroundings) (positions : List Nat) (session : Session) :
    Launches w session (launchEach w positions session) := by
  induction positions generalizing session with
  | nil => exact launches_rest session
  | cons position rest ih => exact (launches_launchAt w position session).andThen (ih _)

/-- Exactly the programs that take part are tried, one after the other. -/
theorem tries_launchEach (w : Surroundings) (positions : List Nat) (session : Session) :
    tries (launchEach w positions session).effects =
      positions.filter (takesPart w session.phase session.manifests) := by
  induction positions generalizing session with
  | nil => rfl
  | cons position rest ih =>
      have hone := launches_launchAt w position session
      rw [launchEach, Turn.andThen_effects, tries_append, ih, hone.phase, hone.manifests,
        List.filter_cons]
      cases launchStep w position session with
      | skips hpart hturn =>
          rw [hturn, hpart]
          rfl
      | tries _ _ hpart _ _ _ _ _ hturn =>
          rw [hturn, hpart]
          rfl

theorem launches_launchPhase (w : Surroundings) (session : Session) :
    Launches w session (launchPhase w session) := launches_launchEach w _ session

/-- **A phase launches its roster.** -/
theorem tries_launchPhase (w : Surroundings) (session : Session) :
    tries (launchPhase w session).effects = roster w session.phase session.manifests := by
  rw [launchPhase, tries_launchEach, roster, manifests, List.length_map]

end Session

end Xsmp
