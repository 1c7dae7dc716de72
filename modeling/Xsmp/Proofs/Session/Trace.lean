import Mathlib.Data.List.Chain
import Mathlib.Data.List.Pairwise
import Xsmp.Proofs.Session.Waiting

/-!
# The phases of a run, and what each of them launches

Read in order, the phases that a session enters form a path: from each startup phase
to the next one, from anywhere into a logout, and back to `running` by a logout that
is cancelled. And whenever a phase is entered, exactly its roster is launched before
anything else happens to phases and programs. So the programs of a run are tried in
the order of their phases and, within a phase, of the list, and none of them twice.
-/

namespace Xsmp

/-- What a session says of its phases, and the programs that it tries to launch. -/
inductive Milestone where
  | enters (phase : Phase)
  | tries (position : Nat)

namespace Milestone

def phase? : Milestone → Option Phase
  | .enters phase => some phase
  | .tries _ => none

def position? : Milestone → Option Nat
  | .enters _ => none
  | .tries position => some position

end Milestone

namespace Effect

def phase? : Effect → Option Phase
  | .phaseChanged phase => some phase
  | _ => none

def milestone? : Effect → Option Milestone
  | .phaseChanged phase => some (.enters phase)
  | .launched position _ _ => some (.tries position)
  | _ => none

end Effect

namespace Session

variable {w : Surroundings} {start session : Session} {operation : Operation} {next : Turn}
  {ended : List Phase} {position : Nat}

/-- The phases that are entered. -/
def phases (effects : List Effect) : List Phase := effects.filterMap Effect.phase?

def milestones (effects : List Effect) : List Milestone := effects.filterMap Effect.milestone?

@[simp] theorem phases_append (effects more : List Effect) :
    phases (effects ++ more) = phases effects ++ phases more := List.filterMap_append

@[simp] theorem milestones_append (effects more : List Effect) :
    milestones (effects ++ more) = milestones effects ++ milestones more := List.filterMap_append

/-- The phases and the programs that are tried can be read off the milestones. -/
theorem phases_eq (effects : List Effect) :
    phases effects = (milestones effects).filterMap Milestone.phase? := by
  rw [milestones, List.filterMap_filterMap, phases]
  congr 1
  funext effect
  cases effect <;> rfl

theorem tries_eq (effects : List Effect) :
    tries effects = (milestones effects).filterMap Milestone.position? := by
  rw [milestones, List.filterMap_filterMap, tries]
  congr 1
  funext effect
  cases effect <;> rfl

/-! ## Effects that are no milestones -/

theorem milestone?_of_not_isProgress {effect : Effect} (h : effect.isProgress = false) :
    effect.milestone? = none := by
  cases effect with
  | phaseChanged phase => exact absurd h (by simp [Effect.isProgress])
  | launched position id pid => exact absurd h (by simp [Effect.isProgress])
  | _ => rfl

/-! ## Paths of phases -/

/-- How a session gets from one phase to the next that it enters. -/
inductive PhaseMove (cancelled : Prop) : Phase → Phase → Prop
  /-- By itself. -/
  | onward {phase : Phase} (h : phase < .running) : PhaseMove cancelled phase phase.next
  | logout {phase : Phase} (h : phase ≠ .shutdown) : PhaseMove cancelled phase .shutdown
  /-- By a logout that is cancelled. -/
  | resume (h : cancelled) : PhaseMove cancelled .shutdown .running

theorem PhaseMove.imp {cancelled other : Prop} (h : cancelled → other) {p q : Phase}
    (hmove : PhaseMove cancelled p q) : PhaseMove other p q := by
  cases hmove with
  | onward hp => exact .onward hp
  | logout hp => exact .logout hp
  | resume hcancelled => exact .resume (h hcancelled)

/-- A startup phase is only entered from an earlier one. -/
theorem PhaseMove.lt {cancelled : Prop} {p q : Phase} (h : PhaseMove cancelled p q)
    (hq : q < .running) : p < q := by
  cases h with
  | onward hp =>
      revert hp hq
      cases p <;> decide
  | logout _ => exact absurd hq (by decide)
  | resume _ => exact absurd hq (by decide)

/-- Phases that are entered one after the other, from the first one up to the last. -/
def Path (moves : Phase → Phase → Prop) (first : Phase) (between : List Phase) (last : Phase) :
    Prop :=
  List.IsChain moves (first :: between) ∧ between.getLastD first = last

namespace Path

variable {moves more : Phase → Phase → Prop} {cancelled : Prop} {first middle last : Phase}
  {between before after : List Phase}

theorem rest (moves : Phase → Phase → Prop) (phase : Phase) : Path moves phase [] phase :=
  ⟨List.isChain_singleton phase, rfl⟩

theorem move (h : moves first last) : Path moves first [last] last :=
  ⟨List.isChain_pair.mpr h, rfl⟩

theorem append (h : Path moves first before middle) (hafter : Path moves middle after last) :
    Path moves first (before ++ after) last := by
  -- on the path that comes first, whose end is where the other one begins
  induction before generalizing first with
  | nil =>
      obtain ⟨_, rfl⟩ := h
      exact hafter
  | cons phase before ih =>
      obtain ⟨hchain, hlast⟩ := h
      obtain ⟨hmove, hrest⟩ := List.isChain_cons_cons.mp hchain
      rw [List.getLastD_cons] at hlast
      obtain ⟨hchain', hlast'⟩ := ih ⟨hrest, hlast⟩
      exact ⟨.cons_cons hmove hchain', by rw [List.cons_append, List.getLastD_cons, hlast']⟩

theorem imp (hmoves : ∀ p q, moves p q → more p q) (h : Path moves first between last) :
    Path more first between last :=
  ⟨h.1.imp fun p q => hmoves p q, h.2⟩

/-- On a path, startup phases ascend. -/
theorem ascending (h : Path (PhaseMove cancelled) first between last) :
    (first :: between).Pairwise fun p q => q < .running → p < q := by
  have hchain : List.IsChain (fun p q : Phase => q < .running → p < q) (first :: between) :=
    h.1.imp fun p q hmove => hmove.lt
  have htrans : Trans (fun p q : Phase => q < .running → p < q)
      (fun p q : Phase => q < .running → p < q) (fun p q : Phase => q < .running → p < q) :=
    ⟨fun hpq hqr hr => Nat.lt_trans (hpq (Nat.lt_trans (hqr hr) hr)) (hqr hr)⟩
  exact hchain.pairwise

theorem lt_of_mem (h : Path (PhaseMove cancelled) first between last) {phase : Phase}
    (hmem : phase ∈ between) (hrunning : phase < .running) : first < phase :=
  (List.pairwise_cons.mp h.ascending).1 phase hmem hrunning

/-- While the session starts up, it has been in no later phase. -/
theorem le_last (h : Path (PhaseMove cancelled) first between last) (hlast : last < .running)
    {phase : Phase} (hmem : phase ∈ first :: between) : phase = last ∨ phase < last := by
  induction between generalizing first phase with
  | nil =>
      obtain ⟨_, rfl⟩ := h
      exact .inl (List.mem_singleton.mp hmem)
  | cons second between ih =>
      obtain ⟨hchain, heq⟩ := h
      rw [List.getLastD_cons] at heq
      have hrest : Path (PhaseMove cancelled) second between last :=
        ⟨(List.isChain_cons_cons.mp hchain).2, heq⟩
      rcases List.mem_cons.mp hmem with rfl | hmem
      · -- the second phase is a startup phase as well, so the first one is before it
        have hmove := (List.isChain_cons_cons.mp hchain).1
        rcases ih hrest List.mem_cons_self with rfl | hlt
        · exact .inr (hmove.lt hlast)
        · exact .inr (Nat.lt_trans (hmove.lt (Nat.lt_trans hlt hlast)) hlt)
      · exact ih hrest hmem

/-- Where it is now, the session has been in no later startup phase. -/
theorem le_of_mem (h : Path (PhaseMove cancelled) first between last) {phase : Phase}
    (hmem : phase ∈ between) (hrunning : phase < .running) : phase = last ∨ phase < last := by
  by_cases hlast : last < .running
  · exact h.le_last hlast (List.mem_cons_of_mem _ hmem)
  · exact .inr (Nat.lt_of_lt_of_le hrunning (Nat.le_of_not_lt hlast))

/-- While the session starts up, there has been no logout. -/
theorem shutdown_not_mem (h : Path (PhaseMove cancelled) first between last)
    (hlast : last < .running) : .shutdown ∉ between := by
  intro hlogout
  rcases h.le_last hlast (List.mem_cons_of_mem _ hlogout) with rfl | hlt
  · exact absurd hlast (by decide)
  · exact absurd (Nat.lt_trans hlt hlast) (by decide)

/-- Whatever is entered, there is a move to it from where the path had led. -/
theorem move_at {phase : Phase} (h : Path moves first (before ++ phase :: after) last) :
    moves (before.getLastD first) phase := by
  have hchain := h.1
  clear h
  induction before generalizing first with
  | nil => exact (List.isChain_cons_cons.mp hchain).1
  | cons second before ih =>
      rw [List.getLastD_cons]
      exact ih (List.isChain_cons_cons.mp hchain).2

end Path

/-! ## Going through phases -/

/-- Entering a phase, with everything that it launches. -/
def block (w : Surroundings) (manifests : List Manifest) (phase : Phase) : List Milestone :=
  .enters phase :: (roster w phase manifests).map .tries

theorem block_of_rest (w : Surroundings) (manifests : List Manifest) {phase : Phase}
    (h : ¬phase < .running) : block w manifests phase = [.enters phase] := by
  rw [block, roster_eq_nil manifests (.inr h)]
  rfl

theorem phases_block (w : Surroundings) (manifests : List Manifest) (phase : Phase) :
    (block w manifests phase).filterMap Milestone.phase? = [phase] := by
  have hnone :
      ((roster w phase manifests).map Milestone.tries).filterMap Milestone.phase? = [] := by
    rw [List.filterMap_map]
    exact List.filterMap_eq_nil_iff.mpr fun _ _ => rfl
  exact congrArg (phase :: ·) hnone

theorem tries_block (w : Surroundings) (manifests : List Manifest) (phase : Phase) :
    (block w manifests phase).filterMap Milestone.position? = roster w phase manifests := by
  have hall : ((roster w phase manifests).map Milestone.tries).filterMap Milestone.position? =
      roster w phase manifests := by
    rw [List.filterMap_map]
    exact List.filterMap_some
  exact hall

/-- What a turn says of phases and programs, if a logout is only cancelled as `cancelled`
says. -/
structure Passed (w : Surroundings) (cancelled : Prop) (session : Session) (turn : Turn) :
    Prop where
  path : Path (PhaseMove cancelled) session.phase (phases turn.effects) turn.session.phase
  /-- Whatever phase is entered, exactly its roster is tried next, in the order of the list. -/
  milestones : milestones turn.effects = (phases turn.effects).flatMap (block w session.manifests)
  manifests : turn.session.manifests = session.manifests
  ids : Mints w session.ids turn.effects turn.session.ids
  /-- A program is launched with the identifier that comes out. -/
  told : ∀ position id pid, .launched position id pid ∈ turn.effects →
    ∃ launched program, session.manifests[position]? = some program.manifest
      ∧ program.clientId = some id ∧ pid = w.launch launched position program

variable {cancelled : Prop}

theorem Passed.andThen {turn : Turn} {next : Session → Turn} (h : Passed w cancelled session turn)
    (hn : Passed w cancelled turn.session (next turn.session)) :
    Passed w cancelled session (turn.andThen next) where
  path := by
    rw [Turn.andThen_effects, phases_append]
    exact h.path.append hn.path
  milestones := by
    rw [Turn.andThen_effects, milestones_append, phases_append, List.flatMap_append, h.milestones,
      hn.milestones, h.manifests]
  manifests := hn.manifests.trans h.manifests
  ids := h.ids.append hn.ids
  told := by
    intro position id pid he
    rcases List.mem_append.mp he with he | he
    · exact h.told position id pid he
    · rw [← h.manifests]
      exact hn.told position id pid he

/-- A turn that says nothing of phases and launches. -/
theorem passed_quiet {turn : Turn} (hphase : turn.session.phase = session.phase)
    (hprograms : turn.session.programs = session.programs)
    (hquiet : ∀ effect ∈ turn.effects, effect.milestone? = none)
    (hids : Mints w session.ids turn.effects turn.session.ids) :
    Passed w cancelled session turn := by
  have hmilestones : Session.milestones turn.effects = [] := List.filterMap_eq_nil_iff.mpr hquiet
  have hphases : phases turn.effects = [] := by
    rw [phases_eq, hmilestones]
    rfl
  refine ⟨?_, ?_, congrArg (List.map Program.manifest) hprograms, hids, ?_⟩
  · rw [hphases, hphase]
    exact .rest _ _
  · rw [hphases, hmilestones]
    rfl
  · exact fun position id pid he => absurd (hquiet _ he) (by simp [Effect.milestone?])

theorem phases_enter {phase : Phase} {effects : List Effect}
    (hquiet : ∀ effect ∈ effects, effect.milestone? = none) :
    milestones (.phaseChanged phase :: effects) = [.enters phase]
      ∧ phases (.phaseChanged phase :: effects) = [phase] := by
  have hmilestones : milestones (.phaseChanged phase :: effects) = [.enters phase] :=
    congrArg (Milestone.enters phase :: ·) (List.filterMap_eq_nil_iff.mpr hquiet)
  refine ⟨hmilestones, ?_⟩
  rw [phases_eq, hmilestones]
  rfl

/-- A turn that enters a phase without programs. -/
theorem passed_enter {turn : Turn} {phase : Phase} {effects : List Effect}
    (heffects : turn.effects = .phaseChanged phase :: effects)
    (hquiet : ∀ effect ∈ effects, effect.milestone? = none ∧ effect.made? = none)
    (hphase : turn.session.phase = phase) (hrest : ¬phase < .running)
    (hmove : PhaseMove cancelled session.phase phase)
    (hprograms : turn.session.programs = session.programs) (hids : turn.session.ids = session.ids) :
    Passed w cancelled session turn := by
  obtain ⟨hmilestones, hphases⟩ : Session.milestones turn.effects = [.enters phase]
      ∧ phases turn.effects = [phase] := by
    rw [heffects]
    exact phases_enter fun effect he => (hquiet effect he).1
  refine ⟨?_, ?_, congrArg (List.map Program.manifest) hprograms, ?_, ?_⟩
  · rw [hphases, hphase]
    exact .move hmove
  · rw [hphases, hmilestones, List.flatMap_singleton, block_of_rest w _ hrest]
  · rw [hids, heffects]
    refine mints_of_none fun effect he => ?_
    rcases List.mem_cons.mp he with rfl | he
    · rfl
    · exact (hquiet effect he).2
  · intro position id pid he
    rw [heffects] at he
    exact absurd (hquiet _ ((List.mem_cons.mp he).resolve_left (by simp))).1
      (by simp [Effect.milestone?])

theorem Passed.tries {turn : Turn} (h : Passed w cancelled session turn) :
    tries turn.effects = (phases turn.effects).flatMap (roster w · session.manifests) := by
  rw [tries_eq, h.milestones, List.filterMap_flatMap]
  simp only [tries_block]

/-- What is tried takes part in a phase that is entered. -/
theorem Passed.takes_part {turn : Turn} (h : Passed w cancelled session turn)
    (hposition : position ∈ Session.tries turn.effects) :
    ∃ manifest, session.manifests[position]? = some manifest ∧ w.disabled manifest = false
      ∧ manifest.phase ∈ phases turn.effects := by
  rw [h.tries, List.mem_flatMap] at hposition
  obtain ⟨phase, hentered, hroster⟩ := hposition
  obtain ⟨manifest, hmanifest, rfl, henabled⟩ := mem_roster.mp hroster
  exact ⟨manifest, hmanifest, henabled, hentered⟩

theorem milestones_of_launches {effects : List Effect}
    (h : ∀ effect ∈ effects, ∃ position id pid, effect = .launched position id pid) :
    milestones effects = (tries effects).map .tries := by
  induction effects with
  | nil => rfl
  | cons effect effects ih =>
      have hrest := ih fun e he => h e (List.mem_cons_of_mem _ he)
      obtain ⟨position, id, pid, rfl⟩ := h effect List.mem_cons_self
      exact congrArg (Milestone.tries position :: ·) hrest

theorem milestones_beginNext (w : Surroundings) (session : Session) :
    milestones (beginNext w session).effects = block w session.manifests session.phase.next := by
  have hmilestones := milestones_of_launches fun effect he => by
    obtain ⟨position, id, pid, heq, _⟩ := (launches_beginNext w session).effects effect he
    exact ⟨position, id, pid, heq⟩
  rw [tries_launchPhase] at hmilestones
  rw [beginNext_effects]
  exact congrArg (Milestone.enters session.phase.next :: ·) hmilestones

theorem phases_beginNext (w : Surroundings) (session : Session) :
    phases (beginNext w session).effects = [session.phase.next] := by
  rw [phases_eq, milestones_beginNext, phases_block]

theorem passed_beginNext (w : Surroundings) (hphase : session.phase < .running) :
    Passed w cancelled session (beginNext w session) where
  path := by
    rw [phases_beginNext, beginNext_phase]
    exact .move (.onward hphase)
  milestones := by
    rw [phases_beginNext, milestones_beginNext, List.flatMap_singleton]
  manifests := beginNext_manifests w session
  ids := by
    have hentered : Mints w session.ids [.phaseChanged session.phase.next] session.ids :=
      mints_of_none (by simp [Effect.made?])
    exact hentered.append (launches_beginNext w session).ids
  told := by
    intro position id pid he
    rw [beginNext_effects] at he
    have hmem := (List.mem_cons.mp he).resolve_left (by simp)
    obtain ⟨_, _, _, heq, htold⟩ := (launches_beginNext w session).effects _ hmem
    obtain ⟨rfl, rfl, rfl⟩ := Effect.launched.inj heq
    exact htold

/-- Phases that pass one after the other are gone through in order. -/
theorem PhaseEnds.passed (h : PhaseEnds w session ended next) (hphase : session.phase < .running) :
    Passed w cancelled session next := by
  induction h with
  | @arrives session hnext =>
      exact passed_enter rfl (by simp) rfl hnext (.onward hphase) rfl rfl
  | @waits session hnext hpending =>
      refine (passed_beginNext w hphase).andThen (passed_quiet rfl rfl (by simp) ?_)
      exact mints_of_none (by simp)
  | @passes session ended next hnext _ rest ih =>
      exact (passed_beginNext w hphase).andThen (ih (by rw [beginNext_phase]; exact hnext))

/-! ## One operation -/

theorem milestone?_of_leaves {left : Turn} (h : Leaves w session left) :
    ∀ effect ∈ left.effects, effect.milestone? = none := by
  intro effect he
  rcases h.effects effect he with hquiet | ⟨_, _, rfl | rfl⟩
  · exact milestone?_of_not_isProgress hquiet
  · rfl
  · rfl

theorem mints_of_leaves {left : Turn} (h : Leaves w session left) :
    Mints w session.ids left.effects left.session.ids := by
  cases h with
  | starts _ => exact mints_of_none (by simp)
  | last greeting hgreeting position _ =>
      exact hgreeting.ids.append (mints_of_none (by simp [Effect.made?]))
  | expires _ =>
      refine mints_of_none fun effect he => ?_
      obtain ⟨_, _, rfl⟩ := List.mem_map.mp he
      rfl

theorem passed_unmoved {turn : Turn} (h : Unmoved w session turn) :
    Passed w cancelled session turn :=
  passed_quiet h.phase h.programs
    (fun effect he => milestone?_of_not_isProgress (h.effects effect he)) h.ids

theorem quiet_callEach (clients : List ClientKey) {call : ClientCall}
    (h : ∀ clientId, call ≠ .registered clientId false) :
    ∀ effect ∈ callEach clients call, effect.milestone? = none ∧ effect.made? = none := by
  intro effect he
  refine ⟨?_, made?_of_callEach h effect he⟩
  obtain ⟨_, _, rfl⟩ := mem_callEach.mp he
  rfl

/-- **What an operation says of phases and programs.** -/
theorem passed_step (h : Settled session) (step : Step) :
    Passed step.1 (cancelShutdown session = .ok (take step session)) session
      (take step session) := by
  obtain ⟨w, operation⟩ := step
  show Passed w (cancelShutdown session = .ok (perform w operation session)) session
    (perform w operation session)
  cases phaseStep w h operation with
  | rests hu => exact passed_unmoved hu
  | arrives greeting hgreeting position _ _ hturn =>
      rw [hturn]
      refine (passed_unmoved hgreeting).andThen (passed_quiet rfl rfl ?_ ?_)
      · simp [Effect.milestone?]
      · exact mints_of_none (by simp [Effect.made?])
  | ends left hleaves hphase hturn =>
      obtain ⟨hsame, hprograms, _⟩ := hleaves.frame
      have hleft : left.session.phase < .running := by rw [hsame]; exact hphase
      obtain ⟨ended, hends, _⟩ := phaseEnds_endPhase w hleft
      rw [hturn]
      refine Passed.andThen ?_ (hends.passed hleft)
      exact passed_quiet hsame hprograms (milestone?_of_leaves hleaves) (mints_of_leaves hleaves)
  | begins hphase hturn =>
      rw [hturn]
      rcases beginShutdown_cases hphase with ⟨_, heq⟩ | ⟨_, heq⟩
      · rw [heq]
        exact passed_enter rfl (by simp [Effect.milestone?, Effect.made?]) rfl (by decide)
          (.logout hphase) rfl rfl
      · rw [heq]
        exact passed_enter rfl (quiet_callEach _ (by simp)) rfl (by decide) (.logout hphase) rfl rfl
  | resumes hphase hturn =>
      have hmove : PhaseMove (cancelShutdown session = .ok (perform w operation session))
          session.phase .running := by
        rw [hphase]
        exact .resume hturn
      rw [cancelShutdown_eq hturn] at hmove ⊢
      exact passed_enter rfl (quiet_callEach _ (by simp)) rfl (by decide) hmove rfl rfl

/-! ## Runs -/

/-- The phases that a run enters, each with the surroundings that it finds. -/
def entered (session : Session) : List Step → List (Surroundings × Phase)
  | [] => []
  | step :: steps => (phases (take step session).effects).map (step.1, ·)
      ++ entered (take step session).session steps

/-- What a run says of phases and programs. -/
structure Traced (session : Session) (steps : List Step) : Prop where
  path : Path (PhaseMove True) session.phase (phases (run session steps).effects)
    (run session steps).session.phase
  phases : phases (run session steps).effects = (entered session steps).map Prod.snd
  milestones : milestones (run session steps).effects =
    (entered session steps).flatMap fun e => block e.1 session.manifests e.2
  manifests : (run session steps).session.manifests = session.manifests

theorem traced_run (h : Settled session) (steps : List Step) : Traced session steps := by
  induction steps generalizing session with
  | nil => exact ⟨.rest _ _, rfl, rfl, rfl⟩
  | cons step steps ih =>
      have hstep := passed_step h step
      have hrest := ih (settled_step h step)
      refine ⟨?_, ?_, ?_, hrest.manifests.trans hstep.manifests⟩
      · -- a run may cancel a logout, whatever this step does
        rw [run_cons, Turn.andThen_effects, phases_append]
        exact (hstep.path.imp fun _ _ hmove => hmove.imp fun _ => trivial).append hrest.path
      · rw [run_cons, Turn.andThen_effects, phases_append, hrest.phases, entered, List.map_append,
          List.map_map]
        exact congrArg (· ++ _) (List.map_id _).symm
      · rw [run_cons, Turn.andThen_effects, milestones_append, hstep.milestones, hrest.milestones,
          hstep.manifests, entered, List.flatMap_append, List.flatMap_map]

/-- The programs that a run tries to launch. -/
theorem Traced.tries {steps : List Step} (h : Traced session steps) :
    tries (run session steps).effects =
      (entered session steps).flatMap fun e => roster e.1 e.2 session.manifests := by
  rw [tries_eq, h.milestones, List.filterMap_flatMap]
  simp only [tries_block]

/-- The program at one position comes before the one at another: its phase does, or they are
of one phase and the list has it first. -/
def Earlier (manifests : List Manifest) (i j : Nat) : Prop :=
  ∃ first second, manifests[i]? = some first ∧ manifests[j]? = some second
    ∧ (first.phase < second.phase ∨ first.phase = second.phase ∧ i < j)

theorem Earlier.ne {manifests : List Manifest} {i j : Nat} (h : Earlier manifests i j) : i ≠ j := by
  rintro rfl
  obtain ⟨first, second, hfirst, hsecond, hcase⟩ := h
  obtain rfl : first = second := Option.some.inj (hfirst.symm.trans hsecond)
  rcases hcase with hlt | ⟨_, hlt⟩
  · exact Nat.lt_irrefl _ hlt
  · exact Nat.lt_irrefl _ hlt

/-- The phases with programs are those before `running`. -/
theorem lt_running_of_mem_roster {phase : Phase} {manifests : List Manifest}
    (h : position ∈ roster w phase manifests) : phase < .running := by
  by_contra hrest
  rw [roster_eq_nil manifests (.inr hrest)] at h
  exact absurd h (by simp)

/-- **Programs are tried in the order of their phases and, within a phase, of the list.** -/
theorem Traced.earlier {steps : List Step} (h : Traced session steps) :
    (Session.tries (run session steps).effects).Pairwise (Earlier session.manifests) := by
  rw [h.tries, List.pairwise_flatMap]
  constructor
  · intro e _
    -- a roster is in the order of the list
    refine (roster_ascending e.1 e.2 session.manifests).imp_of_mem ?_
    intro i j hi hj hlt
    obtain ⟨first, hfirst, hphase, _⟩ := mem_roster.mp hi
    obtain ⟨second, hsecond, hphase', _⟩ := mem_roster.mp hj
    exact ⟨first, second, hfirst, hsecond, .inr ⟨hphase.trans hphase'.symm, hlt⟩⟩
  · -- and what is entered later is a later phase
    have hascending := (List.pairwise_cons.mp h.path.ascending).2
    rw [h.phases, List.pairwise_map] at hascending
    refine hascending.imp ?_
    intro e later hlt i hi j hj
    obtain ⟨first, hfirst, hphase, _⟩ := mem_roster.mp hi
    obtain ⟨second, hsecond, hphase', _⟩ := mem_roster.mp hj
    refine ⟨first, second, hfirst, hsecond, .inl ?_⟩
    rw [hphase, hphase']
    exact hlt (lt_running_of_mem_roster hj)

/-! ## The phase that is left -/

/-- The phase that a session is in after it said so much. -/
def phaseAfter (effects : List Effect) : Phase := (phases effects).getLastD .startup

/-- A phase that is entered stands at the beginning of its own block. -/
theorem exists_entered_of_enters {manifests : List Manifest} {through : List (Surroundings × Phase)}
    {before after : List Milestone} {phase : Phase}
    (h : (through.flatMap fun e => block e.1 manifests e.2) = before ++ .enters phase :: after) :
    ∃ earlier w later, through = earlier ++ (w, phase) :: later
      ∧ before = earlier.flatMap fun e => block e.1 manifests e.2 := by
  -- the phase heads the first block, or it is in a later one
  induction through generalizing before with
  | nil => exact absurd h (by simp)
  | cons e through ih =>
      cases before with
      | nil =>
          obtain ⟨heq, _⟩ := List.cons.inj h
          obtain rfl : e.2 = phase := Milestone.enters.inj heq
          exact ⟨[], e.1, through, rfl, rfl⟩
      | cons milestone before =>
          obtain ⟨hfirst, hrest⟩ := List.cons.inj h
          subst hfirst
          rcases List.append_eq_append_iff.mp hrest with
            ⟨more, hbefore, hthrough⟩ | ⟨more, hroster, hmore⟩
          · obtain ⟨earlier, w, later, hsplit, heq⟩ := ih hthrough
            refine ⟨e :: earlier, w, later, by rw [hsplit]; rfl, ?_⟩
            rw [List.flatMap_cons, ← heq, hbefore]
            rfl
          · cases more with
            | nil =>
                have hnext : (through.flatMap fun e => block e.1 manifests e.2) =
                    [] ++ .enters phase :: after := hmore.symm
                obtain ⟨earlier, w, later, hsplit, heq⟩ := ih hnext
                refine ⟨e :: earlier, w, later, by rw [hsplit]; rfl, ?_⟩
                rw [List.flatMap_cons, ← heq, List.append_nil, block, hroster, List.append_nil]
            | cons milestone more =>
                -- no phase is entered among the programs of another one
                obtain ⟨rfl, _⟩ := List.cons.inj hmore
                have hmem : Milestone.enters phase ∈ (roster e.1 e.2 manifests).map .tries := by
                  rw [hroster]
                  simp
                exact absurd hmem (by simp)

/-- **When a phase is left, everything that takes part in it has been tried.** -/
theorem Traced.complete {steps : List Step} (h : Traced session steps)
    {earlier later : List Effect} {entering : Phase}
    (heffects : (run session steps).effects = earlier ++ .phaseChanged entering :: later)
    (hphase : phaseAfter earlier ≠ .startup) :
    ∃ w, (w, phaseAfter earlier) ∈ entered session steps
      ∧ ∀ position ∈ roster w (phaseAfter earlier) session.manifests,
        position ∈ Session.tries earlier := by
  have hmilestones := h.milestones
  rw [heffects, milestones_append] at hmilestones
  obtain ⟨through, _, rest, hsplit, hbefore⟩ := exists_entered_of_enters hmilestones.symm
  have hphases : Session.phases earlier = through.map Prod.snd := by
    rw [phases_eq, hbefore, List.filterMap_flatMap]
    simp only [phases_block]
    exact List.flatMap_pure_eq_map _ _
  have htries : Session.tries earlier =
      through.flatMap fun e => roster e.1 e.2 session.manifests := by
    rw [tries_eq, hbefore, List.filterMap_flatMap]
    simp only [tries_block]
  rcases List.eq_nil_or_concat through with rfl | ⟨between, last, rfl⟩
  · exact absurd (by rw [phaseAfter, hphases]; rfl) hphase
  · -- the phase that is left was the last to be entered, and its block is complete
    have hlast : phaseAfter earlier = last.2 := by
      rw [phaseAfter, hphases, List.concat_eq_append, List.map_append]
      exact List.getLastD_concat
    refine ⟨last.1, ?_, fun position hposition => ?_⟩
    · rw [hsplit, hlast]
      simp
    · rw [htries, List.mem_flatMap]
      exact ⟨last, by simp, hlast ▸ hposition⟩

end Session

end Xsmp
