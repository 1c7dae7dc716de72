import Mathlib.Data.List.Induction
import Xsmp.Proofs.Session.Passing

/-!
# A startup phase waits for somebody

Between two operations a session is never in the middle of going through its phases:
either it is in a phase that has programs to wait for, all of them launched by that
phase and not heard of since, and a deadline counted from the beginning of the phase,
or nothing is waited for at all (`Settled`). The places where this could break are
the four at which a phase is ended, and the logout that begins in the middle of a
startup. `PhaseStep` says what an operation does in a settled session; it ends
phases before `running` only.
-/

namespace Xsmp

/-- The phases that wait for their programs. -/
def Phase.waiting : List Phase := [.initialization, .windowManager, .panel, .desktop]

namespace Phase

theorem lt_running_of_waiting {p : Phase} (h : p ∈ waiting) : p < .running := by
  revert h
  cases p <;> decide

theorem waiting_of_next {p : Phase} (h : p.next < .application) : p.next ∈ waiting := by
  revert h
  cases p <;> decide

theorem lt_application_of_waiting {p : Phase} (h : p ∈ waiting) : p < .application := by
  revert h
  cases p <;> decide

end Phase

namespace Session

variable {w : Surroundings} {session : Session} {operation : Operation} {left next : Turn}
  {ended : List Phase} {position : Nat}

/-! ## The invariant -/

/-- Nothing is waited for without a reason. -/
structure Settled (session : Session) : Prop where
  /-- The regular applications are not waited for. -/
  application : session.phase ≠ .application
  /-- A phase that waits has somebody to wait for. -/
  waits : session.phase ∈ Phase.waiting → session.pending ≠ []
  /-- Who is waited for belongs to the phase and was launched by it. -/
  ready : ∀ position ∈ session.pending, Ready session position
  /-- Nobody is waited for twice. -/
  ascending : session.pending.Pairwise (· < ·)
  /-- In all other phases nobody is waited for, and no time is set. -/
  rests : session.phase ∉ Phase.waiting → session.pending = [] ∧ session.deadline = none

/-- Outside of the phases that wait nothing else is needed. -/
theorem settled_of_rest (hphase : session.phase ∉ Phase.waiting)
    (happlication : session.phase ≠ .application) (hpending : session.pending = [])
    (hdeadline : session.deadline = none) : Settled session where
  application := happlication
  waits := fun h => absurd h hphase
  ready := by simp [hpending]
  ascending := by simp [hpending]
  rests := fun _ => ⟨hpending, hdeadline⟩

theorem settled_init (manifests : List Manifest) (ids : ClientIds) (name : Option String)
    (phaseTimeout : Nat) : Settled { new manifests ids with name, phaseTimeout } :=
  settled_of_rest (by simp [new, Phase.waiting]) (by simp [new]) rfl rfl

theorem Settled.unmoved {turn : Turn} (h : Settled session) (hu : Unmoved w session turn) :
    Settled turn.session := by
  refine ⟨?_, ?_, ?_, ?_, ?_⟩
  · rw [hu.phase]
    exact h.application
  · rw [hu.phase, hu.pending]
    exact h.waits
  · rw [hu.pending]
    intro position hposition
    have hready := h.ready position hposition
    rw [Ready, hu.phase, hu.programs]
    exact hready
  · rw [hu.pending]
    exact h.ascending
  · rw [hu.phase, hu.pending, hu.deadline]
    exact h.rests

theorem Settled.waiting_of_pending (h : Settled session) (hposition : position ∈ session.pending) :
    session.phase ∈ Phase.waiting := by
  by_contra hphase
  rw [(h.rests hphase).1] at hposition
  exact absurd hposition (by simp)

theorem Settled.waiting_of_due (h : Settled session) (hdue : isDue w.now session.deadline = true) :
    session.phase ∈ Phase.waiting := by
  by_contra hphase
  rw [(h.rests hphase).2] at hdue
  exact absurd hdue (by simp [isDue])

/-! ## Going through phases -/

/-- What a phase that was just begun waits for. -/
theorem pending_beginNext (w : Surroundings) (session : Session) :
    (beginNext w session).session.pending =
      if session.phase.next < .application then processes (beginNext w session).effects
      else [] := by
  have h := (launches_beginNext w session).pending
  rw [beginNext_effects]
  exact h

theorem settled_beginNext (w : Surroundings)
    (hpending : (beginNext w session).session.pending ≠ []) :
    (beginNext w session).session.phase ∈ Phase.waiting
      ∧ (∀ position ∈ (beginNext w session).session.pending,
          Ready (beginNext w session).session position)
      ∧ (beginNext w session).session.pending.Pairwise (· < ·) := by
  have hlaunches := launches_beginNext w session
  have heq := pending_beginNext w session
  by_cases hnext : session.phase.next < .application
  · rw [if_pos hnext] at heq
    refine ⟨?_, ?_, ?_⟩
    · rw [beginNext_phase]
      exact Phase.waiting_of_next hnext
    · rw [heq]
      exact hlaunches.ready
    · -- what runs is part of the roster, which is in the order of the list
      have htries := tries_launchPhase w (session.setPhase session.phase.next).session
      have hsub := processes_sublist
        (launchPhase w (session.setPhase session.phase.next).session).effects
      rw [htries] at hsub
      rw [heq]
      exact (roster_ascending w _ _).sublist hsub
  · rw [if_neg hnext] at heq
    exact absurd heq hpending

/-- However many phases pass, the session is settled in the last of them, and if that one
waits, the time is counted from now. -/
theorem PhaseEnds.settled (h : PhaseEnds w session ended next) (hphase : session.phase < .running) :
    Settled next.session ∧ (next.session.phase ∈ Phase.waiting →
      .phaseChanged next.session.phase ∈ next.effects
        ∧ next.session.deadline = deadlineAfter w.now session.phaseTimeout) := by
  induction h with
  | @arrives session hnext =>
      have hrunning : session.phase.next = .running := Phase.next_eq_running hphase hnext
      have hlast : (session.setPhase session.phase.next).session.phase = .running := hrunning
      refine ⟨settled_of_rest ?_ ?_ rfl rfl, ?_⟩
      · rw [hlast]
        decide
      · simp [hlast]
      · rw [hlast]
        exact fun h => absurd h (by decide)
  | @waits session hnext hpending =>
      obtain ⟨hwaiting, hready, hascending⟩ := settled_beginNext w hpending
      refine ⟨?_, fun _ => ⟨?_, ?_⟩⟩
      · exact {
          application := fun happ => absurd (happ ▸ hwaiting) (by decide)
          waits := fun _ => hpending
          ready := hready
          ascending := hascending
          rests := fun hrest => absurd hwaiting hrest }
      · show Effect.phaseChanged (beginNext w session).session.phase
          ∈ (beginNext w session).effects ++ []
        rw [beginNext_phase, beginNext_effects]
        exact List.mem_append_left _ List.mem_cons_self
      · show deadlineAfter w.now (beginNext w session).session.phaseTimeout = _
        rw [beginNext_phaseTimeout]
  | @passes session ended next hnext _ rest ih =>
      obtain ⟨hsettled, hbegun⟩ := ih (by rw [beginNext_phase]; exact hnext)
      rw [beginNext_phaseTimeout] at hbegun
      refine ⟨hsettled, fun hwaiting => ?_⟩
      obtain ⟨hmem, hdeadline⟩ := hbegun hwaiting
      exact ⟨List.mem_append_right _ hmem, hdeadline⟩

/-! ## What an operation does in a settled session -/

/-- How a phase comes to its end: `left` is what has been done when it is ended. -/
inductive Leaves (w : Surroundings) (session : Session) : Turn → Prop
  /-- The session is started. -/
  | starts (phase : session.phase = .startup) : Leaves w session { session }
  /-- The last program that was waited for arrives. -/
  | last (greeting : Turn) (h : Unmoved w session greeting) (position : Nat)
      (pending : session.pending = [position]) :
      Leaves w session (greeting.andThen fun session =>
        { session := { session with pending := [] }, effects := [.programRegistered position] })
  /-- The time is up. -/
  | expires (due : isDue w.now session.deadline = true) :
      Leaves w session { session, effects := session.pending.map .programTimedOut }

/-- What an operation does to the phases and the programs of a settled session. -/
inductive PhaseStep (w : Surroundings) (session : Session) (operation : Operation) : Prop
  /-- Nothing. -/
  | rests (h : Unmoved w session (perform w operation session))
  /-- A program arrives, and others are still waited for. -/
  | arrives (greeting : Turn) (h : Unmoved w session greeting) (position : Nat)
      (pending : position ∈ session.pending)
      (others : session.pending.filter (· != position) ≠ [])
      (turn : perform w operation session = greeting.andThen fun session =>
        { session := { session with pending := session.pending.filter (· != position) }
          effects := [.programRegistered position] })
  /-- The phase comes to its end. -/
  | ends (left : Turn) (h : Leaves w session left) (phase : session.phase < .running)
      (turn : perform w operation session = left.andThen (endPhase w))
  /-- It begins a logout. -/
  | begins (phase : session.phase ≠ .shutdown)
      (turn : perform w operation session = beginShutdown session)
  /-- It cancels a logout. -/
  | resumes (phase : session.phase = .shutdown)
      (turn : cancelShutdown session = .ok (perform w operation session))

/-- If nobody else is waited for, nobody else was. -/
theorem Settled.eq_singleton (h : Settled session) (hposition : position ∈ session.pending)
    (hnone : session.pending.filter (· != position) = []) : session.pending = [position] := by
  have hall : ∀ other ∈ session.pending, other = position := by
    intro other hother
    by_contra hne
    have hmem : other ∈ session.pending.filter (· != position) :=
      List.mem_filter.mpr ⟨hother, by simpa using hne⟩
    rw [hnone] at hmem
    exact absurd hmem (by simp)
  have hnodup : session.pending.Nodup := h.ascending.imp fun hlt => Nat.ne_of_lt hlt
  have hpos := List.length_pos_of_mem hposition
  cases hpending : session.pending with
  | nil => exact absurd hposition (by simp [hpending])
  | cons first rest =>
      rw [hpending] at hall hnodup
      have hfirst := hall first List.mem_cons_self
      cases rest with
      | nil => rw [hfirst]
      | cons second rest =>
          -- the second of them would be the same one again
          have hsecond := hall second (by simp)
          rw [hfirst, hsecond] at hnodup
          exact absurd hnodup (by simp)

theorem phaseStep_arrives {greeting : Turn} (h : Settled session)
    (hgreeting : Unmoved w session greeting) (hposition : position ∈ session.pending)
    (hturn : perform w operation session = greeting.andThen (programArrived w position)) :
    PhaseStep w session operation := by
  have hwaiting := h.waiting_of_pending hposition
  have happ : session.phase < .application := Phase.lt_application_of_waiting hwaiting
  by_cases hothers : session.pending.filter (· != position) = []
  · refine .ends _ (.last greeting hgreeting position (h.eq_singleton hposition hothers))
      (Phase.lt_running_of_waiting hwaiting) ?_
    rw [hturn, Turn.andThen_assoc]
    refine Turn.andThen_congr ?_
    have hnone : greeting.session.pending.filter (· != position) = [] := by
      rw [hgreeting.pending]
      exact hothers
    simp only [programArrived, hnone]
    refine Turn.andThen_congr ?_
    simp [hgreeting.phase, happ]
  · refine .arrives greeting hgreeting position hposition hothers ?_
    rw [hturn]
    refine Turn.andThen_congr ?_
    have hsome : (greeting.session.pending.filter (· != position)).isEmpty = false := by
      rw [hgreeting.pending]
      simpa using hothers
    simp only [programArrived, Turn.andThen, hsome]
    simp

/-- **In a settled session an operation ends phases before `running` only.** -/
theorem phaseStep (w : Surroundings) (h : Settled session) (operation : Operation) :
    PhaseStep w session operation := by
  cases startupStep w session operation with
  | rests hu => exact .rests hu
  | starts hphase hturn =>
      refine .ends { session } (.starts hphase) (by rw [hphase]; decide) ?_
      rw [hturn]
      simp [Turn.andThen]
  | arrives greeting hgreeting position hposition hturn =>
      exact phaseStep_arrives h hgreeting hposition hturn
  | expires hdue hturn =>
      exact .ends _ (.expires hdue) (Phase.lt_running_of_waiting (h.waiting_of_due hdue)) hturn
  | begins hphase hturn => exact .begins hphase hturn
  | resumes hphase hturn => exact .resumes hphase hturn

/-- Up to the end of a phase, only who is waited for has changed. -/
theorem Leaves.frame (h : Leaves w session left) : left.session.phase = session.phase
    ∧ left.session.programs = session.programs
    ∧ left.session.phaseTimeout = session.phaseTimeout := by
  cases h with
  | starts _ => exact ⟨rfl, rfl, rfl⟩
  | last greeting hgreeting position _ =>
      exact ⟨hgreeting.phase, hgreeting.programs, hgreeting.phaseTimeout⟩
  | expires _ => exact ⟨rfl, rfl, rfl⟩

theorem Leaves.effects (h : Leaves w session left) : ∀ effect ∈ left.effects,
    effect.isProgress = false ∨ ∃ position ∈ session.pending,
      effect = .programRegistered position ∨ effect = .programTimedOut position := by
  intro effect he
  cases h with
  | starts _ => exact absurd he (by simp)
  | last greeting hgreeting position hpending =>
      rcases List.mem_append.mp he with he | he
      · exact .inl (hgreeting.effects effect he)
      · refine .inr ⟨position, by simp [hpending], .inl (List.mem_singleton.mp he)⟩
  | expires _ =>
      obtain ⟨position, hposition, rfl⟩ := List.mem_map.mp he
      exact .inr ⟨position, hposition, .inr rfl⟩

/-- Ending the phase takes a settled session to a settled one. -/
theorem Leaves.settled (h : Leaves w session left) (hphase : session.phase < .running) :
    Settled (left.andThen (endPhase w)).session
      ∧ ((left.andThen (endPhase w)).session.phase ∈ Phase.waiting →
        .phaseChanged (left.andThen (endPhase w)).session.phase
            ∈ (left.andThen (endPhase w)).effects
          ∧ (left.andThen (endPhase w)).session.deadline
            = deadlineAfter w.now session.phaseTimeout) := by
  obtain ⟨hsame, _, htimeout⟩ := h.frame
  have hleft : left.session.phase < .running := by rw [hsame]; exact hphase
  obtain ⟨ended, hends, _⟩ := phaseEnds_endPhase w hleft
  obtain ⟨hsettled, hbegun⟩ := hends.settled hleft
  refine ⟨hsettled, fun hwaiting => ?_⟩
  obtain ⟨hmem, hdeadline⟩ := hbegun hwaiting
  rw [htimeout] at hdeadline
  exact ⟨List.mem_append_right _ hmem, hdeadline⟩

/-! ## Every state -/

theorem settled_beginShutdown (hphase : session.phase ≠ .shutdown) :
    Settled (beginShutdown session).session := by
  rcases beginShutdown_cases hphase with ⟨_, heq⟩ | ⟨_, heq⟩
  · rw [heq]
    exact settled_of_rest (by simp [Phase.waiting]) (by simp) rfl rfl
  · rw [heq]
    exact settled_of_rest (by simp [Phase.waiting]) (by simp) rfl rfl

theorem Settled.cancelShutdown {turn : Turn} (h : Settled session)
    (hphase : session.phase = .shutdown) (hturn : cancelShutdown session = .ok turn) :
    Settled turn.session := by
  obtain ⟨hpending, hdeadline⟩ := h.rests (by rw [hphase]; decide)
  rw [cancelShutdown_eq hturn]
  exact settled_of_rest (by simp [Phase.waiting]) (by simp) hpending hdeadline

theorem settled_step (h : Settled session) (step : Step) : Settled (take step session).session := by
  obtain ⟨w, operation⟩ := step
  show Settled (perform w operation session).session
  cases phaseStep w h operation with
  | rests hu => exact h.unmoved hu
  | arrives greeting hgreeting position hposition hothers hturn =>
      have hg := h.unmoved hgreeting
      rw [hturn]
      refine ⟨hg.application, fun _ => ?_, ?_, ?_, fun hrest => ?_⟩
      · show greeting.session.pending.filter (· != position) ≠ []
        rw [hgreeting.pending]
        exact hothers
      · exact fun other hother => hg.ready other (List.mem_filter.mp hother).1
      · exact hg.ascending.filter _
      · have hwaiting := h.waiting_of_pending hposition
        rw [← hgreeting.phase] at hwaiting
        exact absurd hwaiting hrest
  | ends left hleaves hphase hturn =>
      rw [hturn]
      exact (hleaves.settled hphase).1
  | begins hphase hturn =>
      rw [hturn]
      exact settled_beginShutdown hphase
  | resumes hphase hturn => exact h.cancelShutdown hphase hturn

theorem settled_run (h : Settled session) (steps : List Step) :
    Settled (run session steps).session := by
  induction steps generalizing session with
  | nil => exact h
  | cons step steps ih => exact ih (settled_step h step)

theorem settled_reachable (h : Reachable session) : Settled session := by
  induction h with
  | init manifests ids name phaseTimeout => exact settled_init manifests ids name phaseTimeout
  | tail step _ ih => exact settled_step ih step

end Session

end Xsmp
