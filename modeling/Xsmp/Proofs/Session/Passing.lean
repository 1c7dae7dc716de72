import Xsmp.Proofs.Session.Launch

/-!
# Phases that pass

Ending a phase begins the next one, which launches its programs, and one that has
nobody to wait for is ended in its turn. Written that way, the two call each other,
and nothing in the rules keeps them from ending `running` and going on into
`shutdown`. `PhaseEnds` takes the rules as they are, for a session in any phase. It
comes to an end whatever the programs are, and from a phase before `running` it ends
no later one, so that it agrees with `endPhase`, which goes through the phases to
come. Later proofs go by induction on `PhaseEnds`: one phase at a time.
-/

namespace Xsmp

theorem Turn.andThen_assoc (turn : Turn) (next last : Session → Turn) :
    (turn.andThen next).andThen last = turn.andThen fun session => (next session).andThen last := by
  simp [Turn.andThen, List.append_assoc]

/-- What comes next is only asked of the session that the turn leaves behind. -/
theorem Turn.andThen_congr {turn : Turn} {next other : Session → Turn}
    (h : next turn.session = other turn.session) : turn.andThen next = turn.andThen other := by
  rw [Turn.andThen, Turn.andThen, h]

namespace Phase

theorem lt_running_of_next {p : Phase} (h : p.next < .running) : p < .running := by
  revert h
  cases p <;> decide

theorem next_eq_running {p : Phase} (h : p < .running) (hnext : ¬p.next < .running) :
    p.next = .running := by
  revert h hnext
  cases p <;> decide

end Phase

namespace Session

variable {w : Surroundings} {session : Session} {ended : List Phase} {next : Turn}

/-- Begin the phase that follows and launch its programs. -/
def beginNext (w : Surroundings) (session : Session) : Turn :=
  (session.setPhase session.phase.next).andThen (launchPhase w)

/-- Ending the phase of a session comes to an end with a turn. All phases that are ended on
the way are listed, the one that the session is in first. -/
inductive PhaseEnds (w : Surroundings) : Session → List Phase → Turn → Prop
  /-- The phase that follows launches nothing. -/
  | arrives {session : Session} (h : ¬session.phase.next < .running) :
      PhaseEnds w session [session.phase] (session.setPhase session.phase.next)
  /-- The phase that follows has somebody to wait for. -/
  | waits {session : Session} (h : session.phase.next < .running)
      (pending : (beginNext w session).session.pending ≠ []) :
      PhaseEnds w session [session.phase] ((beginNext w session).andThen fun begun =>
        { session := { begun with deadline := deadlineAfter w.now begun.phaseTimeout } })
  /-- The phase that follows has nobody to wait for, and is ended in its turn. -/
  | passes {session : Session} {ended : List Phase} {next : Turn}
      (h : session.phase.next < .running) (pending : (beginNext w session).session.pending = [])
      (rest : PhaseEnds w (beginNext w session).session ended next) :
      PhaseEnds w session (session.phase :: ended) ((beginNext w session).andThen fun _ => next)

theorem launches_beginNext (w : Surroundings) (session : Session) :
    Launches w (session.setPhase session.phase.next).session
      (launchPhase w (session.setPhase session.phase.next).session) :=
  launches_launchPhase w _

@[simp] theorem beginNext_phase (w : Surroundings) (session : Session) :
    (beginNext w session).session.phase = session.phase.next :=
  (launches_beginNext w session).phase

@[simp] theorem beginNext_phaseTimeout (w : Surroundings) (session : Session) :
    (beginNext w session).session.phaseTimeout = session.phaseTimeout := by
  obtain ⟨_, _, _, heq⟩ := (launches_beginNext w session).frame
  rw [beginNext, Turn.andThen_session, heq]
  rfl

@[simp] theorem beginNext_manifests (w : Surroundings) (session : Session) :
    (beginNext w session).session.manifests = session.manifests :=
  (launches_beginNext w session).manifests

theorem beginNext_effects (w : Surroundings) (session : Session) :
    (beginNext w session).effects = .phaseChanged session.phase.next
      :: (launchPhase w (session.setPhase session.phase.next).session).effects := rfl

/-- Whatever the programs are, ending a phase comes to an end. -/
theorem phaseEnds_total (w : Surroundings) (session : Session) :
    ∃ ended next, PhaseEnds w session ended next := by
  -- by induction on the phases to come, of which each call uses up one
  induction hcoming : session.phase.upcoming generalizing session with
  | nil =>
      refine ⟨_, _, .arrives fun hnext => ?_⟩
      rw [Phase.upcoming_eq_cons (Phase.lt_running_of_next hnext)] at hcoming
      exact absurd hcoming (by simp)
  | cons phase rest ih =>
      by_cases hnext : session.phase.next < .running
      · by_cases hpending : (beginNext w session).session.pending = []
        · have hrest : (beginNext w session).session.phase.upcoming = rest := by
            rw [Phase.upcoming_eq_cons (Phase.lt_running_of_next hnext)] at hcoming
            rw [beginNext_phase]
            exact (List.cons.inj hcoming).2
          obtain ⟨ended, next, h⟩ := ih _ hrest
          exact ⟨_, _, .passes hnext hpending h⟩
        · exact ⟨_, _, .waits hnext hpending⟩
      · exact ⟨_, _, .arrives hnext⟩

/-- Before `running`, the phases to come are gone through one by one. -/
theorem endPhase_of_next (w : Surroundings) (h : session.phase.next < .running) :
    endPhase w session = (beginNext w session).andThen fun begun =>
      if begun.pending.isEmpty then enter w session.phase.next.upcoming begun
      else { session := { begun with deadline := deadlineAfter w.now begun.phaseTimeout } } := by
  rw [endPhase, Phase.upcoming_eq_cons (Phase.lt_running_of_next h), enter, beginNext,
    Turn.andThen_assoc]
  simp only [h, if_true]

theorem endPhase_of_last (w : Surroundings) (h : session.phase < .running)
    (hnext : ¬session.phase.next < .running) :
    endPhase w session = session.setPhase session.phase.next := by
  rw [endPhase, Phase.upcoming_eq_cons h, enter]
  simp [hnext, Turn.andThen]

/-- **Ending a phase before `running` is what the rules say, and no later phase is ended.** -/
theorem PhaseEnds.eq_endPhase (h : PhaseEnds w session ended next)
    (hphase : session.phase < .running) :
    next = endPhase w session ∧ ∀ phase ∈ ended, phase < .running := by
  induction h with
  | arrives hnext =>
      exact ⟨(endPhase_of_last w hphase hnext).symm, by simpa using hphase⟩
  | @waits session hnext hpending =>
      have hempty : (beginNext w session).session.pending.isEmpty = false := by simpa using hpending
      rw [endPhase_of_next w hnext]
      refine ⟨Turn.andThen_congr ?_, by simpa using hphase⟩
      simp only [hempty]
      rfl
  | @passes session ended next hnext hpending rest ih =>
      have hempty : (beginNext w session).session.pending.isEmpty = true := by simpa using hpending
      obtain ⟨heq, hall⟩ := ih (by rw [beginNext_phase]; exact hnext)
      rw [endPhase_of_next w hnext]
      refine ⟨Turn.andThen_congr ?_, ?_⟩
      · simp only [hempty, if_true]
        rw [heq, endPhase, beginNext_phase]
      · intro phase hmem
        rcases List.mem_cons.mp hmem with rfl | hmem
        · exact hphase
        · exact hall phase hmem

/-- Ending a phase before `running` follows the rules. -/
theorem phaseEnds_endPhase (w : Surroundings) (h : session.phase < .running) :
    ∃ ended, PhaseEnds w session ended (endPhase w session)
      ∧ ∀ phase ∈ ended, phase < .running := by
  obtain ⟨ended, next, hends⟩ := phaseEnds_total w session
  obtain ⟨heq, hall⟩ := hends.eq_endPhase h
  exact ⟨ended, heq ▸ hends, hall⟩

end Session

end Xsmp
