import Xsmp.Proofs.Session.Tending

/-!
# Who was stopped, and who is restarted

A session remembers whom it has stopped until they are gone, so that it does not restart them.
Nothing else is remembered of a restart: it is decided when a client goes, and no other operation
restarts anybody. `StopStep` says what each operation does to the list of those that were
stopped, and whom it restarts.
-/

namespace Xsmp.Session

variable {w : Surroundings} {session : Session} {operation : Operation} {turn : Turn}
  {key : ClientKey}

/-! ## Turns that restart nobody -/

/-- Nobody is stopped or restarted. -/
structure Spares (session : Session) (turn : Turn) : Prop where
  stopped : turn.session.stopped = session.stopped
  restarts : ∀ key, .called key .restart ∉ turn.effects

theorem spares_rest (session : Session) : Spares session { session } :=
  ⟨rfl, fun _ => List.not_mem_nil⟩

theorem Spares.count (h : Spares session turn) (key : ClientKey) :
    turn.effects.count (.called key .restart) = 0 :=
  List.count_eq_zero.mpr (h.restarts key)

theorem spares_startsUp (h : StartsUp session turn) : Spares session turn := by
  obtain ⟨_, _, _, _, _, hframe⟩ := h.frame
  refine ⟨by rw [hframe], fun key hmem => ?_⟩
  exact absurd (h.effects _ hmem) (by simp [Effect.isStartup])

/-- Nobody is stopped or restarted on the way into a logout or out of it. -/
theorem Steers.spares (h : Steers session turn) : Spares session turn := by
  obtain ⟨_, _, _, _, _, _, _, _, hframe⟩ := h.frame
  refine ⟨by rw [hframe], fun key hmem => ?_⟩
  exact absurd (h.effects _ hmem) (by simp [Effect.isSteering, Effect.isTending])

theorem spares_register (key : ClientKey) (previousId : Option String) :
    Spares session (perform w (.register key previousId) session) := by
  cases hreg : register w key previousId session with
  | error error =>
      simp only [perform, hreg, Except.map]
      exact spares_rest session
  | ok result =>
      obtain ⟨id, turn⟩ := result
      obtain ⟨ids, resumed, rest, heffects, hstarts⟩ := startsUp_register hreg
      have hspares := spares_startsUp hstarts
      simp only [perform, hreg, Except.map]
      refine ⟨hspares.stopped, fun other hmem => ?_⟩
      rw [heffects] at hmem
      rcases List.mem_cons.mp hmem with heq | hmem
      · exact absurd heq (by simp)
      · exact hspares.restarts other hmem

/-! ## What an operation does -/

/-- A client that goes now is restarted. -/
def Restarts (w : Surroundings) (session : Session) (key : ClientKey) : Prop :=
  key ∉ session.stopped ∧ session.phase ≠ .shutdown ∧ w.wantsRestart key = true

instance (w : Surroundings) (session : Session) (key : ClientKey) :
    Decidable (Restarts w session key) := inferInstanceAs (Decidable (_ ∧ _))

/-- What an operation does to the list of those that were stopped, and whom it restarts. -/
inductive StopStep (w : Surroundings) (session : Session) (operation : Operation) : Prop
  | spares (h : Spares session (perform w operation session))
      (other : ∀ key ∈ session.clients.keys,
        operation ≠ .stop key ∧ operation ≠ .report key .disconnected)
  | stops (key : ClientKey) (registered : key ∈ session.clients.keys) (heq : operation = .stop key)
      (turn : perform w operation session = {
        session := { session with stopped := session.stopped.filter (· != key) ++ [key] }
        effects := [.called key .die] })
  | strikes (key : ClientKey) (registered : key ∈ session.clients.keys)
      (heq : operation = .report key .disconnected)
      (stopped : (perform w operation session).session.stopped =
        session.stopped.filter (· != key))
      (restarts : ∀ other,
        (perform w operation session).effects.count (.called other .restart) =
          if other = key ∧ Restarts w session key then 1 else 0)

/-- An operation that is about nobody in particular, or a registration. -/
theorem stopStep_spares (hstop : ∀ key, operation ≠ .stop key)
    (hgone : ∀ key, operation ≠ .report key .disconnected)
    (h : Spares session (perform w operation session)) : StopStep w session operation :=
  .spares h fun key _ => ⟨hstop key, hgone key⟩

/-- Whether a client is restarted is decided after it has lost its turn with the user and before
the logout goes on without it. -/
theorem stopStep_disconnect (hreg : key ∈ session.clients.keys) :
    StopStep w session (.report key .disconnected) := by
  let left : Session := { discharge key session with clients := session.clients.erase key }
  let dropped := dropInteractor key left
  let restarted : Turn := {
    session := { dropped.session with
      stopped := dropped.session.stopped.filter (· != key) }
    effects := if Restarts w session key then [.called key .restart] else [] }
  have htends := tends_dropInteractor key left
  have hdropped : Spares left dropped := htends.steers.spares
  have hstopped : dropped.session.stopped = session.stopped := hdropped.stopped
  have hphase : dropped.session.phase = session.phase := htends.frame.phase
  have hbarrier := (tends_checkBarrier restarted.session).steers.spares
  have hturn : perform w (.report key .disconnected) session =
      dropped.andThen fun _ => restarted.andThen checkBarrier := by
    have hcontains : session.clients.contains key = true := KeyMap.contains_iff.mpr hreg
    have hdecided : (!dropped.session.stopped.contains key && dropped.session.phase != .shutdown
        && w.wantsRestart key) = decide (Restarts w session key) := by
      rw [hstopped, hphase, Bool.eq_iff_iff, decide_eq_true_iff]
      simp [Restarts, and_assoc]
    have hmiddle : ({
        session := { dropped.session with
          stopped := dropped.session.stopped.filter (· != key) }
        effects := if !dropped.session.stopped.contains key && dropped.session.phase != .shutdown
          && w.wantsRestart key then [.called key .restart] else [] } : Turn) = restarted := by
      rw [hdecided]
      simp only [decide_eq_true_iff, restarted]
    simp only [perform, report, hcontains]
    exact congrArg (fun middle : Turn => dropped.andThen fun _ => middle.andThen checkBarrier)
      hmiddle
  refine .strikes key hreg rfl ?_ fun other => ?_
  · rw [hturn]
    show (checkBarrier restarted.session).session.stopped = _
    rw [hbarrier.stopped]
    exact congrArg (List.filter (· != key)) hstopped
  · rw [hturn]
    show List.count _ (dropped.effects ++ (restarted.effects
      ++ (checkBarrier restarted.session).effects)) = _
    rw [List.count_append, List.count_append, hdropped.count, hbarrier.count]
    by_cases hrestarts : Restarts w session key
    · by_cases hother : other = key
      · simp [restarted, hrestarts, hother]
      · simp [restarted, hrestarts, hother, Ne.symm hother]
    · simp [restarted, hrestarts]

theorem stopStep_report (w : Surroundings) (session : Session) (key : ClientKey)
    (event : ClientEvent) : StopStep w session (.report key event) := by
  cases reportStep w session key event with
  | tends stays h =>
      refine .spares h.steers.spares fun other hother => ⟨by simp, fun heq => ?_⟩
      obtain ⟨rfl, hgone⟩ := Operation.report.inj heq
      exact stays hother hgone
  | resumes _ _ heq _ turn =>
      subst heq
      exact stopStep_spares (by simp) (by simp) (steers_cancelShutdown turn).spares
  | begins heq turn =>
      subst heq
      refine stopStep_spares (by simp) (by simp) ?_
      rw [turn]
      exact (steers_beginShutdown session).spares
  | leaves registered heq _ =>
      subst heq
      exact stopStep_disconnect registered

/-- **What every operation does to the list of those that were stopped, and whom it restarts.** -/
theorem stopStep (w : Surroundings) (session : Session) (operation : Operation) :
    StopStep w session operation := by
  cases operation with
  | start =>
      exact stopStep_spares (by simp) (by simp) (spares_startsUp (startsUp_start session))
  | timeout =>
      exact stopStep_spares (by simp) (by simp) (spares_startsUp (startsUp_timeout session))
  | programExited pid =>
      exact stopStep_spares (by simp) (by simp)
        (spares_startsUp (startsUp_programExited pid session))
  | register key previousId =>
      exact stopStep_spares (by simp) (by simp) (spares_register key previousId)
  | report key event => exact stopStep_report w session key event
  | beginShutdown => exact stopStep_spares (by simp) (by simp) (steers_beginShutdown session).spares
  | forceShutdown =>
      exact stopStep_spares (by simp) (by simp) (tends_forceShutdown session).steers.spares
  | cancelShutdown => exact stopStep_spares (by simp) (by simp) (steers_cancel w session).spares
  | checkpoint =>
      exact stopStep_spares (by simp) (by simp) (tends_checkpoint w session).steers.spares
  | stop key =>
      by_cases hreg : key ∈ session.clients.keys
      · have hcontains : session.clients.contains key = true := KeyMap.contains_iff.mpr hreg
        exact .stops key hreg rfl (by simp [perform, stop, hcontains])
      · have hcontains : session.clients.contains key = false := KeyMap.contains_eq_false.mpr hreg
        refine .spares ?_ fun other hother => ⟨fun heq => ?_, by simp⟩
        · simp only [perform, stop, hcontains]
          exact spares_rest session
        · exact hreg (Operation.stop.inj heq ▸ hother)

/-- A client is on the list from the time it is stopped until it is gone. -/
theorem mem_stopped_perform : key ∈ (perform w operation session).session.stopped ↔
    (key ∈ session.stopped ∧ (operation = .report key .disconnected → key ∉ session.clients.keys))
      ∨ (operation = .stop key ∧ key ∈ session.clients.keys) := by
  cases stopStep w session operation with
  | spares h other =>
      rw [h.stopped]
      constructor
      · exact fun hmem => .inl ⟨hmem, fun heq hreg => (other key hreg).2 heq⟩
      · rintro (⟨hmem, _⟩ | ⟨heq, hreg⟩)
        · exact hmem
        · exact absurd heq (other key hreg).1
  | stops stopped registered heq hturn =>
      subst heq
      rw [hturn]
      by_cases hkey : key = stopped
      · simp [hkey, registered]
      · simp [hkey, Ne.symm hkey]
  | strikes gone registered heq hstopped _ =>
      subst heq
      rw [hstopped]
      by_cases hkey : key = gone
      · simp [hkey, registered]
      · simp [hkey, Ne.symm hkey]

/-- **A client is restarted only when it goes, and then once.** -/
theorem restart_perform (w : Surroundings) (session : Session) (operation : Operation)
    (key : ClientKey) :
    (perform w operation session).effects.count (.called key .restart) ≤ 1
      ∧ (.called key .restart ∈ (perform w operation session).effects ↔
        operation = .report key .disconnected ∧ key ∈ session.clients.keys
          ∧ Restarts w session key) := by
  cases stopStep w session operation with
  | spares h other =>
      refine ⟨by rw [h.count]; exact Nat.zero_le 1, ?_⟩
      exact iff_of_false (h.restarts key) fun hgone => (other key hgone.2.1).2 hgone.1
  | stops stopped registered heq hturn =>
      subst heq
      rw [hturn]
      simp
  | strikes gone registered heq _ hrestarts =>
      -- the count says both how often and whether
      subst heq
      rw [← List.count_pos_iff, hrestarts]
      by_cases hkey : key = gone
      · by_cases hdecided : Restarts w session gone
        · simp [hkey, hdecided, registered]
        · simp [hkey, hdecided]
      · simp [hkey, Ne.symm hkey]

end Xsmp.Session
