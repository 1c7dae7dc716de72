import Xsmp.Proofs.Session.Invariant

/-!
# A session that tends to its clients

Most of what a session does is to keep track of whom it waits for: until they have saved, or until
they are done with the user. Such a turn leaves everything else alone (`LogoutOnly`), and what
comes of it are calls to save, to interact and to die (`Tends`). To begin or to cancel a logout is
more, since the phase changes, but nobody is registered, restarted or launched by that either
(`Steers`). `ReportStep` says once which of them a report comes to, so that whoever asks what
reports do to some part of the session need not look at every report.
-/

namespace Xsmp

/-- A call to save, to interact or to die, or word that all are told to. -/
def Effect.isTending : Effect → Bool
  | .called _ .saveState | .called _ .saveYourselfPhase2 | .called _ .interact | .called _ .die
  | .shutdownCompleted => true
  | _ => false

/-- What may also come of the beginning or the end of a logout. -/
def Effect.isSteering : Effect → Bool
  | .phaseChanged _ | .called _ (.saveYourself _) | .called _ .shutdownCancelled => true
  | effect => effect.isTending

theorem Effect.isSteering_of_isTending {effect : Effect} (h : effect.isTending = true) :
    effect.isSteering = true := by
  cases effect with
  | called key call => cases call <;> first | exact h | rfl
  | _ => first | exact h | rfl

namespace Session

variable {w : Surroundings} {session : Session} {turn : Turn} {key : ClientKey}

/-! ## Who is waited for -/

/-- The session `next` differs from `session` in what a logout keeps track of and in who waits
for the user, and in nothing else. -/
def LogoutOnly (session next : Session) : Prop :=
  ∃ saving deferred interacting phase2Started finished,
    next = { session with saving, deferred, interacting, phase2Started, finished }

theorem LogoutOnly.refl (session : Session) : LogoutOnly session session :=
  ⟨_, _, _, _, _, rfl⟩

theorem LogoutOnly.trans {next last : Session} (h : LogoutOnly session next)
    (h' : LogoutOnly next last) : LogoutOnly session last := by
  obtain ⟨_, _, _, _, _, rfl⟩ := h
  obtain ⟨saving, deferred, interacting, phase2Started, finished, rfl⟩ := h'
  exact ⟨saving, deferred, interacting, phase2Started, finished, rfl⟩

theorem LogoutOnly.phase {next : Session} (h : LogoutOnly session next) :
    next.phase = session.phase := by
  obtain ⟨_, _, _, _, _, rfl⟩ := h
  rfl

/-- A turn that changes no more than who is waited for. -/
structure Tends (session : Session) (turn : Turn) : Prop where
  frame : LogoutOnly session turn.session
  effects : ∀ effect ∈ turn.effects, effect.isTending = true

theorem tends_rest (session : Session) : Tends session { session } :=
  ⟨.refl session, by simp⟩

theorem Tends.andThen {next : Session → Turn} (h : Tends session turn)
    (hn : Tends turn.session (next turn.session)) : Tends session (turn.andThen next) where
  frame := h.frame.trans hn.frame
  effects := by
    intro effect he
    rcases List.mem_append.mp he with he | he
    · exact h.effects effect he
    · exact hn.effects effect he

/-- Who was waited for before does not matter. -/
theorem tends_update {saving deferred interacting : List ClientKey}
    {phase2Started finished : Bool}
    (h : Tends { session with saving, deferred, interacting, phase2Started, finished } turn) :
    Tends session turn :=
  ⟨LogoutOnly.trans ⟨_, _, _, _, _, rfl⟩ h.frame, h.effects⟩

theorem tends_callEach (session : Session) (clients : List ClientKey) {call : ClientCall}
    (h : ∀ key, (Effect.called key call).isTending = true) :
    Tends session { session, effects := callEach clients call } := by
  refine ⟨.refl session, fun effect he => ?_⟩
  obtain ⟨key, _, rfl⟩ := mem_callEach.mp he
  exact h key

theorem tends_finish (session : Session) : Tends session (finish session) := by
  refine ⟨⟨_, _, _, _, _, rfl⟩, fun effect he => ?_⟩
  rcases List.mem_append.mp he with he | he
  · exact (tends_callEach session session.clients.keys fun _ => rfl).effects effect he
  · rw [List.mem_singleton.mp he]
    rfl

theorem tends_forceShutdown (session : Session) : Tends session (forceShutdown session) := by
  unfold forceShutdown
  split
  · exact tends_finish session
  · exact tends_rest session

theorem tends_checkBarrier (session : Session) : Tends session (checkBarrier session) := by
  rcases checkBarrier_cases session with ⟨heq, _⟩ | ⟨_, _, _, _, heq⟩ | ⟨_, _, _, _, _, heq⟩
  · rw [heq]
    exact tends_rest session
  · rw [heq]
    exact tends_finish session
  · rw [heq]
    exact tends_update (tends_callEach _ _ fun _ => rfl)

theorem tends_grantTurn (session : Session) : Tends session (grantTurn session) :=
  tends_callEach session _ fun _ => rfl

theorem tends_dropInteractor (key : ClientKey) (session : Session) :
    Tends session (dropInteractor key session) := by
  unfold dropInteractor
  dsimp only
  split
  · exact tends_update (tends_grantTurn _)
  · exact tends_update (tends_rest _)

theorem tends_checkpoint (w : Surroundings) (session : Session) :
    Tends session (perform w .checkpoint session) := by
  by_cases hphase : session.phase = .shutdown
  · simp only [perform, checkpoint, hphase]
    exact tends_rest session
  · simp only [perform, checkpoint, hphase]
    exact tends_callEach session _ fun _ => rfl

/-! ## The beginning and the end of a logout -/

/-- A turn that may also begin or cancel a logout. -/
structure Steers (session : Session) (turn : Turn) : Prop where
  frame : ∃ phase pending deadline, LogoutOnly { session with phase, pending, deadline } turn.session
  effects : ∀ effect ∈ turn.effects, effect.isSteering = true

theorem Tends.steers (h : Tends session turn) : Steers session turn :=
  ⟨⟨_, _, _, h.frame⟩, fun effect he => Effect.isSteering_of_isTending (h.effects effect he)⟩

theorem isSteering_enter {phase : Phase} {clients : List ClientKey} {call : ClientCall}
    (h : ∀ key, (Effect.called key call).isSteering = true) :
    ∀ effect ∈ .phaseChanged phase :: callEach clients call, effect.isSteering = true := by
  intro effect he
  rcases List.mem_cons.mp he with rfl | he
  · rfl
  · obtain ⟨key, _, rfl⟩ := mem_callEach.mp he
    exact h key

theorem steers_beginShutdown (session : Session) : Steers session (beginShutdown session) := by
  by_cases hphase : session.phase = .shutdown
  · rw [beginShutdown, if_pos hphase]
    exact (tends_rest session).steers
  · rcases beginShutdown_cases hphase with ⟨_, heq⟩ | ⟨_, heq⟩
    · rw [heq]
      exact ⟨⟨.shutdown, [], none, _, _, _, _, _, rfl⟩, by simp [Effect.isSteering, Effect.isTending]⟩
    · rw [heq]
      exact ⟨⟨.shutdown, [], none, _, _, _, _, _, rfl⟩, isSteering_enter fun _ => rfl⟩

theorem steers_cancelShutdown (h : cancelShutdown session = .ok turn) : Steers session turn := by
  rw [cancelShutdown_eq h]
  exact ⟨⟨.running, _, _, [], [], [], _, _, rfl⟩, isSteering_enter fun _ => rfl⟩

theorem steers_cancel (w : Surroundings) (session : Session) :
    Steers session (perform w .cancelShutdown session) := by
  by_cases hphase : session.phase = .shutdown
  · exact steers_cancelShutdown (by simp [perform, cancelShutdown, hphase])
  · simp only [perform, cancelShutdown, hphase]
    exact (tends_rest session).steers

/-! ## What a report comes to -/

/-- A report of somebody who is not registered is not heard. -/
theorem perform_stranger {key : ClientKey} {event : ClientEvent}
    (hreg : key ∉ session.clients.keys) :
    perform w (.report key event) session = { session } := by
  have hcontains : session.clients.contains key = false := KeyMap.contains_eq_false.mpr hreg
  simp [perform, report, hcontains]

/-- A client says that its turn with the user is over. It is not its turn, or it has a logout
cancelled, or the turn passes on. -/
theorem perform_done_cases {key : ClientKey} (hreg : key ∈ session.clients.keys) (cancel : Bool) :
    (session.interacting.head? ≠ some key
      ∧ perform w (.report key (.interactionDone cancel)) session = { session })
    ∨ (session.interacting.head? = some key ∧ cancel = true ∧ session.phase = .shutdown
      ∧ cancelShutdown session = .ok (perform w (.report key (.interactionDone cancel)) session))
    ∨ (session.interacting.head? = some key ∧ ¬(cancel = true ∧ session.phase = .shutdown)
      ∧ perform w (.report key (.interactionDone cancel)) session =
        grantTurn { session with interacting := session.interacting.tail }) := by
  have hcontains : session.clients.contains key = true := KeyMap.contains_iff.mpr hreg
  by_cases hhead : session.interacting.head? = some key
  · by_cases hcancel : cancel = true ∧ session.phase = .shutdown
    · obtain ⟨rfl, hphase⟩ := hcancel
      refine .inr (.inl ⟨hhead, rfl, hphase, ?_⟩)
      simp [perform, report, hcontains, hhead, cancelShutdown, hphase]
    · refine .inr (.inr ⟨hhead, hcancel, ?_⟩)
      cases cancel with
      | false => simp [perform, report, hcontains, hhead]
      | true =>
          -- a request to cancel that fails is like any other end of a turn
          have hphase : session.phase ≠ .shutdown := fun h => hcancel ⟨rfl, h⟩
          simp [perform, report, hcontains, hhead, cancelShutdown, hphase]
  · exact .inl ⟨hhead, by simp [perform, report, hcontains, hhead]⟩

/-- What a report comes to. -/
inductive ReportStep (w : Surroundings) (session : Session) (key : ClientKey)
    (event : ClientEvent) : Prop
  /-- The session tends to its clients, or does not hear the report. -/
  | tends (stays : key ∈ session.clients.keys → event ≠ .disconnected)
      (h : Tends session (perform w (.report key event) session))
  /-- The client whose turn with the user it is has the logout cancelled. -/
  | resumes (phase : session.phase = .shutdown) (registered : key ∈ session.clients.keys)
      (heq : event = .interactionDone true) (head : session.interacting.head? = some key)
      (turn : cancelShutdown session = .ok (perform w (.report key event) session))
  | begins (heq : event = .requestLogout)
      (turn : perform w (.report key event) session = beginShutdown session)
  | leaves (registered : key ∈ session.clients.keys) (heq : event = .disconnected)
      (turn : perform w (.report key event) session = disconnect w key session)

/-- **What every report comes to.** -/
theorem reportStep (w : Surroundings) (session : Session) (key : ClientKey)
    (event : ClientEvent) : ReportStep w session key event := by
  by_cases hreg : key ∈ session.clients.keys
  · have hcontains : session.clients.contains key = true := KeyMap.contains_iff.mpr hreg
    cases event with
    | savedState =>
        refine .tends (by simp) ?_
        simp only [perform, report, hcontains]
        exact tends_rest session
    | requestPhase2 =>
        refine .tends (by simp) ?_
        by_cases hsaving : session.saving.contains key = true
        · simp only [perform, report, hcontains, hsaving]
          exact tends_update (tends_checkBarrier _)
        · simp only [perform, report, hcontains, hsaving]
          exact tends_rest session
    | requestInteraction =>
        refine .tends (by simp) ?_
        by_cases hempty : session.interacting.isEmpty = true
        · simp only [perform, report, hcontains, hempty]
          exact tends_update (tends_grantTurn _)
        · simp only [perform, report, hcontains, hempty]
          exact tends_update (tends_rest _)
    | interactionDone cancel =>
        rcases perform_done_cases hreg cancel with
          ⟨_, hturn⟩ | ⟨hhead, rfl, hphase, hturn⟩ | ⟨_, _, hturn⟩
        · refine .tends (by simp) ?_
          rw [hturn]
          exact tends_rest session
        · exact .resumes hphase hreg rfl hhead hturn
        · refine .tends (by simp) ?_
          rw [hturn]
          exact tends_update (tends_grantTurn _)
    | saveYourselfDone =>
        refine .tends (by simp) ?_
        simp only [perform, report, hcontains]
        exact Tends.andThen (tends_update (tends_dropInteractor key (discharge key session)))
          (tends_checkBarrier _)
    | disconnected =>
        refine .leaves hreg rfl ?_
        simp only [perform, report, hcontains]
        rfl
    | requestLogout =>
        refine .begins rfl ?_
        simp only [perform, report, hcontains]
        rfl
  · refine .tends (fun hmem => absurd hmem hreg) ?_
    rw [perform_stranger hreg]
    exact tends_rest session

end Session

end Xsmp
