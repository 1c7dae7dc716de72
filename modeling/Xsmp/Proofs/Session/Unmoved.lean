import Xsmp.Proofs.Session.Tending

/-!
# What an operation does to the phases and the programs

Most of what a session does has nothing to do with its phases and its programs
(`Unmoved`): clients come and go, take turns with the user, save, and are told to
die. `StartupStep` says once which operations are the others. A program that was
waited for arrives, the session is started, a phase has waited long enough, and a
logout begins or is cancelled. So no later proof unfolds an operation.
-/

namespace Xsmp

/-- What a session says about its phases and its programs. -/
def Effect.isProgress : Effect → Bool
  | .phaseChanged _ | .programRegistered _ | .programTimedOut _ | .launched .. => true
  | .shutdownCompleted | .called .. => false

/-- The identifier that comes out with an effect, if it was made for it, behind the program
it was made for. -/
def Effect.made? : Effect → Option (Option Nat × String)
  | .launched position clientId _ => some (some position, clientId)
  | .called _ (.registered clientId false) => some (none, clientId)
  | _ => none

namespace ClientIds

/-- Each of the identifiers is the one that the source makes at the time, and `next` is the
source after the last of them. -/
def Makes (w : Surroundings) : ClientIds → List (Option Nat × String) → ClientIds → Prop
  | ids, [], next => next = ids
  | ids, (position, clientId) :: rest, next =>
    clientId = (ids.mint (w.clock position)).1 ∧ Makes w (ids.mint (w.clock position)).2 rest next

theorem makes_append {w : Surroundings} {ids between next : ClientIds}
    {made more : List (Option Nat × String)} (h : Makes w ids made between)
    (hmore : Makes w between more next) : Makes w ids (made ++ more) next := by
  induction made generalizing ids with
  | nil =>
      rw [Makes] at h
      exact h ▸ hmore
  | cons first made ih => exact ⟨h.1, ih h.2⟩

end ClientIds

namespace Session

variable {w : Surroundings} {session : Session} {operation : Operation}

/-- Every identifier that comes out with the effects is made just then. -/
def Mints (w : Surroundings) (ids : ClientIds) (effects : List Effect) (next : ClientIds) : Prop :=
  ids.Makes w (effects.filterMap Effect.made?) next

theorem Mints.append {ids between next : ClientIds} {effects more : List Effect}
    (h : Mints w ids effects between) (hmore : Mints w between more next) :
    Mints w ids (effects ++ more) next := by
  rw [Mints, List.filterMap_append]
  exact ClientIds.makes_append h hmore

/-- Effects that bring no new identifier leave the source alone. -/
theorem mints_of_none {ids : ClientIds} {effects : List Effect}
    (h : ∀ effect ∈ effects, effect.made? = none) : Mints w ids effects ids := by
  rw [Mints, List.filterMap_eq_nil_iff.mpr h]
  rfl

/-! ## Turns that leave phases and programs alone -/

/-- A turn that has nothing to do with phases and programs. -/
structure Unmoved (w : Surroundings) (session : Session) (turn : Turn) : Prop where
  phase : turn.session.phase = session.phase
  pending : turn.session.pending = session.pending
  deadline : turn.session.deadline = session.deadline
  programs : turn.session.programs = session.programs
  phaseTimeout : turn.session.phaseTimeout = session.phaseTimeout
  effects : ∀ effect ∈ turn.effects, effect.isProgress = false
  /-- A client that brings no identifier with it gets one made for it. -/
  ids : Mints w session.ids turn.effects turn.session.ids

theorem unmoved_rest (session : Session) : Unmoved w session { session } :=
  ⟨rfl, rfl, rfl, rfl, rfl, by simp, mints_of_none (by simp)⟩

theorem Unmoved.andThen {turn : Turn} {next : Session → Turn} (h : Unmoved w session turn)
    (hn : Unmoved w turn.session (next turn.session)) : Unmoved w session (turn.andThen next) where
  phase := hn.phase.trans h.phase
  pending := hn.pending.trans h.pending
  deadline := hn.deadline.trans h.deadline
  programs := hn.programs.trans h.programs
  phaseTimeout := hn.phaseTimeout.trans h.phaseTimeout
  effects := by
    intro effect he
    rcases List.mem_append.mp he with he | he
    · exact h.effects effect he
    · exact hn.effects effect he
  ids := h.ids.append hn.ids

/-- Who is registered and who is waited for does not matter. -/
theorem unmoved_update {turn : Turn} {clients : KeyMap String}
    {saving deferred stopped interacting : List ClientKey} {phase2Started finished : Bool}
    (h : Unmoved w { session with
      clients, saving, deferred, stopped, interacting, phase2Started, finished } turn) :
    Unmoved w session turn :=
  ⟨h.phase, h.pending, h.deadline, h.programs, h.phaseTimeout, h.effects, h.ids⟩

/-- Calls, none of which brings a new identifier. -/
theorem unmoved_calls (session : Session) {effects : List Effect}
    (h : ∀ effect ∈ effects, effect.isProgress = false ∧ effect.made? = none) :
    Unmoved w session { session, effects } :=
  ⟨rfl, rfl, rfl, rfl, rfl, fun effect he => (h effect he).1,
    mints_of_none fun effect he => (h effect he).2⟩

/-- Only a call that tells a client its new identifier brings one. -/
theorem made?_of_callEach {clients : List ClientKey} {call : ClientCall}
    (h : ∀ clientId, call ≠ .registered clientId false) :
    ∀ effect ∈ callEach clients call, effect.made? = none := by
  intro effect he
  obtain ⟨key, _, rfl⟩ := mem_callEach.mp he
  cases call with
  | registered clientId resumed =>
      cases resumed with
      | false => exact absurd rfl (h clientId)
      | true => rfl
  | _ => rfl

/-- No phase is entered and no program launched by whom the session waits for. -/
theorem Tends.unmoved {turn : Turn} (h : Tends session turn) : Unmoved w session turn := by
  have heffects : ∀ effect ∈ turn.effects, effect.isProgress = false ∧ effect.made? = none := by
    intro effect he
    have htends := h.effects effect he
    cases effect with
    | called key call =>
        cases call with
        | registered clientId resumed =>
            exact absurd htends (by simp [Effect.isTending])
        | _ => exact ⟨rfl, rfl⟩
    | shutdownCompleted => exact ⟨rfl, rfl⟩
    | _ => exact absurd htends (by simp [Effect.isTending])
  obtain ⟨_, _, _, _, _, hframe⟩ := h.frame
  have hcalls := unmoved_calls (w := w) session heffects
  exact ⟨by rw [hframe], by rw [hframe], by rw [hframe], by rw [hframe], by rw [hframe],
    hcalls.effects, by rw [hframe]; exact hcalls.ids⟩

theorem unmoved_disconnect (key : ClientKey) (session : Session) :
    Unmoved w session (disconnect w key session) := by
  unfold disconnect
  refine Unmoved.andThen (unmoved_update (tends_dropInteractor key _).unmoved) ?_
  refine Unmoved.andThen (unmoved_update (unmoved_calls _ ?_)) (tends_checkBarrier _).unmoved
  intro effect he
  -- the client may want to be restarted
  split at he
  · rw [List.mem_singleton.mp he]
    exact ⟨rfl, rfl⟩
  · exact absurd he (by simp)

/-! ## The operations that are about phases and programs -/

/-- What an operation does to the phases and the programs. -/
inductive StartupStep (w : Surroundings) (session : Session) (operation : Operation) : Prop
  /-- Nothing. -/
  | rests (h : Unmoved w session (perform w operation session))
  /-- It starts the session. -/
  | starts (phase : session.phase = .startup)
      (turn : perform w operation session = endPhase w session)
  /-- A program that was waited for is there, be it that a client brought its identifier. -/
  | arrives (greeting : Turn) (h : Unmoved w session greeting) (position : Nat)
      (pending : position ∈ session.pending)
      (turn : perform w operation session = greeting.andThen (programArrived w position))
  /-- The programs that have not come are given up. -/
  | expires (due : isDue w.now session.deadline = true)
      (turn : perform w operation session =
        ({ session, effects := session.pending.map .programTimedOut } : Turn).andThen (endPhase w))
  /-- It begins a logout. -/
  | begins (phase : session.phase ≠ .shutdown)
      (turn : perform w operation session = beginShutdown session)
  /-- It cancels a logout. -/
  | resumes (phase : session.phase = .shutdown)
      (turn : cancelShutdown session = .ok (perform w operation session))

theorem startupStep_rest (hturn : perform w operation session = { session }) :
    StartupStep w session operation := by
  refine .rests ?_
  rw [hturn]
  exact unmoved_rest session

/-- A logout is asked for, and begins if there is none. -/
theorem startupStep_logout (hturn : perform w operation session = beginShutdown session) :
    StartupStep w session operation := by
  by_cases hphase : session.phase = .shutdown
  · refine startupStep_rest ?_
    rw [hturn, beginShutdown, if_pos hphase]
  · exact .begins hphase hturn

theorem mem_pending_of_pending? {is : Program → Bool} {position : Nat}
    (h : session.pending? is = some position) : position ∈ session.pending :=
  List.mem_of_find?_eq_some h

/-- A client that brings an identifier is told that it is registered, and then its program may
be one that was waited for. -/
theorem perform_register_brought {key : ClientKey} {previousId : Option String} {id : String}
    (hphase : session.phase ≠ .shutdown) (hid : broughtId previousId = some id)
    (hfree : (session.keyOf? id).isSome = false) :
    perform w (.register key previousId) session =
      ({ session := { session with clients := session.clients.insert key id }
         effects := [.called key (.registered id true)] } : Turn).andThen fun greeted =>
        if session.phase < .application then
          match session.pending? (·.clientId == some id) with
          | some position => programArrived w position greeted
          | none => { session := greeted }
        else { session := greeted } := by
  simp only [perform, register, hphase, hid, hfree, Except.map]
  rfl

theorem perform_register_refused {key : ClientKey} {previousId : Option String} {id : String}
    (hid : broughtId previousId = some id)
    (hrefused : session.phase = .shutdown ∨ (session.keyOf? id).isSome = true) :
    perform w (.register key previousId) session = { session } := by
  by_cases hphase : session.phase = .shutdown
  · simp [perform, register, hphase, Except.map]
  · simp [perform, register, hphase, hid, hrefused.resolve_left hphase, Except.map]

theorem unmoved_greeting (key : ClientKey) (id : String) (session : Session) :
    Unmoved w session
      { session := { session with clients := session.clients.insert key id }
        effects := [.called key (.registered id true)] } :=
  unmoved_update (unmoved_calls _ (by simp [Effect.isProgress, Effect.made?]))

theorem startupStep_register (key : ClientKey) (previousId : Option String) :
    StartupStep w session (.register key previousId) := by
  cases hid : broughtId previousId with
  | none =>
      by_cases hphase : session.phase = .shutdown
      · exact startupStep_rest (by simp [perform, register, hphase, Except.map])
      · refine .rests ?_
        simp only [perform, register, hphase, hid, Except.map]
        exact ⟨rfl, rfl, rfl, rfl, rfl, by simp [Effect.isProgress], ⟨rfl, rfl⟩⟩
  | some id =>
      by_cases hrefused : session.phase = .shutdown ∨ (session.keyOf? id).isSome = true
      · exact startupStep_rest (perform_register_refused hid hrefused)
      · obtain ⟨hphase, hused⟩ := not_or.mp hrefused
        have hturn : perform w (.register key previousId) session = _ :=
          perform_register_brought hphase hid (by simpa using hused)
        by_cases happ : session.phase < .application
        · cases hpending : session.pending? (·.clientId == some id) with
          | some position =>
              refine .arrives _ (unmoved_greeting key id session) position
                (mem_pending_of_pending? hpending) ?_
              rw [hturn]
              simp only [happ, if_true, hpending]
          | none =>
              refine .rests ?_
              rw [hturn]
              simp only [happ, if_true, hpending]
              exact (unmoved_greeting key id session).andThen (unmoved_rest _)
        · refine .rests ?_
          rw [hturn]
          simp only [happ, if_false]
          exact (unmoved_greeting key id session).andThen (unmoved_rest _)

theorem startupStep_report (key : ClientKey) (event : ClientEvent) :
    StartupStep w session (.report key event) := by
  cases reportStep w session key event with
  | tends _ h => exact .rests h.unmoved
  | resumes phase _ _ _ turn => exact .resumes phase turn
  | begins _ turn => exact startupStep_logout turn
  | leaves _ _ turn =>
      refine .rests ?_
      rw [turn]
      exact unmoved_disconnect key session

/-- **What an operation can do to the phases and the programs.** -/
theorem startupStep (w : Surroundings) (session : Session) (operation : Operation) :
    StartupStep w session operation := by
  cases operation with
  | start =>
      by_cases hphase : session.phase = .startup
      · exact .starts hphase (by simp [perform, start, hphase])
      · exact startupStep_rest (by simp [perform, start, hphase])
  | timeout =>
      by_cases hdue : isDue w.now session.deadline = true
      · exact .expires hdue (by simp [perform, timeout, hdue])
      · exact startupStep_rest (by simp [perform, timeout, hdue])
  | register key previousId => exact startupStep_register key previousId
  | programExited pid =>
      cases hpending : session.pending? fun program =>
          program.manifest.phase == .initialization && program.pid == some pid with
      | some position =>
          refine .arrives { session } (unmoved_rest session) position
            (mem_pending_of_pending? hpending) ?_
          simp only [perform, programExited, hpending]
          rfl
      | none => exact startupStep_rest (by simp only [perform, programExited, hpending])
  | report key event => exact startupStep_report key event
  | beginShutdown => exact startupStep_logout rfl
  | forceShutdown => exact .rests (tends_forceShutdown session).unmoved
  | cancelShutdown =>
      by_cases hphase : session.phase = .shutdown
      · exact .resumes hphase (by simp [perform, cancelShutdown, hphase])
      · exact startupStep_rest (by simp [perform, cancelShutdown, hphase])
  | checkpoint => exact .rests (tends_checkpoint w session).unmoved
  | stop key =>
      by_cases hreg : session.clients.contains key = true
      · refine .rests ?_
        simp only [perform, stop, hreg]
        exact unmoved_update (unmoved_calls _ (by simp [Effect.isProgress, Effect.made?]))
      · exact startupStep_rest (by simp [perform, stop, hreg])

end Session

end Xsmp
