import Xsmp.Proofs.Session.Unmoved

/-!
# Who is registered, and under which identifier

A session keeps a register of its clients, each under the key of its connection and
with an identifier. A registration enters a client, a goodbye strikes it off, and no
other operation touches the register. A client is told that it is registered by the
operation that enters it, and at no other time. `RegisterStep` says both at once for
every operation, so that no later proof looks at how an operation goes about it.
-/

namespace Xsmp

/-- Whether a client is told that it is registered. -/
def Effect.isGreeting : Effect → Bool
  | .called _ (.registered ..) => true
  | _ => false

namespace Session

variable {w : Surroundings} {session : Session} {operation : Operation} {turn : Turn}
  {key : ClientKey} {id : String} {previousId : Option String}

/-- An identifier is taken when some client is registered under it. -/
theorem keyOf?_isSome :
    (session.keyOf? id).isSome = true ↔ ∃ key, session.clients.get? key = some id := by
  rw [keyOf?, Option.isSome_map, List.find?_isSome]
  constructor
  · intro h
    obtain ⟨⟨key, held⟩, hmem, heq⟩ := h
    have hheld : held = id := eq_of_beq heq
    exact ⟨key, KeyMap.mem_entries_iff.mp (hheld ▸ hmem)⟩
  · intro h
    obtain ⟨key, hget⟩ := h
    exact ⟨(key, id), KeyMap.mem_entries_iff.mpr hget, beq_self_eq_true id⟩

/-! ## Turns that leave the register alone -/

/-- Nobody is entered or struck off, and nobody is told that it is registered. -/
structure KeepsRegister (session : Session) (turn : Turn) : Prop where
  clients : turn.session.clients = session.clients
  silent : ∀ effect ∈ turn.effects, effect.isGreeting = false

theorem keepsRegister_rest (session : Session) : KeepsRegister session { session } :=
  ⟨rfl, by simp⟩

theorem KeepsRegister.andThen {next : Session → Turn} (h : KeepsRegister session turn)
    (hn : KeepsRegister turn.session (next turn.session)) :
    KeepsRegister session (turn.andThen next) where
  clients := hn.clients.trans h.clients
  silent := by
    intro effect he
    rcases List.mem_append.mp he with he | he
    · exact h.silent effect he
    · exact hn.silent effect he

/-- Who is waited for does not matter. -/
theorem keepsRegister_update {saving deferred stopped interacting : List ClientKey}
    {phase2Started finished : Bool}
    (h : KeepsRegister { session with
      saving, deferred, stopped, interacting, phase2Started, finished } turn) :
    KeepsRegister session turn :=
  ⟨h.clients, h.silent⟩

theorem isGreeting_of_isStartup {effects : List Effect}
    (h : ∀ effect ∈ effects, effect.isStartup = true) :
    ∀ effect ∈ effects, effect.isGreeting = false := by
  intro effect he
  have hstartup := h effect he
  cases effect with
  | called key call => exact absurd hstartup (by simp [Effect.isStartup])
  | _ => rfl

theorem keepsRegister_startsUp (h : StartsUp session turn) : KeepsRegister session turn := by
  refine ⟨?_, isGreeting_of_isStartup h.effects⟩
  obtain ⟨_, _, _, _, _, heq⟩ := h.frame
  rw [heq]

/-- Nobody is told to be registered on the way into a logout or out of it. -/
theorem Steers.keepsRegister (h : Steers session turn) : KeepsRegister session turn := by
  obtain ⟨_, _, _, _, _, _, _, _, hframe⟩ := h.frame
  refine ⟨by rw [hframe], fun effect he => ?_⟩
  have hsteers := h.effects effect he
  cases effect with
  | called key call =>
      cases call with
      | registered id resumed =>
          exact absurd hsteers (by simp [Effect.isSteering, Effect.isTending])
      | _ => rfl
  | _ => rfl

/-- A client that has gone is struck off, and nobody else is. -/
theorem keepsRegister_disconnect (w : Surroundings) (key : ClientKey) (session : Session) :
    KeepsRegister { session with clients := session.clients.erase key }
      (disconnect w key session) := by
  unfold disconnect
  refine KeepsRegister.andThen (keepsRegister_update (tends_dropInteractor key _).steers.keepsRegister) ?_
  refine KeepsRegister.andThen ⟨rfl, fun effect he => ?_⟩
    (tends_checkBarrier _).steers.keepsRegister
  -- the client may want to be restarted, and is told nothing
  split at he
  · rw [List.mem_singleton.mp he]
    rfl
  · exact absurd he (by simp)

/-! ## What an operation does to the register -/

/-- Whether a session takes a client in that brings an identifier, or none. -/
def Admits (session : Session) (previousId : Option String) : Prop :=
  session.phase ≠ .shutdown
    ∧ ∀ id, broughtId previousId = some id → ∀ key, session.clients.get? key ≠ some id

/-- What an operation does to the register. -/
inductive RegisterStep (w : Surroundings) (session : Session) (operation : Operation) : Prop
  /-- Nothing. If it is a registration, it is refused. -/
  | keeps (refused : ∀ key previousId, operation = .register key previousId →
        ¬Admits session previousId)
      (struck : ∀ key ∈ session.clients.keys, operation ≠ .report key .disconnected)
      (h : KeepsRegister session (perform w operation session))
  /-- It enters a client under the identifier that the client brings. -/
  | resumes (key : ClientKey) (previousId : Option String) (id : String)
      (heq : operation = .register key previousId) (admitted : Admits session previousId)
      (brought : broughtId previousId = some id) (rest : List Effect)
      (effects : (perform w operation session).effects =
        .called key (.registered id true) :: rest)
      (startup : ∀ effect ∈ rest, effect.isStartup = true)
      (clients : (perform w operation session).session.clients = session.clients.insert key id)
  /-- It enters a client under an identifier made for it. -/
  | mints (key : ClientKey) (previousId : Option String) (id : String)
      (heq : operation = .register key previousId) (admitted : Admits session previousId)
      (brought : broughtId previousId = none)
      (made : id = (session.ids.mint (w.clock none)).1)
      (effects : (perform w operation session).effects = [.called key (.registered id false)])
      (clients : (perform w operation session).session.clients = session.clients.insert key id)
  /-- It strikes a client off. -/
  | strikes (key : ClientKey) (registered : key ∈ session.clients.keys)
      (heq : operation = .report key .disconnected)
      (h : KeepsRegister { session with clients := session.clients.erase key }
        (perform w operation session))

/-- An operation that is no registration and leaves the register alone. -/
theorem registerStep_keeps (hregister : ∀ key previousId, operation ≠ .register key previousId)
    (hstruck : ∀ key ∈ session.clients.keys, operation ≠ .report key .disconnected)
    (h : KeepsRegister session (perform w operation session)) : RegisterStep w session operation :=
  .keeps (fun key previousId heq => absurd heq (hregister key previousId)) hstruck h

theorem registerStep_register (w : Surroundings) (session : Session) (key : ClientKey)
    (previousId : Option String) : RegisterStep w session (.register key previousId) := by
  by_cases hphase : session.phase = .shutdown
  · refine .keeps ?_ (by simp) ?_
    · intro other brought heq hadmits
      exact hadmits.1 hphase
    · simp only [perform, register, hphase, if_true, Except.map]
      exact keepsRegister_rest session
  · cases hid : broughtId previousId with
    | none =>
        have hadmits : Admits session previousId := ⟨hphase, by simp [hid]⟩
        refine .mints key previousId _ rfl hadmits hid rfl ?_ ?_
        · simp [perform, register, hphase, hid, Except.map]
        · simp [perform, register, hphase, hid, Except.map]
    | some id =>
        by_cases htaken : (session.keyOf? id).isSome = true
        · obtain ⟨holder, hholder⟩ := keyOf?_isSome.mp htaken
          refine .keeps ?_ (by simp) ?_
          · intro other brought heq hadmits
            have hsame : previousId = brought := (Operation.register.inj heq).2
            exact hadmits.2 id (hsame ▸ hid) holder hholder
          · rw [perform_register_refused hid (.inr htaken)]
            exact keepsRegister_rest session
        · have hadmits : Admits session previousId := by
            refine ⟨hphase, fun brought hbrought holder hholder => htaken ?_⟩
            have hsame : id = brought := Option.some.inj (hid.symm.trans hbrought)
            exact keyOf?_isSome.mpr ⟨holder, hsame ▸ hholder⟩
          cases hreg : register w key previousId session with
          | error error => simp [register, hphase, hid, htaken] at hreg
          | ok result =>
              obtain ⟨id', turn⟩ := result
              have hturn : perform w (.register key previousId) session = turn := by
                simp [perform, hreg, Except.map]
              have hgreeted : perform w (.register key previousId) session = _ :=
                perform_register_brought hphase hid (by simpa using htaken)
              rw [hturn] at hgreeted
              obtain ⟨ids, resumed, rest, heffects, hstarts⟩ := startsUp_register hreg
              obtain ⟨_, _, _, _, _, hframe⟩ := hstarts.frame
              -- the client is told first, and under the identifier that it brings
              have hhead : Effect.called key (.registered id' resumed)
                  = .called key (.registered id true) := by
                rw [hgreeted] at heffects
                exact (List.cons.inj heffects).1.symm
              obtain ⟨_, hcall⟩ := Effect.called.inj hhead
              obtain ⟨rfl, rfl⟩ := ClientCall.registered.inj hcall
              refine .resumes key previousId id' rfl hadmits hid rest ?_ hstarts.effects ?_
              · rw [hturn]
                exact heffects
              · rw [hturn]
                exact congrArg Session.clients hframe

theorem registerStep_report (w : Surroundings) (session : Session) (key : ClientKey)
    (event : ClientEvent) : RegisterStep w session (.report key event) := by
  cases reportStep w session key event with
  | tends stays h =>
      refine registerStep_keeps (by simp) (fun other hother heq => ?_) h.steers.keepsRegister
      obtain ⟨rfl, hgone⟩ := Operation.report.inj heq
      exact stays hother hgone
  | resumes _ _ heq _ turn =>
      subst heq
      exact registerStep_keeps (by simp) (by simp) (steers_cancelShutdown turn).keepsRegister
  | begins heq turn =>
      subst heq
      refine registerStep_keeps (by simp) (by simp) ?_
      rw [turn]
      exact (steers_beginShutdown session).keepsRegister
  | leaves registered heq turn =>
      subst heq
      refine .strikes key registered rfl ?_
      rw [turn]
      exact keepsRegister_disconnect w key session

/-- **What every operation does to the register.** -/
theorem registerStep (w : Surroundings) (session : Session) (operation : Operation) :
    RegisterStep w session operation := by
  cases operation with
  | register key previousId => exact registerStep_register w session key previousId
  | report key event => exact registerStep_report w session key event
  | start =>
      exact registerStep_keeps (by simp) (by simp) (keepsRegister_startsUp (startsUp_start session))
  | timeout =>
      exact registerStep_keeps (by simp) (by simp)
        (keepsRegister_startsUp (startsUp_timeout session))
  | programExited pid =>
      exact registerStep_keeps (by simp) (by simp)
        (keepsRegister_startsUp (startsUp_programExited pid session))
  | beginShutdown =>
      exact registerStep_keeps (by simp) (by simp) (steers_beginShutdown session).keepsRegister
  | forceShutdown =>
      exact registerStep_keeps (by simp) (by simp)
        (tends_forceShutdown session).steers.keepsRegister
  | cancelShutdown =>
      exact registerStep_keeps (by simp) (by simp) (steers_cancel w session).keepsRegister
  | checkpoint =>
      exact registerStep_keeps (by simp) (by simp) (tends_checkpoint w session).steers.keepsRegister
  | stop key =>
      refine registerStep_keeps (by simp) (by simp) ?_
      by_cases hreg : session.clients.contains key = true
      · simp only [perform, stop, hreg]
        exact ⟨rfl, by simp [Effect.isGreeting]⟩
      · simp only [perform, stop, hreg]
        exact keepsRegister_rest session

end Session

end Xsmp
