import Xsmp.Proofs.Manager.Event
import Xsmp.Proofs.Manager.Said

/-!
# Connections that an event leaves alone

Most of what a manager does leaves a given connection where it is: it goes on to wait, to
serve a registered client, or to be closed. That is one frame, closed under doing one
thing after the other, and each part of dealing with an event has its lemma here. The
client may be spoken to, but gets no answer to a registration.
-/

namespace Xsmp.Manager

open Session (Operation perform registerStep)

variable {w : Surroundings} {manager : Manager} {turn : ManagerTurn} {operation : Operation}
  {key other : ClientKey}

/-- A turn does nothing to a connection, and its client gets no answer to a registration. If
it takes no part in the session, it hears nothing at all. -/
structure Undisturbed (key : ClientKey) (manager : Manager) (turn : ManagerTurn) : Prop where
  connected : key ∈ turn.manager.connections ↔ key ∈ manager.connections
  handshake : turn.manager.handshakes.get? key = manager.handshakes.get? key
  client : turn.manager.session.clients.get? key = manager.session.clients.get? key
  given : key ≤ turn.manager.lastKey ↔ key ≤ manager.lastKey
  known : (turn.manager.saves? key).isSome = (manager.saves? key).isSome
  left : .closed key ∉ turn.actions
  unanswered : ∀ message ∈ said key turn.actions, message.isAnswer = false
  silent : manager.saves? key = none → said key turn.actions = []

theorem undisturbed_rest (key : ClientKey) (manager : Manager) :
    Undisturbed key manager { manager } :=
  ⟨.rfl, rfl, rfl, .rfl, rfl, List.not_mem_nil, fun _ h => absurd h List.not_mem_nil, fun _ => rfl⟩

theorem Undisturbed.stranger (h : Undisturbed key manager turn)
    (hstranger : manager.saves? key = none) : turn.manager.saves? key = none := by
  have hknown := h.known
  rw [hstranger] at hknown
  exact Option.not_isSome_iff_eq_none.mp (by simp [hknown])

theorem Undisturbed.andThen {next : Manager → ManagerTurn} (h : Undisturbed key manager turn)
    (hn : Undisturbed key turn.manager (next turn.manager)) :
    Undisturbed key manager (turn.andThen next) where
  connected := hn.connected.trans h.connected
  handshake := hn.handshake.trans h.handshake
  client := hn.client.trans h.client
  given := hn.given.trans h.given
  known := hn.known.trans h.known
  left := by
    intro hmem
    rcases List.mem_append.mp hmem with hmem | hmem
    · exact h.left hmem
    · exact hn.left hmem
  unanswered := by
    intro message hmem
    rw [ManagerTurn.andThen_actions, said_append] at hmem
    rcases List.mem_append.mp hmem with hmem | hmem
    · exact h.unanswered message hmem
    · exact hn.unanswered message hmem
  silent := by
    intro hstranger
    rw [ManagerTurn.andThen_actions, said_append, h.silent hstranger,
      hn.silent (h.stranger hstranger)]
    rfl

/-- A change of the manager comes first. -/
theorem Undisturbed.trans {middle : Manager} (h : Undisturbed key manager { manager := middle })
    (hn : Undisturbed key middle turn) : Undisturbed key manager turn := by
  show Undisturbed key manager (({ manager := middle } : ManagerTurn).andThen fun _ => turn)
  exact h.andThen hn

/-- An answer to a control request is nothing to any client. -/
theorem undisturbed_answered (key : ClientKey) (response : ControlResponse) (manager : Manager) :
    Undisturbed key manager { manager, actions := [.answered response] } :=
  ⟨.rfl, rfl, rfl, .rfl, rfl, by simp, fun _ h => absurd h List.not_mem_nil, fun _ => rfl⟩

/-- The manager follows a turn of the session in which a client neither comes nor goes. -/
theorem undisturbed_follow {after : Turn}
    (hclient : after.session.clients.get? key = manager.session.clients.get? key)
    (hcalled : ∀ id resumed, .called key (.registered id resumed) ∉ after.effects) :
    Undisturbed key manager (manager.follow after) := by
  let started : Manager := { manager with session := after.session }
  obtain ⟨hconnections, hopen⟩ := relayAll_connections after.effects started
  have hrest := follow_rest manager after
  refine ⟨?_, ?_, ?_, ?_, ?_, hopen key, isAnswer_relayAll hcalled started, ?_⟩
  · show key ∈ (relayAll after.effects started).manager.connections ↔ _
    rw [hconnections]
  · rw [hrest.handshakes]
  · rw [follow_session]
    exact hclient
  · rw [hrest.lastKey]
  · rw [saves?_follow, Option.isSome_map]
  · intro hstranger
    have hunknown : started.saves? key = none := hstranger
    exact said_relayAll_of_stranger hunknown after.effects

/-- An operation that is neither a client's registration nor its goodbye. -/
theorem undisturbed_perform (hnew : ∀ previousId, operation ≠ .register key previousId)
    (hgone : operation ≠ .report key .disconnected) :
    Undisturbed key manager (manager.follow (perform w operation manager.session)) := by
  cases registerStep w manager.session operation with
  | keeps _ _ hkeeps =>
      refine undisturbed_follow (by rw [hkeeps.clients]) fun id resumed hmem => ?_
      exact absurd (hkeeps.silent _ hmem) (by simp [Effect.isGreeting])
  | resumes client previousId id heq _ _ rest effects startup clients =>
      have hne : key ≠ client := fun h => hnew previousId (h ▸ heq)
      refine undisturbed_follow ?_ fun other resumed hmem => ?_
      · rw [clients, KeyMap.get?_insert_of_ne hne]
      · rw [effects] at hmem
        rcases List.mem_cons.mp hmem with h | hmem
        · exact hne (Effect.called.inj h).1
        · exact absurd (startup _ hmem) (by simp [Effect.isStartup])
  | mints client previousId id heq _ _ _ effects clients =>
      have hne : key ≠ client := fun h => hnew previousId (h ▸ heq)
      refine undisturbed_follow ?_ fun other resumed hmem => ?_
      · rw [clients, KeyMap.get?_insert_of_ne hne]
      · rw [effects] at hmem
        exact hne (Effect.called.inj (List.mem_singleton.mp hmem)).1
  | strikes client _ heq hkeeps =>
      have hne : key ≠ client := fun h => hgone (h ▸ heq)
      refine undisturbed_follow ?_ fun id resumed hmem => ?_
      · rw [hkeeps.clients]
        exact KeyMap.get?_erase_of_ne hne
      · exact absurd (hkeeps.silent _ hmem) (by simp [Effect.isGreeting])

/-- A client's own message is answered before the session has its say. -/
theorem undisturbed_reacted {participant : Participant} (key : ClientKey)
    (hget : manager.participants.get? other = some participant) (message : ClientMessage) :
    Undisturbed key manager (reacted other (participant.received message) manager) := by
  have hleft : .closed key ∉ (reacted other (participant.received message) manager).actions := by
    intro hmem
    obtain ⟨sent, _, heq⟩ := List.mem_map.mp hmem
    exact absurd heq (by simp)
  by_cases hkey : key = other
  · subst hkey
    have hsaves : manager.saves? key = some participant.saves := by simp [saves?, hget]
    refine ⟨.rfl, rfl, rfl, .rfl, ?_, hleft, ?_, fun h => absurd (hsaves.symm.trans h) (by simp)⟩
    · rw [hsaves]
      simp [reacted, saves?, KeyMap.get?_insert_self]
    · intro sent hmem
      rw [reacted, said_sent_self] at hmem
      exact Participant.received_isAnswer message sent hmem
  · have hnothing : said key (reacted other (participant.received message) manager).actions = [] :=
      said_sent_of_ne (Ne.symm hkey) _
    refine ⟨.rfl, rfl, rfl, .rfl, ?_, hleft, ?_, fun _ => hnothing⟩
    · simp [reacted, saves?, KeyMap.get?_insert_of_ne hkey]
    · rw [hnothing]
      exact fun _ h => absurd h List.not_mem_nil

/-! ## Closing -/

/-- Closing a connection closes it if it is open, and that is all. -/
theorem close_connections (key : ClientKey) (manager : Manager) (k : ClientKey) :
    (k ∈ (close key manager).manager.connections ↔ k ∈ manager.connections ∧ k ≠ key)
      ∧ (.closed k ∈ (close key manager).actions ↔ k = key ∧ key ∈ manager.connections)
      ∧ said k (close key manager).actions = [] := by
  by_cases hopen : key ∈ manager.connections
  · have hclose : close key manager = {
        manager := { manager with connections := manager.connections.filter (· != key) }
        actions := [.closed key] } := by simp [close, hopen]
    rw [hclose]
    refine ⟨by simp, ?_, rfl⟩
    simp [hopen]
  · have hclose : close key manager = { manager } := by simp [close, hopen]
    rw [hclose]
    refine ⟨?_, by simp [hopen], rfl⟩
    constructor
    · exact fun hk => ⟨hk, fun heq => hopen (heq ▸ hk)⟩
    · exact fun hk => hk.1

theorem undisturbed_close (h : key ≠ other) (manager : Manager) :
    Undisturbed key manager (close other manager) := by
  obtain ⟨hsession, hparticipants, hsame, _⟩ := close_frame other manager
  obtain ⟨hconnected, hclosed, hsaid⟩ := close_connections other manager key
  refine ⟨?_, by rw [hsame.handshakes], by rw [hsession], by rw [hsame.lastKey], ?_, ?_, ?_,
    fun _ => hsaid⟩
  · rw [hconnected]
    exact ⟨fun hk => hk.1, fun hk => ⟨hk, h⟩⟩
  · rw [saves?, hparticipants, saves?]
  · rw [hclosed]
    exact fun hk => h hk.1
  · rw [hsaid]
    exact fun _ hk => absurd hk List.not_mem_nil

theorem undisturbed_refuse (h : key ≠ other) (reason : String) (manager : Manager) :
    Undisturbed key manager (refuse other reason manager) := by
  have hsent : Undisturbed key manager
      { manager, actions := [.sent other (Participant.refusal reason)] } := by
    have hnothing : said key [.sent other (Participant.refusal reason)] = [] :=
      said_sent_of_ne (Ne.symm h) [Participant.refusal reason]
    refine ⟨.rfl, rfl, rfl, .rfl, rfl, by simp, ?_, fun _ => hnothing⟩
    rw [hnothing]
    exact fun _ hk => absurd hk List.not_mem_nil
  exact hsent.andThen (undisturbed_close h manager)

theorem undisturbed_leave (h : key ≠ other) (w : Surroundings) (manager : Manager) :
    Undisturbed key manager (leave w other manager) := by
  refine Undisturbed.andThen (Undisturbed.andThen ?_ ?_) (undisturbed_close h _)
  · rw [report_eq]
    exact undisturbed_perform (by simp) fun heq => h (Operation.report.inj heq).1.symm
  · refine ⟨.rfl, rfl, rfl, .rfl, ?_, List.not_mem_nil, fun _ hk => absurd hk List.not_mem_nil,
      fun _ => rfl⟩
    simp only [saves?, KeyMap.get?_erase_of_ne h]

/-- Another client no longer waits to register. -/
theorem undisturbed_forget (h : key ≠ other) (manager : Manager) :
    Undisturbed key manager
      { manager := { manager with handshakes := manager.handshakes.erase other } } :=
  ⟨.rfl, KeyMap.get?_erase_of_ne h, rfl, .rfl, rfl, List.not_mem_nil,
    fun _ hk => absurd hk List.not_mem_nil, fun _ => rfl⟩

/-- Another client takes part in the session. -/
theorem undisturbed_known (h : key ≠ other) (participant : Participant) (manager : Manager) :
    Undisturbed key manager
      { manager := { manager with
          participants := manager.participants.insert other participant } } := by
  refine ⟨.rfl, rfl, rfl, .rfl, ?_, List.not_mem_nil, fun _ hk => absurd hk List.not_mem_nil,
    fun _ => rfl⟩
  simp only [saves?, KeyMap.get?_insert_of_ne h]

theorem undisturbed_accept (h : key ≠ manager.lastKey + 1) (now : Moment) :
    Undisturbed key manager { manager := accept now manager } := by
  refine ⟨?_, ?_, rfl, ?_, rfl, List.not_mem_nil, fun _ hk => absurd hk List.not_mem_nil,
    fun _ => rfl⟩
  · simp [accept, h]
  · exact KeyMap.get?_insert_of_ne h
  · show key ≤ manager.lastKey + 1 ↔ key ≤ manager.lastKey
    exact ⟨fun hk => Nat.le_of_lt_succ (Nat.lt_of_le_of_ne hk h), Nat.le_succ_of_le⟩

/-- Turning clients away closes their connections, and that is all. -/
theorem expire_connections (keys : List ClientKey) (manager : Manager) (k : ClientKey) :
    (k ∈ (expire keys manager).manager.connections ↔ k ∈ manager.connections ∧ k ∉ keys)
      ∧ ((expire keys manager).manager.handshakes.get? k =
          if k ∈ keys then none else manager.handshakes.get? k)
      ∧ (.closed k ∈ (expire keys manager).actions ↔ k ∈ keys ∧ k ∈ manager.connections)
      ∧ said k (expire keys manager).actions = [] := by
  induction keys generalizing manager with
  | nil => simp [expire]
  | cons key keys ih =>
      let left : Manager := { manager with handshakes := manager.handshakes.erase key }
      obtain ⟨hconnected, hclosed, hsaid⟩ := close_connections key left k
      have hsame := (close_frame key left).2.2.1
      obtain ⟨hconnected', hhandshake', hclosed', hsaid'⟩ := ih (close key left).manager
      have hexpire : expire (key :: keys) manager = (close key left).andThen (expire keys) := rfl
      have hopen : k ∈ left.connections ↔ k ∈ manager.connections := .rfl
      rw [hexpire, ManagerTurn.andThen_manager, ManagerTurn.andThen_actions]
      refine ⟨?_, ?_, ?_, ?_⟩
      · rw [hconnected', hconnected, hopen, List.mem_cons, not_or, and_assoc]
      · rw [hhandshake', hsame.handshakes]
        by_cases hk : k = key
        · subst hk
          have herased : left.handshakes.get? k = none := KeyMap.get?_erase_self
          simp [herased]
        · have hkept : left.handshakes.get? k = manager.handshakes.get? k :=
            KeyMap.get?_erase_of_ne hk
          simp [hkept, hk]
      · rw [List.mem_append, hclosed', hclosed, hconnected, hopen, List.mem_cons]
        by_cases hk : k = key
        · subst hk
          simp [hopen]
        · simp [hk]
      · rw [said_append, hsaid, hsaid']
        rfl

theorem undisturbed_expire {keys : List ClientKey} (h : key ∉ keys) (manager : Manager) :
    Undisturbed key manager (expire keys manager) := by
  obtain ⟨hconnected, hhandshake, hclosed, hsaid⟩ := expire_connections keys manager key
  obtain ⟨hsession, hparticipants, hlast, _⟩ := expire_frame keys manager
  refine ⟨?_, by rw [hhandshake, if_neg h], by rw [hsession], by rw [hlast], ?_, ?_, ?_,
    fun _ => hsaid⟩
  · rw [hconnected]
    exact ⟨fun hk => hk.1, fun hk => ⟨hk, h⟩⟩
  · rw [saves?, hparticipants, saves?]
  · rw [hclosed]
    exact fun hk => h hk.1
  · rw [hsaid]
    exact fun _ hk => absurd hk List.not_mem_nil

/-! ## Events that are about no connection -/

theorem undisturbed_answer (h : Undisturbed key manager turn) (response : ControlResponse) :
    Undisturbed key manager
      (turn.andThen fun manager => { manager, actions := [.answered response] }) :=
  h.andThen (undisturbed_answered key response turn.manager)

theorem undisturbed_control (key : ClientKey) (request : ControlRequest) (manager : Manager) :
    Undisturbed key manager (control request manager) := by
  cases request with
  | ping => exact undisturbed_answered key _ manager
  | status => exact undisturbed_answered key _ manager
  | logout =>
      have hturn : Undisturbed key manager
          (manager.follow (perform Session.still .beginShutdown manager.session)) :=
        undisturbed_perform (by simp) (by simp)
      exact undisturbed_answer hturn .ok
  | cancelLogout =>
      have hturn : Undisturbed key manager
          (manager.follow (perform Session.still .cancelShutdown manager.session)) :=
        undisturbed_perform (by simp) (by simp)
      cases hcancel : manager.session.cancelShutdown with
      | ok turn =>
          simp only [perform, hcancel] at hturn
          simp only [control, hcancel]
          exact undisturbed_answer hturn .ok
      | error error =>
          simp only [control, hcancel]
          exact undisturbed_answered key _ manager
  | checkpoint =>
      have hturn : Undisturbed key manager
          (manager.follow (perform Session.still .checkpoint manager.session)) :=
        undisturbed_perform (by simp) (by simp)
      cases hcheckpoint : manager.session.checkpoint with
      | ok turn =>
          simp only [perform, hcheckpoint] at hturn
          simp only [control, hcheckpoint]
          exact undisturbed_answer hturn .ok
      | error error =>
          simp only [control, hcheckpoint]
          exact undisturbed_answered key _ manager

theorem undisturbed_interrupt (key : ClientKey) (manager : Manager) :
    Undisturbed key manager (interrupt manager) := by
  have hforce : Undisturbed key manager
      (manager.follow (perform Session.still .forceShutdown manager.session)) :=
    undisturbed_perform (by simp) (by simp)
  have hbegin : Undisturbed key manager
      (manager.follow (perform Session.still .beginShutdown manager.session)) :=
    undisturbed_perform (by simp) (by simp)
  unfold interrupt
  split
  · exact hforce
  · exact hbegin

end Xsmp.Manager
