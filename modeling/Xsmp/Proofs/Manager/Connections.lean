import Xsmp.Proofs.Manager.Fate

/-!
# Connections over a run

The ledger of connections is kept by every event, so in every state that a run can reach
the open connections are exactly those that wait to register and those of registered
clients. A connection that is closed is over: what still comes from it does nothing, and
nothing more is sent on it. So a client registers at most once, and leaves at most once.
-/

namespace Xsmp.Manager

open Session (Admits)

variable {manager : Manager} {w : Surroundings} {event : ManagerEvent} {turn : ManagerTurn}
  {key : ClientKey} {step : Step} {standing : Standing}

/-! ## The ledger is kept -/

theorem Stands.opened (h : Stands manager key standing) : key ∈ manager.connections ↔
    key ∈ manager.handshakes.keys ∨ key ∈ manager.session.clients.keys := by
  rw [h.connected, h.waits, ← KeyMap.get?_isSome, h.client]
  cases standing <;> simp [Standing.id?]

theorem Stands.apart (h : Stands manager key standing) (hwaits : key ∈ manager.handshakes.keys) :
    key ∉ manager.session.clients.keys := by
  rw [← KeyMap.get?_isSome, h.client, h.waits.mp hwaits]
  simp [Standing.id?]

/-- An event leaves a connection alone, or it is known where the connection stands. -/
theorem Fate.after (h : Fate w event manager key turn) :
    Undisturbed key manager turn ∨ ∃ standing, Stands turn.manager key standing := by
  cases h with
  | stays hstays _ _ _ => exact .inl hstays
  | arrives _ _ after _ => exact .inr ⟨_, after⟩
  | registers _ _ _ _ _ after _ _ => exact .inr ⟨_, after⟩
  | refused _ _ _ _ _ after _ _ => exact .inr ⟨_, after⟩
  | dropped _ _ _ after _ _ => exact .inr ⟨_, after⟩
  | leaves _ _ after _ _ => exact .inr ⟨_, after⟩

theorem Undisturbed.waits (h : Undisturbed key manager turn) :
    key ∈ turn.manager.handshakes.keys ↔ key ∈ manager.handshakes.keys := by
  rw [← KeyMap.get?_isSome, h.handshake, KeyMap.get?_isSome]

theorem Undisturbed.registered (h : Undisturbed key manager turn) :
    key ∈ turn.manager.session.clients.keys ↔ key ∈ manager.session.clients.keys := by
  rw [← KeyMap.get?_isSome, h.client, KeyMap.get?_isSome]

theorem Undisturbed.stands (h : Undisturbed key manager turn) (hs : Stands manager key standing) :
    Stands turn.manager key standing where
  given := h.given.mpr hs.given
  connected := h.connected.trans hs.connected
  waits := h.waits.trans hs.waits
  client := h.client.trans hs.client

theorem follow_connections (manager : Manager) (after : Turn) :
    (manager.follow after).manager.connections = manager.connections :=
  (relayAll_connections after.effects { manager with session := after.session }).1

theorem sublist_follow (manager : Manager) (after : Turn) :
    (manager.follow after).manager.connections.Sublist manager.connections := by
  have hsame := follow_connections manager after
  exact hsame.symm ▸ List.Sublist.refl _

theorem sublist_close (key : ClientKey) (manager : Manager) :
    (close key manager).manager.connections.Sublist manager.connections := by
  unfold close
  split
  · exact List.filter_sublist
  · exact List.Sublist.refl _

theorem sublist_leave (w : Surroundings) (key : ClientKey) (manager : Manager) :
    (leave w key manager).manager.connections.Sublist manager.connections := by
  have hreport : (report w key .disconnected manager).manager.connections =
      manager.connections := by
    rw [report_eq]
    exact follow_connections manager _
  rw [leave, ManagerTurn.andThen_manager, ← hreport]
  exact sublist_close key _

theorem sublist_expire (keys : List ClientKey) (manager : Manager) :
    (expire keys manager).manager.connections.Sublist manager.connections := by
  induction keys generalizing manager with
  | nil => exact List.Sublist.refl _
  | cons key keys ih => exact (ih _).trans (sublist_close key _)

theorem sublist_greet (w : Surroundings) (key : ClientKey) (participant : Participant)
    (message : ClientMessage) (manager : Manager) :
    (greet w key participant message manager).manager.connections.Sublist manager.connections := by
  rcases greet_cases w key participant message manager with
    ⟨reason, _, hgreet⟩ | ⟨_, _, registered, _, _, _, hgreet⟩
  · rw [hgreet]
    exact sublist_close key manager
  · rw [hgreet]
    exact sublist_follow _ registered

theorem sublist_receive (w : Surroundings) (key : ClientKey) (message : ClientMessage)
    (manager : Manager) :
    (receive w key message manager).manager.connections.Sublist manager.connections := by
  unfold receive
  split
  · exact sublist_greet _ _ _ _ _
  · split
    · exact List.Sublist.refl _
    · rw [ManagerTurn.andThen_manager]
      split
      · exact List.Sublist.refl _
      · exact sublist_leave w key _
      · rw [report_eq]
        exact sublist_follow _ _

/-- Only a client that connects opens a connection, and it is a new one. -/
theorem sublist_handle (w : Surroundings) (event : ManagerEvent) (manager : Manager) :
    (handle w event manager).manager.connections.Sublist
      (manager.connections ++ [manager.lastKey + 1]) := by
  have hkept : manager.connections.Sublist (manager.connections ++ [manager.lastKey + 1]) :=
    List.sublist_append_left _ _
  cases event with
  | accepted => exact List.Sublist.refl _
  | message key message => exact (sublist_receive w key message manager).trans hkept
  | closed key =>
      refine List.Sublist.trans ?_ hkept
      show (lose w key manager).manager.connections.Sublist _
      unfold lose
      split
      · exact sublist_close key _
      · exact sublist_leave w key manager
  | control request =>
      refine List.Sublist.trans ?_ hkept
      show (control request manager).manager.connections.Sublist _
      cases request with
      | logout => exact sublist_follow manager _
      | cancelLogout =>
          simp only [control]
          split
          · exact sublist_follow manager _
          · exact List.Sublist.refl _
      | checkpoint =>
          simp only [control]
          split
          · exact sublist_follow manager _
          · exact List.Sublist.refl _
      | _ => exact List.Sublist.refl _
  | programExited pid => exact (sublist_follow manager _).trans hkept
  | phaseTimeout => exact (sublist_follow manager _).trans hkept
  | handshakeTimeout => exact (sublist_expire _ manager).trans hkept
  | signal => exact (sublist_follow manager _).trans hkept

/-- **Every event keeps the ledger.** -/
theorem ledger_step (hledger : Ledger manager) (hbooks : Books manager) (step : Step) :
    Ledger (take step manager).manager := by
  have hfate : ∀ key, Undisturbed key manager (take step manager)
      ∨ ∃ standing, Stands (take step manager).manager key standing :=
    fun key => (fate hledger hbooks step.1 step.2 key).after
  refine ⟨fun key => ?_, fun key hwaits => ?_, fun key hopen => ?_, ?_⟩
  · rcases hfate key with h | ⟨standing, h⟩
    · rw [h.connected, h.waits, h.registered]
      exact hledger.opened key
    · exact h.opened
  · rcases hfate key with h | ⟨standing, h⟩
    · rw [h.registered]
      exact hledger.apart key (h.waits.mp hwaits)
    · exact h.apart hwaits
  · rcases hfate key with h | ⟨standing, h⟩
    · exact h.given.mpr (hledger.bound key (h.connected.mp hopen))
    · exact h.given
  -- what is said of one key at a time does not count connections
  · refine (sublist_handle step.1 step.2 manager).nodup ?_
    refine List.nodup_append.mpr ⟨hledger.nodup, List.pairwise_singleton _ _, ?_⟩
    intro key hopen other hother heq
    have hle := hledger.bound key hopen
    rw [heq, List.mem_singleton.mp hother] at hle
    exact Nat.not_succ_le_self _ hle

theorem ledger_reachable (h : Reachable manager) : Ledger manager := by
  induction h with
  | init w manifests ids name phaseTimeout handshakeTimeout =>
      let fresh : Manager := {
        session := { Session.new manifests ids with name, phaseTimeout }
        handshakeTimeout }
      have hconnections : (start w fresh).manager.connections = [] := follow_connections fresh _
      have hhandshakes : (start w fresh).manager.handshakes = .empty :=
        (follow_rest fresh _).handshakes
      have hclients : (start w fresh).manager.session.clients = .empty := by
        rw [start_session]
        exact (Session.keepsRegister_startsUp (Session.startsUp_start fresh.session)).clients
      refine ⟨fun key => ?_, fun key hwaits => ?_, fun key hopen => ?_, ?_⟩
      · show key ∈ (start w fresh).manager.connections ↔ _
        rw [hconnections, hhandshakes, hclients]
        exact iff_of_false List.not_mem_nil fun h => h.elim List.not_mem_nil List.not_mem_nil
      · have hnobody : key ∈ (start w fresh).manager.handshakes.keys := hwaits
        rw [hhandshakes] at hnobody
        exact absurd hnobody List.not_mem_nil
      · have hnobody : key ∈ (start w fresh).manager.connections := hopen
        rw [hconnections] at hnobody
        exact absurd hnobody List.not_mem_nil
      · show (start w fresh).manager.connections.Nodup
        rw [hconnections]
        exact List.nodup_nil
  | tail step hreach ih => exact ledger_step ih (reachable_books hreach).2 step

/-- What an event that a run may find next does to a connection. -/
theorem Reachable.fate (h : Reachable manager) (step : Step) (key : ClientKey) :
    Fate step.1 step.2 manager key (take step manager) :=
  Manager.fate (ledger_reachable h) (reachable_books h).2 step.1 step.2 key

/-! ## Connections that are closed -/

/-- A connection that is closed stays closed, and nothing is sent on it. -/
theorem gone_step (h : Reachable manager) (hgone : Stands manager key .gone) (step : Step) :
    Stands (take step manager).manager key .gone ∧ said key (take step manager).actions = [] := by
  have hclosed : key ∉ manager.connections := fun hopen => hgone.connected.mp hopen rfl
  have hidle : key ∉ manager.handshakes.keys := fun hwaits =>
    absurd (hgone.waits.mp hwaits) (by simp)
  have hstranger : key ∉ manager.session.clients.keys := fun hregistered =>
    hclosed ((ledger_reachable h).opened key |>.mpr (.inr hregistered))
  cases h.fate step key with
  | stays hstays _ _ _ =>
      exact ⟨hstays.stands hgone, hstays.silent ((reachable_books h).2.saves?_none hstranger)⟩
  -- every client that connects gets a new key, so nobody arrives under this one
  | arrives _ new _ _ => exact absurd (new ▸ hgone.given) (Nat.not_succ_le_self _)
  | registers _ _ _ waits _ _ _ _ => exact absurd waits hidle
  | refused _ _ _ waits _ _ _ _ => exact absurd waits hidle
  | dropped _ _ waits _ _ _ => exact absurd waits hidle
  | leaves _ registered _ _ _ => exact absurd registered hstranger

theorem gone_run (h : Reachable manager) (hgone : Stands manager key .gone) (steps : List Step) :
    Stands (handleEach manager steps).manager key .gone
      ∧ said key (handleEach manager steps).actions = [] := by
  induction steps generalizing manager with
  | nil => exact ⟨hgone, rfl⟩
  | cons step steps ih =>
      obtain ⟨hnext, hsilent⟩ := gone_step h hgone step
      obtain ⟨hlast, hsilent'⟩ := ih (h.tail step) hnext
      refine ⟨hlast, ?_⟩
      rw [handleEach, ManagerTurn.andThen_actions, said_append, hsilent, hsilent']
      rfl

/-- A connection that is closed and will not be heard again. -/
structure Over (key : ClientKey) (manager : Manager) : Prop where
  closed : key ∉ manager.connections
  stranger : key ∉ manager.session.clients.keys
  message : ∀ w message, handle w (.message key message) manager = { manager }
  hangUp : ∀ w, handle w (.closed key) manager = { manager }

/-- Messages and the end of the input of a closed connection may still come in. -/
theorem over_of_gone (hbooks : Books manager) (hgone : Stands manager key .gone) :
    Over key manager := by
  have hclosed : key ∉ manager.connections := fun hopen => hgone.connected.mp hopen rfl
  have hstranger : key ∉ manager.session.clients.keys := by
    rw [← KeyMap.get?_isSome, hgone.client]
    simp [Standing.id?]
  have hhandshake : manager.handshakes.get? key = none := by
    refine Option.not_isSome_iff_eq_none.mp fun hsome => ?_
    exact absurd (hgone.waits.mp (KeyMap.get?_isSome.mp hsome)) (by simp)
  have hparticipant : manager.participants.get? key = none :=
    saves?_eq_none.mp (hbooks.saves?_none hstranger)
  refine ⟨hclosed, hstranger, fun w message => ?_, fun w => ?_⟩
  · simp only [handle, receive, hhandshake, hparticipant]
  · have hlose : handle w (.closed key) manager = leave w key manager := by
      simp [handle, lose, KeyMap.contains, hhandshake]
    rw [hlose]
    exact leave_stranger hbooks hstranger hclosed w

/-! ## Registering once, leaving once -/

/-- The session takes a client in. -/
def TakesIn (key : ClientKey) (step : Step) (manager : Manager) : Prop :=
  ∃ previousId result, manager.asked? step.2 = some (.register key previousId)
    ∧ manager.session.register (manager.surroundings step.1) key previousId = .ok result

/-- The session sees a client off. -/
def SeesOff (key : ClientKey) (step : Step) (manager : Manager) : Prop :=
  ∃ after, manager.asked? step.2 = some (.report key .disconnected)
    ∧ manager.session.report (manager.surroundings step.1) key .disconnected = .ok after

theorem TakesIn.waits (h : TakesIn key step manager) : key ∈ manager.handshakes.keys := by
  obtain ⟨previousId, _, hasked, _⟩ := h
  generalize step.2 = event at hasked
  cases asked_of_some hasked with
  | register _ waits =>
      rw [← KeyMap.get?_isSome, waits]
      rfl

theorem SeesOff.registered (h : SeesOff key step manager) : key ∈ manager.session.clients.keys := by
  obtain ⟨after, _, hreport⟩ := h
  by_contra hstranger
  have hcontains : manager.session.clients.contains key = false :=
    KeyMap.contains_eq_false.mpr hstranger
  simp [Session.report, hcontains] at hreport

/-- A connection that has been opened and does not wait to register will never wait again. -/
theorem idle_step (h : Reachable manager) (hgiven : key ≤ manager.lastKey)
    (hidle : key ∉ manager.handshakes.keys) (step : Step) :
    key ≤ (take step manager).manager.lastKey
      ∧ key ∉ (take step manager).manager.handshakes.keys := by
  cases h.fate step key with
  | stays hstays _ _ _ => exact ⟨hstays.given.mpr hgiven, fun hw => hidle (hstays.waits.mp hw)⟩
  | arrives _ new _ _ => exact absurd (new ▸ hgiven) (Nat.not_succ_le_self _)
  | registers _ _ _ waits _ _ _ _ => exact absurd waits hidle
  | refused _ _ _ waits _ _ _ _ => exact absurd waits hidle
  | dropped _ _ waits _ _ _ => exact absurd waits hidle
  | leaves _ _ after _ _ =>
      exact ⟨after.given, fun hw => absurd (after.waits.mp hw) (by simp)⟩

theorem idle_run (h : Reachable manager) (hgiven : key ≤ manager.lastKey)
    (hidle : key ∉ manager.handshakes.keys) (steps : List Step) :
    key ∉ (handleEach manager steps).manager.handshakes.keys := by
  induction steps generalizing manager with
  | nil => exact hidle
  | cons step steps ih =>
      obtain ⟨hgiven', hidle'⟩ := idle_step h hgiven hidle step
      exact ih (h.tail step) hgiven' hidle'

/-- Whatever comes of the first message, the client no longer waits afterwards. -/
theorem TakesIn.idle (h : Reachable manager) (htakes : TakesIn key step manager) :
    key ≤ (take step manager).manager.lastKey
      ∧ key ∉ (take step manager).manager.handshakes.keys := by
  have hwaits := htakes.waits
  obtain ⟨previousId, _, hasked, _⟩ := htakes
  obtain ⟨message, hevent⟩ : ∃ message, step.2 = .message key message := by
    generalize step.2 = event at hasked
    cases asked_of_some hasked with
    | register _ _ => exact ⟨_, rfl⟩
  cases h.fate step key with
  | stays _ _ _ unheard => exact absurd hwaits (unheard message hevent)
  | arrives heq _ _ _ => exact absurd (hevent.symm.trans heq) (by simp)
  | registers _ _ _ _ _ after _ _ =>
      exact ⟨after.given, fun hw => absurd (after.waits.mp hw) (by simp)⟩
  | refused _ _ _ _ _ after _ _ =>
      exact ⟨after.given, fun hw => absurd (after.waits.mp hw) (by simp)⟩
  | dropped _ heq _ _ _ _ => exact absurd hevent (heq message)
  | leaves _ registered _ _ _ =>
      exact absurd registered ((ledger_reachable h).apart key hwaits)

/-- A client that the session sees off has its connection closed. -/
theorem SeesOff.closes (h : Reachable manager) (hoff : SeesOff key step manager) :
    Closes step.1 manager key step.2 := by
  have hregistered := hoff.registered
  obtain ⟨after, hasked, _⟩ := hoff
  generalize step.2 = event at hasked
  cases asked_of_some hasked with
  | report _ reported =>
      obtain ⟨reasons, rfl⟩ := Participant.reported_disconnected.mp reported
      exact .goodbye reasons hregistered
  | closed _ => exact .hangUp ((ledger_reachable h).opened key |>.mpr (.inr hregistered))

/-- **A connection is closed by just the events that are to close it.** -/
theorem closed_iff (h : Reachable manager) (step : Step) (key : ClientKey) :
    .closed key ∈ (take step manager).actions ↔ Closes step.1 manager key step.2 := by
  cases h.fate step key with
  | stays hstays _ lasts _ => exact iff_of_false hstays.left lasts
  | arrives heq _ _ silent =>
      rw [silent, heq]
      exact iff_of_false List.not_mem_nil (by rintro ⟨⟩)
  | registers previousId id heq _ admitted _ _ left =>
      refine iff_of_false left fun hcloses => ?_
      rw [heq] at hcloses
      cases hcloses with
      | refused _ hrefuses => exact hrefuses.not_admits admitted
  | refused message reason heq waits hrefuses _ _ left =>
      rw [heq]
      exact iff_of_true left (.refused waits hrefuses)
  | dropped hcloses _ _ _ _ left => exact iff_of_true left hcloses
  | leaves hcloses _ _ _ left => exact iff_of_true left hcloses

theorem gone_of_closed (h : Reachable manager)
    (hclosed : .closed key ∈ (take step manager).actions) :
    Stands (take step manager).manager key .gone := by
  cases h.fate step key with
  | stays hstays _ _ _ => exact absurd hclosed hstays.left
  | arrives _ _ _ silent => exact absurd (silent ▸ hclosed) List.not_mem_nil
  | registers _ _ _ _ _ _ _ left => exact absurd hclosed left
  | refused _ _ _ _ _ after _ _ => exact after
  | dropped _ _ _ after _ _ => exact after
  | leaves _ _ after _ _ => exact after

/-! ## Every connection of every run -/

/-- The life of a connection from here on. -/
structure Orderly (manager : Manager) (key : ClientKey) : Prop where
  registersOnce : ∀ step steps later, TakesIn key step manager →
    ¬TakesIn key later (handleEach (take step manager).manager steps).manager
  leavesOnce : ∀ step steps later, SeesOff key step manager →
    ¬SeesOff key later (handleEach (take step manager).manager steps).manager
  /-- It is closed when it is refused, when its time is up, and when its client says goodbye or
  hangs up. -/
  closes : ∀ step, .closed key ∈ (take step manager).actions ↔ Closes step.1 manager key step.2
  /-- Once it is closed, nothing comes of it any more. -/
  afterwards : ∀ step steps, .closed key ∈ (take step manager).actions →
    Over key (handleEach (take step manager).manager steps).manager
      ∧ said key (handleEach (take step manager).manager steps).actions = []
      ∧ ∀ later, ¬TakesIn key later (handleEach (take step manager).manager steps).manager

/-- **The connections of a session manager.** In every state that a run can reach, the open
connections are those that wait to register and those of registered clients, and each of
them registers at most once, leaves at most once, and is over when it is closed. -/
theorem connections_orderly (h : Reachable manager) :
    Ledger manager ∧ ∀ key, Orderly manager key := by
  refine ⟨ledger_reachable h, fun key => ⟨?_, ?_, fun step => closed_iff h step key, ?_⟩⟩
  · intro step steps later htakes hagain
    obtain ⟨hgiven, hidle⟩ := htakes.idle h
    exact idle_run (h.tail step) hgiven hidle steps hagain.waits
  · intro step steps later hoff hagain
    have hclosed := (closed_iff h step key).mpr (hoff.closes h)
    obtain ⟨hgone, _⟩ := gone_run (h.tail step) (gone_of_closed h hclosed) steps
    have hover := over_of_gone (reachable_books ((h.tail step).handleEach steps)).2 hgone
    exact hover.stranger hagain.registered
  · intro step steps hclosed
    obtain ⟨hgone, hsilent⟩ := gone_run (h.tail step) (gone_of_closed h hclosed) steps
    refine ⟨over_of_gone (reachable_books ((h.tail step).handleEach steps)).2 hgone, hsilent, ?_⟩
    exact fun later htakes => absurd (hgone.waits.mp htakes.waits) (by simp)

/-- A manager with a client that has registered and another one that has not. -/
def registeredAndWaiting : Manager :=
  (handleEach (start Session.still {
      session := { Session.new [] (.ofSeeds 1 2 3) with name := none, phaseTimeout := 10000 }
      handshakeTimeout := 5000 }).manager
    [(Session.still, .accepted), (Session.still, .accepted),
      (Session.still, .message 1 (.registerClient (some "a")))]).manager

theorem connections_orderly_pair :
    (registeredAndWaiting.connections = [1, 2]
      ∧ registeredAndWaiting.handshakes.keys = [2]
      ∧ registeredAndWaiting.session.clients.keys = [1])
    ∧ Ledger registeredAndWaiting ∧ ∀ key, Orderly registeredAndWaiting key :=
  ⟨by decide +kernel, connections_orderly
    (Reachable.handleEach (.init Session.still [] (.ofSeeds 1 2 3) none 10000 5000) _)⟩

end Xsmp.Manager
