import Mathlib.Data.List.Induction
import Xsmp.Proofs.Manager.Connections
import Xsmp.Proofs.Manager.Course
import Xsmp.Proofs.Session.Membership

/-!
# Whom a manager restarts

A client may ask, by one of its properties, to be started again as soon as it has gone, and it may
change its mind; and whoever runs the session may stop a client for good. So whether a client is
restarted depends on all that it has said and on all that has been done to it since it was
registered. A run here has both kinds of incidents. What a manager remembers of them is enough
(`Chronicle`), and a client is restarted once at most, namely when it leaves (`RestartPolicy`).
-/

namespace Xsmp.Manager

open Participant (saidIn)
open Session (LogoutInv Operation Restarts perform clients_perform)

/-! ## Runs in which clients are stopped -/

/-- Something that happens in a run. -/
inductive Incident where
  | occurs (event : ManagerEvent)
  /-- A client is stopped for good. -/
  | stops (client : ClientKey)

/-- An incident together with what the manager finds around it. -/
abbrev Episode := Surroundings × Incident

/-- What a client says by an incident. -/
def Incident.saidBy (incident : Incident) (key : ClientKey) : List ClientMessage :=
  match incident with
  | .occurs event => event.saidBy key
  | .stops _ => []

/-- The operation that an incident asks of the session. -/
def Incident.asked? (manager : Manager) : Incident → Option Operation
  | .occurs event => manager.asked? event
  | .stops key => some (.stop key)

/-- What the session finds around it. -/
def Incident.around (w : Surroundings) (manager : Manager) : Incident → Surroundings
  | .occurs event => Manager.around w event manager
  | .stops _ => w

/-- What the session does in an episode. -/
def sessionPart (episode : Episode) (manager : Manager) : Turn :=
  match episode.2.asked? manager with
  | some operation => perform (episode.2.around episode.1 manager) operation manager.session
  | none => { session := manager.session }

/-- Live through an episode. -/
def meet (episode : Episode) (manager : Manager) : ManagerTurn :=
  match episode.2 with
  | .occurs event => handle episode.1 event manager
  | .stops key => manager.follow (perform episode.1 (.stop key) manager.session)

/-- Live through one episode after the other. -/
def meetEach (manager : Manager) : List Episode → ManagerTurn
  | [] => { manager }
  | episode :: episodes => (meet episode manager).andThen (meetEach · episodes)

variable {w : Surroundings} {manager : Manager} {turn : ManagerTurn} {key : ClientKey}
  {episode : Episode} {episodes : List Episode}

theorem meetEach_append (manager : Manager) (episodes more : List Episode) :
    (meetEach manager (episodes ++ more)).manager =
        (meetEach (meetEach manager episodes).manager more).manager
      ∧ (meetEach manager (episodes ++ more)).actions = (meetEach manager episodes).actions
        ++ (meetEach (meetEach manager episodes).manager more).actions := by
  induction episodes generalizing manager with
  | nil => exact ⟨rfl, rfl⟩
  | cons episode episodes ih =>
      obtain ⟨hmanager, hactions⟩ := ih (meet episode manager).manager
      rw [List.cons_append, meetEach, meetEach, ManagerTurn.andThen_manager,
        ManagerTurn.andThen_manager, ManagerTurn.andThen_actions, ManagerTurn.andThen_actions]
      exact ⟨hmanager, by rw [hactions, List.append_assoc]⟩

theorem meetEach_snoc (manager : Manager) (episodes : List Episode) (episode : Episode) :
    (meetEach manager (episodes ++ [episode])).manager =
        (meet episode (meetEach manager episodes).manager).manager
      ∧ (meetEach manager (episodes ++ [episode])).actions = (meetEach manager episodes).actions
        ++ (meet episode (meetEach manager episodes).manager).actions := by
  obtain ⟨hmanager, hactions⟩ := meetEach_append manager episodes [episode]
  refine ⟨hmanager, hactions.trans ?_⟩
  rw [meetEach, ManagerTurn.andThen_actions]
  exact congrArg (_ ++ ·) (List.append_nil _)

/-! ## What is kept in every state -/

/-- All that is known of a manager in the course of a run. -/
structure Sound (manager : Manager) : Prop where
  session : Session.Reachable manager.session
  books : Books manager
  ledger : Ledger manager
  named : Named manager
  /-- A client that waits to register has lived through nothing. -/
  fresh : ∀ key handshake, manager.handshakes.get? key = some handshake →
    handshake.participant = .new key

theorem sound_start (w : Surroundings) (manifests : List Manifest) (ids : ClientIds)
    (name : Option String) (phaseTimeout handshakeTimeout : Nat) :
    Sound (start w {
      session := { Session.new manifests ids with name, phaseTimeout }
      handshakeTimeout }).manager := by
  let fresh : Manager := {
    session := { Session.new manifests ids with name, phaseTimeout }
    handshakeTimeout }
  have hreach := Reachable.init w manifests ids name phaseTimeout handshakeTimeout
  obtain ⟨hsession, hbooks⟩ := reachable_books hreach
  have hhandshakes : (start w fresh).manager.handshakes = .empty :=
    (follow_rest fresh _).handshakes
  refine ⟨hsession, hbooks, ledger_reachable hreach, fun key participant hget => ?_,
    fun key handshake hget => ?_⟩
  · have hnobody := participants_follow fresh (fresh.session.start (fresh.surroundings w)) key
    exact absurd (hnobody.symm.trans hget) (by simp [fresh, KeyMap.get?, KeyMap.empty])
  · have hnobody : (start w fresh).manager.handshakes.get? key = some handshake := hget
    rw [hhandshakes] at hnobody
    exact absurd hnobody (by simp [KeyMap.get?, KeyMap.empty])

theorem Sound.participant (h : Sound manager) (hkey : key ∈ manager.session.clients.keys) :
    ∃ participant, manager.participants.get? key = some participant := by
  obtain ⟨queue, hqueue⟩ := h.books.getD hkey
  obtain ⟨participant, hget, _⟩ := Option.map_eq_some_iff.mp hqueue
  exact ⟨participant, hget⟩

theorem Sound.stranger (h : Sound manager) (hkey : key ∉ manager.session.clients.keys) :
    manager.participants.get? key = none := saves?_eq_none.mp (h.books.saves?_none hkey)

/-- A client that is still to register. -/
def Ahead (key : ClientKey) (manager : Manager) : Prop :=
  key ∈ manager.handshakes.keys ∨ manager.lastKey < key

/-- A client that has left, or has never been let in. -/
def Gone (key : ClientKey) (manager : Manager) : Prop :=
  ¬Ahead key manager ∧ key ∉ manager.session.clients.keys

theorem Sound.not_ahead (h : Sound manager) (hkey : key ∈ manager.session.clients.keys) :
    ¬Ahead key manager := by
  rintro (hwaits | hnew)
  · exact h.ledger.apart key hwaits hkey
  · exact absurd (h.books.bound key hkey) (Nat.not_le.mpr hnew)

theorem meet_course (h : Sound manager) (episode : Episode) :
    ∃ prepared, Heeds manager episode.2.saidBy prepared
      ∧ Course (sessionPart episode manager) prepared (meet episode manager) := by
  obtain ⟨w, incident⟩ := episode
  cases incident with
  | occurs event => exact attends_handle h.books w event
  | stops key => exact ⟨manager, heeds_silent manager, course_follow manager _⟩

theorem session_meet (h : Sound manager) (episode : Episode) :
    (meet episode manager).manager.session = (sessionPart episode manager).session := by
  obtain ⟨_, _, hcourse⟩ := meet_course h episode
  exact hcourse.session

/-- Stopping a client is nothing to any connection. -/
theorem undisturbed_stops (key client : ClientKey) (w : Surroundings) (manager : Manager) :
    Undisturbed key manager (meet (w, .stops client) manager) :=
  undisturbed_perform (by simp) (by simp)

theorem Undisturbed.ahead (h : Undisturbed key manager turn) (hahead : Ahead key turn.manager) :
    Ahead key manager := by
  rcases hahead with hwaits | hnew
  · exact .inl (h.waits.mp hwaits)
  · exact .inr (Nat.not_le.mp fun hle => Nat.not_le.mpr hnew (h.given.mpr hle))

theorem Stands.not_ahead {standing : Standing} (h : Stands manager key standing)
    (hstanding : standing ≠ .waiting) : ¬Ahead key manager := by
  rintro (hwaits | hnew)
  · exact hstanding (h.waits.mp hwaits)
  · exact absurd h.given (Nat.not_le.mpr hnew)

/-- A registered client has been so before or has waited for it, a client that is still to
register has been so before, and whoever waits has lived through nothing. -/
structure Passage (key : ClientKey) (manager next : Manager) : Prop where
  comes : key ∈ next.session.clients.keys →
    key ∈ manager.session.clients.keys ∨ key ∈ manager.handshakes.keys
  ahead : Ahead key next → Ahead key manager
  fresh : ∀ handshake, next.handshakes.get? key = some handshake →
    handshake.participant = .new key

/-- Whoever is gone does not come back. -/
theorem Passage.gone {next : Manager} (h : Passage key manager next) (hgone : Gone key manager) :
    Gone key next := by
  refine ⟨fun hnext => hgone.1 (h.ahead hnext), fun hnext => ?_⟩
  rcases h.comes hnext with hregistered | hwaits
  · exact hgone.2 hregistered
  · exact hgone.1 (.inl hwaits)

theorem passage_undisturbed (h : Sound manager) (hturn : Undisturbed key manager turn) :
    Passage key manager turn.manager :=
  ⟨fun hkey => .inl (hturn.registered.mp hkey), hturn.ahead,
    fun handshake hget => h.fresh key handshake (hturn.handshake ▸ hget)⟩

/-- A connection that no longer waits. -/
theorem passage_stands {standing : Standing} (h : Stands turn.manager key standing)
    (hstanding : standing ≠ .waiting)
    (hbefore : key ∈ manager.session.clients.keys ∨ key ∈ manager.handshakes.keys) :
    Passage key manager turn.manager := by
  refine ⟨fun _ => hbefore, fun hahead => absurd hahead (h.not_ahead hstanding), ?_⟩
  intro handshake hget
  have hwaits : key ∈ turn.manager.handshakes.keys := by
    rw [← KeyMap.get?_isSome, hget]
    rfl
  exact absurd (h.waits.mp hwaits) hstanding

theorem passage_meet (h : Sound manager) (episode : Episode) (key : ClientKey) :
    Passage key manager (meet episode manager).manager := by
  obtain ⟨w, incident⟩ := episode
  cases incident with
  | stops client => exact passage_undisturbed h (undisturbed_stops key client w manager)
  | occurs event =>
      cases fate h.ledger h.books w event key with
      | stays hturn _ _ _ => exact passage_undisturbed h hturn
      | arrives heq new after _ =>
          subst heq new
          refine ⟨fun hkey => ?_, fun _ => .inr (Nat.lt_succ_self _), fun handshake hget => ?_⟩
          · rw [← KeyMap.get?_isSome] at hkey
            exact absurd (after.client ▸ hkey) (by simp [Standing.id?])
          · have hnew := KeyMap.get?_insert_self.symm.trans hget
            exact (Option.some.inj hnew) ▸ rfl
      | registers _ _ _ waits _ after _ _ => exact passage_stands after (by simp) (.inr waits)
      | refused _ _ _ waits _ after _ _ => exact passage_stands after (by simp) (.inr waits)
      | dropped _ _ waits after _ _ => exact passage_stands after (by simp) (.inr waits)
      | leaves _ registered after _ _ => exact passage_stands after (by simp) (.inl registered)

/-- Nothing is stopped but a client of the session, and nobody comes or goes by that. -/
theorem books_stops (h : Sound manager) (client : ClientKey) (w : Surroundings) :
    Books (meet (w, .stops client) manager).manager
      ∧ Ledger (meet (w, .stops client) manager).manager := by
  have hkept := fun key => undisturbed_stops key client w manager
  have hbooks : Books (meet (w, .stops client) manager).manager := by
    refine ⟨fun key => ?_, fun key handshake hget => ?_, fun key hkey => ?_⟩
    · rw [(hkept key).known, (hkept key).registered]
      exact h.books.registered key
    · obtain ⟨hstranger, hgiven, hempty⟩ :=
        h.books.waiting key handshake ((hkept key).handshake ▸ hget)
      exact ⟨fun hkey => hstranger ((hkept key).registered.mp hkey), (hkept key).given.mpr hgiven,
        hempty⟩
    · exact (hkept key).given.mpr (h.books.bound key ((hkept key).registered.mp hkey))
  refine ⟨hbooks, fun key => ?_, fun key hwaits => ?_, fun key hopen => ?_, ?_⟩
  · rw [(hkept key).connected, (hkept key).waits, (hkept key).registered]
    exact h.ledger.opened key
  · rw [(hkept key).registered]
    exact h.ledger.apart key ((hkept key).waits.mp hwaits)
  · exact (hkept key).given.mpr (h.ledger.bound key ((hkept key).connected.mp hopen))
  · show (manager.follow _).manager.connections.Nodup
    rw [follow_connections]
    exact h.ledger.nodup

theorem Sound.named_prepared (h : Sound manager) {said : ClientKey → List ClientMessage}
    {prepared : Manager} (hheeds : Heeds manager said prepared) : Named prepared := by
  refine hheeds.named h.named fun key handshake hget => ?_
  rw [h.fresh key handshake hget]
  rfl

/-- **Every episode leaves everything in order.** -/
theorem sound_meet (h : Sound manager) (episode : Episode) :
    Sound (meet episode manager).manager := by
  obtain ⟨prepared, hheeds, hcourse⟩ := meet_course h episode
  have hbooks : Books (meet episode manager).manager ∧ Ledger (meet episode manager).manager := by
    obtain ⟨w, incident⟩ := episode
    cases incident with
    | occurs event =>
        have hinv := Session.logoutInv_reachable h.session
        obtain ⟨_, hhandled⟩ := handle_handled h.books hinv w event
        exact ⟨books_handled h.books hinv hhandled, ledger_step h.ledger h.books (w, event)⟩
    | stops client => exact books_stops h client w
  refine ⟨?_, hbooks.1, hbooks.2, hcourse.named (h.named_prepared hheeds),
    fun key => (passage_meet h episode key).fresh⟩
  rw [session_meet h episode, sessionPart]
  split
  · exact h.session.tail (_, _)
  · exact h.session

theorem gone_meetEach (h : Sound manager) (hgone : Gone key manager) (episodes : List Episode) :
    Gone key (meetEach manager episodes).manager := by
  induction episodes generalizing manager with
  | nil => exact hgone
  | cons episode episodes ih =>
      exact ih (sound_meet h episode) ((passage_meet h episode key).gone hgone)

theorem Sound.meetEach (h : Sound manager) (episodes : List Episode) :
    Sound (meetEach manager episodes).manager := by
  induction episodes generalizing manager with
  | nil => exact h
  | cons episode episodes ih => exact ih (sound_meet h episode)

/-! ## Restarts -/

/-- A client that says goodbye or hangs up has said nothing of restarts by that. -/
theorem around_wantsRestart
    (hasked : episode.2.asked? manager = some (.report key .disconnected)) :
    (episode.2.around episode.1 manager).wantsRestart key = true ↔
      ∃ participant, manager.participants.get? key = some participant
        ∧ participant.properties.restartsAtOnce = true := by
  obtain ⟨w, incident⟩ := episode
  cases incident with
  | stops client => exact absurd (Option.some.inj hasked) (by simp)
  | occurs event =>
      cases asked_of_some hasked with
      | report registered reported =>
          -- a goodbye is heeded before the session decides, but changes no property
          obtain ⟨reasons, rfl⟩ := Participant.reported_disconnected.mp reported
          simp only [Incident.around, around, registered]
          simp [surroundings, reacted, KeyMap.get?_insert_self, Participant.received]
      | closed _ => exact Option.any_eq_true _ _

/-- **A client is restarted only when it leaves, and then once.** -/
theorem restarts_meet (h : Sound manager) (episode : Episode) (key : ClientKey) :
    restarts key (meet episode manager).actions ≤ 1
      ∧ (0 < restarts key (meet episode manager).actions ↔
        key ∈ manager.session.clients.keys
          ∧ key ∉ (meet episode manager).manager.session.clients.keys
          ∧ manager.session.phase ≠ .shutdown ∧ key ∉ manager.session.stopped
          ∧ ∃ participant, manager.participants.get? key = some participant
            ∧ participant.properties.restartsAtOnce = true) := by
  obtain ⟨prepared, hheeds, hcourse⟩ := meet_course h episode
  have hsession := session_meet h episode
  have hnamed := h.named_prepared hheeds
  cases hasked : episode.2.asked? manager with
  | none =>
      have hpart : sessionPart episode manager = { session := manager.session } := by
        rw [sessionPart, hasked]
      rw [hpart] at hsession hcourse
      have hnone : restarts key (meet episode manager).actions = 0 :=
        hcourse.count hheeds hnamed fun hmem => absurd hmem List.not_mem_nil
      rw [hnone, hsession]
      exact ⟨Nat.zero_le 1, iff_of_false (Nat.lt_irrefl 0) fun hleaves => hleaves.2.1 hleaves.1⟩
  | some operation =>
      have hpart : sessionPart episode manager =
          perform (episode.2.around episode.1 manager) operation manager.session := by
        rw [sessionPart, hasked]
      obtain ⟨hle, hrestart⟩ := Session.restart_perform (episode.2.around episode.1 manager)
        manager.session operation key
      rw [hpart] at hsession hcourse
      have hknown : .called key .restart ∈ (perform (episode.2.around episode.1 manager) operation
          manager.session).effects → (manager.participants.get? key).isSome = true := by
        intro hmem
        obtain ⟨participant, hget⟩ := h.participant (hrestart.mp hmem).2.1
        rw [hget]
        rfl
      rw [hcourse.count hheeds hnamed hknown, List.count_pos_iff, hrestart, hsession]
      refine ⟨hle, ?_⟩
      constructor
      · rintro ⟨rfl, hkey, hstopped, hphase, hwants⟩
        exact ⟨hkey, not_mem_clients_disconnect _ _ _, hphase, hstopped,
          (around_wantsRestart hasked).mp hwants⟩
      · rintro ⟨hkey, hgone, hphase, hstopped, hwants⟩
        have hinv := Session.logoutInv_reachable h.session
        -- nothing else strikes a client off
        obtain rfl : operation = .report key .disconnected := by
          by_contra hne
          exact hgone ((clients_perform hinv key).mpr (.inl ⟨hkey, hne⟩))
        exact ⟨rfl, hkey, hstopped, hphase, (around_wantsRestart hasked).mpr hwants⟩

/-! ## What a manager remembers of a client -/

/-- What a client has said in a run while it was registered. -/
def heard (key : ClientKey) (manager : Manager) : List Episode → List ClientMessage
  | [] => []
  | episode :: episodes =>
    (if key ∈ manager.session.clients.keys then episode.2.saidBy key else [])
      ++ heard key (meet episode manager).manager episodes

/-- A client has been stopped in a run. -/
def Stopped (key : ClientKey) (manager : Manager) (episodes : List Episode) : Prop :=
  ∃ earlier w later, episodes = earlier ++ (w, .stops key) :: later
    ∧ ∃ turn, (meetEach manager earlier).manager.session.stop key = .ok turn

/-- The last that a client has said of it is that it wants to be restarted at once. -/
def WantsBack (said : List ClientMessage) : Prop :=
  PropertyChange.lastValue Property.restartStyleName (said.flatMap ClientMessage.changes) =
    some (.card8 2)

theorem heard_snoc (key : ClientKey) (manager : Manager) (episodes : List Episode)
    (episode : Episode) :
    heard key manager (episodes ++ [episode]) = heard key manager episodes
      ++ if key ∈ (meetEach manager episodes).manager.session.clients.keys
        then episode.2.saidBy key else [] := by
  induction episodes generalizing manager with
  | nil => exact List.append_nil _
  | cons first episodes ih =>
      rw [List.cons_append, heard, heard, ih, List.append_assoc]
      rfl

theorem stop_isOk {session : Session} :
    (∃ turn, session.stop key = .ok turn) ↔ key ∈ session.clients.keys := by
  rw [Session.stop, ← KeyMap.contains_iff]
  cases session.clients.contains key with
  | true => exact iff_of_true ⟨_, rfl⟩ rfl
  | false => exact iff_of_false (by simp) (by simp)

theorem stopped_snoc : Stopped key manager (episodes ++ [episode]) ↔
    Stopped key manager episodes ∨ (episode.2 = .stops key
      ∧ key ∈ (meetEach manager episodes).manager.session.clients.keys) := by
  constructor
  · rintro ⟨earlier, w, later, heq, hstop⟩
    -- it was stopped by the last episode or before it
    rcases List.eq_nil_or_concat later with rfl | ⟨later, last, rfl⟩
    · obtain ⟨rfl, hlast⟩ := List.append_inj' heq rfl
      exact .inr ⟨by rw [List.singleton_inj.mp hlast], stop_isOk.mp hstop⟩
    · have hsplit : episodes ++ [episode] = (earlier ++ (w, .stops key) :: later) ++ [last] := by
        simpa using heq
      obtain ⟨rfl, _⟩ := List.append_inj' hsplit rfl
      exact .inl ⟨earlier, w, later, rfl, hstop⟩
  · rintro (⟨earlier, w, later, rfl, hstop⟩ | ⟨hstops, hkey⟩)
    · exact ⟨earlier, w, later ++ [episode], by simp, hstop⟩
    · exact ⟨episodes, episode.1, [], by rw [← hstops], stop_isOk.mpr hkey⟩

/-- What a manager remembers of a client after some episodes. -/
structure Chronicle (key : ClientKey) (begun : Manager) (episodes : List Episode) : Prop where
  /-- A client that is still to register has not been heard, nor could it be stopped. -/
  ahead : Ahead key (meetEach begun episodes).manager →
    heard key begun episodes = [] ∧ ¬Stopped key begun episodes
  /-- The participant of a registered client has heard all that the client has said. -/
  known : key ∈ (meetEach begun episodes).manager.session.clients.keys →
    ∃ inputs, (meetEach begun episodes).manager.participants.get? key =
        some ((Participant.new key).after inputs)
      ∧ saidIn inputs = heard key begun episodes
  /-- The session remembers whom it has stopped. -/
  marked : key ∈ (meetEach begun episodes).manager.session.clients.keys →
    (key ∈ (meetEach begun episodes).manager.session.stopped ↔ Stopped key begun episodes)
  /-- A client that has been restarted is gone. -/
  spent : 0 < restarts key (meetEach begun episodes).actions →
    Gone key (meetEach begun episodes).manager
  once : restarts key (meetEach begun episodes).actions ≤ 1

theorem chronicle_nil (key : ClientKey)
    (h : key ∉ manager.session.clients.keys) : Chronicle key manager [] := by
  refine ⟨fun _ => ⟨rfl, ?_⟩, fun hkey => absurd hkey h, fun hkey => absurd hkey h,
    fun hspent => absurd hspent (Nat.lt_irrefl 0), Nat.zero_le 1⟩
  rintro ⟨earlier, w, later, heq, _⟩
  exact absurd heq (by simp)

/-- A registered client is put on the list of those that were stopped by being stopped, and is
taken off it by nothing as long as it stays. -/
theorem stopped_meet (h : Sound manager) (episode : Episode)
    (hstays : key ∈ (meet episode manager).manager.session.clients.keys) :
    key ∈ (meet episode manager).manager.session.stopped ↔ key ∈ manager.session.stopped
      ∨ (episode.2 = .stops key ∧ key ∈ manager.session.clients.keys) := by
  have hstops : episode.2.asked? manager = some (.stop key) ↔ episode.2 = .stops key := by
    obtain ⟨w, incident⟩ := episode
    cases incident with
    | stops client => simp [Incident.asked?]
    | occurs event =>
        refine iff_of_false (fun hasked => ?_) (by simp)
        cases asked_of_some hasked
  rw [session_meet h episode, sessionPart] at hstays ⊢
  cases hasked : episode.2.asked? manager with
  | none =>
      have hnot : episode.2 ≠ .stops key := fun heq =>
        absurd (hasked.symm.trans (hstops.mpr heq)) (by simp)
      simp [hnot]
  | some operation =>
      rw [hasked] at hstays
      have hgone : operation ≠ .report key .disconnected := by
        rintro rfl
        exact not_mem_clients_disconnect _ _ _ hstays
      have hsame : operation = .stop key ↔ episode.2 = .stops key := by
        rw [← hstops, hasked, Option.some.injEq]
      rw [Session.mem_stopped_perform, hsame]
      simp [hgone]

theorem chronicle_snoc (hsound : Sound (meetEach manager episodes).manager)
    (ih : Chronicle key manager episodes) (episode : Episode) :
    Chronicle key manager (episodes ++ [episode]) := by
  let now := (meetEach manager episodes).manager
  obtain ⟨hmanager, hactions⟩ := meetEach_snoc manager episodes episode
  obtain ⟨hle, hrestart⟩ := restarts_meet hsound episode key
  obtain ⟨prepared, hheeds, hcourse⟩ := meet_course hsound episode
  have hpassage := passage_meet hsound episode key
  have hsession := session_meet hsound episode
  have hunheard (hkey : key ∉ now.session.clients.keys) :
      heard key manager (episodes ++ [episode]) = heard key manager episodes := by
    rw [heard_snoc, if_neg hkey, List.append_nil]
  have hunstopped (hkey : key ∉ now.session.clients.keys) :
      Stopped key manager (episodes ++ [episode]) → Stopped key manager episodes :=
    fun hstopped => (stopped_snoc.mp hstopped).resolve_right fun hnow => hkey hnow.2
  constructor
  case ahead =>
    rw [hmanager]
    intro hnext
    have hahead := hpassage.ahead hnext
    have hkey : key ∉ now.session.clients.keys := fun hkey => hsound.not_ahead hkey hahead
    obtain ⟨hnothing, hnever⟩ := ih.ahead hahead
    exact ⟨(hunheard hkey).trans hnothing, fun hstopped => hnever (hunstopped hkey hstopped)⟩
  case known =>
    rw [hmanager]
    intro hnext
    by_cases hkey : key ∈ now.session.clients.keys
    · obtain ⟨inputs, hget, hsaid⟩ := ih.known hkey
      obtain ⟨more, hmore, hafter⟩ := hcourse.lives hheeds hget (hsession ▸ hnext)
      refine ⟨inputs ++ more, ?_, ?_⟩
      · rw [hafter, Participant.after_append]
      · rw [Participant.saidIn_append, hsaid, hmore, heard_snoc, if_pos hkey]
    · -- the client has been let in by this episode
      have hwaits := (hpassage.comes hnext).resolve_left hkey
      obtain ⟨participant, hget⟩ := (sound_meet hsound episode).participant hnext
      obtain ⟨handshake, inputs, hhandshake, hsaid, rfl⟩ :=
        hcourse.joins hheeds (hsound.stranger hkey) hget
      rw [hsound.fresh key handshake hhandshake] at hget
      exact ⟨inputs, hget, by rw [hsaid, hunheard hkey, (ih.ahead (.inl hwaits)).1]⟩
  case marked =>
    rw [hmanager]
    intro hnext
    rw [stopped_meet hsound episode hnext]
    by_cases hkey : key ∈ now.session.clients.keys
    · rw [stopped_snoc, ih.marked hkey]
    · -- only a client of the session is on the list, so it starts off it
      have hwaits := (hpassage.comes hnext).resolve_left hkey
      have hmembers := Session.members_reachable hsound.session
      refine iff_of_false ?_ fun hstopped => ?_
      · rintro (hmem | ⟨_, hmem⟩)
        · exact hkey (hmembers.stopped key hmem)
        · exact hkey hmem
      · exact (ih.ahead (.inl hwaits)).2 (hunstopped hkey hstopped)
  case spent =>
    rw [hmanager, hactions, restarts_append]
    intro hspent
    rcases Nat.add_pos_iff_pos_or_pos.mp hspent with hbefore | hnow
    · exact hpassage.gone (ih.spent hbefore)
    · obtain ⟨hkey, hgone, _⟩ := hrestart.mp hnow
      exact ⟨fun hnext => hsound.not_ahead hkey (hpassage.ahead hnext), hgone⟩
  case once =>
    rw [hactions, restarts_append]
    rcases Nat.eq_zero_or_pos (restarts key (meetEach manager episodes).actions) with
      hnone | hbefore
    · rw [hnone, Nat.zero_add]
      exact hle
    · -- a client that has been restarted has gone, and only those that are there can leave
      have hnot : ¬0 < restarts key (meet episode now).actions :=
        fun hnow => (ih.spent hbefore).2 (hrestart.mp hnow).1
      rw [Nat.eq_zero_of_not_pos hnot]
      exact ih.once

theorem chronicle_run (hsound : Sound manager) (hnobody : manager.session.clients.keys = [])
    (key : ClientKey) (episodes : List Episode) : Chronicle key manager episodes := by
  -- on the run from its end, since the chronicle is about all that came before
  induction episodes using List.reverseRecOn with
  | nil =>
      refine chronicle_nil key ?_
      rw [hnobody]
      exact List.not_mem_nil
  | append_singleton episodes episode ih =>
      exact chronicle_snoc (hsound.meetEach episodes) ih episode

/-- Whom a manager restarts in a run, and when. -/
structure RestartPolicy (key : ClientKey) (begun : Manager) (episodes : List Episode) : Prop where
  once : restarts key (meetEach begun episodes).actions ≤ 1
  /-- A client is restarted in the episode in which it leaves, unless that is during a logout, if
  it has last asked for it and was never stopped. -/
  exactly : ∀ before episode later, episodes = before ++ episode :: later →
    (0 < restarts key (meet episode (meetEach begun before).manager).actions ↔
      key ∈ (meetEach begun before).manager.session.clients.keys
        ∧ key ∉ (meet episode (meetEach begun before).manager).manager.session.clients.keys
        ∧ (meetEach begun before).manager.session.phase ≠ .shutdown
        ∧ WantsBack (heard key begun before)
        ∧ ¬Stopped key begun before)
  /-- A client that has left is not registered again under its key. So what it has said while it
  was registered, it has said since it was. -/
  forGood : ∀ before episode later, episodes = before ++ episode :: later →
    key ∈ (meetEach begun before).manager.session.clients.keys →
    key ∉ (meet episode (meetEach begun before).manager).manager.session.clients.keys →
    key ∉ (meetEach begun episodes).manager.session.clients.keys

theorem Chronicle.restarts_iff (h : Chronicle key manager episodes)
    (hsound : Sound (meetEach manager episodes).manager) (episode : Episode) :
    0 < restarts key (meet episode (meetEach manager episodes).manager).actions ↔
      key ∈ (meetEach manager episodes).manager.session.clients.keys
        ∧ key ∉ (meet episode (meetEach manager episodes).manager).manager.session.clients.keys
        ∧ (meetEach manager episodes).manager.session.phase ≠ .shutdown
        ∧ WantsBack (heard key manager episodes)
        ∧ ¬Stopped key manager episodes := by
  rw [(restarts_meet hsound episode key).2]
  refine and_congr_right fun hkey => and_congr_right fun _ => and_congr_right fun _ => ?_
  obtain ⟨inputs, hget, hsaid⟩ := h.known hkey
  have hwants : (∃ participant, (meetEach manager episodes).manager.participants.get? key =
        some participant ∧ participant.properties.restartsAtOnce = true)
      ↔ WantsBack (heard key manager episodes) := by
    rw [hget, WantsBack, ← hsaid]
    simp only [Option.some.injEq, exists_eq_left']
    exact Participant.restartsAtOnce_after key inputs
  rw [h.marked hkey, hwants, and_comm]

theorem restartPolicy_run (hsound : Sound manager) (hnobody : manager.session.clients.keys = [])
    (key : ClientKey) (episodes : List Episode) : RestartPolicy key manager episodes := by
  constructor
  case once => exact (chronicle_run hsound hnobody key episodes).once
  case exactly =>
    intro before episode _ _
    exact (chronicle_run hsound hnobody key before).restarts_iff (hsound.meetEach before) episode
  case forGood =>
    intro before episode later heq hkey hgone
    have hsound' := hsound.meetEach before
    have hpassage := passage_meet hsound' episode key
    have hleft : Gone key (meet episode (meetEach manager before).manager).manager :=
      ⟨fun hnext => hsound'.not_ahead hkey (hpassage.ahead hnext), hgone⟩
    rw [heq, (meetEach_append manager before (episode :: later)).1]
    exact (gone_meetEach (sound_meet hsound' episode) hleft later).2

/-- **Whom a session manager restarts.** -/
theorem restart_policy (w : Surroundings) (manifests : List Manifest) (ids : ClientIds)
    (name : Option String) (phaseTimeout handshakeTimeout : Nat) (episodes : List Episode)
    (key : ClientKey) :
    RestartPolicy key (start w {
      session := { Session.new manifests ids with name, phaseTimeout }
      handshakeTimeout }).manager episodes := by
  let fresh : Manager := {
    session := { Session.new manifests ids with name, phaseTimeout }
    handshakeTimeout }
  have hsound := sound_start w manifests ids name phaseTimeout handshakeTimeout
  have hnobody : (start w fresh).manager.session.clients = .empty := by
    rw [start_session]
    exact (Session.keepsRegister_startsUp (Session.startsUp_start fresh.session)).clients
  exact restartPolicy_run hsound (congrArg KeyMap.keys hnobody) key episodes

/-- A client comes, and asks to be restarted at once. -/
def returning : List Incident :=
  [.occurs .accepted, .occurs (.message 1 (.registerClient none)),
    .occurs (.message 1 (.setProperties [⟨Property.restartStyleName, .card8 2⟩]))]

/-- It says goodbye and hangs up, or else it is stopped and hangs up when a logout has been
cancelled. -/
example : [[.occurs (.message 1 (.closeConnection [])), .occurs (.closed 1)],
      [.stops 1, .occurs (.control .logout), .occurs (.control .cancelLogout),
        .occurs (.closed 1)]].map (fun incidents =>
    restarts 1 (meetEach (start Session.still {
        session := { Session.new [] (.ofSeeds 1 2 3) with name := none, phaseTimeout := 10000 }
        handshakeTimeout := 5000 }).manager
      ((returning ++ incidents).map (Session.still, ·))).actions) = [1, 0] := by
  rfl

end Xsmp.Manager
