import Mathlib.Data.List.Basic
import Mathlib.Data.List.Induction
import Xsmp.Proofs.Manager.Saves

/-!
# Who is told to die in the middle of a save

A round begins with a request for a save to every client. What has been in a
client's queue then decides, together with the number of its reports, whether a
save is left over when the logout is completed.
-/

namespace Xsmp.Manager

variable {manager : Manager} {first last step : Step} {before after steps rest : List Step}
  {key : ClientKey} {queue : SaveQueue} {base : List SaveType} {reports : Nat}

/-! ## Rounds of a manager -/

/-- Every event finds a logout going on. The last of them may end it. -/
def Lasts : Manager → List Step → Prop
  | _, [] => True
  | manager, step :: steps =>
    manager.session.phase = .shutdown ∧ Lasts (take step manager).manager steps

/-- The first event begins a logout, and all others find it going on. -/
def IsRound (manager : Manager) : List Step → Prop
  | [] => False
  | first :: rest => manager.session.phase ≠ .shutdown
      ∧ (take first manager).manager.session.phase = .shutdown
      ∧ Lasts (take first manager).manager rest

theorem lasts_append : Lasts manager (before ++ after) ↔
    Lasts manager before ∧ Lasts (handleEach manager before).manager after := by
  induction before generalizing manager with
  | nil => simp [Lasts, handleEach]
  | cons step before ih =>
      simp only [List.cons_append, Lasts, ih, and_assoc]
      rfl

theorem Lasts.phase (h : Lasts manager steps)
    (hend : (handleEach manager steps).manager.session.phase = .shutdown) :
    manager.session.phase = .shutdown := by
  cases steps with
  | nil => exact hend
  | cons step steps => exact h.1

/-! ## The first event -/

/-- What begins a logout is no report and changes no queue. -/
theorem own_of_begins {event : ManagerEvent} {operation : Session.Operation}
    (hasked : manager.asked? event = some operation)
    (hbegins : operation = .beginShutdown ∨ ∃ reporter, operation = .report reporter .requestLogout)
    (key : ClientKey) (queue : SaveQueue) :
    event.own key queue = queue ∧ event.isDone key = false := by
  cases asked_of_some hasked with
  | @report client participant message event _ hreported =>
      have hevent : event = .requestLogout := by
        rcases hbegins with heq | ⟨_, heq⟩
        · exact absurd heq (by simp)
        · exact (Session.Operation.report.inj heq).2
      subst hevent
      cases message with
      | saveYourselfDone success =>
          simp only [Participant.received, Participant.saveDone] at hreported
          split at hreported
          · exact absurd hreported (by simp)
          · exact absurd hreported (by simp)
      | saveYourselfRequest saveType shutdown style fast isGlobal =>
          cases shutdown <;> cases isGlobal
          · exact absurd hreported (by simp [Participant.received, Participant.requestSave])
          all_goals simp [ManagerEvent.own, SaveQueue.received, ManagerEvent.isDone]
      | _ => simp [ManagerEvent.own, SaveQueue.received, ManagerEvent.isDone]
  | register previousId _ => simp [ManagerEvent.own, SaveQueue.received, ManagerEvent.isDone]
  | _ => exact ⟨rfl, rfl⟩

/-- When a round begins, a client has been asked for one more save and is waited for. -/
theorem savesAt_begins (hreach : Reachable manager) (hbefore : manager.session.phase ≠ .shutdown)
    (hafter : (take first manager).manager.session.phase = .shutdown)
    (hkey : key ∈ (take first manager).manager.session.clients.keys) :
    ∃ queue, manager.saves? key = some queue ∧ first.2.isDone key = false
      ∧ SavesAt (queue.request .global).2.toList 0 key (take first manager).manager := by
  obtain ⟨hinv, hbooks, w', h⟩ := hreach.handled first
  have hcalm := hinv.isCalm hbefore
  obtain ⟨next, hnext⟩ := Option.isSome_iff_exists.mp ((h.registered key).mpr hkey)
  have hsaves := h.saves key next hnext
  have hwf := wellFormed_reachable (hreach.tail first) key next hnext
  rw [h.session] at hafter hkey
  cases hasked : manager.asked? first.2 with
  | none =>
      rw [sessionTurn_of_none hasked] at hafter
      exact absurd hafter hbefore
  | some operation =>
      have hturn := sessionTurn_of_some (w := w') hasked
      rw [hturn] at hafter hkey hsaves
      cases Session.calmStep w' hcalm operation with
      | stays hstays _ _ => exact absurd hafter hstays.phase
      | begins hbegins hperform =>
          rw [hperform] at hkey hsaves
          rcases Session.beginShutdown_cases hbefore with ⟨hnobody, heq⟩ | ⟨_, heq⟩
          · rw [heq] at hkey
            exact absurd (hnobody ▸ hkey) List.not_mem_nil
          · rw [heq] at hkey hsaves
            obtain ⟨queue, hqueue⟩ := hbooks.getD hkey
            obtain ⟨hown, hdone⟩ := own_of_begins hasked
              (hbegins.imp_right fun ⟨reporter, _, hreporter⟩ => ⟨reporter, hreporter⟩) key queue
            -- the call to this client is the only one among the effects that is for it
            have hrequest : next = (queue.request .global).2 := by
              rw [hsaves, hqueue, Option.getD_some, hown]
              exact SaveQueue.heardAll_callEach key queue
                manager.session.clients.keys_nodup hkey (.saveYourself false)
            refine ⟨queue, hqueue, hdone, ⟨⟨next, [], hnext, hwf, ?_, by simp⟩, ?_⟩⟩
            · rw [hrequest, List.drop_zero, List.append_nil]
            · intro _ _
              rw [h.session, hturn, hperform, heq]
              exact .inl hkey

theorem no_die_at_begin (hreach : Reachable manager) (hbefore : manager.session.phase ≠ .shutdown)
    (hafter : (take first manager).manager.session.phase = .shutdown) :
    .sent key .die ∉ (take first manager).actions := by
  obtain ⟨hinv, _, w', h⟩ := hreach.handled first
  intro hsent
  have hdie := called_of_sent_die h hsent
  rw [h.session] at hafter
  unfold sessionTurn at hafter hdie
  split at hafter
  · rename_i operation hasked
    simp only [hasked] at hdie
    cases Session.calmStep w' (hinv.isCalm hbefore) operation with
    | stays hstays _ _ => exact absurd hafter hstays.phase
    | begins _ hperform =>
        rw [hperform] at hdie
        rcases Session.beginShutdown_cases hbefore with ⟨_, heq⟩ | ⟨_, heq⟩
        · rw [heq] at hdie
          exact absurd hdie (by simp)
        · rw [heq] at hdie
          exact absurd hdie (by simp [Session.mem_callEach])
  · exact absurd hafter hbefore

/-! ## All other events -/

/-- Nobody comes in the middle of a logout. -/
theorem clients_of_lasts (hreach : Reachable manager) (hlasts : Lasts manager steps)
    (hkey : key ∈ (handleEach manager steps).manager.session.clients.keys) :
    key ∈ manager.session.clients.keys := by
  induction steps generalizing manager with
  | nil => exact hkey
  | cons step steps ih =>
      have hnext := ih (hreach.tail step) hlasts.2 hkey
      obtain ⟨hinv, _, w', h⟩ := hreach.handled step
      rw [h.session] at hnext
      unfold sessionTurn at hnext
      split at hnext
      · rcases (Session.clients_perform hinv key).mp hnext with ⟨hold, _⟩ | ⟨_, _, _, _, hok⟩
        · exact hold
        · simp [Session.register, hlasts.1] at hok
      · exact hnext

/-- What is known of a client is known, report by report, as long as the logout lasts. -/
theorem savesAt_run (hreach : Reachable manager) (hlasts : Lasts manager steps)
    (hend : (handleEach manager steps).manager.session.phase = .shutdown)
    (hkey : key ∈ (handleEach manager steps).manager.session.clients.keys)
    (h : SavesAt base reports key manager) :
    SavesAt base (reports + steps.countP (·.2.isDone key)) key (handleEach manager steps).manager := by
  induction steps generalizing manager reports with
  | nil => exact h
  | cons step steps ih =>
      obtain ⟨hinv, _, w', hhandled⟩ := hreach.handled step
      have hnext := savesAt_handled hinv hlasts.1 hhandled (hlasts.2.phase hend)
        (clients_of_lasts (hreach.tail step) hlasts.2 hkey) h
      have hrest := ih (hreach.tail step) hlasts.2 hend hkey hnext
      rw [List.countP_cons, Nat.add_comm (List.countP _ steps), ← Nat.add_assoc]
      exact hrest

/-! ## The last event -/

/-- A logout that an event completes without cutting it short leaves nobody who is waited for,
and those who are told to die are there. -/
theorem completed_by_event (hreach : Reachable manager) (hphase : manager.session.phase = .shutdown)
    (hbefore : manager.session.finished = false)
    (hafter : (take last manager).manager.session.finished = true) (hsignal : last.2 ≠ .signal) :
    (take last manager).manager.session.phase = .shutdown
      ∧ (∀ key, ¬Session.Owes (take last manager).manager.session key)
      ∧ ∀ key, .sent key .die ∈ (take last manager).actions →
          key ∈ (take last manager).manager.session.clients.keys := by
  obtain ⟨hinv, _, w', h⟩ := hreach.handled last
  have hdie : ∀ key, .sent key .die ∈ (take last manager).actions →
      .called key .die ∈ (sessionTurn w' manager last.2).effects := fun _ => called_of_sent_die h
  rw [h.session] at hafter ⊢
  cases hasked : manager.asked? last.2 with
  | none =>
      rw [sessionTurn_of_none hasked, hbefore] at hafter
      exact absurd hafter (by simp)
  | some operation =>
      rw [sessionTurn_of_some hasked] at hafter hdie ⊢
      have hforce : operation ≠ .forceShutdown := by
        intro heq
        subst heq
        exact hsignal (asked_of_some hasked).signal_of_force
      have hdone := Session.completed_of_finished hinv hphase hbefore hafter
      obtain ⟨hcompletes, hnobody⟩ := Session.completes_perform hinv hphase hdone
      refine ⟨hcompletes.phase, hnobody hforce, ?_⟩
      intro key hkey
      have hcount := List.count_pos_iff.mpr (hdie key hkey)
      by_contra hgone
      rw [hcompletes.calls key, if_neg hgone] at hcount
      exact absurd hcount (Nat.lt_irrefl 0)

/-! ## What has not been answered -/

/-- A client was asked in a round for a save that was not of its own state alone, and has not
reported since. -/
def Unanswered (manager : Manager) (round : List Step) (key : ClientKey) : Prop :=
  ∃ earlier step later type, round = earlier ++ step :: later ∧ type ≠ .local
    ∧ .sent key (Participant.saveMessage type) ∈
        (take step (handleEach manager earlier).manager).actions
    ∧ ∀ next ∈ later, next.2.isDone key = false

theorem unanswered_snoc : Unanswered manager (steps ++ [last]) key ↔
    (Unanswered manager steps key ∧ last.2.isDone key = false)
      ∨ ∃ type, type ≠ .local ∧ .sent key (Participant.saveMessage type) ∈
          (take last (handleEach manager steps).manager).actions := by
  constructor
  · intro h
    obtain ⟨earlier, step, later, type, heq, htype, hsent, hlater⟩ := h
    rcases List.eq_nil_or_concat' later with rfl | ⟨later, next, rfl⟩
    · obtain ⟨rfl, hlast⟩ := List.append_inj' heq rfl
      obtain rfl := List.singleton_inj.mp hlast
      exact .inr ⟨type, htype, hsent⟩
    · rw [← List.cons_append, ← List.append_assoc] at heq
      obtain ⟨rfl, hlast⟩ := List.append_inj' heq rfl
      obtain rfl := List.singleton_inj.mp hlast
      refine .inl ⟨⟨earlier, step, later, type, rfl, htype, hsent, ?_⟩, hlater last (by simp)⟩
      exact fun next hnext => hlater next (List.mem_append_left _ hnext)
  · intro h
    rcases h with ⟨⟨earlier, step, later, type, rfl, htype, hsent, hlater⟩, hdone⟩ | ⟨type, htype, hsent⟩
    · refine ⟨earlier, step, later ++ [last], type, by simp, htype, hsent, ?_⟩
      intro next hnext
      rcases List.mem_append.mp hnext with hnext | hnext
      · exact hlater next hnext
      · rw [List.mem_singleton.mp hnext]
        exact hdone
    · exact ⟨steps, last, [], type, rfl, htype, hsent, by simp⟩

/-- A client's queue, other than after a report, begins as it did or with a local save. -/
theorem current_own (hwf : queue.WellFormed) {event : ManagerEvent}
    (hdone : event.isDone key = false) :
    (∃ type, type ≠ .local ∧ (event.own key queue).current = some type) ↔
      ∃ type, type ≠ .local ∧ queue.current = some type := by
  obtain ⟨hwf', ⟨hdone', _⟩ | ⟨_, locals, hlist, hlocals⟩⟩ := hwf.own key event
  · exact absurd (hdone.symm.trans hdone') (by simp)
  · rw [← hwf'.head?, ← hwf.head?, hlist]
    cases hold : queue.toList with
    | cons type rest => simp
    | nil =>
        cases locals with
        | nil => simp
        | cons type locals => simp [hlocals type List.mem_cons_self]

/-- Once a client has reported in a round, what it has not answered is what it is at. -/
theorem unanswered_iff_current (hreach : Reachable manager) (hround : IsRound manager (first :: steps))
    (hend : (handleEach manager (first :: steps)).manager.session.phase = .shutdown)
    (hkey : key ∈ (handleEach manager (first :: steps)).manager.session.clients.keys)
    (hreported : 0 < steps.countP (·.2.isDone key))
    (hqueue : (handleEach manager (first :: steps)).manager.saves? key = some queue) :
    Unanswered manager (first :: steps) key ↔
      ∃ type, type ≠ .local ∧ queue.current = some type := by
  induction steps using List.reverseRecOn generalizing queue with
  | nil => exact absurd hreported (by simp)
  | append_singleton steps last ih =>
      obtain ⟨hcalm, hphase, hlasts⟩ := hround
      obtain ⟨hbefore, hlast⟩ := lasts_append.mp hlasts
      have hreach' : Reachable (handleEach manager (first :: steps)).manager :=
        hreach.handleEach (first :: steps)
      have hsnoc := handleEach_snoc_manager manager (first :: steps) last
      rw [List.cons_append] at hsnoc
      rw [hsnoc] at hkey hqueue
      obtain ⟨hinv, hbooks, w', h⟩ := hreach'.handled last
      have hthere : key ∈ (handleEach manager (first :: steps)).manager.session.clients.keys :=
        clients_of_lasts hreach' hlast hkey
      obtain ⟨old, hold⟩ := hbooks.getD hthere
      obtain ⟨hnext, hsent⟩ := own_handled hinv hlast.1 h hkey hold
      obtain rfl := Option.some.inj (hnext.symm.trans hqueue)
      have hwf := wellFormed_reachable hreach' key old hold
      have hsplit : first :: (steps ++ [last]) = (first :: steps) ++ [last] := rfl
      rw [hsplit, unanswered_snoc]
      -- a report settles both sides whatever came before it, and any other event leaves them
      by_cases hdone : last.2.isDone key = true
      · -- a report brings on the save that has waited, and the client is asked for it
        have hcurrent : (last.2.own key old).current = old.next := by
          rw [SaveQueue.own_of_isDone hdone]
          rfl
        rw [hcurrent, hdone]
        simp only [Bool.true_eq_false, and_false, false_or]
        refine exists_congr fun type => and_congr_right fun htype => ?_
        rw [hsent type htype]
        exact and_iff_right hdone
      · have hdone' : last.2.isDone key = false := by simpa using hdone
        have hnothing : ¬∃ type, type ≠ .local ∧ .sent key (Participant.saveMessage type) ∈
            (take last (handleEach manager (first :: steps)).manager).actions := by
          intro h
          obtain ⟨type, htype, hmem⟩ := h
          exact hdone ((hsent type htype).mp hmem).1
        have hcount : 0 < steps.countP (·.2.isDone key) := by
          simpa [List.countP_append, hdone'] using hreported
        have hrest := ih ⟨hcalm, hphase, hbefore⟩ hlast.1 hthere hcount hold
        rw [current_own hwf hdone', ← hrest]
        simp only [hdone', hnothing, and_true, or_false]

/-! ## The whole round -/

/-- Of two saves at most, one that is not local is left over when something else than local
saves was reported: both are no local ones, and one report has come in. -/
theorem left_over_iff (hlength : base.length ≤ 2)
    (hreported : ¬(reports ≤ base.length ∧ ∀ type ∈ base.take reports, type = .local)) :
    (∃ type ∈ base.drop reports, type ≠ .local) ↔
      base.length = 2 ∧ (∀ type ∈ base, type ≠ .local) ∧ reports = 1 := by
  constructor
  · intro h
    obtain ⟨left, hleft, hne⟩ := h
    have hlt : reports < base.length := by
      by_contra hge
      rw [List.drop_eq_nil_of_le (by omega)] at hleft
      exact absurd hleft List.not_mem_nil
    have hpos : reports ≠ 0 := by
      intro hzero
      subst hzero
      exact hreported ⟨Nat.zero_le _, by simp⟩
    have hone : reports = 1 := by omega
    subst hone
    have htwo : base.length = 2 := by omega
    obtain ⟨early, late, rfl⟩ := List.length_eq_two.mp htwo
    obtain rfl := List.mem_singleton.mp hleft
    have hearly : early ≠ .local := by
      intro heq
      exact hreported ⟨Nat.le_of_lt hlt, by simp [heq]⟩
    exact ⟨htwo, by simp [hearly, hne], rfl⟩
  · intro h
    obtain ⟨htwo, hall, rfl⟩ := h
    obtain ⟨early, late, rfl⟩ := List.length_eq_two.mp htwo
    exact ⟨late, by simp, hall late (by simp)⟩

/-- A client is still at the save of an earlier logout, and no save of its own state waits. -/
def Lingers (queue : SaveQueue) : Prop :=
  queue.current ≠ none ∧ queue.current ≠ some .local ∧ queue.next ≠ some .local

/-- Such a client has two saves to do for logouts once it is asked again, and no other has. -/
theorem lingers_iff : Lingers queue ↔
    (queue.request .global).2.toList.length = 2
      ∧ ∀ type ∈ (queue.request .global).2.toList, type ≠ .local := by
  obtain ⟨current, next⟩ := queue
  cases next with
  | none =>
      cases current with
      | none => simp [Lingers, SaveQueue.request, SaveQueue.toList]
      | some type => simp [Lingers, SaveQueue.request, SaveQueue.toList]
  | some waiting =>
      cases current with
      | none => simp [Lingers, SaveQueue.request, SaveQueue.toList]
      | some type => simp [Lingers, SaveQueue.request, SaveQueue.toList]

/-- What has not been answered is the save in flight, if at most one of the saves that the round
began with is left. -/
theorem unsaved_iff_current {kept locals : List SaveType} (hwf : queue.WellFormed)
    (hlist : queue.toList = kept ++ locals) (hkept : kept.length ≤ 1)
    (hlocals : ∀ type ∈ locals, type = .local) :
    queue.Unsaved ↔ ∃ type, type ≠ .local ∧ queue.current = some type := by
  rw [SaveQueue.Unsaved, ← hwf.head?, hlist]
  constructor
  · intro h
    obtain ⟨type, htype, hne⟩ := h
    rcases List.mem_append.mp htype with htype | htype
    · obtain ⟨only, rfl⟩ := List.length_eq_one_iff.mp
        (Nat.le_antisymm hkept (List.length_pos_of_mem htype))
      obtain rfl := List.mem_singleton.mp htype
      exact ⟨type, hne, rfl⟩
    · exact absurd (hlocals type htype) hne
  · intro h
    obtain ⟨type, hne, hhead⟩ := h
    exact ⟨type, List.mem_of_head? hhead, hne⟩

/-- The last event of a round completes the logout, and does not cut it short. -/
structure Completes (manager : Manager) (before : List Step) (last : Step) : Prop where
  round : IsRound manager (before ++ [last])
  pending : (handleEach manager before).manager.session.finished = false
  finished : (handleEach manager (before ++ [last])).manager.session.finished = true
  unforced : last.2 ≠ .signal

/-- What is known at the end of a round of a client that is told to die. -/
structure Ends (begun left : SaveQueue) (reports : Nat) : Prop where
  wellFormed : left.WellFormed
  /-- Of the saves that the round began with those are left that were not reported. -/
  queue : ∃ locals, left.toList = (begun.request .global).2.toList.drop reports ++ locals
    ∧ ∀ type ∈ locals, type = .local
  /-- Something else than saves of the client's own state was reported. -/
  reported : ¬(reports ≤ (begun.request .global).2.toList.length
    ∧ ∀ type ∈ (begun.request .global).2.toList.take reports, type = .local)

theorem Ends.pos {begun left : SaveQueue} (h : Ends begun left reports) : 0 < reports := by
  refine Nat.pos_of_ne_zero fun hzero => h.reported ?_
  subst hzero
  exact ⟨Nat.zero_le _, by simp⟩

theorem Ends.unsaved_iff {begun left : SaveQueue} (h : Ends begun left reports) :
    left.Unsaved ↔ Lingers begun ∧ reports = 1 := by
  obtain ⟨locals, hlist, hlocals⟩ := h.queue
  have hlength := SaveQueue.length_toList_le (begun.request .global).2
  have hleft : left.Unsaved ↔
      ∃ type ∈ (begun.request .global).2.toList.drop reports, type ≠ .local := by
    rw [SaveQueue.Unsaved, hlist]
    constructor
    · intro h
      obtain ⟨type, htype, hne⟩ := h
      rcases List.mem_append.mp htype with htype | htype
      · exact ⟨type, htype, hne⟩
      · exact absurd (hlocals type htype) hne
    · intro h
      obtain ⟨type, htype, hne⟩ := h
      exact ⟨type, List.mem_append_left _ htype, hne⟩
  rw [hleft, left_over_iff hlength h.reported, lingers_iff, and_assoc]

theorem Ends.unsaved_iff_current {begun left : SaveQueue} (h : Ends begun left reports) :
    left.Unsaved ↔ ∃ type, type ≠ .local ∧ left.current = some type := by
  obtain ⟨locals, hlist, hlocals⟩ := h.queue
  have hlength := SaveQueue.length_toList_le (begun.request .global).2
  -- something was reported, so of two saves one is left at most
  have hpos := h.pos
  refine Manager.unsaved_iff_current h.wellFormed hlist ?_ hlocals
  rw [List.length_drop]
  omega

/-- A client that is told to die when a logout is completed has come through the whole round. -/
theorem ends_of_die (hreach : Reachable manager) (h : Completes manager before last)
    (hdie : .sent key .die ∈ (take last (handleEach manager before).manager).actions) :
    ∃ begun left, manager.saves? key = some begun
      ∧ (handleEach manager (before ++ [last])).manager.saves? key = some left
      ∧ Ends begun left ((before ++ [last]).countP (·.2.isDone key))
      ∧ (Unanswered manager (before ++ [last]) key ↔
          ∃ type, type ≠ .local ∧ left.current = some type) := by
  obtain ⟨hround, hbefore, hafter, hsignal⟩ := h
  cases before with
  | nil =>
      -- a round that is over with its first event had nobody in it
      obtain ⟨hcalm, hphase, _⟩ := hround
      exact absurd hdie (no_die_at_begin hreach hcalm hphase)
  | cons first before =>
      obtain ⟨hcalm, hphase, hrest⟩ := id hround
      have hlasts : Lasts (take first manager).manager (before ++ [last]) := hrest
      have hfirst := hreach.tail first
      have hlast := (lasts_append.mp hlasts).2
      have hsnoc := handleEach_snoc_manager manager (first :: before) last
      rw [hsnoc] at hafter
      obtain ⟨hend, hnobody, hthere⟩ :=
        completed_by_event (hreach.handleEach (first :: before)) hlast.1 hbefore hafter hsignal
      rw [← hsnoc] at hend hnobody hthere
      have hkey := hthere key hdie
      obtain ⟨begun, hbegun, hdone, hstart⟩ :=
        savesAt_begins hreach hcalm hphase (clients_of_lasts hfirst hlasts hkey)
      have hfinal := savesAt_run hfirst hlasts hend hkey hstart
      obtain ⟨left, locals, hleft, hwf, hlist, hlocals⟩ := hfinal.queue
      -- what begins a logout is no report
      have hcount : (first :: before ++ [last]).countP (·.2.isDone key) =
          0 + (before ++ [last]).countP (·.2.isDone key) := by
        rw [Nat.zero_add, List.cons_append, List.countP_cons_of_neg (by simp [hdone])]
      have hends : Ends begun left ((first :: before ++ [last]).countP (·.2.isDone key)) := by
        rw [hcount]
        exact ⟨hwf, ⟨locals, hlist, hlocals⟩, fun h => hnobody key (hfinal.owes h.1 h.2)⟩
      have hpos := hends.pos
      rw [hcount, Nat.zero_add] at hpos
      exact ⟨begun, left, hbegun, hleft, hends,
        unanswered_iff_current hreach hround hend hkey hpos hleft⟩

/-- **Who is told to die in the middle of a save.** When a logout is completed, and was not cut
short, a client that is told to die has a save for it in flight or waiting exactly if it was
still at the save of an earlier logout when the round began, with no save of its own state
waiting, and has reported one save since. These are also the clients that have not answered
all that they were asked for in the round. -/
theorem die_mid_save_iff (hreach : Reachable manager) (h : Completes manager before last)
    (hdie : .sent key .die ∈ (take last (handleEach manager before).manager).actions) :
    ∃ begun left, manager.saves? key = some begun
      ∧ (handleEach manager (before ++ [last])).manager.saves? key = some left
      ∧ (left.Unsaved ↔ Lingers begun ∧ (before ++ [last]).countP (·.2.isDone key) = 1)
      ∧ (Unanswered manager (before ++ [last]) key ↔
          Lingers begun ∧ (before ++ [last]).countP (·.2.isDone key) = 1) := by
  obtain ⟨begun, left, hbegun, hleft, hends, hunanswered⟩ := ends_of_die hreach h hdie
  refine ⟨begun, left, hbegun, hleft, hends.unsaved_iff, ?_⟩
  rw [hunanswered, ← hends.unsaved_iff_current]
  exact hends.unsaved_iff

/-- A manager with one client. -/
def lone : Manager :=
  (handleEach (start Session.still {
      session := { Session.new [] (.ofSeeds 0 0 0) with name := none, phaseTimeout := 10000 }
      handshakeTimeout := 5000 }).manager
    [(Session.still, .accepted), (Session.still, .message 1 (.registerClient (some "a")))]).manager

theorem lone_reachable : Reachable lone :=
  (Reachable.init Session.still [] (.ofSeeds 0 0 0) none 10000 5000).handleEach _

/-- The client says that its save is done. -/
def saved : Step := (Session.still, .message 1 (.saveYourselfDone true))

def logout : Step := (Session.still, .control .logout)

/-- A client that answers the first request of the first logout has nothing left to save. -/
theorem die_mid_save_iff_lone :
    .sent 1 .die ∈ (take saved (handleEach lone [logout]).manager).actions
    ∧ ∃ begun left, lone.saves? 1 = some begun
      ∧ (handleEach lone ([logout] ++ [saved])).manager.saves? 1 = some left
      ∧ (left.Unsaved ↔ Lingers begun ∧ ([logout] ++ [saved]).countP (·.2.isDone 1) = 1)
      ∧ (Unanswered lone ([logout] ++ [saved]) 1 ↔
          Lingers begun ∧ ([logout] ++ [saved]).countP (·.2.isDone 1) = 1)
      ∧ ¬Lingers begun := by
  have hcompletes : Completes lone [logout] saved :=
    ⟨⟨by decide, rfl, rfl, trivial⟩, rfl, rfl, by simp [saved]⟩
  have hactions : (take saved (handleEach lone [logout]).manager).actions = [.sent 1 .die] := rfl
  have hdie : .sent 1 .die ∈ (take saved (handleEach lone [logout]).manager).actions := by
    rw [hactions]
    exact List.mem_cons_self
  obtain ⟨begun, left, hbegun, hleft, hunsaved, hunanswered⟩ :=
    die_mid_save_iff lone_reachable hcompletes hdie
  obtain rfl : .empty = begun := Option.some.inj hbegun
  exact ⟨hdie, .empty, left, rfl, hleft, hunsaved, hunanswered, fun h => h.1 rfl⟩

/-- A client whose logout was cancelled answers the request of that logout in the next one, and
is told to die in the middle of the save that the next one asked for. -/
theorem die_mid_save : ¬∀ (manager : Manager) (before : List Step) (last : Step) (key : ClientKey)
    (left : SaveQueue), Reachable manager → Completes manager before last →
      .sent key .die ∈ (take last (handleEach manager before).manager).actions →
      (handleEach manager (before ++ [last])).manager.saves? key = some left →
      ¬left.Unsaved := by
  intro h
  let cancelled := (handleEach lone [logout, (Session.still, .control .cancelLogout)]).manager
  have hreach : Reachable cancelled := lone_reachable.handleEach _
  have hcompletes : Completes cancelled [logout] saved :=
    ⟨⟨by decide, rfl, rfl, trivial⟩, rfl, rfl, by simp [saved]⟩
  have hactions : (take saved (handleEach cancelled [logout]).manager).actions =
      [.sent 1 (Participant.saveMessage .global), .sent 1 .die] := rfl
  refine h cancelled [logout] saved 1 { current := some .global } hreach hcompletes ?_ rfl
    ⟨.global, by simp [SaveQueue.toList], by simp⟩
  rw [hactions]
  exact List.mem_cons_of_mem _ List.mem_cons_self

end Xsmp.Manager
