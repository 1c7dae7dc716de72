import Xsmp.Proofs.Session.Barrier

/-!
# A logout from its beginning to its end

A round is the part of a run from the step that begins a logout to the one that
cancels it. Whatever comes in between, late, twice or out of order, a round asks
each client once, asks again once those that put off their save and still owe
it, and is completed at most once, when everybody has answered or is gone.

Two things tie the state to what has happened. Who owes what is a matter of the
reports since the round began (`owes_run`, `mem_deferred_run`). And each of the
two calls that must not be repeated raises a flag that stays up as long as the
logout lasts (`IsFlag`).
-/

namespace Xsmp.Session

variable {session : Session} {first step : Step} {before after rest steps : List Step}
  {key : ClientKey}

/-! ## Runs within a logout -/

/-- Every step finds a logout going on. The last of them may end it. -/
def Lasts : Session → List Step → Prop
  | _, [] => True
  | session, step :: steps => session.phase = .shutdown ∧ Lasts (take step session).session steps

/-- The first step begins a logout, and all others find it going on. -/
def IsRound (session : Session) : List Step → Prop
  | [] => False
  | first :: rest => session.phase ≠ .shutdown ∧ (take first session).session.phase = .shutdown
      ∧ Lasts (take first session).session rest

theorem lasts_append : Lasts session (before ++ after) ↔
    Lasts session before ∧ Lasts (run session before).session after := by
  induction before generalizing session with
  | nil => simp [Lasts]
  | cons step before ih =>
      simp only [List.cons_append, Lasts, run_cons, Turn.andThen_session, ih, and_assoc]

/-- A logout that goes on in the end was going on in the beginning. -/
theorem Lasts.phase (h : Lasts session steps)
    (hend : (run session steps).session.phase = .shutdown) : session.phase = .shutdown := by
  cases steps with
  | nil => exact hend
  | cons step steps => exact h.1

theorem logoutInv_run (hinv : LogoutInv session) (steps : List Step) :
    LogoutInv (run session steps).session := by
  induction steps generalizing session with
  | nil => exact hinv
  | cons step steps ih => exact ih (logoutInv_step hinv step)

/-! ## What has happened -/

/-- A client has reported that its save is done, or has gone. -/
def Discharged (key : ClientKey) (steps : List Step) : Prop :=
  ∃ step ∈ steps, step.2.discharges key = true

/-- A client has put off a save that it owed, and has neither reported nor gone since. -/
def PutOff (session : Session) (steps : List Step) (key : ClientKey) : Prop :=
  ∃ earlier w later, steps = earlier ++ (w, .report key .requestPhase2) :: later
    ∧ key ∈ (run session earlier).session.saving ∧ ¬Discharged key later

theorem not_discharged_cons :
    ¬Discharged key (step :: steps) ↔ step.2.discharges key = false ∧ ¬Discharged key steps := by
  simp [Discharged]

theorem putOff_cons : PutOff session (step :: steps) key ↔
    (key ∈ session.saving ∧ step.2 = .report key .requestPhase2 ∧ ¬Discharged key steps)
      ∨ PutOff (take step session).session steps key := by
  constructor
  · intro hcase
    obtain ⟨earlier, w, later, heq, hsaving, hlater⟩ := hcase
    cases earlier with
    | nil =>
        obtain ⟨rfl, rfl⟩ := List.cons.inj heq
        exact .inl ⟨hsaving, rfl, hlater⟩
    | cons head earlier =>
        obtain ⟨rfl, rfl⟩ := List.cons.inj heq
        exact .inr ⟨earlier, w, later, rfl, hsaving, hlater⟩
  · intro hcase
    rcases hcase with ⟨hsaving, heq, hlater⟩ | ⟨earlier, w, later, rfl, hsaving, hlater⟩
    · refine ⟨[], step.1, steps, ?_, hsaving, hlater⟩
      rw [← heq]
      rfl
    · exact ⟨step :: earlier, w, later, rfl, hsaving, hlater⟩

/-- A client owes what it owed until it has reported or gone. -/
theorem owes_run (hinv : LogoutInv session) (hlasts : Lasts session steps)
    (hend : (run session steps).session.phase = .shutdown) (key : ClientKey) :
    Owes (run session steps).session key ↔ Owes session key ∧ ¬Discharged key steps := by
  induction steps generalizing session with
  | nil => simp [Discharged]
  | cons step steps ih =>
      have hnext := logoutInv_step hinv step
      have hstep := owes_perform hinv hlasts.1 (hlasts.2.phase hend) key
      have hrest := ih hnext hlasts.2 hend
      rw [not_discharged_cons, ← and_assoc, ← hstep]
      exact hrest

/-- The deferred clients are those that have put off their save and still owe it. -/
theorem mem_deferred_run (hinv : LogoutInv session) (hlasts : Lasts session steps)
    (hend : (run session steps).session.phase = .shutdown) (key : ClientKey) :
    key ∈ (run session steps).session.deferred ↔
      (key ∈ session.deferred ∧ ¬Discharged key steps) ∨ PutOff session steps key := by
  induction steps generalizing session with
  | nil => simp [Discharged, PutOff]
  | cons step steps ih =>
      have hstep := mem_deferred_perform hinv hlasts.1 (hlasts.2.phase hend) key
      have hrest := ih (logoutInv_step hinv step) hlasts.2 hend
      rw [not_discharged_cons, putOff_cons]
      refine hrest.trans ?_
      rw [hstep]
      tauto

/-! ## Things done once -/

/-- What raises a flag that stays up as long as the logout lasts. -/
structure IsFlag (up : Session → Bool) (raises : Effect → Prop) : Prop where
  raise : ∀ {w operation session effect}, LogoutInv session → session.phase = .shutdown →
    effect ∈ (perform w operation session).effects → raises effect →
      up session = false ∧ up (perform w operation session).session = true
  keep : ∀ {w operation session}, LogoutInv session → session.phase = .shutdown →
    (perform w operation session).session.phase = .shutdown → up session = true →
      up (perform w operation session).session = true

namespace IsFlag

variable {up : Session → Bool} {raises : Effect → Prop} {effect : Effect}

/-- With the flag up, it is not raised again. -/
theorem silent (h : IsFlag up raises) (hinv : LogoutInv session) (hlasts : Lasts session steps)
    (hup : up session = true) : ∀ effect ∈ (run session steps).effects, ¬raises effect := by
  induction steps generalizing session with
  | nil => simp
  | cons step steps ih =>
      intro effect he hraises
      rcases List.mem_append.mp he with he | he
      · have := (h.raise hinv hlasts.1 he hraises).1
        exact absurd (hup.symm.trans this) (by simp)
      · cases steps with
        | nil => exact absurd he (by simp)
        | cons next steps =>
            -- there is a next step, and it finds the logout going on
            have hkeep := h.keep hinv hlasts.1 hlasts.2.1 hup
            exact ih (logoutInv_step hinv step) hlasts.2 hkeep effect he hraises

/-- What raises the flag has not been done before. -/
theorem fresh (h : IsFlag up raises) (hinv : LogoutInv session)
    (hlasts : Lasts session (before ++ step :: after))
    (he : effect ∈ (take step (run session before).session).effects) (hraises : raises effect) :
    ∀ effect ∈ (run session before).effects, ¬raises effect := by
  induction before generalizing session with
  | nil => simp
  | cons head before ih =>
      have hnext := logoutInv_step hinv head
      intro earlier hearlier hraised
      rcases List.mem_append.mp hearlier with hearlier | hearlier
      · -- the flag was up from the first step on, so `step` cannot have raised it
        have hup := (h.raise hinv hlasts.1 hearlier hraised).2
        have hmem : effect ∈ (run (take head session).session (before ++ step :: after)).effects := by
          rw [run_append_effects]
          exact List.mem_append_right _ (List.mem_append_left _ he)
        exact h.silent hnext hlasts.2 hup effect hmem hraises
      · exact ih hnext hlasts.2 he earlier hearlier hraised

/-- In a round whose first step raises the flag when it does what others would, the flag is
raised by one step only. -/
theorem once (h : IsFlag up raises) (hinv : LogoutInv session)
    (hfirst : ∀ effect ∈ (take first session).effects, raises effect →
      up (take first session).session = true)
    (hlasts : Lasts (take first session).session rest)
    (hsplit : first :: rest = before ++ step :: after)
    (he : effect ∈ (take step (run session before).session).effects) (hraises : raises effect) :
    (∀ effect ∈ (run session before).effects, ¬raises effect) ∧
      ∀ effect ∈ (run (take step (run session before).session).session after).effects,
        ¬raises effect := by
  have hnext := logoutInv_step hinv first
  cases before with
  | nil =>
      obtain ⟨rfl, rfl⟩ := List.cons.inj hsplit
      exact ⟨by simp, h.silent hnext hlasts (hfirst effect he hraises)⟩
  | cons head before =>
      obtain ⟨rfl, rfl⟩ := List.cons.inj hsplit
      have hat := logoutInv_run hnext before
      have hlasts' := (lasts_append.mp hlasts).2
      constructor
      · intro earlier hearlier hraised
        rcases List.mem_append.mp hearlier with hearlier | hearlier
        · have hmem : effect ∈
              (run (take first session).session (before ++ step :: after)).effects := by
            rw [run_append_effects]
            exact List.mem_append_right _ (List.mem_append_left _ he)
          exact h.silent hnext hlasts (hfirst earlier hearlier hraised) effect hmem hraises
        · exact h.fresh hnext hlasts he hraises earlier hearlier hraised
      · exact h.silent (logoutInv_step hat step) hlasts'.2 (h.raise hat hlasts'.1 he hraises).2

end IsFlag

theorem isFlag_phase2Started :
    IsFlag Session.phase2Started fun effect => ∃ key, effect = .called key .saveYourselfPhase2 where
  raise := by
    intro w operation session effect hinv hphase he hcase
    obtain ⟨key, rfl⟩ := hcase
    have h := asksAgain_perform hinv hphase he
    exact ⟨h.before, h.after⟩
  keep := phase2Started_perform

theorem isFlag_finished : IsFlag Session.finished fun effect => effect = .shutdownCompleted where
  raise := by
    intro w operation session effect hinv hphase he heq
    subst heq
    have h := (completes_perform hinv hphase he).1
    exact ⟨h.before, h.after⟩
  keep := finished_perform

/-! ## The first step of a round -/

/-- What a step does that begins a logout. -/
structure Begins (session : Session) (turn : Turn) : Prop where
  phase : turn.session.phase = .shutdown
  clients : turn.session.clients = session.clients
  saving : turn.session.saving = session.clients.keys
  deferred : turn.session.deferred = []
  started : turn.session.phase2Started = false
  /-- Everybody is asked for one. -/
  asked : ∀ key full, turn.effects.count (.called key (.saveYourself full)) =
    if full = false ∧ key ∈ session.clients.keys then 1 else 0
  again : ∀ key, .called key .saveYourselfPhase2 ∉ turn.effects
  /-- A logout with nobody there is over at once. -/
  completes : .shutdownCompleted ∈ turn.effects →
    turn.session.finished = true ∧ session.clients.keys = []
      ∧ turn.effects.count .shutdownCompleted = 1 ∧ ∀ key, .called key .die ∉ turn.effects

theorem begins_beginShutdown (h : IsCalm session) : Begins session (beginShutdown session) := by
  rcases beginShutdown_cases h.phase with ⟨hkeys, heq⟩ | ⟨_, heq⟩
  · rw [heq]
    refine ⟨rfl, rfl, h.saving.trans hkeys.symm, h.deferred, rfl, ?_, by simp, ?_⟩
    · simp [hkeys]
    · exact fun _ => ⟨rfl, hkeys, by simp, by simp⟩
  · rw [heq]
    refine ⟨rfl, rfl, rfl, h.deferred, rfl, ?_, by simp [mem_callEach], by simp [mem_callEach]⟩
    intro key full
    rw [List.count_cons_of_ne (by simp)]
    cases full with
    | false =>
        rw [count_callEach session.clients.keys_nodup key]
        simp
    | true =>
        rw [List.count_eq_zero_of_not_mem (by simp [mem_callEach])]
        simp

theorem begins_take (hinv : LogoutInv session) (hbefore : session.phase ≠ .shutdown)
    (hafter : (take first session).session.phase = .shutdown) :
    Begins session (take first session) := by
  have hcalm := hinv.isCalm hbefore
  obtain ⟨w, operation⟩ := first
  cases calmStep w hcalm operation with
  | begins _ hturn =>
      show Begins session (perform w operation session)
      rw [hturn]
      exact begins_beginShutdown hcalm
  | stays hnext _ _ => exact absurd hafter hnext.phase

/-! ## The whole round -/

theorem not_asked_run (hinv : LogoutInv session) (hlasts : Lasts session steps)
    (key : ClientKey) (full : Bool) :
    Effect.called key (.saveYourself full) ∉ (run session steps).effects := by
  induction steps generalizing session with
  | nil => simp
  | cons step steps ih =>
      intro h
      rcases List.mem_append.mp h with h | h
      · exact not_asked_perform hinv hlasts.1 key full h
      · exact ih (logoutInv_step hinv step) hlasts.2 h

/-- Every call of a round is made once, to whom it is due. -/
structure ExactlyOnce (session : Session) (round : List Step) : Prop where
  /-- Whoever is registered when the round begins is asked to save, once and not in full, and
  nobody else is asked. -/
  asked : ∀ key full, (run session round).effects.count (.called key (.saveYourself full)) =
    if full = false ∧ key ∈ session.clients.keys then 1 else 0
  /-- If a step asks clients again, nobody owes a save who has not put it off; it asks those
  who have, each of them once; and no other step asks anybody again. -/
  again : ∀ before step after, round = before ++ step :: after →
    (∃ key, .called key .saveYourselfPhase2 ∈ (turnAt session before step).effects) →
      (turnAt session before step).session.saving = []
      ∧ (∀ key, .called key .saveYourselfPhase2 ∈ (turnAt session before step).effects ↔
          PutOff session (before ++ [step]) key)
      ∧ (∀ key, (turnAt session before step).effects.count (.called key .saveYourselfPhase2) ≤ 1)
      ∧ ∀ key, .called key .saveYourselfPhase2 ∉ (run session before).effects
          ∧ .called key .saveYourselfPhase2 ∉
              (run (turnAt session before step).session after).effects
  /-- If a step completes the logout, it says so once and tells those who are there to die,
  each of them once; and no other step completes it. -/
  completed : ∀ before step after, round = before ++ step :: after →
    .shutdownCompleted ∈ (turnAt session before step).effects →
      (turnAt session before step).effects.count .shutdownCompleted = 1
      ∧ (∀ key, (turnAt session before step).effects.count (.called key .die) =
          if key ∈ (turnAt session before step).session.clients.keys then 1 else 0)
      ∧ .shutdownCompleted ∉ (run session before).effects
      ∧ .shutdownCompleted ∉ (run (turnAt session before step).session after).effects
  /-- A logout that is not cut short is completed when everybody who was asked has reported
  or gone. -/
  answered : ∀ before step after, round = before ++ step :: after →
    .shutdownCompleted ∈ (turnAt session before step).effects →
      step.2 ≠ .forceShutdown → ∀ key ∈ session.clients.keys, Discharged key (before ++ [step])

theorem asked_round (hinv : LogoutInv session) (hbegins : Begins session (take first session))
    (hlasts : Lasts (take first session).session rest) (key : ClientKey) (full : Bool) :
    (run session (first :: rest)).effects.count (.called key (.saveYourself full)) =
      if full = false ∧ key ∈ session.clients.keys then 1 else 0 := by
  have hrest := not_asked_run (logoutInv_step hinv first) hlasts key full
  rw [run_cons, Turn.andThen_effects, List.count_append, List.count_eq_zero_of_not_mem hrest]
  exact hbegins.asked key full

/-- Before the first step of a round nobody can put off anything. -/
theorem putOff_round (h : session.saving = []) :
    PutOff session (first :: steps) key ↔ PutOff (take first session).session steps key := by
  rw [putOff_cons, h]
  simp

/-- A step of a round that asks clients again asks those who have put off their save. -/
theorem again_turnAt (hinv : LogoutInv session) (hdef : session.deferred = [])
    (hlasts : Lasts session (before ++ step :: after))
    (h : .called key .saveYourselfPhase2 ∈ (turnAt session before step).effects) :
    (turnAt session before step).session.saving = []
      ∧ (∀ k, .called k .saveYourselfPhase2 ∈ (turnAt session before step).effects ↔
          PutOff session (before ++ [step]) k)
      ∧ ∀ k, (turnAt session before step).effects.count (.called k .saveYourselfPhase2) ≤ 1 := by
  obtain ⟨hbefore, hstep⟩ := lasts_append.mp hlasts
  have hasks := asksAgain_perform (logoutInv_run hinv before) hstep.1 h
  have hsnoc : Lasts session (before ++ [step]) :=
    lasts_append.mpr ⟨hbefore, hstep.1, trivial⟩
  refine ⟨hasks.saving, ?_, ?_⟩
  · intro k
    have hrun := mem_deferred_run hinv hsnoc (by rw [run_snoc_session]; exact hasks.phase) k
    rw [run_snoc_session, hdef] at hrun
    rw [← List.count_pos_iff, hasks.calls k]
    by_cases hk : k ∈ (turnAt session before step).session.deferred
    · rw [if_pos hk]
      simpa using hrun.mp hk
    · rw [if_neg hk]
      simpa [hk] using hrun
  · intro k
    rw [hasks.calls k]
    split
    · exact Nat.le_refl 1
    · exact Nat.zero_le 1

/-- A step of a logout that completes it without cutting it short finds that everybody who
owed a save has discharged it. -/
theorem answered_turnAt (hinv : LogoutInv session)
    (hlasts : Lasts session (before ++ step :: after))
    (h : .shutdownCompleted ∈ (turnAt session before step).effects)
    (hforce : step.2 ≠ .forceShutdown) (howes : Owes session key) :
    Discharged key (before ++ [step]) := by
  obtain ⟨hbefore, hstep⟩ := lasts_append.mp hlasts
  obtain ⟨hcompletes, hnobody⟩ := completes_perform (logoutInv_run hinv before) hstep.1 h
  have hsnoc : Lasts session (before ++ [step]) :=
    lasts_append.mpr ⟨hbefore, hstep.1, trivial⟩
  have hrun := owes_run hinv hsnoc (by rw [run_snoc_session]; exact hcompletes.phase) key
  -- a client that has not discharged its save would still be waited for
  by_contra hnot
  have hstill := hrun.mpr ⟨howes, hnot⟩
  rw [run_snoc_session] at hstill
  exact hnobody hforce key hstill

/-- If a step of a round asks clients again, it is not the first, and no other one does. -/
theorem again_round (hinv : LogoutInv session) (hnone : session.saving = [])
    (hbegins : Begins session (take first session))
    (hlasts : Lasts (take first session).session rest)
    (hsplit : first :: rest = before ++ step :: after)
    (h : .called key .saveYourselfPhase2 ∈ (turnAt session before step).effects) :
    (turnAt session before step).session.saving = []
      ∧ (∀ k, .called k .saveYourselfPhase2 ∈ (turnAt session before step).effects ↔
          PutOff session (before ++ [step]) k)
      ∧ (∀ k, (turnAt session before step).effects.count (.called k .saveYourselfPhase2) ≤ 1)
      ∧ ∀ k, .called k .saveYourselfPhase2 ∉ (run session before).effects
          ∧ .called k .saveYourselfPhase2 ∉
              (run (turnAt session before step).session after).effects := by
  have hfirst : ∀ effect ∈ (take first session).effects,
      (∃ k, effect = .called k .saveYourselfPhase2) →
        (take first session).session.phase2Started = true := by
    intro effect he hagain
    obtain ⟨k, rfl⟩ := hagain
    exact absurd he (hbegins.again k)
  have honce := isFlag_phase2Started.once hinv hfirst hlasts hsplit h ⟨key, rfl⟩
  cases before with
  | nil =>
      obtain ⟨rfl, rfl⟩ := List.cons.inj hsplit
      exact absurd h (hbegins.again key)
  | cons head before =>
      obtain ⟨rfl, rfl⟩ := List.cons.inj hsplit
      have hnext := logoutInv_step hinv first
      obtain ⟨hsaving, hcalls, hcount⟩ := again_turnAt hnext hbegins.deferred hlasts h
      refine ⟨hsaving, ?_, hcount, ?_⟩
      · intro k
        rw [List.cons_append, putOff_round hnone]
        exact hcalls k
      · exact fun k => ⟨fun hk => honce.1 _ hk ⟨k, rfl⟩, fun hk => honce.2 _ hk ⟨k, rfl⟩⟩

/-- If a step of a round completes the logout, it tells everybody who is there, and no other
step completes it. -/
theorem completed_round (hinv : LogoutInv session)
    (hbegins : Begins session (take first session))
    (hlasts : Lasts (take first session).session rest)
    (hsplit : first :: rest = before ++ step :: after)
    (h : .shutdownCompleted ∈ (turnAt session before step).effects) :
    (turnAt session before step).effects.count .shutdownCompleted = 1
      ∧ (∀ k, (turnAt session before step).effects.count (.called k .die) =
          if k ∈ (turnAt session before step).session.clients.keys then 1 else 0)
      ∧ .shutdownCompleted ∉ (run session before).effects
      ∧ .shutdownCompleted ∉ (run (turnAt session before step).session after).effects := by
  have hfirst : ∀ effect ∈ (take first session).effects, effect = .shutdownCompleted →
      (take first session).session.finished = true := by
    intro effect he heq
    subst heq
    exact (hbegins.completes he).1
  have honce := isFlag_finished.once hinv hfirst hlasts hsplit h rfl
  have hrest : .shutdownCompleted ∉ (run session before).effects
      ∧ .shutdownCompleted ∉ (run (turnAt session before step).session after).effects :=
    ⟨fun he => honce.1 _ he rfl, fun he => honce.2 _ he rfl⟩
  cases before with
  | nil =>
      -- the round began with nobody there, so there is nobody to be told
      obtain ⟨rfl, rfl⟩ := List.cons.inj hsplit
      obtain ⟨_, hkeys, hcount, hdie⟩ := hbegins.completes h
      refine ⟨hcount, ?_, hrest⟩
      intro k
      show (take first session).effects.count _ =
        if k ∈ (take first session).session.clients.keys then 1 else 0
      rw [List.count_eq_zero_of_not_mem (hdie k), hbegins.clients, hkeys]
      rfl
  | cons head before =>
      obtain ⟨rfl, rfl⟩ := List.cons.inj hsplit
      have hat := logoutInv_run (logoutInv_step hinv first) before
      have hphase := (lasts_append.mp hlasts).2.1
      obtain ⟨hcompletes, _⟩ := completes_perform hat hphase h
      exact ⟨hcompletes.once, hcompletes.calls, hrest⟩

/-- Who was there when a round began has answered when it is completed. -/
theorem answered_round (hinv : LogoutInv session)
    (hbegins : Begins session (take first session))
    (hlasts : Lasts (take first session).session rest)
    (hsplit : first :: rest = before ++ step :: after)
    (h : .shutdownCompleted ∈ (turnAt session before step).effects)
    (hforce : step.2 ≠ .forceShutdown) (hkey : key ∈ session.clients.keys) :
    Discharged key (before ++ [step]) := by
  cases before with
  | nil =>
      obtain ⟨rfl, rfl⟩ := List.cons.inj hsplit
      rw [(hbegins.completes h).2.1] at hkey
      exact absurd hkey (by simp)
  | cons head before =>
      obtain ⟨rfl, rfl⟩ := List.cons.inj hsplit
      have howes : Owes (take first session).session key :=
        .inl (by rw [hbegins.saving]; exact hkey)
      obtain ⟨answer, hmem, hdis⟩ :=
        answered_turnAt (logoutInv_step hinv first) hlasts h hforce howes
      exact ⟨answer, List.mem_cons_of_mem first hmem, hdis⟩

/-- **A round asks everybody once, asks the deferred clients again once, and is completed
once, when all have answered.** -/
theorem exactlyOnce_round {round : List Step} (h : Reachable session)
    (hround : IsRound session round) : ExactlyOnce session round := by
  cases round with
  | nil => exact absurd hround (by simp [IsRound])
  | cons first rest =>
      obtain ⟨hcalm, hphase, hlasts⟩ := hround
      have hinv := logoutInv_reachable h
      have hbegins := begins_take hinv hcalm hphase
      have hnone : session.saving = [] := (hinv.calm hcalm).1
      refine ⟨asked_round hinv hbegins hlasts, ?_, ?_, ?_⟩
      · intro before step after hsplit hagain
        obtain ⟨key, hkey⟩ := hagain
        exact again_round hinv hnone hbegins hlasts hsplit hkey
      · intro before step after hsplit hdone
        exact completed_round hinv hbegins hlasts hsplit hdone
      · intro before step after hsplit hdone hforce key hkey
        exact answered_round hinv hbegins hlasts hsplit hdone hforce hkey

/-- A session with two clients. -/
def pair : Session :=
  (run (new [] (.ofSeeds 0 0 0))
    [(still, .start), (still, .register 1 (some "a")), (still, .register 2 (some "b"))]).session

/-- One client puts off its save, the other is done at once, and then the first is. -/
def pairRound : List Step :=
  [(still, .beginShutdown), (still, .report 1 .requestPhase2),
    (still, .report 2 .saveYourselfDone), (still, .report 1 .saveYourselfDone)]

theorem pair_reachable : Reachable pair := (Reachable.init [] (.ofSeeds 0 0 0) none 10000).run _

theorem exactlyOnce_pairRound : IsRound pair pairRound ∧ ExactlyOnce pair pairRound
    ∧ (run pair pairRound).effects =
        [.phaseChanged .shutdown, .called 1 (.saveYourself false), .called 2 (.saveYourself false),
          .called 1 .saveYourselfPhase2, .called 1 .die, .called 2 .die, .shutdownCompleted] := by
  have hround : IsRound pair pairRound := ⟨by decide, rfl, rfl, rfl, rfl, trivial⟩
  exact ⟨hround, exactlyOnce_round pair_reachable hround, rfl⟩

end Xsmp.Session
