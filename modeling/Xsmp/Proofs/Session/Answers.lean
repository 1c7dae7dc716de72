import Mathlib.Data.List.Count
import Mathlib.Data.List.Nodup
import Xsmp.Proofs.Session.Trace

/-!
# What becomes of the programs that were launched

A program that was launched before the regular applications is waited for, until it
arrives or its phase has waited too long, and either is said once. So the books of a
program are even: it is waited for as often as it was launched, less what was said of
it (`Balance`). Only a logout makes them uneven, since it stops waiting without a
word. A phase that is left by itself leaves nobody behind, and no program of it is
launched again, so from then on exactly one thing was said of each that runs.
-/

namespace Xsmp

/-- The program of which is said that it is there, or that it has not come. -/
def Effect.answer? : Effect → Option Nat
  | .programRegistered position | .programTimedOut position => some position
  | _ => none

namespace Session

variable {w : Surroundings} {start session : Session} {operation : Operation} {left next : Turn}
  {ended : List Phase} {position : Nat} {manifest : Manifest} {steps : List Step}

def answers (effects : List Effect) : List Nat := effects.filterMap Effect.answer?

@[simp] theorem answers_append (effects more : List Effect) :
    answers (effects ++ more) = answers effects ++ answers more := List.filterMap_append

theorem count_answers (effects : List Effect) (position : Nat) :
    (answers effects).count position =
      effects.count (.programRegistered position) + effects.count (.programTimedOut position) := by
  induction effects with
  | nil => rfl
  | cons effect effects ih =>
      cases effect with
      | programRegistered other =>
          have hanswers :
              answers (.programRegistered other :: effects) = other :: answers effects := rfl
          simp only [hanswers, List.count_cons, ih, beq_iff_eq, Effect.programRegistered.injEq,
            reduceCtorEq, if_false]
          omega
      | programTimedOut other =>
          have hanswers :
              answers (.programTimedOut other :: effects) = other :: answers effects := rfl
          simp only [hanswers, List.count_cons, ih, beq_iff_eq, Effect.programTimedOut.injEq,
            reduceCtorEq, if_false]
          omega
      | _ =>
          simp only [List.count_cons, beq_iff_eq, reduceCtorEq, if_false, Nat.add_zero]
          exact ih

/-! ## The books of a program -/

/-- Effects that are in nobody's books. -/
def Silent (effects : List Effect) : Prop :=
  ∀ effect ∈ effects, effect.answer? = none ∧ effect.process? = none

theorem Silent.answers {effects : List Effect} (h : Silent effects) : answers effects = [] :=
  List.filterMap_eq_nil_iff.mpr fun effect he => (h effect he).1

theorem Silent.processes {effects : List Effect} (h : Silent effects) : processes effects = [] :=
  List.filterMap_eq_nil_iff.mpr fun effect he => (h effect he).2

theorem Unmoved.silent {turn : Turn} (h : Unmoved w session turn) : Silent turn.effects := by
  intro effect he
  have hprogress := h.effects effect he
  cases effect with
  | called key call => exact ⟨rfl, rfl⟩
  | shutdownCompleted => exact ⟨rfl, rfl⟩
  | _ => exact absurd hprogress (by simp [Effect.isProgress])

theorem silent_callEach (clients : List ClientKey) (call : ClientCall) :
    Silent (callEach clients call) := by
  intro effect he
  obtain ⟨_, _, rfl⟩ := mem_callEach.mp he
  exact ⟨rfl, rfl⟩

theorem silent_enter {phase : Phase} {effects : List Effect} (h : Silent effects) :
    Silent (.phaseChanged phase :: effects) := by
  intro effect he
  rcases List.mem_cons.mp he with rfl | he
  · exact ⟨rfl, rfl⟩
  · exact h effect he

theorem silent_beginShutdown (hphase : session.phase ≠ .shutdown) :
    Silent (beginShutdown session).effects
      ∧ phases (beginShutdown session).effects = [.shutdown] := by
  rcases beginShutdown_cases hphase with ⟨_, heq⟩ | ⟨_, heq⟩
  · rw [heq]
    exact ⟨silent_enter (by simp [Silent, Effect.answer?, Effect.process?]), rfl⟩
  · rw [heq]
    refine ⟨silent_enter (silent_callEach _ _), (phases_enter fun effect he => ?_).2⟩
    exact (quiet_callEach _ (by simp) effect he).1

/-- What a turn does to the books of a program. -/
structure Balance (position : Nat) (session : Session) (turn : Turn) : Prop where
  most : (answers turn.effects).count position + turn.session.pending.count position
    ≤ session.pending.count position + (processes turn.effects).count position
  /-- Only a logout makes them uneven. -/
  even : phases turn.effects ≠ [.shutdown] →
    (answers turn.effects).count position + turn.session.pending.count position
      = session.pending.count position + (processes turn.effects).count position

theorem balance_of_eq {turn : Turn}
    (h : (answers turn.effects).count position + turn.session.pending.count position
      = session.pending.count position + (processes turn.effects).count position) :
    Balance position session turn := ⟨Nat.le_of_eq h, fun _ => h⟩

theorem balance_silent {turn : Turn} (h : Silent turn.effects)
    (hpending : turn.session.pending = session.pending) : Balance position session turn :=
  balance_of_eq (by rw [h.answers, h.processes, hpending]; simp)

/-! ## Going through phases -/

theorem answers_beginNext (w : Surroundings) (session : Session) :
    answers (beginNext w session).effects = [] := by
  refine List.filterMap_eq_nil_iff.mpr fun effect he => ?_
  rw [beginNext_effects] at he
  rcases List.mem_cons.mp he with rfl | he
  · rfl
  · obtain ⟨_, _, _, rfl, _⟩ := (launches_beginNext w session).effects effect he
    rfl

/-- A phase that was just begun waits for what it launched. -/
theorem count_pending_beginNext (w : Surroundings) (hphase : session.phase < .running)
    (hmanifest : session.manifests[position]? = some manifest)
    (happ : manifest.phase < .application) :
    (beginNext w session).session.pending.count position =
      (processes (beginNext w session).effects).count position := by
  rw [pending_beginNext]
  split
  · rfl
  · rename_i hnext
    -- the programs of the phase are regular applications, and this one is not
    rw [List.count_nil, eq_comm, List.count_eq_zero]
    intro hprocess
    have hpassed : Passed w True session (beginNext w session) := passed_beginNext w hphase
    obtain ⟨other, hother, _, hentered⟩ :=
      hpassed.takes_part ((processes_sublist _).subset hprocess)
    obtain rfl : manifest = other := Option.some.inj (hmanifest.symm.trans hother)
    rw [phases_beginNext, List.mem_singleton] at hentered
    exact hnext (hentered ▸ happ)

theorem PhaseEnds.balance (h : PhaseEnds w session ended next) (hphase : session.phase < .running)
    (hmanifest : session.manifests[position]? = some manifest)
    (happ : manifest.phase < .application) :
    answers next.effects = [] ∧
      next.session.pending.count position = (processes next.effects).count position := by
  induction h with
  | arrives _ => exact ⟨rfl, rfl⟩
  | @waits session _ _ =>
      simp only [Turn.andThen, List.append_nil]
      exact ⟨answers_beginNext w session, count_pending_beginNext w hphase hmanifest happ⟩
  | @passes session ended next hnext hpending rest ih =>
      obtain ⟨hanswers, hcount⟩ := ih (by rw [beginNext_phase]; exact hnext)
        (by rw [beginNext_manifests]; exact hmanifest)
      have hbegun := count_pending_beginNext w hphase hmanifest happ
      -- a phase that passes has launched nothing that runs
      rw [hpending, List.count_nil] at hbegun
      rw [Turn.andThen_effects, Turn.andThen_session, answers_append, processes_append,
        List.count_append, answers_beginNext, hanswers, hcount]
      exact ⟨rfl, by omega⟩

/-- When a phase comes to its end, something is said of everybody that it waits for. -/
theorem Leaves.answers (h : Leaves w session left) (hs : Settled session) :
    answers left.effects = session.pending ∧ processes left.effects = [] := by
  cases h with
  | starts hphase =>
      rw [(hs.rests (by rw [hphase]; decide)).1]
      exact ⟨rfl, rfl⟩
  | last greeting hgreeting other hpending =>
      rw [Turn.andThen_effects, answers_append, processes_append, hgreeting.silent.answers,
        hgreeting.silent.processes, hpending]
      exact ⟨rfl, rfl⟩
  | expires _ =>
      refine ⟨?_, ?_⟩
      · rw [Session.answers, List.filterMap_map]
        exact List.filterMap_some
      · rw [processes, List.filterMap_map]
        exact List.filterMap_eq_nil_iff.mpr fun _ _ => rfl

/-! ## One operation -/

/-- Somebody who arrives is no longer waited for. -/
theorem count_arrived {pending : List Nat} (hascending : pending.Pairwise (· < ·)) {arrived : Nat}
    (harrived : arrived ∈ pending) (position : Nat) :
    [arrived].count position + (pending.filter (· != arrived)).count position
      = pending.count position := by
  by_cases hsame : position = arrived
  · subst hsame
    have hnodup : pending.Nodup := hascending.imp fun hlt => Nat.ne_of_lt hlt
    have hnone : position ∉ pending.filter (· != position) := by simp
    rw [List.count_eq_zero.mpr hnone, List.count_eq_one_of_mem hnodup harrived]
    simp
  · rw [List.count_filter (by simpa using hsame)]
    simp [Ne.symm hsame]

/-- **Only a logout makes the books of a program uneven.** -/
theorem balance_step (h : Settled session) (step : Step)
    (hmanifest : session.manifests[position]? = some manifest)
    (happ : manifest.phase < .application) : Balance position session (take step session) := by
  obtain ⟨w, operation⟩ := step
  show Balance position session (perform w operation session)
  cases phaseStep w h operation with
  | rests hu => exact balance_silent hu.silent hu.pending
  | arrives greeting hgreeting arrived harrived _ hturn =>
      rw [hturn]
      refine balance_of_eq ?_
      have hcount := count_arrived h.ascending harrived position
      rw [Turn.andThen_effects, answers_append, processes_append, hgreeting.silent.answers,
        hgreeting.silent.processes]
      simp only [Turn.andThen_session, hgreeting.pending]
      exact hcount
  | ends left hleaves hphase hturn =>
      obtain ⟨hsame, hprograms, _⟩ := hleaves.frame
      obtain ⟨hanswers, hprocesses⟩ := hleaves.answers h
      have hleft : left.session.phase < .running := by rw [hsame]; exact hphase
      obtain ⟨ended, hends, _⟩ := phaseEnds_endPhase w hleft
      have hmanifest' : left.session.manifests[position]? = some manifest := by
        rw [manifests, hprograms]
        exact hmanifest
      obtain ⟨hnone, hcount⟩ := hends.balance hleft hmanifest' happ
      -- whoever was waited for is answered, and what is waited for next was launched since
      rw [hturn]
      refine balance_of_eq ?_
      rw [Turn.andThen_effects, Turn.andThen_session, answers_append, processes_append, hanswers,
        hprocesses, hnone, hcount, List.append_nil, List.nil_append]
  | begins hphase hturn =>
      rw [hturn]
      obtain ⟨hsilent, hphases⟩ := silent_beginShutdown hphase
      refine ⟨?_, fun heven => absurd hphases heven⟩
      have hrest := (settled_beginShutdown hphase).rests
        (by rw [phase_beginShutdown hphase]; decide)
      rw [hsilent.answers, hrest.1]
      simp
  | resumes hphase hturn =>
      rw [cancelShutdown_eq hturn]
      exact balance_silent (silent_enter (silent_callEach _ _)) rfl

/-! ## Runs -/

/-- The books of a program after a run. -/
structure Accounts (position : Nat) (manifest : Manifest) (start : Session) (steps : List Step) :
    Prop where
  most : (answers (run start steps).effects).count position
      + (run start steps).session.pending.count position
    ≤ (processes (run start steps).effects).count position
  even : .shutdown ∉ phases (run start steps).effects →
    (answers (run start steps).effects).count position
        + (run start steps).session.pending.count position
      = (processes (run start steps).effects).count position
  /-- The phase of the program has been left by itself. -/
  left : manifest.phase.next ∈ phases (run start steps).effects →
    (answers (run start steps).effects).count position
      = (processes (run start steps).effects).count position

/-- Before the regular applications, the next phase comes later and is a startup phase too. -/
theorem next_of_lt_application {p : Phase} (h : p < .application) :
    p < p.next ∧ p.next < .running := by
  revert h
  cases p <;> decide

/-- A program is launched by its phase only. -/
theorem not_launched {cancelled : Prop} {turn : Turn} (h : Passed w cancelled session turn)
    (hmanifest : session.manifests[position]? = some manifest)
    (hphase : manifest.phase ∉ phases turn.effects) :
    (processes turn.effects).count position = 0 := by
  refine List.count_eq_zero.mpr fun hprocess => ?_
  obtain ⟨other, hother, _, hentered⟩ := h.takes_part ((processes_sublist _).subset hprocess)
  obtain rfl : manifest = other := Option.some.inj (hmanifest.symm.trans hother)
  exact hphase hentered

/-- A program is waited for by its phase only. -/
theorem Settled.not_pending (h : Settled session)
    (hmanifest : session.manifests[position]? = some manifest)
    (hphase : manifest.phase ≠ session.phase) : session.pending.count position = 0 := by
  refine List.count_eq_zero.mpr fun hpending => ?_
  obtain ⟨program, hprogram, hbelongs, _⟩ := h.ready position hpending
  rw [getElem?_manifests, hprogram] at hmanifest
  exact hphase (Option.some.inj hmanifest ▸ hbelongs)

/-- Once the phase after it was entered, a phase before the regular applications is past. -/
theorem past_of_next_mem {cancelled : Prop} {first last : Phase} {between : List Phase}
    (h : Path (PhaseMove cancelled) first between last) {phase : Phase}
    (happ : phase < .application) (hmem : phase.next ∈ between) : phase < last := by
  obtain ⟨hnext, hrunning⟩ := next_of_lt_application happ
  rcases h.le_of_mem hmem hrunning with heq | hlt
  · exact heq ▸ hnext
  · exact Nat.lt_trans hnext hlt

theorem Accounts.snoc {before : List Step} (ih : Accounts position manifest start before)
    (h : Settled start) (hmanifest : start.manifests[position]? = some manifest)
    (happ : manifest.phase < .application) (step : Step) :
    Accounts position manifest start (before ++ [step]) := by
  have hbefore := traced_run h before
  have hsettled := settled_run h before
  have hmanifest' : (run start before).session.manifests[position]? = some manifest := by
    rw [hbefore.manifests]
    exact hmanifest
  have hstep : Passed step.1 _ (run start before).session (turnAt start before step) :=
    passed_step hsettled step
  have hbalance : Balance position (run start before).session (turnAt start before step) :=
    balance_step hsettled step hmanifest' happ
  have hmost := ih.most
  have hstepMost := hbalance.most
  obtain ⟨hnext, hrunning⟩ := next_of_lt_application happ
  constructor
  · rw [run_snoc_effects, run_snoc_session, answers_append, processes_append, List.count_append,
      List.count_append]
    omega
  · intro hnone
    rw [run_snoc_effects, phases_append, List.mem_append, not_or] at hnone
    have hsofar := ih.even hnone.1
    have heven := hbalance.even fun hphases => hnone.2 (by rw [hphases]; simp)
    rw [run_snoc_effects, run_snoc_session, answers_append, processes_append, List.count_append,
      List.count_append]
    omega
  · intro hleft
    rw [run_snoc_effects, phases_append, List.mem_append] at hleft
    rw [run_snoc_effects, answers_append, processes_append, List.count_append, List.count_append]
    rcases hleft with hleft | hleft
    · -- it was left before, so it is not entered again and launches nothing more
      have hpast := past_of_next_mem hbefore.path happ hleft
      have hnone := not_launched hstep hmanifest' fun hentered =>
        Nat.lt_asymm hpast (hstep.path.lt_of_mem hentered (Nat.lt_trans hnext hrunning))
      have hdone := ih.left hleft
      omega
    · -- it is left by this step, before any logout, and leaves nobody behind
      have hearlier := hstep.path.lt_of_mem hleft hrunning
      have hsofar := ih.even (hbefore.path.shutdown_not_mem (Nat.lt_trans hearlier hrunning))
      have heven := hbalance.even fun hphases => by
        rw [hphases, List.mem_singleton] at hleft
        exact absurd (hleft ▸ hrunning) (by decide)
      have hpast := past_of_next_mem hstep.path happ hleft
      have hnobody : (turnAt start before step).session.pending.count position = 0 :=
        (settled_step hsettled step).not_pending (hstep.manifests ▸ hmanifest')
          fun heq => Nat.lt_irrefl _ (heq ▸ hpast)
      omega

/-- **The books of a program are even once its phase has been left by itself.** -/
theorem accounts_run (h : Settled start) (hphase : start.phase = .startup)
    (hmanifest : start.manifests[position]? = some manifest)
    (happ : manifest.phase < .application) (steps : List Step) :
    Accounts position manifest start steps := by
  induction steps using List.reverseRecOn with
  | nil =>
      have hpending := (h.rests (by rw [hphase]; decide)).1
      exact ⟨by simp [hpending, answers], by simp [hpending, answers, processes], by simp [phases]⟩
  | append_singleton before step ih => exact ih.snoc h hmanifest happ step

/-! ## Every run -/

/-- What a run says of the startup of a session. -/
structure StartupTrace (manifests : List Manifest) (start : Session) (steps : List Step) :
    Prop where
  /-- The programs are those of the list all the time. -/
  programs : start.manifests = manifests ∧ (run start steps).session.manifests = manifests
  /-- The phases that are entered form a path from the first one to the one that the session
  is in. -/
  path : Path (PhaseMove True) .startup (phases (run start steps).effects)
    (run start steps).session.phase
  /-- In every step they do, with a way back from a logout only if the step cancels one; what
  is entered tries its roster at once, each program with an identifier that is made just
  before. -/
  passed : ∀ before step after, steps = before ++ step :: after →
    Passed step.1 (cancelShutdown (run start before).session = .ok (turnAt start before step))
      (run start before).session (turnAt start before step)
  /-- No program is tried that is disabled when its phase is entered. -/
  enabled : ∀ before step after, steps = before ++ step :: after →
    ∀ position ∈ tries (turnAt start before step).effects,
      ∃ manifest, manifests[position]? = some manifest ∧ step.1.disabled manifest = false
        ∧ manifest.phase ∈ phases (turnAt start before step).effects
  /-- Programs are tried in the order of their phases and, within a phase, of the list. -/
  order : (tries (run start steps).effects).Pairwise (Earlier manifests)
  once : (tries (run start steps).effects).Nodup
  /-- When a phase is left, everything has been tried that took part in it. -/
  complete : ∀ earlier entering later,
    (run start steps).effects = earlier ++ .phaseChanged entering :: later →
    phaseAfter earlier ≠ .startup →
      ∃ w, (w, phaseAfter earlier) ∈ entered start steps
        ∧ ∀ position ∈ roster w (phaseAfter earlier) manifests, position ∈ tries earlier
  /-- Of a program that was launched, at most one thing is said. -/
  answered : ∀ position id pid manifest,
    .launched position id (some pid) ∈ (run start steps).effects →
    manifests[position]? = some manifest → manifest.phase < .application →
      (run start steps).effects.count (.programRegistered position)
        + (run start steps).effects.count (.programTimedOut position) ≤ 1
  /-- And exactly one, if its phase is left otherwise than by a logout. -/
  settled : ∀ position id pid manifest,
    .launched position id (some pid) ∈ (run start steps).effects →
    manifests[position]? = some manifest → manifest.phase < .application →
    ∀ earlier entering later,
      (run start steps).effects = earlier ++ .phaseChanged entering :: later →
      phaseAfter earlier = manifest.phase → entering ≠ .shutdown →
        (run start steps).effects.count (.programRegistered position)
          + (run start steps).effects.count (.programTimedOut position) = 1

theorem mem_processes {effects : List Effect} {id : String} {pid : Pid}
    (h : .launched position id (some pid) ∈ effects) : position ∈ processes effects :=
  List.mem_filterMap.mpr ⟨_, h, rfl⟩

/-- A phase before the regular applications that is not left by a logout is left for the
next one. -/
theorem Traced.next_mem (h : Traced start steps) (hphase : start.phase = .startup)
    {earlier later : List Effect} {entering : Phase}
    (heffects : (run start steps).effects = earlier ++ .phaseChanged entering :: later)
    (happ : phaseAfter earlier < .application) (hentering : entering ≠ .shutdown) :
    (phaseAfter earlier).next ∈ Session.phases (run start steps).effects := by
  have hsplit : Session.phases (run start steps).effects =
      Session.phases earlier ++ entering :: Session.phases later := by
    rw [heffects, phases_append]
    rfl
  have hpath := h.path
  rw [hsplit, hphase] at hpath
  have hmove : PhaseMove True (phaseAfter earlier) entering := hpath.move_at
  generalize phaseAfter earlier = phase at happ hmove
  rw [hsplit]
  cases hmove with
  | onward _ => simp
  | logout _ => exact absurd rfl hentering
  | resume _ => exact absurd happ (by decide)

theorem startupTrace_run (h : Settled start) (hphase : start.phase = .startup)
    (steps : List Step) : StartupTrace start.manifests start steps := by
  have htraced := traced_run h steps
  have honce : (tries (run start steps).effects).Nodup := htraced.earlier.imp fun h => h.ne
  have hmost (position : Nat) : (processes (run start steps).effects).count position ≤ 1 :=
    List.nodup_iff_count_le_one.mp (honce.sublist (processes_sublist _)) position
  have hpassed (before : List Step) (step : Step) := passed_step (settled_run h before) step
  exact {
    programs := ⟨rfl, htraced.manifests⟩
    path := hphase ▸ htraced.path
    passed := fun before step _ _ => hpassed before step
    enabled := fun before step _ _ position hposition => by
      have htakes := (hpassed before step).takes_part hposition
      rw [(traced_run h before).manifests] at htakes
      exact htakes
    order := htraced.earlier
    once := honce
    complete := fun _ _ _ heffects hentered => htraced.complete heffects hentered
    answered := fun position _ _ manifest _ hmanifest happ => by
      have hsaid := (accounts_run h hphase hmanifest happ steps).most
      have hone := hmost position
      rw [← count_answers]
      omega
    settled := fun position _ _ manifest hlaunched hmanifest happ _ _ _ heffects hleft hnext => by
      have hentered := htraced.next_mem hphase heffects (hleft ▸ happ) hnext
      rw [hleft] at hentered
      have heven := (accounts_run h hphase hmanifest happ steps).left hentered
      have hone := hmost position
      have hlaunch := List.count_pos_iff.mpr (mem_processes hlaunched)
      rw [← count_answers]
      omega }

theorem manifests_new (manifests : List Manifest) (ids : ClientIds) :
    (new manifests ids).manifests = manifests := by
  rw [Session.manifests, new, List.map_map]
  exact List.map_id _

/-- **The trace of every startup.** -/
theorem startup_traced (manifests : List Manifest) (ids : ClientIds) (name : Option String)
    (phaseTimeout : Nat) (steps : List Step) :
    StartupTrace manifests { new manifests ids with name, phaseTimeout } steps := by
  have htrace := startupTrace_run (settled_init manifests ids name phaseTimeout) rfl steps
  have hlist : Session.manifests { new manifests ids with name, phaseTimeout } = manifests :=
    manifests_new manifests ids
  rw [hlist] at htrace
  exact htrace

end Session

end Xsmp
