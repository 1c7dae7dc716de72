import Xsmp.Proofs.Session.Run

/-!
# What starting up leaves alone

Launching programs and moving on from phase to phase concerns the phase, its
deadline, the programs, the ones waited for and the source of identifiers, and
nothing else. It never leads into `shutdown`. So no client is called on the way,
and whatever a logout keeps track of is as it was.
-/

namespace Xsmp

/-- What a session does about its phases and its programs, outside of a logout. -/
def Effect.isStartup : Effect → Bool
  | .phaseChanged phase => phase != .shutdown
  | .programRegistered _ | .programTimedOut _ | .launched .. => true
  | .shutdownCompleted | .called .. => false

/-- Whether an effect can belong to an operation that has nothing to do with a logout. -/
def Effect.isCalm : Effect → Bool
  | .called _ (.saveYourself _) | .called _ .saveYourselfPhase2
  | .called _ .shutdownCancelled => false
  | .called .. => true
  | effect => effect.isStartup

theorem Effect.isCalm_of_isStartup {effect : Effect} (h : effect.isStartup = true) :
    effect.isCalm = true := by
  cases effect with
  | called client call => exact absurd h (by simp [isStartup])
  | _ => exact h

namespace Session

/-- A turn that is about phases and programs only. -/
structure StartsUp (session : Session) (turn : Turn) : Prop where
  /-- All other parts of the session are as they were. -/
  frame : ∃ phase deadline programs pending ids,
    turn.session = { session with phase, deadline, programs, pending, ids }
  /-- It is no way into a logout. -/
  phase : session.phase ≠ .shutdown → turn.session.phase ≠ .shutdown
  effects : ∀ effect ∈ turn.effects, effect.isStartup = true

theorem startsUp_rest (session : Session) : StartsUp session { session } :=
  ⟨⟨_, _, _, _, _, rfl⟩, id, by simp⟩

theorem StartsUp.andThen {session : Session} {turn : Turn} {next : Session → Turn}
    (h : StartsUp session turn) (hn : StartsUp turn.session (next turn.session)) :
    StartsUp session (turn.andThen next) where
  frame := by
    obtain ⟨_, _, _, _, _, h⟩ := h.frame
    obtain ⟨phase, deadline, programs, pending, ids, hn⟩ := hn.frame
    refine ⟨phase, deadline, programs, pending, ids, ?_⟩
    rw [Turn.andThen_session, hn, h]
  phase := fun hp => hn.phase (h.phase hp)
  effects := by
    intro effect he
    rcases List.mem_append.mp he with he | he
    · exact h.effects effect he
    · exact hn.effects effect he

variable {w : Surroundings}

theorem startsUp_launchAt (position : Nat) (session : Session) :
    StartsUp session (launchAt w position session) := by
  unfold launchAt
  split
  · exact startsUp_rest session
  · split
    · exact startsUp_rest session
    · exact ⟨⟨_, _, _, _, _, rfl⟩, id, by simp [Effect.isStartup]⟩

theorem startsUp_launchEach (positions : List Nat) (session : Session) :
    StartsUp session (launchEach w positions session) := by
  induction positions generalizing session with
  | nil => exact startsUp_rest session
  | cons position rest ih =>
      exact (startsUp_launchAt position session).andThen (ih _)

theorem startsUp_setPhase {phase : Phase} (h : phase ≠ .shutdown) (session : Session) :
    StartsUp session (session.setPhase phase) :=
  ⟨⟨_, _, _, _, _, rfl⟩, fun _ => h, by simpa [setPhase, Effect.isStartup] using h⟩

theorem startsUp_enter {phases : List Phase} (h : Phase.shutdown ∉ phases) (session : Session) :
    StartsUp session (enter w phases session) := by
  induction phases generalizing session with
  | nil => exact startsUp_rest session
  | cons phase rest ih =>
      have hphase : phase ≠ .shutdown := fun heq => h (heq ▸ List.mem_cons_self)
      have hrest : Phase.shutdown ∉ rest := fun hmem => h (List.mem_cons_of_mem _ hmem)
      refine (startsUp_setPhase hphase session).andThen ?_
      split
      · -- a phase with no program to wait for is left at once
        refine (startsUp_launchEach _ _).andThen ?_
        split
        · exact ih hrest _
        · exact ⟨⟨_, _, _, _, _, rfl⟩, id, by simp⟩
      · exact startsUp_rest _

theorem startsUp_endPhase (session : Session) : StartsUp session (endPhase w session) :=
  startsUp_enter (Phase.upcoming_ne_shutdown _) session

theorem startsUp_start (session : Session) : StartsUp session (start w session) := by
  unfold start
  split
  · exact startsUp_endPhase session
  · exact startsUp_rest session

theorem startsUp_timeout (session : Session) : StartsUp session (timeout w session) := by
  unfold timeout
  split
  · -- the programs that have not come are given up, and then the phase ends
    refine StartsUp.andThen ⟨⟨_, _, _, _, _, rfl⟩, id, ?_⟩ (startsUp_endPhase _)
    intro effect he
    obtain ⟨position, _, rfl⟩ := List.mem_map.mp he
    rfl
  · exact startsUp_rest session

theorem startsUp_programArrived (position : Nat) (session : Session) :
    StartsUp session (programArrived w position session) := by
  refine StartsUp.andThen ⟨⟨_, _, _, _, _, rfl⟩, id, by simp [Effect.isStartup]⟩ ?_
  split
  · exact startsUp_endPhase _
  · exact startsUp_rest _

theorem startsUp_programExited (pid : Pid) (session : Session) :
    StartsUp session (programExited w pid session).2 := by
  unfold programExited
  split
  · exact startsUp_programArrived _ session
  · exact startsUp_rest session

/-- A registration tells the client first, and what follows is about programs only. -/
theorem startsUp_register {key : ClientKey} {previousId : Option String} {session : Session}
    {id : String} {turn : Turn} (h : register w key previousId session = .ok (id, turn)) :
    ∃ (ids : ClientIds) (resumed : Bool) (rest : List Effect),
      turn.effects = .called key (.registered id resumed) :: rest
      ∧ StartsUp { session with ids, clients := session.clients.insert key id }
          { session := turn.session, effects := rest } := by
  unfold register at h
  split at h
  · exact absurd h (by simp)
  · split at h
    · split at h
      · exact absurd h (by simp)
      · -- a program that comes back may be the last one that the phase waited for
        obtain ⟨rfl, rfl⟩ := Prod.mk.inj (Except.ok.inj h)
        refine ⟨session.ids, true, _, rfl, ?_⟩
        dsimp only [Turn.andThen]
        split
        · split
          · exact startsUp_programArrived _ _
          · exact startsUp_rest _
        · exact startsUp_rest _
    · obtain ⟨rfl, rfl⟩ := Prod.mk.inj (Except.ok.inj h)
      exact ⟨_, false, [], rfl, startsUp_rest _⟩

end Session

end Xsmp
