import Mathlib.Data.List.Count
import Xsmp.Session.Operation

/-!
# Runs of a session

`Session.run` does operations one after the other, each in surroundings of its
own. Everything proved about a session holds in every state that such a run can
reach from a new one. The keys of connections need not be fresh for any of it:
a run may register a client under a key that is in use.
-/

namespace Xsmp

/-! ## Turns -/

@[simp] theorem Turn.andThen_session (turn : Turn) (next : Session → Turn) :
    (turn.andThen next).session = (next turn.session).session := rfl

@[simp] theorem Turn.andThen_effects (turn : Turn) (next : Session → Turn) :
    (turn.andThen next).effects = turn.effects ++ (next turn.session).effects := rfl

namespace Session

variable {session : Session}

/-! ## Runs in pieces -/

/-- An operation together with what it finds around it. -/
abbrev Step := Surroundings × Operation

/-- Surroundings in which no time passes and no program can be launched. -/
def still : Surroundings where
  now := 0
  clock _ := 0
  disabled _ := false
  launch _ _ _ := none
  wantsRestart _ := false

abbrev take (step : Step) (session : Session) : Turn := perform step.1 step.2 session

@[simp] theorem run_nil (session : Session) : run session [] = { session } := rfl

@[simp] theorem run_cons (session : Session) (step : Step) (steps : List Step) :
    run session (step :: steps) = (take step session).andThen (run · steps) := rfl

theorem run_append_session (session : Session) (before after : List Step) :
    (run session (before ++ after)).session = (run (run session before).session after).session := by
  induction before generalizing session with
  | nil => rfl
  | cons step before ih => exact ih (take step session).session

theorem run_append_effects (session : Session) (before after : List Step) :
    (run session (before ++ after)).effects =
      (run session before).effects ++ (run (run session before).session after).effects := by
  induction before generalizing session with
  | nil => rfl
  | cons step before ih =>
      have hrest := ih (take step session).session
      simp only [List.cons_append, run_cons, Turn.andThen_effects, Turn.andThen_session,
        List.append_assoc]
      rw [hrest]

/-- What a step of a run does, after the steps before it. -/
abbrev turnAt (session : Session) (before : List Step) (step : Step) : Turn :=
  take step (run session before).session

theorem run_snoc_session (session : Session) (before : List Step) (step : Step) :
    (run session (before ++ [step])).session = (turnAt session before step).session := by
  rw [run_append_session]
  rfl

theorem run_snoc_effects (session : Session) (before : List Step) (step : Step) :
    (run session (before ++ [step])).effects =
      (run session before).effects ++ (turnAt session before step).effects := by
  rw [run_append_effects]
  exact congrArg (_ ++ ·) (List.append_nil _)

/-! ## Reachable states -/

/-- The states of all runs of all sessions. -/
inductive Reachable : Session → Prop
  | init (manifests : List Manifest) (ids : ClientIds) (name : Option String)
      (phaseTimeout : Nat) : Reachable { new manifests ids with name, phaseTimeout }
  | tail {session : Session} (step : Step) (h : Reachable session) :
      Reachable (take step session).session

theorem Reachable.run {session : Session} (h : Reachable session) :
    ∀ steps : List Step, Reachable (Session.run session steps).session
  | [] => h
  | step :: steps => (h.tail step).run steps

/-! ## Calls to several clients -/

/-- Each of the clients gets the call once, and nobody else gets it. -/
theorem count_callEach {clients : List ClientKey} (hnd : clients.Nodup) (key : ClientKey)
    (call : ClientCall) :
    (callEach clients call).count (.called key call) = if key ∈ clients then 1 else 0 := by
  have hinj : Function.Injective fun k : ClientKey => Effect.called k call := by
    intro a b hab
    exact (Effect.called.inj hab).1
  have hmap := List.count_map_of_injective clients (fun k => Effect.called k call) hinj key
  show (clients.map fun k => Effect.called k call).count (.called key call) = _
  rw [hmap]
  exact hnd.count

theorem mem_callEach {clients : List ClientKey} {call : ClientCall} {effect : Effect} :
    effect ∈ callEach clients call ↔ ∃ key ∈ clients, effect = .called key call := by
  constructor
  · intro h
    obtain ⟨key, hkey, heq⟩ := List.mem_map.mp h
    exact ⟨key, hkey, heq.symm⟩
  · intro hcase
    obtain ⟨key, hkey, rfl⟩ := hcase
    exact List.mem_map.mpr ⟨key, hkey, rfl⟩

end Session

end Xsmp
