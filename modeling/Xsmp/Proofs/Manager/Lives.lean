import Xsmp.Proofs.Client.Description
import Xsmp.Proofs.Manager.Relay

/-!
# The lives of participants

What the session calls for is passed on to participants, and is part of their lives like what
their clients say. So the participant of a client is always a new one after some inputs. A client
that is to be restarted is the exception: it has gone, its participant is not called any more, and
the manager starts it again by itself. Both are exact here: which inputs there are, and how often
the manager restarts a client.
-/

namespace Xsmp

open Participant (Input saidIn)

/-- What an effect of the session is to a client. -/
def Effect.input? (key : ClientKey) : Effect → Option Input
  | .called client call => if client = key then some (.called call) else none
  | _ => none

/-- What effects of the session are to a client. -/
def callsTo (key : ClientKey) (effects : List Effect) : List Input :=
  effects.filterMap (Effect.input? key)

/-- A restart of the client with a key. -/
def ManagerAction.restarts (key : ClientKey) : ManagerAction → Bool
  | .restarted participant => participant.key == key
  | _ => false

/-- The session calls clients, and none of them says anything by that. -/
theorem saidIn_callsTo (key : ClientKey) (effects : List Effect) :
    saidIn (callsTo key effects) = [] := by
  refine List.filterMap_eq_nil_iff.mpr fun input hmem => ?_
  obtain ⟨effect, _, heq⟩ := List.mem_filterMap.mp hmem
  cases effect with
  | called client call =>
      obtain ⟨_, heq⟩ := Option.ite_none_right_eq_some.mp heq
      rw [← Option.some.inj heq]
      rfl
  | _ => exact absurd heq (by simp [Effect.input?])

namespace Manager

variable {manager : Manager} {after : Turn} {key : ClientKey}

/-- How often a client is restarted. -/
def restarts (key : ClientKey) (actions : List ManagerAction) : Nat :=
  actions.countP (ManagerAction.restarts key)

@[simp] theorem restarts_nil (key : ClientKey) : restarts key [] = 0 := rfl

theorem restarts_append (key : ClientKey) (actions more : List ManagerAction) :
    restarts key (actions ++ more) = restarts key actions + restarts key more :=
  List.countP_append

theorem restarts_sent (key client : ClientKey) (messages : List ManagerMessage) :
    restarts key (messages.map (.sent client)) = 0 := by
  refine List.countP_eq_zero.mpr fun action hmem => ?_
  obtain ⟨_, _, rfl⟩ := List.mem_map.mp hmem
  simp [ManagerAction.restarts]

theorem restarts_close (key client : ClientKey) (manager : Manager) :
    restarts key (close client manager).actions = 0 := by
  unfold close
  split <;> rfl

theorem restarts_expire (key : ClientKey) (clients : List ClientKey) (manager : Manager) :
    restarts key (expire clients manager).actions = 0 := by
  induction clients generalizing manager with
  | nil => rfl
  | cons client clients ih =>
      rw [expire, ManagerTurn.andThen_actions, restarts_append, restarts_close, ih]

/-- Participants bear the keys that they are kept under. -/
def Named (manager : Manager) : Prop :=
  ∀ key participant, manager.participants.get? key = some participant → participant.key = key

/-! ## Following the session -/

theorem participants_relay (effect : Effect) (manager : Manager) (key : ClientKey) :
    (relay effect manager).manager.participants.get? key =
      (manager.participants.get? key).map (·.after (callsTo key [effect])) := by
  cases effect with
  | called client call =>
      by_cases hkey : client = key
      · subst hkey
        have hcalls : callsTo client [.called client call] = [.called call] := by
          simp [callsTo, Effect.input?]
        rw [hcalls]
        cases hget : manager.participants.get? client with
        | none => rw [relay_called_none hget, hget, Option.map_none]
        | some participant =>
            by_cases hrestart : call = .restart
            · subst hrestart
              exact hget
            · rw [relay_called_some hrestart hget]
              exact KeyMap.get?_insert_self
      · have hcalls : callsTo key [.called client call] = [] := by
          simp [callsTo, Effect.input?, hkey]
        have hsame : (relay (.called client call) manager).manager.participants.get? key =
            manager.participants.get? key := by
          by_cases hrestart : call = .restart
          · rw [hrestart, (relay_restart key client manager).1]
          · cases hget : manager.participants.get? client with
            | none => rw [relay_called_none hget]
            | some participant =>
                rw [relay_called_some hrestart hget]
                exact KeyMap.get?_insert_of_ne (Ne.symm hkey)
        rw [hsame, hcalls]
        exact Option.map_id'.symm
  | _ => exact Option.map_id'.symm

theorem participants_relayAll (effects : List Effect) (manager : Manager) (key : ClientKey) :
    (relayAll effects manager).manager.participants.get? key =
      (manager.participants.get? key).map (·.after (callsTo key effects)) := by
  induction effects generalizing manager with
  | nil => exact Option.map_id'.symm
  | cons effect effects ih =>
      rw [relayAll, ManagerTurn.andThen_manager, ih, participants_relay, Option.map_map]
      refine congrArg (Option.map · _) (funext fun participant => ?_)
      have hcalls : callsTo key (effect :: effects) = callsTo key [effect] ++ callsTo key effects :=
        List.filterMap_append (l := [effect])
      rw [hcalls, Participant.after_append]
      rfl

theorem participants_follow (manager : Manager) (after : Turn) (key : ClientKey) :
    (manager.follow after).manager.participants.get? key =
      (manager.participants.get? key).map (·.after (callsTo key after.effects)) :=
  participants_relayAll after.effects { manager with session := after.session } key

theorem Named.lives (h : Named manager) {next : Manager} {inputs : ClientKey → List Input}
    (hnext : ∀ key, next.participants.get? key =
      (manager.participants.get? key).map (·.after (inputs key))) : Named next := by
  intro key participant hget
  rw [hnext] at hget
  obtain ⟨old, hold, rfl⟩ := Option.map_eq_some_iff.mp hget
  rw [Participant.key_after]
  exact h key old hold

theorem Named.follow (h : Named manager) (after : Turn) : Named (manager.follow after).manager :=
  h.lives (participants_follow manager after)

theorem restarts_relay (h : Named manager) {effect : Effect}
    (hknown : effect = .called key .restart → (manager.participants.get? key).isSome = true) :
    restarts key (relay effect manager).actions = [effect].count (.called key .restart) := by
  cases effect with
  | called client call =>
      by_cases hrestart : call = .restart
      · subst hrestart
        show restarts key ((manager.participants.get? client).toList.map .restarted) = _
        by_cases hkey : client = key
        · subst hkey
          obtain ⟨participant, hget⟩ := Option.isSome_iff_exists.mp (hknown rfl)
          simp [hget, restarts, ManagerAction.restarts, h client participant hget]
        · cases hget : manager.participants.get? client with
          | none => simp [hkey]
          | some participant =>
              simp [restarts, ManagerAction.restarts, h client participant hget, hkey]
      · have hnot : Effect.called client call ≠ .called key .restart :=
          fun heq => hrestart (Effect.called.inj heq).2
        rw [List.count_singleton, if_neg (by simpa using hnot)]
        cases hget : manager.participants.get? client with
        | none =>
            rw [relay_called_none hget]
            rfl
        | some participant =>
            rw [relay_called_some hrestart hget]
            exact restarts_sent key client _
  | _ => rfl

/-- The manager restarts whom the session has restarted. -/
theorem restarts_relayAll (h : Named manager) {effects : List Effect}
    (hknown : .called key .restart ∈ effects → (manager.participants.get? key).isSome = true) :
    restarts key (relayAll effects manager).actions = effects.count (.called key .restart) := by
  induction effects generalizing manager with
  | nil => rfl
  | cons effect effects ih =>
      have hfirst : effect = .called key .restart →
          (manager.participants.get? key).isSome = true :=
        fun heq => hknown (heq ▸ List.mem_cons_self)
      have hrest : .called key .restart ∈ effects →
          ((relay effect manager).manager.participants.get? key).isSome = true := by
        intro hmem
        rw [participants_relay, Option.isSome_map]
        exact hknown (List.mem_cons_of_mem _ hmem)
      have hcount : ([effect] ++ effects).count (.called key .restart) =
          [effect].count (.called key .restart) + effects.count (.called key .restart) :=
        List.count_append
      rw [relayAll, ManagerTurn.andThen_actions, restarts_append, restarts_relay h hfirst,
        ih (h.lives (participants_relay effect manager)) hrest, ← hcount, List.singleton_append]

theorem restarts_follow (h : Named manager)
    (hknown : .called key .restart ∈ after.effects →
      (manager.participants.get? key).isSome = true) :
    restarts key (manager.follow after).actions = after.effects.count (.called key .restart) := by
  have hstarted : Named { manager with session := after.session } := h
  exact restarts_relayAll hstarted hknown

end Manager

end Xsmp
