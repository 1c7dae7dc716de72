import Xsmp.Proofs.Manager.Relay
import Xsmp.Proofs.Session.Register

/-!
# What clients are told

Everything that is sent to one client, in order. What matters of a message here is
whether it answers a registration. A client gets such an answer from the session when it
is registered, and from nothing else that the session calls for; a client that takes no
part in the session hears nothing of it at all.
-/

namespace Xsmp

/-- Whether a message answers a registration. -/
def ManagerMessage.isAnswer : ManagerMessage → Bool
  | .registerClientReply _ | .registrationRefused _ => true
  | _ => false

namespace Participant

variable {participant : Participant}

theorem saveMessage_isAnswer (type : SaveType) : (saveMessage type).isAnswer = false := by
  cases type <;> rfl

theorem isAnswer_of_saves {saves : Option SaveType} {message : ManagerMessage}
    (h : message ∈ saves.toList.map saveMessage) : message.isAnswer = false := by
  obtain ⟨type, _, rfl⟩ := List.mem_map.mp h
  exact saveMessage_isAnswer type

/-- A client is only told that it is registered when it is. -/
theorem called_isAnswer {call : ClientCall} (h : ∀ id resumed, call ≠ .registered id resumed) :
    ∀ message ∈ (participant.called call).sent, message.isAnswer = false := by
  intro message hsent
  cases call with
  | registered id resumed => exact absurd rfl (h id resumed)
  | restart => exact absurd hsent List.not_mem_nil
  | saveState => exact isAnswer_of_saves hsent
  | saveYourself full => exact isAnswer_of_saves hsent
  | _ =>
      rw [List.mem_singleton.mp hsent]
      rfl

/-- No message of a registered client is answered like a registration. -/
theorem received_isAnswer (said : ClientMessage) :
    ∀ message ∈ (participant.received said).sent, message.isAnswer = false := by
  intro message hsent
  cases said with
  | saveYourselfRequest saveType shutdown style fast isGlobal =>
      cases shutdown <;> cases isGlobal
      · exact isAnswer_of_saves hsent
      all_goals exact absurd hsent List.not_mem_nil
  | saveYourselfPhase2Request =>
      simp only [received] at hsent
      split at hsent
      · rw [List.mem_singleton.mp hsent]
        rfl
      · exact absurd hsent List.not_mem_nil
  | saveYourselfDone success =>
      simp only [received, saveDone] at hsent
      split at hsent
      · rcases List.mem_cons.mp hsent with rfl | hsent
        · rfl
        · exact isAnswer_of_saves hsent
      · exact isAnswer_of_saves hsent
  | getProperties =>
      rw [List.mem_singleton.mp hsent]
      rfl
  | _ => exact absurd hsent List.not_mem_nil

/-- A client says goodbye by closing its connection. -/
theorem reported_disconnected {said : ClientMessage} :
    (participant.received said).reported = some .disconnected ↔
      ∃ reasons, said = .closeConnection reasons := by
  cases said with
  | saveYourselfRequest saveType shutdown style fast isGlobal =>
      cases shutdown <;> cases isGlobal <;> simp [received, requestSave]
  | saveYourselfPhase2Request =>
      simp only [received]
      split <;> simp
  | saveYourselfDone success =>
      simp only [received, saveDone]
      split <;> simp
  | _ => simp [received]

/-- A client that is registered is told its identifier, and one that is new is asked to save. -/
theorem called_registered (hempty : participant.saves = .empty) (id : String) (resumed : Bool) :
    (participant.called (.registered id resumed)).sent =
      .registerClientReply id :: if resumed then [] else [saveMessage .local] := by
  cases resumed with
  | true => rfl
  | false => simp [called, requestSave, relabel, hempty, SaveQueue.request, SaveQueue.empty]

end Participant

namespace Manager

variable {manager : Manager} {key : ClientKey}

/-- What is sent to a client by some actions, in order. -/
def said (key : ClientKey) (actions : List ManagerAction) : List ManagerMessage :=
  actions.filterMap fun action =>
    match action with
    | .sent client message => if client = key then some message else none
    | _ => none

@[simp] theorem said_nil (key : ClientKey) : said key [] = [] := rfl

@[simp] theorem said_append (key : ClientKey) (before after : List ManagerAction) :
    said key (before ++ after) = said key before ++ said key after :=
  List.filterMap_append

theorem said_sent_self (key : ClientKey) (messages : List ManagerMessage) :
    said key (messages.map (.sent key)) = messages := by
  rw [said, List.filterMap_map]
  refine Eq.trans ?_ List.filterMap_some
  congr 1
  funext message
  simp

theorem said_sent_of_ne {client : ClientKey} (h : client ≠ key) (messages : List ManagerMessage) :
    said key (messages.map (.sent client)) = [] := by
  rw [said, List.filterMap_map, List.filterMap_eq_nil_iff]
  intro message _
  simp [h]

theorem said_restarted (key : ClientKey) (participants : List Participant) :
    said key (participants.map .restarted) = [] := by
  rw [said, List.filterMap_map, List.filterMap_eq_nil_iff]
  exact fun _ _ => rfl

/-! ## What the session calls for -/

/-- An effect that is no call to a client says nothing to it. -/
theorem said_relay_of_uncalled {effect : Effect} (h : ∀ call, effect ≠ .called key call) :
    said key (relay effect manager).actions = [] := by
  cases effect with
  | called client call =>
      have hne : client ≠ key := fun heq => h call (heq ▸ rfl)
      by_cases hrestart : call = .restart
      · rw [hrestart]
        exact said_restarted key _
      · cases hget : manager.participants.get? client with
        | none =>
            rw [relay_called_none hget]
            rfl
        | some participant =>
            rw [relay_called_some hrestart hget]
            exact said_sent_of_ne hne _
  | _ => rfl

theorem said_relayAll_of_uncalled {effects : List Effect}
    (h : ∀ call, .called key call ∉ effects) (manager : Manager) :
    said key (relayAll effects manager).actions = [] := by
  induction effects generalizing manager with
  | nil => rfl
  | cons effect effects ih =>
      have hrest := ih (fun call hcall => h call (List.mem_cons_of_mem effect hcall))
        (relay effect manager).manager
      have hhead : said key (relay effect manager).actions = [] :=
        said_relay_of_uncalled fun call heq => h call (heq ▸ List.mem_cons_self)
      rw [relayAll, ManagerTurn.andThen_actions, said_append, hhead, hrest]
      rfl

theorem saves?_eq_none : manager.saves? key = none ↔ manager.participants.get? key = none :=
  Option.map_eq_none_iff

/-- A client that takes no part in the session hears nothing of it. -/
theorem said_relayAll_of_stranger {manager : Manager} (h : manager.saves? key = none)
    (effects : List Effect) : said key (relayAll effects manager).actions = [] := by
  induction effects generalizing manager with
  | nil => rfl
  | cons effect effects ih =>
      have hnext : (relay effect manager).manager.saves? key = none := by
        rw [(relay_key effect manager key).1, h]
        rfl
      have hhead : said key (relay effect manager).actions = [] := by
        cases effect with
        | called client call =>
            by_cases hkey : client = key
            · have hget : manager.participants.get? client = none := by
                rw [hkey]
                exact saves?_eq_none.mp h
              rw [relay_called_none hget]
              rfl
            · exact said_relay_of_uncalled fun other heq => hkey (Effect.called.inj heq).1
        | _ => rfl
      rw [relayAll, ManagerTurn.andThen_actions, said_append, hhead, ih hnext]
      rfl

/-- Unless it is registered just then, a client gets no answer to a registration. -/
theorem isAnswer_relayAll {effects : List Effect}
    (h : ∀ id resumed, .called key (.registered id resumed) ∉ effects) (manager : Manager) :
    ∀ message ∈ said key (relayAll effects manager).actions, message.isAnswer = false := by
  induction effects generalizing manager with
  | nil => exact fun _ hsaid => absurd hsaid List.not_mem_nil
  | cons effect effects ih =>
      intro message hsaid
      rw [relayAll, ManagerTurn.andThen_actions, said_append] at hsaid
      rcases List.mem_append.mp hsaid with hsaid | hsaid
      · cases effect with
        | called client call =>
            by_cases hrestart : call = .restart
            · have hnothing : said key (relay (.called client call) manager).actions = [] := by
                rw [hrestart]
                exact said_restarted key _
              rw [hnothing] at hsaid
              exact absurd hsaid List.not_mem_nil
            · cases hget : manager.participants.get? client with
              | none =>
                  rw [relay_called_none hget] at hsaid
                  exact absurd hsaid List.not_mem_nil
              | some participant =>
                  rw [relay_called_some hrestart hget] at hsaid
                  by_cases hkey : client = key
                  · subst hkey
                    rw [said_sent_self] at hsaid
                    refine Participant.called_isAnswer (fun id resumed heq => ?_) message hsaid
                    exact h id resumed (heq ▸ List.mem_cons_self)
                  · rw [said_sent_of_ne hkey] at hsaid
                    exact absurd hsaid List.not_mem_nil
        | _ => exact absurd hsaid List.not_mem_nil
      · refine ih (fun id resumed hmem => ?_) _ message hsaid
        exact h id resumed (List.mem_cons_of_mem effect hmem)

/-! ## Connections -/

/-- Following the session opens and closes nothing. -/
theorem relay_connections (effect : Effect) (manager : Manager) :
    (relay effect manager).manager.connections = manager.connections
      ∧ ∀ key, .closed key ∉ (relay effect manager).actions := by
  cases effect with
  | called client call =>
      by_cases hrestart : call = .restart
      · subst hrestart
        refine ⟨rfl, fun key hmem => ?_⟩
        obtain ⟨participant, _, heq⟩ := List.mem_map.mp hmem
        exact absurd heq (by simp)
      · cases hget : manager.participants.get? client with
        | none =>
            rw [relay_called_none hget]
            exact ⟨rfl, fun key => List.not_mem_nil⟩
        | some participant =>
            rw [relay_called_some hrestart hget]
            refine ⟨rfl, fun key hmem => ?_⟩
            obtain ⟨message, _, heq⟩ := List.mem_map.mp hmem
            exact absurd heq (by simp)
  | _ => exact ⟨rfl, fun key hmem => absurd hmem (by simp [relay])⟩

theorem relayAll_connections (effects : List Effect) (manager : Manager) :
    (relayAll effects manager).manager.connections = manager.connections
      ∧ ∀ key, .closed key ∉ (relayAll effects manager).actions := by
  induction effects generalizing manager with
  | nil => exact ⟨rfl, fun key => List.not_mem_nil⟩
  | cons effect effects ih =>
      obtain ⟨hhead, hopen⟩ := relay_connections effect manager
      obtain ⟨hrest, hopen'⟩ := ih (relay effect manager).manager
      refine ⟨hrest.trans hhead, fun key hmem => ?_⟩
      rcases List.mem_append.mp hmem with hmem | hmem
      · exact hopen key hmem
      · exact hopen' key hmem

end Manager

end Xsmp
