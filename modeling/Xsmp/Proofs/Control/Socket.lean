import Xsmp.Proofs.Authority.Lock
import Xsmp.Proofs.Control.Service
import Xsmp.Proofs.Host.Entries

/-!
# The control socket of a service

A service that has come up has put a socket at the path of its control socket. Neither taking the
lock of the authority file nor changing the file removes it, so unless someone else does, the
service is found there for as long as it listens.
-/

namespace Xsmp

/-! ## Sockets in a tree -/

namespace FileTree

variable {tree before after : FileTree} {path : Path} {place : Place}

/-- A socket can be reached at a path. -/
def HasSocket (tree : FileTree) (path : Path) : Prop := ∃ place, tree.reach path = .ok (some place)

theorem reach_eq_some_iff :
    tree.reach path = .ok (some place) ↔ path.isAbstract = false ∧ checkSocketPath path = .ok () ∧
      tree.found? path = some (place, .socket) := by
  rw [reach]
  cases habstract : path.isAbstract with
  | true =>
    rw [if_pos rfl]
    split <;> simp [throw, throwThe, MonadExceptOf.throw, pure, Except.pure]
  | false =>
    rw [if_neg Bool.false_ne_true]
    cases hcheck : checkSocketPath path with
    | error cause => simp [Bind.bind, Except.bind]
    | ok checked =>
      rw [← find_eq_ok_iff]
      simp only [Bind.bind, Except.bind, true_and]
      cases hfind : tree.find path with
      | error cause =>
        cases cause <;> simp [throw, throwThe, MonadExceptOf.throw, pure, Except.pure]
      | ok found =>
        obtain ⟨there, node⟩ := found
        cases node <;> simp [pure, Except.pure]

/-- What is left alone where a path leads can be reached as before. -/
theorem HasSocket.congr (h : before.HasSocket path) (hsame : SameDirectories before after)
    (hnode : ∀ place, before.locate path = .ok place → before.node? place = some .socket →
      after.node? place = some .socket) : after.HasSocket path := by
  obtain ⟨place, hreach⟩ := h
  obtain ⟨habstract, hcheck, hfound⟩ := reach_eq_some_iff.mp hreach
  obtain ⟨hplace, hsocket⟩ := found?_eq_some_iff.mp hfound
  exact ⟨place, reach_eq_some_iff.mpr ⟨habstract, hcheck,
    found?_eq_some_iff.mpr ⟨hsame.locate_ok hplace, hnode place hplace hsocket⟩⟩⟩

/-- Writing a file leaves sockets alone. -/
theorem HasSocket.write (h : tree.HasSocket path) {file : Path} {contents : Bytes} {now : Int}
    (hwrite : tree.write file contents now = .ok after) : after.HasSocket path := by
  refine h.congr (write_ok hwrite).2.1 fun place _ hsocket => ?_
  rw [FileTree.write] at hwrite
  cases hfile : tree.locateNew file with
  | error cause =>
    rw [hfile] at hwrite
    cases hwrite
  | ok there =>
    rw [hfile] at hwrite
    simp only [Bind.bind, Except.bind] at hwrite
    split at hwrite
    · next hnone =>
      cases hwrite
      have hne : place ≠ there := by
        rintro rfl
        rw [hnone] at hsocket
        cases hsocket
      rw [(putFile_changesOnly hnone contents now).other place hne, hsocket]
    · cases hwrite
      rw [node?_overwrite, hsocket]
      rfl
    all_goals cases hwrite

theorem hasSocket_of_makeSocket (h : tree.makeSocket path = .ok after) : after.HasSocket path := by
  rw [makeSocket] at h
  cases hcheck : checkSocketPath path with
  | error cause =>
    rw [hcheck] at h
    cases h
  | ok checked =>
    rw [hcheck] at h
    simp only [Bind.bind, Except.bind] at h
    cases hplace : tree.locate path with
    | error cause =>
      rw [hplace] at h
      cases h
    | ok place =>
      rw [hplace] at h
      dsimp only at h
      split at h
      · next hnone =>
        cases h
        have hput : ChangesOnly place tree (tree.put place .socket) :=
          put_changesOnly (by simp [hnone]) rfl
        refine ⟨place, reach_eq_some_iff.mpr ⟨?_, hcheck,
          hput.found?_of_node? hplace (node?_put_self tree place .socket)⟩⟩
        -- a path without a null character is in the file system
        rw [checkSocketPath] at hcheck
        split at hcheck
        · cases hcheck
        · next hnul =>
          rw [Path.isAbstract, beq_eq_false_iff_ne]
          exact fun hhead => hnul (List.contains_iff_mem.mpr (List.mem_of_head? hhead))
      · cases h

/-- A socket that was put at a path is reached there. -/
theorem hasSocket_of_bind (h : tree.bind path = (after, .ok ())) : after.HasSocket path := by
  rw [FileTree.bind] at h
  split at h
  · cases h
  · split at h
    · next hmake =>
      cases h
      exact hasSocket_of_makeSocket hmake
    · cases h

end FileTree

/-! ## The lock of the authority file -/

/-- The lock files of an authority file are no control socket. -/
theorem LockFile.Beside.hasSocket {path directory : Path} {before after : FileTree}
    (h : LockFile.Beside path before after) (hsocket : before.HasSocket (controlSocket directory)) :
    after.HasSocket (controlSocket directory) := by
  refine hsocket.congr h.same fun place hplace hnode => ?_
  rw [h.other place fun file hfile => ?_, hnode]
  obtain ⟨outer, rfl⟩ := FileTree.exists_locate_entry (by decide) (by decide) hplace
  obtain ⟨last, _, heq, -⟩ :=
    FileTree.locate_extend file.ending_plain file.append_ending_name hfile
  have hletter := file.getLast?_append_ending last
  rw [← (List.cons.inj heq).1] at hletter
  cases file <;> exact absurd hletter (by decide)

namespace LockStage

variable {stage : LockStage}

/-- What comes after an operation other than making a lock file is not the linking of one. -/
theorem step_ne_linking (h : ∀ left, stage ≠ .creating left) (authority : Authority) (now : Int)
    (tree : FileTree) (left : Nat) : (stage.step authority now tree).2 ≠ .linking left := by
  cases stage with
  | creating next => exact absurd rfl (h next)
  | checking file =>
    simp only [step]
    split
    · exact LockStage.noConfusion
    · exact ne_of_bare (bare_checked authority file) rfl
  | judging file modified =>
    simp only [step]
    split
    · exact LockStage.noConfusion
    · exact ne_of_bare (bare_checked authority file) rfl
  | breaking file => exact ne_of_bare (bare_checked authority file) rfl
  | linking next =>
    simp only [step]
    split <;> exact LockStage.noConfusion
  | undoing next error =>
    cases error with
    | none => exact ne_of_bare (bare_retry authority next) rfl
    | some error => exact LockStage.noConfusion
  | _ => exact LockStage.noConfusion

end LockStage

namespace Authority

variable {authority : Authority} {directory : Path} {tree after : FileTree} {networkId : String}
  {new : List AuthorityEntry} {now : Int}

/-- Replacing the entries of a session leaves control sockets alone. -/
theorem hasSocket_replace (hsocket : tree.HasSocket (controlSocket directory))
    (h : authority.replace tree networkId new now = .ok after) :
    after.HasSocket (controlSocket directory) := by
  rw [replace] at h
  cases hread : authority.read tree with
  | error error =>
    rw [hread] at h
    cases h
  | ok entries =>
    rw [hread] at h
    simp only [Bind.bind, Except.bind, write] at h
    split at h
    · next hwrite =>
      cases h
      exact hsocket.write hwrite
    · cases h

theorem hasSocket_replaceAndRelease {result : Except AuthorityError Unit}
    (hsocket : tree.HasSocket (controlSocket directory))
    (h : authority.replaceAndRelease tree networkId new now = (after, result)) :
    after.HasSocket (controlSocket directory) := by
  rw [replaceAndRelease] at h
  split at h
  · next replaced hreplace =>
    cases h
    exact (beside_release authority now replaced).hasSocket (hasSocket_replace hsocket hreplace)
  · cases h
    exact (beside_release authority now tree).hasSocket hsocket

end Authority

/-! ## What a service does -/

/-- What a service waits for is not the very moment of making a lock file, so that none is about to
be linked when it goes on. -/
def Stage.Rests : Stage → Prop
  | .starting lock _ | .finishing _ lock _ => ∀ left, lock ≠ .creating left
  | _ => True

namespace Service

variable {seed : ServiceSeed} {options : ManagerOptions} {service : Service} {manager : Manager}
  {lock : LockStage} {spared : Prop}

/-- A service has what it was begun with, and its control socket is there, if others have spared
it. -/
structure Up (seed : ServiceSeed) (options : ManagerOptions) (spared : Prop) (service : Service) :
    Prop where
  sameSeed : service.seed = seed
  sameOptions : service.options = options
  socket : spared → service.tree.HasSocket (Xsmp.controlSocket options.runtimeDirectory)

/-- A service has what it was begun with, and as long as it listens, its control socket is there,
if others have spared it. -/
structure Bound (seed : ServiceSeed) (options : ManagerOptions) (spared : Prop)
    (service : Service) : Prop where
  sameSeed : service.seed = seed
  sameOptions : service.options = options
  socket : spared → service.listening = true →
    service.tree.HasSocket (Xsmp.controlSocket options.runtimeDirectory)
  rests : service.stage.Rests

theorem Bound.up (h : Bound seed options spared service) (hlistening : service.listening = true) :
    Up seed options spared service :=
  ⟨h.sameSeed, h.sameOptions, fun hspared => h.socket hspared hlistening⟩

theorem Bound.up_of_running (h : Bound seed options spared service)
    (hstage : service.stage = .running manager) : Up seed options spared service :=
  h.up (by rw [listening, hstage])

theorem Up.bound (h : Up seed options spared service) (hrests : service.stage.Rests) :
    Bound seed options spared service :=
  ⟨h.sameSeed, h.sameOptions, fun hspared _ => h.socket hspared, hrests⟩

theorem bound_of_ended {failure : Option StartError} (hseed : service.seed = seed)
    (hoptions : service.options = options) (hstage : service.stage = .ended failure) :
    Bound seed options spared service where
  sameSeed := hseed
  sameOptions := hoptions
  socket _ hlistening := by
    rw [listening, hstage] at hlistening
    cases hlistening
  rests := by
    rw [hstage]
    trivial

/-- The socket stays where it is. -/
def Keeps (seed : ServiceSeed) (options : ManagerOptions) (spared : Prop)
    (next : Service → ServiceTurn) : Prop :=
  ∀ service, Bound seed options spared service → Bound seed options spared (next service).service

theorem Keeps.andThen {first second : Service → ServiceTurn} (h : Keeps seed options spared first)
    (h' : Keeps seed options spared second) :
    Keeps seed options spared fun service => (first service).andThen second :=
  fun service hbound => h' _ (h service hbound)

/-! ### While the manager runs -/

/-- The lock that is waited for stays beside the socket. -/
theorem Up.advance (h : Up seed options spared service) (hlock : ∀ left, lock ≠ .linking left)
    (hspared : spared) : (lock.advance service.authority service.clock service.tree).1.HasSocket
      (Xsmp.controlSocket options.runtimeDirectory) :=
  (LockStage.beside_advance service.clock (LockStage.linkable_of_ne hlock)).hasSocket
    (h.socket hspared)

theorem Up.finish (h : Up seed options spared service) (manager : Manager)
    (hlock : ∀ left, lock ≠ .linking left) :
    Bound seed options spared (finish service manager lock).service := by
  have hsocket := h.advance hlock
  rw [Service.finish]
  dsimp only
  split
  · next hasleep =>
    exact ⟨h.sameSeed, h.sameOptions, fun hspared _ => hsocket hspared,
      fun left heq => by rw [hasleep] at heq; cases heq⟩
  · exact bound_of_ended h.sameSeed h.sameOptions rfl
  · exact bound_of_ended h.sameSeed h.sameOptions rfl

theorem up_expose (h : Up seed options spared service) (control : Option Nat) (manager : Manager)
    (action : ManagerAction) :
    Up seed options spared (expose control manager action service).service := by
  cases action <;> exact ⟨h.sameSeed, h.sameOptions, h.socket⟩

theorem up_exposeAll (h : Up seed options spared service) (control : Option Nat) (manager : Manager)
    (actions : List ManagerAction) :
    Up seed options spared (exposeAll control manager actions service).service := by
  induction actions generalizing service with
  | nil => exact h
  | cons action actions ih => exact ih (up_expose h control manager action)

theorem bound_adopt (h : Up seed options spared service) (control : Option Nat)
    (turn : ManagerTurn) :
    Bound seed options spared (service.adopt control turn).service := by
  have hrunning : Up seed options spared { service with stage := .running turn.manager } :=
    ⟨h.sameSeed, h.sameOptions, h.socket⟩
  have hexposed := up_exposeAll hrunning control turn.manager turn.actions
  have hstage := (exposes_exposeAll control turn.manager turn.actions
    { service with stage := .running turn.manager }).stage
  rw [adopt, ServiceTurn.andThen]
  dsimp only
  split
  · exact hexposed.finish _ fun _ => LockStage.noConfusion
  · exact hexposed.bound (by rw [hstage]; trivial)

theorem keeps_handle (control : Option Nat) (event : ManagerEvent) :
    Keeps seed options spared (handle control event) := by
  intro service h
  rw [handle]
  split
  · next hstage => exact bound_adopt (h.up_of_running hstage) control _
  · exact h

theorem keeps_handleClient (key : ClientKey) (events : List ConnectionEvent) :
    Keeps seed options spared (handleClient key events) := by
  induction events with
  | nil => exact fun _ h => h
  | cons event events ih => exact (keeps_handle none _).andThen ih

theorem keeps_timePhases (left : Nat) : Keeps seed options spared (timePhases left) := by
  induction left with
  | zero => exact fun _ h => h
  | succ left ih =>
    intro service h
    rw [timePhases]
    split
    · exact (keeps_handle none _).andThen ih service h
    · exact h

theorem keeps_settle : Keeps seed options spared settle := by
  refine (keeps_timePhases _).andThen fun service h => ?_
  split
  · exact keeps_handle none _ service h
  · exact h

theorem keeps_accept : Keeps seed options spared accept := by
  intro service h
  rw [accept]
  split
  · exact ((keeps_handle none _).andThen keeps_settle) _
      ⟨h.sameSeed, h.sameOptions, h.socket, h.rests⟩
  · exact h

theorem keeps_readClient (key : ClientKey) (bytes : Bytes) :
    Keeps seed options spared (readClient key bytes) := by
  intro service h
  rw [readClient]
  split
  · exact h
  · exact ((keeps_handleClient key _).andThen keeps_settle) _
      ⟨h.sameSeed, h.sameOptions, h.socket, h.rests⟩

theorem keeps_endClient (key : ClientKey) : Keeps seed options spared (endClient key) := by
  intro service h
  rw [endClient]
  split
  · exact h
  · exact ((keeps_handleClient key _).andThen keeps_settle) _
      ⟨h.sameSeed, h.sameOptions, h.socket, h.rests⟩

theorem keeps_acceptWaiting (waiting : List Waiting) :
    Keeps seed options spared (acceptWaiting waiting) := by
  induction waiting with
  | nil => exact fun _ h => h
  | cons first waiting ih =>
    refine ((keeps_accept.andThen (keeps_readClient _ _)).andThen fun service h => ?_).andThen ih
    split
    · exact keeps_endClient _ service h
    · exact h

theorem keeps_handleControl (number : Nat) (events : List ControlEvent) :
    Keeps seed options spared (handleControl number events) := by
  induction events with
  | nil => exact fun _ h => h
  | cons event events ih =>
    intro service h
    cases event with
    | misunderstood => exact ih service h
    | closed => exact ⟨h.sameSeed, h.sameOptions, h.socket, h.rests⟩
    | request request =>
      rw [handleControl]
      split
      · exact (keeps_handle (some number) _).andThen ih service h
      · exact ⟨h.sameSeed, h.sameOptions, h.socket, h.rests⟩
      · exact ⟨h.sameSeed, h.sameOptions, h.socket, h.rests⟩

theorem keeps_proceed (number : Nat) (connection : ControlConnection) (reader : LineReader)
    (events : List ControlEvent) :
    Keeps seed options spared (proceed number connection reader events) :=
  fun _ h => keeps_handleControl number _ _ ⟨h.sameSeed, h.sameOptions, h.socket, h.rests⟩

theorem keeps_proceedAll (connections : List (Nat × ControlConnection)) :
    Keeps seed options spared (proceedAll connections) := by
  induction connections with
  | nil => exact fun _ h => h
  | cons first connections ih => exact (keeps_proceed _ _ _ _).andThen ih

/-! ### Coming up and going on -/

theorem bound_launch (h : Up seed options spared service) :
    Bound seed options spared (launch service).service := by
  have hwaiting : Up seed options spared { service with waiting := [] } :=
    ⟨h.sameSeed, h.sameOptions, h.socket⟩
  rw [launch]
  dsimp only [ServiceTurn.andThen]
  exact keeps_proceedAll _ _ (keeps_acceptWaiting _ _ (keeps_settle _
    (bound_adopt hwaiting none _)))

theorem bound_publish (h : Up seed options spared service) (hrests : service.stage.Rests)
    (hlock : ∀ left, lock ≠ .linking left) :
    Bound seed options spared (publish service lock).service := by
  have hsocket := h.advance hlock
  rw [publish]
  dsimp only
  split
  · next hasleep =>
    exact ⟨h.sameSeed, h.sameOptions, fun hspared _ => hsocket hspared,
      fun left heq => by rw [hasleep] at heq; cases heq⟩
  · split
    · next hreplace =>
      exact bound_launch ⟨h.sameSeed, h.sameOptions,
        fun hspared => Authority.hasSocket_replaceAndRelease (hsocket hspared) hreplace⟩
    · exact bound_of_ended h.sameSeed h.sameOptions rfl
  · exact bound_of_ended h.sameSeed h.sameOptions rfl
  · exact ⟨h.sameSeed, h.sameOptions, fun hspared _ => hsocket hspared, hrests⟩

/-- **A service that has begun is bound to the socket in its directory**, if it listens. -/
theorem bound_begin (seed : ServiceSeed) (options : ManagerOptions) (tree : FileTree)
    (now : Moment) (clock : Timestamp) :
    Bound seed options spared (begin seed options tree now clock).service := by
  rw [begin]
  dsimp only
  split
  · exact bound_of_ended rfl rfl rfl
  split
  · exact bound_of_ended rfl rfl rfl
  split
  · exact bound_of_ended rfl rfl rfl
  · next hbind =>
    split
    · exact bound_of_ended rfl rfl rfl
    · exact bound_publish ⟨rfl, rfl, fun _ => FileTree.hasSocket_of_bind hbind⟩
        (fun _ => LockStage.noConfusion) fun _ => LockStage.noConfusion

theorem keeps_advance (milliseconds : Nat) :
    Keeps seed options spared fun service => service.advance milliseconds := by
  intro service h
  show Bound seed options spared (service.advance milliseconds).service
  rw [Service.advance]
  dsimp only
  have hlater : Bound seed options spared { service with now := service.now + milliseconds } :=
    ⟨h.sameSeed, h.sameOptions, h.socket, h.rests⟩
  have hrests := h.rests
  split
  · next hstage =>
    rw [hstage] at hrests
    split
    · exact bound_publish (hlater.up (by rw [listening, hstage])) hlater.rests
        (LockStage.step_ne_linking hrests _ _ _)
    · exact hlater
  · next hstage =>
    rw [hstage] at hrests
    split
    · exact (hlater.up (by rw [listening, hstage])).finish _
        (LockStage.step_ne_linking hrests _ _ _)
    · exact hlater
  · exact keeps_settle _ hlater

/-! ### Everything that happens to a service -/

theorem keeps_connect (socket : Path) :
    Keeps seed options spared fun service => (service.connect socket).2 := by
  intro service h
  show Bound seed options spared (service.connect socket).2.service
  rw [connect]
  split
  · split
    · exact h
    · exact keeps_accept _ h
    · exact ⟨h.sameSeed, h.sameOptions, h.socket, h.rests⟩
    · exact ⟨h.sameSeed, h.sameOptions, h.socket, h.rests⟩
  · exact h

theorem keeps_openControl (socket : Path) :
    Keeps seed options spared fun service => { service := (service.openControl socket).2 } := by
  intro service h
  show Bound seed options spared (service.openControl socket).2
  rw [openControl]
  split
  · exact ⟨h.sameSeed, h.sameOptions, h.socket, h.rests⟩
  · exact h

theorem keeps_receiveControl (number : Nat) (bytes : Bytes) :
    Keeps seed options spared fun service => service.receiveControl number bytes := by
  intro service h
  show Bound seed options spared (service.receiveControl number bytes).service
  rw [receiveControl]
  split
  · exact h
  · exact ((keeps_proceed number _ _ _).andThen keeps_settle) service h

theorem keeps_hangUpControl (number : Nat) :
    Keeps seed options spared fun service => service.hangUpControl number := by
  intro service h
  show Bound seed options spared (service.hangUpControl number).service
  rw [hangUpControl]
  split
  · exact h
  · exact ((keeps_proceed number _ _ _).andThen keeps_settle) service h

/-- Whoever else changes files leaves the socket alone. -/
def Operation.Spares (socket : Path) : Operation → Prop
  | .elsewhere tree _ => tree.HasSocket socket
  | _ => True

theorem keeps_perform {operation : Operation}
    (h : spared → operation.Spares (Xsmp.controlSocket options.runtimeDirectory)) :
    Keeps seed options spared operation.perform := by
  cases operation with
  | connect socket => exact keeps_connect socket
  | receive client bytes =>
    exact fun _ hbound => keeps_readClient client bytes _
      ⟨hbound.sameSeed, hbound.sameOptions, hbound.socket, hbound.rests⟩
  | hangUp client =>
    exact fun _ hbound => keeps_endClient client _
      ⟨hbound.sameSeed, hbound.sameOptions, hbound.socket, hbound.rests⟩
  | openControl socket => exact keeps_openControl socket
  | receiveControl control bytes => exact keeps_receiveControl control bytes
  | hangUpControl control => exact keeps_hangUpControl control
  | processExited | signal => exact (keeps_handle none _).andThen keeps_settle
  | advance milliseconds => exact keeps_advance milliseconds
  | elsewhere tree clock =>
    exact fun _ hbound =>
      ⟨hbound.sameSeed, hbound.sameOptions, fun hspared _ => h hspared, hbound.rests⟩

theorem keeps_performAll {operations : List Operation}
    (h : spared → ∀ operation ∈ operations,
      operation.Spares (Xsmp.controlSocket options.runtimeDirectory)) :
    Keeps seed options spared (performAll operations) := by
  induction operations with
  | nil => exact fun _ hbound => hbound
  | cons operation operations ih =>
    simp only [List.forall_mem_cons] at h
    exact (keeps_perform fun hspared => (h hspared).1).andThen (ih fun hspared => (h hspared).2)

/-- **A service keeps its control socket**, whatever happens to it from the beginning, unless
someone else takes the socket away. -/
theorem bound_performAll (seed : ServiceSeed) (options : ManagerOptions) (tree : FileTree)
    (now : Moment) (clock : Timestamp) (operations : List Operation) :
    Bound seed options (∀ operation ∈ operations,
        operation.Spares (Xsmp.controlSocket options.runtimeDirectory))
      (performAll operations (begin seed options tree now clock).service).service :=
  keeps_performAll id _ (bound_begin seed options tree now clock)

/-! ## Asking a service -/

/-- A service listens at the path of its control socket. -/
theorem Bound.listensAt (h : Bound seed options spared service) (hspared : spared)
    (hlistening : service.listening = true) :
    service.listensAt (Xsmp.controlSocket options.runtimeDirectory) service.controlSocket =
      true := by
  obtain ⟨place, hreach⟩ := h.socket hspared hlistening
  have hplace : service.tree.locate service.controlSocket = .ok place := by
    rw [controlSocket, h.sameOptions]
    exact (FileTree.found?_eq_some_iff.mp (FileTree.reach_eq_some_iff.mp hreach).2.2).1
  rw [Service.listensAt, hlistening, hreach, hplace]
  exact beq_self_eq_true place

/-- A request that is sent there is not one to nobody. -/
theorem Bound.ask_ne_none (h : Bound seed options spared service) (hspared : spared)
    (hlistening : service.listening = true) (request : ControlRequest) :
    (service.ask (Xsmp.controlSocket options.runtimeDirectory) request).1 ≠ .ok none := by
  obtain ⟨place, hreach⟩ := h.socket hspared hlistening
  rw [ask, openControl, if_pos (h.listensAt hspared hlistening), hreach]
  dsimp only
  split <;> (intro heq; cases heq)

end Service

end Xsmp
