import Xsmp.Proofs.Control.Socket
import Xsmp.Proofs.Settings.Resolution

/-!
# A session is found where it was started

The directory of the sockets is worked out in two ways: for a session that is started, with all of
its settings, and for a request to one, on its own. Both ways lead to the same directory, so a
request is sent to the socket that the session listens on.
-/

namespace Xsmp

namespace Invocation

variable {env : Environment} {tree : FileTree} {settings : Settings} {start remote : Invocation}
  {options : ManagerOptions}

theorem options_of_load (h : Settings.load env tree start.config = .ok settings) :
    start.options env tree = .ok ((settings.override start.overrides).options env) := by
  rw [Invocation.options, h]
  rfl

/-- The directory that a request is about is that of a session started with the same flag. -/
theorem sockets_eq (h : remote.overrides.runtimeDirectory = start.overrides.runtimeDirectory) :
    remote.sockets settings env =
      ((settings.override start.overrides).options env).runtimeDirectory := by
  rw [sockets, h]
  exact Option.getD_or.symm

/-- Where a request is sent. -/
theorem target?_eq (hload : Settings.load env tree start.config = .ok settings)
    (hoptions : start.options env tree = .ok options)
    (hflag : remote.overrides.runtimeDirectory = start.overrides.runtimeDirectory) :
    Remote.target? remote settings env = (Remote.request? remote.action).map
      (controlSocket options.runtimeDirectory, ·) := by
  obtain rfl := Except.ok.inj (hoptions.symm.trans (options_of_load hload))
  rw [Remote.target?, sockets_eq hflag]

end Invocation

/-- A request of the command line comes to a service at its own control socket, and finds
somebody there. -/
structure Service.AskedBy (remote : Invocation) (request : ControlRequest) (service : Service) :
    Prop where
  listens : service.listensAt service.controlSocket service.controlSocket = true
  asked : service.invoke remote =
    (Remote.outcome service.controlSocket (service.ask service.controlSocket request).1,
      (service.ask service.controlSocket request).2)
  somebody : (service.ask service.controlSocket request).1 ≠ .ok none

theorem Service.Bound.askedBy {seed : ServiceSeed} {options : ManagerOptions} {spared : Prop}
    {service : Service} {settings : Settings} {remote : Invocation} {request : ControlRequest}
    (h : Bound seed options spared service) (hspared : spared)
    (hlistening : service.listening = true)
    (hload : Settings.load seed.env service.tree remote.config = .ok settings)
    (htarget : Remote.target? remote settings seed.env =
      some (Xsmp.controlSocket options.runtimeDirectory, request)) :
    service.AskedBy remote request := by
  have hsocket : service.controlSocket = Xsmp.controlSocket options.runtimeDirectory := by
    rw [Service.controlSocket, h.sameOptions]
  refine ⟨?_, ?_, ?_⟩ <;> rw [hsocket]
  · exact hsocket ▸ h.listensAt hspared hlistening
  · rw [invoke, h.sameSeed, hload]
    dsimp only
    rw [htarget]
  · exact h.ask_ne_none hspared hlistening request

/-- **Flags, configuration and defaults come to the same for a session manager and for requests to
it.** Each setting of a session that is started is its flag, else its member, else its default, and
there is no other choice. A configuration is loaded whichever members it has, if those can be read.
Flags given one after the other are one set of flags. A request is sent
to the control socket that a session with the same directory flag, configuration and environment
listens on, whatever has happened to it since it began, unless someone else took the socket
away. -/
theorem settings_agree :
    (∀ (env : Environment) (tree : FileTree) (start : Invocation) (settings : Settings),
      Settings.load env tree start.config = .ok settings →
      ∃ file options, Settings.Configuration env tree start.config file ∧
        start.options env tree = .ok options ∧
        ∀ options', Settings.Resolved env file start.overrides options' ↔ options' = options) ∧
    (∀ (env : Environment) (tree : FileTree) (given : Option Path) (file : Option Json)
        (settings : Settings), Settings.Configuration env tree given file →
      (Settings.load env tree given = .ok settings ↔
        Settings.IsRecord file ∧ Settings.Stated env file settings)) ∧
    (∀ (settings : Settings) (first second : Overrides),
      (settings.override first).override second = settings.override (first.andThen second)) ∧
    (∀ (env : Environment) (tree : FileTree) (start remote : Invocation) (settings : Settings)
        (options : ManagerOptions),
      Settings.load env tree start.config = .ok settings → start.options env tree = .ok options →
      remote.overrides.runtimeDirectory = start.overrides.runtimeDirectory →
      Remote.target? remote settings env = (Remote.request? remote.action).map
        (controlSocket options.runtimeDirectory, ·)) ∧
    ∀ (seed : ServiceSeed) (options : ManagerOptions) (files : FileTree) (now : Moment)
        (clock : Timestamp) (operations : List Service.Operation) (service : Service),
      service = (Service.performAll operations
        (Service.begin seed options files now clock).service).service →
      service.controlSocket = controlSocket options.runtimeDirectory ∧
      ∀ (start remote : Invocation) (settings : Settings) (request : ControlRequest),
        Settings.load seed.env files start.config = .ok settings →
        start.options seed.env files = .ok options →
        Settings.load seed.env service.tree remote.config = .ok settings →
        remote.overrides.runtimeDirectory = start.overrides.runtimeDirectory →
        Remote.request? remote.action = some request →
        (∀ operation ∈ operations, operation.Spares (controlSocket options.runtimeDirectory)) →
        service.listening = true → service.AskedBy remote request := by
  refine ⟨?_, fun _ _ _ _ _ => Settings.load_eq_ok_iff, Settings.override_override, ?_, ?_⟩
  · intro env tree start settings hload
    obtain ⟨file, hfile⟩ := Settings.exists_configuration hload
    have hresolved := ((Settings.load_eq_ok_iff hfile).mp hload).2.resolved start.overrides
    refine ⟨file, _, hfile, Invocation.options_of_load hload, fun options' => ?_⟩
    exact ⟨fun h => h.unique hresolved, fun h => h ▸ hresolved⟩
  · exact fun env tree start remote settings options => Invocation.target?_eq
  · rintro seed options files now clock operations service rfl
    have hbound := Service.bound_performAll seed options files now clock operations
    refine ⟨by rw [Service.controlSocket, hbound.sameOptions], ?_⟩
    intro start remote settings request hload hoptions hlater hflag hrequest hspares hlistening
    have hsent := Invocation.target?_eq hload hoptions hflag
    rw [hrequest] at hsent
    exact hbound.askedBy hspares hlistening hlater hsent

/-- A configuration that has an empty list and a directory that is `null`, and leaves things out. -/
def FileTree.configured : FileTree :=
  FileTree.plantAll {} [(⟨"/tmp"⟩, none), (⟨"/home/gsm.json"⟩, some (utf8
    "\x7b\"runtime_dir\": null, \"autostart_dirs\": [], \"phase_timeout_secs\": 20\x7d"))] 0

/-- What the configuration comes to. -/
def Settings.configured : Settings where
  name := none
  autostartDirectories := []
  phaseTimeout := 20
  handshakeTimeout := 5
  runtimeDirectory := none
  authorityFile := none

def Invocation.startNamed : Invocation where
  verbose := 0
  config := some ⟨"/home/gsm.json"⟩
  overrides := { name := some "desk", handshakeTimeout := some 3 }
  action := .run

def Invocation.logoutThere : Invocation where
  verbose := 0
  config := some ⟨"/home/gsm.json"⟩
  overrides := {}
  action := .logout

def ServiceSeed.plain : ServiceSeed where
  env := { home := some ⟨"/home"⟩ }
  programs := []
  ids := .ofSeeds 0 0 0
  connectionCookie := []
  sessionCookie := []

/-- What a named session is started with: two flags, two members and the default directory. -/
def ManagerOptions.named : ManagerOptions where
  name := some "desk"
  runtimeDirectory := ⟨"/tmp/gsm-0"⟩
  autostartDirectories := []
  phaseTimeout := 20000
  handshakeTimeout := 3000
  authorityFile := none

/-- The named session after a while. -/
def Service.named : Service :=
  (Service.performAll [.openControl ⟨"/tmp/gsm-0/control.sock"⟩, .advance 5000]
    (Service.begin .plain .named .configured 0 0).service).service

/-- A named session is asked to log out. -/
theorem settings_agree_named :
    (∃ file, Settings.Configuration ServiceSeed.plain.env .configured
        Invocation.startNamed.config file ∧
      Settings.IsRecord file ∧ Settings.Stated ServiceSeed.plain.env file .configured ∧
      Settings.Resolved ServiceSeed.plain.env file Invocation.startNamed.overrides .named) ∧
    Remote.target? .logoutThere .configured ServiceSeed.plain.env =
      some (⟨"/tmp/gsm-0/control.sock"⟩, .logout) ∧
    Service.named.controlSocket = ⟨"/tmp/gsm-0/control.sock"⟩ ∧
    Service.named.AskedBy .logoutThere .logout := by
  have hload : Settings.load ServiceSeed.plain.env .configured Invocation.startNamed.config =
      .ok .configured := by decide +kernel
  have hoptions : Invocation.startNamed.options ServiceSeed.plain.env .configured =
      .ok .named := by
    rw [Invocation.options_of_load hload]
    rfl
  have hstands : Service.named.listening = true ∧
      Settings.load ServiceSeed.plain.env Service.named.tree Invocation.logoutThere.config =
        .ok .configured := by decide +kernel
  have hspares : ∀ operation ∈ [Service.Operation.openControl ⟨"/tmp/gsm-0/control.sock"⟩,
      .advance 5000], operation.Spares (controlSocket ManagerOptions.named.runtimeDirectory) := by
    simp [Service.Operation.Spares]
  obtain ⟨hresolves, hloads, -, htarget, hasked⟩ := settings_agree
  obtain ⟨file, options, hfile, hoptions', hall⟩ := hresolves _ _ _ _ hload
  obtain rfl := Except.ok.inj (hoptions.symm.trans hoptions')
  obtain ⟨hrecord, hstated⟩ := (hloads _ _ _ _ _ hfile).mp hload
  obtain ⟨hsocket, hservice⟩ := hasked .plain .named .configured 0 0 _ .named rfl
  refine ⟨⟨file, hfile, hrecord, hstated, (hall _).mpr rfl⟩,
    htarget _ _ .startNamed .logoutThere _ _ hload hoptions rfl, hsocket, ?_⟩
  exact hservice .startNamed .logoutThere .configured .logout hload hoptions hstands.2 rfl rfl
    hspares hstands.1

end Xsmp
