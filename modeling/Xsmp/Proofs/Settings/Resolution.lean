import Xsmp.Manager.Service

/-!
# Where settings come from

Each setting is chosen on its own: it has the value of its flag if that was given, else that of its
member in the configuration if it is there, else its default. A flag for directories is given if it
is given at all; a list of directories in the configuration counts even if it is empty, and a
runtime directory that is `null` counts as absent.
-/

namespace Xsmp

namespace Settings

/-! ## What a configuration says -/

/-- The names of the members, in the order in which a list gives them. -/
def memberNames : List String :=
  ["name", "autostart_dirs", "phase_timeout_secs", "handshake_timeout_secs", "runtime_dir",
    "authority_file"]

/-- What a configuration has under a name, if there is a configuration: an object by its members, a
list by its positions. -/
def member? (name : String) : Option Json → Option Json
  | some (.obj members) => members.lookup name
  | some (.arr items) => items[memberNames.idxOf name]?
  | _ => none

/-- A member that is `null` counts as absent. -/
def unlessNull : Option Json → Option Json
  | some .null => none
  | member => member

/-- The configuration of a session: that in the file that was given, else that in the user's own
file if it is there. -/
inductive Configuration (env : Environment) (tree : FileTree) : Option Path → Option Json → Prop
  | given {path : Path} {contents : String} {json : Json}
      (hcontents : tree.readText path = .ok contents)
      (hjson : Json.parseLenient? contents = some json) :
      Configuration env tree (some path) (some json)
  | own {path : Path} {contents : String} {json : Json} (hpath : env.settingsFile = some path)
      (hholds : tree.holds path = true) (hcontents : tree.readText path = .ok contents)
      (hjson : Json.parseLenient? contents = some json) : Configuration env tree none (some json)
  | none (h : ∀ path, env.settingsFile = some path → tree.holds path = false) :
      Configuration env tree none none

/-- The value of a setting: that of its flag if it was given, else that of its member if the
configuration has it, else the default. -/
inductive Chosen {α : Type} (flag : Option α) (member : Option Json) (read : Json → Option α)
    (default : α) : α → Prop
  | flag {value : α} (hflag : flag = some value) : Chosen flag member read default value
  | member {json : Json} {value : α} (hflag : flag = none) (hmember : member = some json)
      (hread : read json = some value) : Chosen flag member read default value
  | default (hflag : flag = none) (hmember : member = none) :
      Chosen flag member read default default

namespace Chosen

variable {α β : Type} {flag : Option α} {member : Option Json} {read : Json → Option α}
  {default value value' : α}

/-- There is no choice left. -/
theorem unique (h : Chosen flag member read default value)
    (h' : Chosen flag member read default value') : value = value' := by
  cases h with
  | flag hflag =>
    cases h' with
    | flag hflag' => exact Option.some.inj (hflag.symm.trans hflag')
    | member hnone | default hnone => cases hflag.symm.trans hnone
  | member hnone hmember hread =>
    cases h' with
    | flag hflag' => cases hflag'.symm.trans hnone
    | member _ hmember' hread' =>
      cases Option.some.inj (hmember.symm.trans hmember')
      exact Option.some.inj (hread.symm.trans hread')
    | default _ habsent => cases hmember.symm.trans habsent
  | default hnone habsent =>
    cases h' with
    | flag hflag' => cases hflag'.symm.trans hnone
    | member _ hmember' => cases hmember'.symm.trans habsent
    | default => rfl

/-- A flag takes the place of what there is without it. -/
theorem override (h : Chosen none member read default value) (flag : Option α) :
    Chosen flag member read default (flag.getD value) := by
  cases flag with
  | some value => exact .flag rfl
  | none =>
    cases h with
    | flag hflag => cases hflag
    | member _ hmember hread => exact .member rfl hmember hread
    | default _ habsent => exact .default rfl habsent

/-- A value in another unit is chosen alike. -/
theorem map (h : Chosen flag member read default value) (f : α → β) :
    Chosen (flag.map f) member (fun json => (read json).map f) (f default) (f value) := by
  cases h with
  | flag hflag => exact .flag (by rw [hflag, Option.map_some])
  | member hflag hmember hread =>
    exact .member (by rw [hflag, Option.map_none]) hmember (by rw [hread, Option.map_some])
  | default hflag habsent => exact .default (by rw [hflag, Option.map_none]) habsent

/-- What may be `null` and is not there otherwise has its default where it is needed. -/
theorem getD {value : Option α} (h : Chosen none member (Json.nullable read) none value)
    (default : α) : Chosen none (unlessNull member) read default (value.getD default) := by
  cases h with
  | flag hflag => cases hflag
  | default _ habsent => exact .default rfl (by rw [habsent]; rfl)
  | @member json _ _ hmember hread =>
    rw [hmember]
    cases json with
    | null =>
      cases hread
      exact .default rfl rfl
    | _ =>
      obtain ⟨read', hread', rfl⟩ := Option.map_eq_some_iff.mp hread
      exact .member rfl rfl hread'

end Chosen

/-! ## Reading a configuration -/

/-- A name is looked up among names with values at the position of the name. -/
theorem lookup_zip {names : List String} {name : String} (h : name ∈ names) (items : List Json) :
    (names.zip items).lookup name = items[names.idxOf name]? := by
  induction names generalizing items with
  | nil => cases h
  | cons first names ih =>
    cases items with
    | nil => simp
    | cons item items =>
      by_cases hname : name = first
      · simp [hname]
      · have hrest : name ∈ names := by simpa [hname] using h
        have hother : (name == first) = false := beq_eq_false_iff_ne.mpr hname
        have hother' : (first == name) = false := beq_eq_false_iff_ne.mpr (Ne.symm hname)
        rw [List.zip_cons_cons, List.lookup_cons, hother, List.idxOf_cons, hother']
        exact ih hrest items

/-- A field of a configuration is its member, if it has that. -/
theorem field_cases {json : Json} {fields : String → Json.Field}
    (h : json.record? memberNames = some fields) {name : String} (hname : name ∈ memberNames) :
    (∃ value, member? name (some json) = some value ∧ fields name = .given value) ∨
      (member? name (some json) = none ∧ (fields name = .omitted ∨ fields name = .ended)) := by
  cases json with
  | obj members =>
    rw [Json.record?] at h
    split at h
    · cases h
    cases h
    rw [member?]
    dsimp only
    cases members.lookup name with
    | none => exact .inr ⟨rfl, .inl rfl⟩
    | some value => exact .inl ⟨value, rfl, rfl⟩
  | arr items =>
    rw [Json.record?] at h
    split at h
    · cases h
    cases h
    rw [member?, ← lookup_zip hname]
    dsimp only
    cases (memberNames.zip items).lookup name with
    | none => exact .inr ⟨rfl, .inr rfl⟩
    | some value => exact .inl ⟨value, rfl, rfl⟩
  | _ => cases h

/-- A field is read as it is chosen without a flag. -/
theorem withDefault_eq_some_iff {α : Type} {json : Json} {fields : String → Json.Field}
    (h : json.record? memberNames = some fields) {name : String} (hname : name ∈ memberNames)
    {read : Json → Option α} {default value : α} :
    (fields name).withDefault default read = some value ↔
      Chosen none (member? name (some json)) read default value := by
  rcases field_cases h hname with ⟨given, hmember, hgiven⟩ | ⟨habsent, hfields⟩
  · rw [hgiven, hmember, Json.Field.withDefault]
    constructor
    · exact fun hread => .member rfl rfl hread
    · rintro (hflag | ⟨-, hgiven, hread⟩ | ⟨-, hnone⟩)
      · cases hflag
      · cases hgiven
        exact hread
      · cases hnone
  · have hdefault : (fields name).withDefault default read = some default := by
      rcases hfields with hfields | hfields <;> rw [hfields, Json.Field.withDefault] <;>
        exact fun _ => Json.Field.noConfusion
    rw [hdefault, habsent, Option.some.injEq]
    constructor
    · rintro rfl
      exact .default rfl rfl
    · exact fun hchosen => (Chosen.default rfl rfl).unique hchosen

/-- Settings as a configuration gives them, with the defaults where it does not. -/
structure Stated (env : Environment) (file : Option Json) (settings : Settings) : Prop where
  name : Chosen none (member? "name" file) (Json.nullable Json.text?) none settings.name
  autostartDirectories : Chosen none (member? "autostart_dirs" file) (Json.list? path?)
    env.autostartDirectories settings.autostartDirectories
  phaseTimeout : Chosen none (member? "phase_timeout_secs" file)
    (Json.natural? Json.maxUnsigned) 10 settings.phaseTimeout
  handshakeTimeout : Chosen none (member? "handshake_timeout_secs" file)
    (Json.natural? Json.maxUnsigned) 5 settings.handshakeTimeout
  runtimeDirectory : Chosen none (member? "runtime_dir" file) (Json.nullable path?) none
    settings.runtimeDirectory
  authorityFile : Chosen none (member? "authority_file" file) (Json.nullable path?) none
    settings.authorityFile

theorem stated_default (env : Environment) : Stated env none (default env) := by
  constructor <;> exact .default rfl rfl

/-- A configuration is an object in which no setting is given twice, or a list that is no longer
than that of the settings, or there is none. -/
def IsRecord : Option Json → Prop
  | some (.obj members) => ∀ name ∈ memberNames, members.countP (·.1 == name) ≤ 1
  | some (.arr items) => items.length ≤ memberNames.length
  | some _ => False
  | none => True

theorem isRecord_iff {json : Json} :
    IsRecord (some json) ↔ (json.record? memberNames).isSome := by
  cases json with
  | obj members =>
    rw [IsRecord, Json.record?]
    split
    · next htwice =>
      obtain ⟨name, hname, hcount⟩ := List.any_eq_true.mp htwice
      refine ⟨fun h => absurd (h name hname) (Nat.not_le.mpr (of_decide_eq_true hcount)), ?_⟩
      exact fun h => (Bool.false_ne_true h).elim
    · next honce =>
      refine ⟨fun _ => rfl, fun _ name hname => Nat.le_of_not_lt fun hcount => ?_⟩
      exact honce (List.any_eq_true.mpr ⟨name, hname, decide_eq_true hcount⟩)
  | arr items =>
    rw [IsRecord, Json.record?]
    split <;> simp <;> omega
  | _ => simp [IsRecord, Json.record?]

/-- What is read from a configuration is what it states. -/
theorem ofJson?_eq_some_iff {env : Environment} {json : Json} {settings : Settings} :
    ofJson? env json = some settings ↔
      (json.record? memberNames).isSome ∧ Stated env (some json) settings := by
  unfold ofJson?
  simp only [bind, Option.bind_eq_some_iff, pure, Option.some.injEq]
  constructor
  · rintro ⟨fields, hfields, name, hname, directories, hdirectories, phase, hphase, handshake,
      hhandshake, runtime, hruntime, authority, hauthority, rfl⟩
    refine ⟨Option.isSome_of_eq_some hfields, ?_, ?_, ?_, ?_, ?_, ?_⟩
    · exact (withDefault_eq_some_iff hfields (by decide)).mp hname
    · exact (withDefault_eq_some_iff hfields (by decide)).mp hdirectories
    · exact (withDefault_eq_some_iff hfields (by decide)).mp hphase
    · exact (withDefault_eq_some_iff hfields (by decide)).mp hhandshake
    · exact (withDefault_eq_some_iff hfields (by decide)).mp hruntime
    · exact (withDefault_eq_some_iff hfields (by decide)).mp hauthority
  · rintro ⟨hrecord, hstated⟩
    obtain ⟨fields, hfields⟩ := Option.isSome_iff_exists.mp hrecord
    exact ⟨fields, hfields,
      _, (withDefault_eq_some_iff hfields (by decide)).mpr hstated.name,
      _, (withDefault_eq_some_iff hfields (by decide)).mpr hstated.autostartDirectories,
      _, (withDefault_eq_some_iff hfields (by decide)).mpr hstated.phaseTimeout,
      _, (withDefault_eq_some_iff hfields (by decide)).mpr hstated.handshakeTimeout,
      _, (withDefault_eq_some_iff hfields (by decide)).mpr hstated.runtimeDirectory,
      _, (withDefault_eq_some_iff hfields (by decide)).mpr hstated.authorityFile, rfl⟩

variable {env : Environment} {tree : FileTree} {settings : Settings}

theorem Stated.unique {file : Option Json} {settings' : Settings} (h : Stated env file settings)
    (h' : Stated env file settings') : settings = settings' := by
  obtain ⟨hname, hautostart, hphase, hhandshake, hruntime, hauthority⟩ := h
  cases settings
  cases settings'
  congr
  · exact hname.unique h'.name
  · exact hautostart.unique h'.autostartDirectories
  · exact hphase.unique h'.phaseTimeout
  · exact hhandshake.unique h'.handshakeTimeout
  · exact hruntime.unique h'.runtimeDirectory
  · exact hauthority.unique h'.authorityFile

theorem loadFile_eq_ok_iff {path : Path} {contents : String} {json : Json}
    (hcontents : tree.readText path = .ok contents)
    (hjson : Json.parseLenient? contents = some json) :
    loadFile env tree path = .ok settings ↔
      IsRecord (some json) ∧ Stated env (some json) settings := by
  rw [isRecord_iff, ← ofJson?_eq_some_iff, loadFile, hcontents]
  dsimp only
  rw [hjson, Option.bind_some]
  cases ofJson? env json <;> simp

/-- **A configuration is loaded if it is a record whose members can be read**, whichever of them
it has, and the settings are what it states. -/
theorem load_eq_ok_iff {given : Option Path} {file : Option Json}
    (h : Configuration env tree given file) :
    load env tree given = .ok settings ↔ IsRecord file ∧ Stated env file settings := by
  cases h with
  | given hcontents hjson => exact loadFile_eq_ok_iff hcontents hjson
  | own hpath hholds hcontents hjson =>
    rw [load, hpath, Option.filter_some, if_pos hholds]
    exact loadFile_eq_ok_iff hcontents hjson
  | none habsent =>
    have hnone : env.settingsFile.filter tree.holds = none := by
      rw [Option.filter_eq_none_iff]
      intro path hpath
      rw [habsent path hpath]
      exact Bool.false_ne_true
    rw [load, hnone, Except.ok.injEq]
    constructor
    · rintro rfl
      exact ⟨trivial, stated_default env⟩
    · exact fun hstated => (stated_default env).unique hstated.2

theorem loadFile_ok {path : Path} (h : loadFile env tree path = .ok settings) :
    ∃ contents json, tree.readText path = .ok contents ∧
      Json.parseLenient? contents = some json := by
  unfold loadFile at h
  split at h
  · cases h
  · next contents hcontents =>
    split at h
    · next hread =>
      obtain ⟨json, hjson, -⟩ := Option.bind_eq_some_iff.mp hread
      exact ⟨contents, json, hcontents, hjson⟩
    · cases h

/-- Settings that could be loaded are those of a configuration. -/
theorem exists_configuration {given : Option Path} (h : load env tree given = .ok settings) :
    ∃ file, Configuration env tree given file := by
  unfold load at h
  split at h
  · obtain ⟨contents, json, hcontents, hjson⟩ := loadFile_ok h
    exact ⟨some json, .given hcontents hjson⟩
  · split at h
    · next path hpath =>
      obtain ⟨hown, hholds⟩ := Option.filter_eq_some_iff.mp hpath
      obtain ⟨contents, json, hcontents, hjson⟩ := loadFile_ok h
      exact ⟨some json, .own hown hholds hcontents hjson⟩
    · next hnone =>
      refine ⟨none, .none fun path hpath => ?_⟩
      rw [hpath, Option.filter_eq_none_iff] at hnone
      simpa using hnone path rfl

/-! ## Choosing -/

/-- A setting of which several values may be given, and none means that it was not. -/
def givenAny {α : Type} (values : List α) : Option (List α) :=
  if values.isEmpty then none else some values

/-- What a session manager is started with: each setting on its own from its flag, its member or
its default. -/
structure Resolved (env : Environment) (file : Option Json) (flags : Overrides)
    (options : ManagerOptions) : Prop where
  name : Chosen (flags.name.map some) (member? "name" file) (Json.nullable Json.text?) none
    options.name
  runtimeDirectory : Chosen flags.runtimeDirectory (unlessNull (member? "runtime_dir" file)) path?
    env.runtimeDirectory options.runtimeDirectory
  autostartDirectories : Chosen (givenAny flags.autostartDirectories)
    (member? "autostart_dirs" file) (Json.list? path?) env.autostartDirectories
    options.autostartDirectories
  phaseTimeout : Chosen (flags.phaseTimeout.map (· * 1000)) (member? "phase_timeout_secs" file)
    (fun json => (Json.natural? Json.maxUnsigned json).map (· * 1000)) 10000 options.phaseTimeout
  handshakeTimeout : Chosen (flags.handshakeTimeout.map (· * 1000))
    (member? "handshake_timeout_secs" file)
    (fun json => (Json.natural? Json.maxUnsigned json).map (· * 1000)) 5000
    options.handshakeTimeout
  authorityFile : Chosen none (member? "authority_file" file) (Json.nullable path?) none
    options.authorityFile

/-- Settings with the flags in their places are resolved. -/
theorem Stated.resolved {file : Option Json} (h : Stated env file settings) (flags : Overrides) :
    Resolved env file flags ((settings.override flags).options env) where
  name := by
    have hname : ((settings.override flags).options env).name =
        (flags.name.map some).getD settings.name := by
      show flags.name.or settings.name = _
      cases flags.name <;> rfl
    exact hname ▸ h.name.override (flags.name.map some)
  runtimeDirectory := by
    have hdirectory : ((settings.override flags).options env).runtimeDirectory =
        flags.runtimeDirectory.getD (settings.runtimeDirectory.getD env.runtimeDirectory) :=
      Option.getD_or
    exact hdirectory ▸
      (h.runtimeDirectory.getD env.runtimeDirectory).override flags.runtimeDirectory
  autostartDirectories := by
    have hdirectories : ((settings.override flags).options env).autostartDirectories =
        (givenAny flags.autostartDirectories).getD settings.autostartDirectories := by
      show (if flags.autostartDirectories.isEmpty then _ else _) = _
      rw [givenAny]
      split <;> rfl
    exact hdirectories ▸ h.autostartDirectories.override (givenAny flags.autostartDirectories)
  phaseTimeout := (h.phaseTimeout.override flags.phaseTimeout).map (· * 1000)
  handshakeTimeout := (h.handshakeTimeout.override flags.handshakeTimeout).map (· * 1000)
  authorityFile := h.authorityFile

theorem Resolved.unique {file : Option Json} {flags : Overrides}
    {options options' : ManagerOptions}
    (h : Resolved env file flags options) (h' : Resolved env file flags options') :
    options = options' := by
  obtain ⟨hname, hruntime, hautostart, hphase, hhandshake, hauthority⟩ := h
  cases options
  cases options'
  congr
  · exact hname.unique h'.name
  · exact hruntime.unique h'.runtimeDirectory
  · exact hautostart.unique h'.autostartDirectories
  · exact hphase.unique h'.phaseTimeout
  · exact hhandshake.unique h'.handshakeTimeout
  · exact hauthority.unique h'.authorityFile

end Settings

/-- Two sets of flags one after the other: a flag of the second counts where it was given. -/
def Overrides.andThen (first second : Overrides) : Overrides where
  name := second.name.or first.name
  autostartDirectories :=
    if second.autostartDirectories = [] then first.autostartDirectories
    else second.autostartDirectories
  phaseTimeout := second.phaseTimeout.or first.phaseTimeout
  handshakeTimeout := second.handshakeTimeout.or first.handshakeTimeout
  runtimeDirectory := second.runtimeDirectory.or first.runtimeDirectory

/-- **Two sets of flags one after the other are one.** -/
theorem Settings.override_override (settings : Settings) (first second : Overrides) :
    (settings.override first).override second = settings.override (first.andThen second) := by
  simp only [override, Overrides.andThen, Settings.mk.injEq]
  refine ⟨(Option.or_assoc ..).symm, ?_, Option.getD_or.symm, Option.getD_or.symm,
    (Option.or_assoc ..).symm, trivial⟩
  by_cases hsecond : second.autostartDirectories = [] <;> simp [hsecond]

end Xsmp
