import EvQueue.Base.Variables
import EvQueue.EvqueueMonitor
import EvQueue.Reloads

/-!
# TaskProcess — what a task is executed with, from the document to `execv`

`TaskExecute` hands its settings to `evqueue_monitor` through the environment, and the inputs of a task on the
command line or, for a task in mode `ENV`, through the same environment.
-/

namespace EvQueue

open ShellWords

/-- The bytes of a `char *`. -/
def utf8 (s : String) : Bytes := s.toUTF8.data.toList

/-- What `setenv` accepts. -/
def IsVariableName (name : Bytes) : Prop := name ≠ [] ∧ byte '=' ∉ name

instance : DecidablePred IsVariableName := fun name ↦ inferInstanceAs (Decidable (name ≠ [] ∧ _))

abbrev ProcessEnvironment := Variables Bytes Bytes IsVariableName

/-- The variables through which `TaskExecute` talks to `evqueue_monitor`. -/
inductive MonitorVariable where
  | workingDirectory
  | sshHost
  | sshUser
  | sshPath
  | sshKey
deriving DecidableEq, Repr

def MonitorVariable.name : MonitorVariable → Bytes
  | workingDirectory => bytes "EVQUEUE_WORKING_DIRECTORY"
  | sshHost => bytes "EVQUEUE_SSH_HOST"
  | sshUser => bytes "EVQUEUE_SSH_USER"
  | sshPath => bytes "EVQUEUE_SSH_PATH"
  | sshKey => bytes "EVQUEUE_SSH_KEY"

/-- The calls of `getenv` in `main`. -/
def MonitorEnvironment.ofProcess (env : ProcessEnvironment) : MonitorEnvironment where
  workingDirectory := env.getenv MonitorVariable.workingDirectory.name
  sshHost := env.getenv MonitorVariable.sshHost.name
  sshKey := env.getenv MonitorVariable.sshKey.name
  sshUser := env.getenv MonitorVariable.sshUser.name
  sshPath := env.getenv MonitorVariable.sshPath.name

/-- What `TaskExecute` reads of the configuration. -/
structure TaskSettings where
  tasksDirectory : Bytes
  monitorPath : Bytes
  sshPath : Bytes
  sshKey : Bytes

/-- What `TaskExecute` has read of the task and of the document when it forks. -/
structure TaskLaunch where
  task : TaskDefinition
  /-- The attributes of the workflow. -/
  host : Option Bytes
  user : Option Bytes
  /-- The `input` nodes: their names, if they have one, and their values. -/
  inputs : List (Option Bytes × Bytes)
  tid : Int

/-- The directories of the machine. -/
structure Directories where
  /-- Where the engine was started; the monitor begins there. -/
  cwd : Bytes
  /-- What the directory becomes by `chdir`, which may fail. -/
  chdir : Bytes → Option Bytes

/-- A path as it is looked up in a directory. -/
def lookUp (directory path : Bytes) : Bytes :=
  if path.head? == some (byte '/') then path else directory ++ byte '/' :: path

/-- What the monitor executes. -/
structure Executed where
  /-- Where it calls `execv`. -/
  directory : Bytes
  argv : List Bytes
  environment : ProcessEnvironment

/-- The file that `execv` executes. -/
def Executed.file (e : Executed) : Option Bytes := e.argv.head?.map (lookUp e.directory)

namespace TaskLaunch

/-! ## The child of `TaskExecute`, and the monitor -/

def isAbsolutePath (l : TaskLaunch) : Bool := (utf8 l.task.taskBinary).head? == some (byte '/')

def taskFilename (c : TaskSettings) (l : TaskLaunch) : Bytes :=
  if l.isAbsolutePath then utf8 l.task.taskBinary
  else c.tasksDirectory ++ byte '/' :: utf8 l.task.taskBinary

/-- `EVQUEUE_SSH_HOST` and `EVQUEUE_SSH_USER`: the user goes with the host, of the task or of the workflow. -/
def setHost (l : TaskLaunch) (env : ProcessEnvironment) : ProcessEnvironment :=
  match l.task.taskHost with
  | some taskHost =>
      let env := env.setenv MonitorVariable.sshHost.name (utf8 taskHost)
      match l.task.taskUser with
      | some taskUser => env.setenv MonitorVariable.sshUser.name (utf8 taskUser)
      | none => env
  | none =>
      match l.host with
      | some sshHost =>
          let env := env.setenv MonitorVariable.sshHost.name sshHost
          match l.user with
          | some sshUser => env.setenv MonitorVariable.sshUser.name sshUser
          | none => env
      | none => env

def environment (c : TaskSettings) (l : TaskLaunch) (env : ProcessEnvironment) : ProcessEnvironment :=
  let env := match l.task.taskWd with
    | some taskWd => env.setenv MonitorVariable.workingDirectory.name (utf8 taskWd)
    | none => env
  let env := l.setHost env
  if (env.getenv MonitorVariable.sshHost.name).isSome then
    let env := env.setenv MonitorVariable.sshPath.name c.sshPath
    if c.sshKey.length > 0 then env.setenv MonitorVariable.sshKey.name c.sshKey else env
  else env

/-- The inputs as variables. -/
def parameters (l : TaskLaunch) : List (Bytes × Bytes) :=
  l.inputs.map fun p ↦ (p.1.getD (bytes "DEFAULT_PARAMETER_NAME"), p.2)

/-- The arguments behind `tid_str`. -/
def arguments (l : TaskLaunch) : List Bytes :=
  match l.task.parametersMode with
  | .cmdline => l.inputs.map Prod.snd
  | .env => []

/-- The arguments and the environment of `execv`, in the child. -/
def execMonitor (c : TaskSettings) (l : TaskLaunch) (env : ProcessEnvironment) :
    List Bytes × ProcessEnvironment :=
  let env := l.environment c env
  let argv := c.monitorPath :: l.taskFilename c :: utf8 (toString l.tid) :: l.arguments
  match l.task.parametersMode with
  | .cmdline => (argv, env)
  | .env => (argv, env.exports l.parameters)

/-- Where the monitor calls `execv`; it does not look at what `chdir` returns. -/
def directory (dirs : Directories) (monitor : MonitorEnvironment) : Bytes :=
  match monitor.workingDirectory with
  | some workingDirectory =>
      if monitor.usesSsh then dirs.cwd else (dirs.chdir workingDirectory).getD dirs.cwd
  | none => dirs.cwd

/-- From the environment of the engine to the task; `none` as for `taskArgv`. -/
def executed (c : TaskSettings) (dirs : Directories) (l : TaskLaunch) (env : ProcessEnvironment) :
    Option Executed :=
  let (argv, environment) := l.execMonitor c env
  let monitor := MonitorEnvironment.ofProcess environment
  (EvqueueMonitor.taskArgv monitor argv).map fun argv ↦
    { directory := directory dirs monitor
      argv
      environment }

/-! ## What the monitor reads -/

variable {c : TaskSettings} {dirs : Directories} {l : TaskLaunch} {env : ProcessEnvironment} {value : Bytes}

theorem name_valid (v : MonitorVariable) : IsVariableName v.name := by
  cases v <;> decide

theorem name_inj {v w : MonitorVariable} (h : v.name = w.name) : v = w := by
  revert h
  cases v <;> cases w <;> decide

theorem getenv_setenv_name (v w : MonitorVariable) : (env.setenv v.name value).getenv w.name =
    if w = v then some value else env.getenv w.name := by
  split
  · rename_i heq
    rw [heq]
    exact Variables.getenv_setenv (name_valid v)
  · rename_i hne
    exact Variables.getenv_setenv_of_ne fun heq ↦ hne (name_inj heq)

/-- None of the variables is set where the engine was started. -/
def Clean (env : ProcessEnvironment) : Prop := ∀ v : MonitorVariable, env.getenv v.name = none

/-- Where the task is to be executed, and as whom. -/
def destination (l : TaskLaunch) : Option (Bytes × Option Bytes) :=
  match l.task.taskHost with
  | some taskHost => some (utf8 taskHost, l.task.taskUser.map utf8)
  | none => l.host.map fun sshHost ↦ (sshHost, l.user)

/-- The variables that stand for this task. -/
def monitorEnvironment (c : TaskSettings) (l : TaskLaunch) : MonitorEnvironment where
  workingDirectory := l.task.taskWd.map utf8
  sshHost := l.destination.map Prod.fst
  sshKey := if l.destination.isSome ∧ 0 < c.sshKey.length then some c.sshKey else none
  sshUser := l.destination.bind Prod.snd
  sshPath := if l.destination.isSome then some c.sshPath else none

theorem setHost_eq (env : ProcessEnvironment) : l.setHost env =
    match l.destination with
    | none => env
    | some (host, none) => env.setenv MonitorVariable.sshHost.name host
    | some (host, some user) =>
        (env.setenv MonitorVariable.sshHost.name host).setenv MonitorVariable.sshUser.name user := by
  unfold setHost destination
  cases l.task.taskHost with
  | some taskHost => cases l.task.taskUser <;> rfl
  | none =>
    cases l.host with
    | none => rfl
    | some sshHost => cases l.user <;> rfl

theorem ofProcess_environment (hclean : Clean env) :
    MonitorEnvironment.ofProcess (l.environment c env) = l.monitorEnvironment c := by
  unfold environment
  dsimp only
  rw [setHost_eq]
  unfold MonitorEnvironment.ofProcess monitorEnvironment
  rcases l.destination with _ | ⟨host, _ | user⟩
  · cases l.task.taskWd <;> simp [getenv_setenv_name, hclean _]
  · by_cases hkey : 0 < c.sshKey.length <;>
      cases l.task.taskWd <;> simp [getenv_setenv_name, hclean _, hkey]
  · by_cases hkey : 0 < c.sshKey.length <;>
      cases l.task.taskWd <;> simp [getenv_setenv_name, hclean _, hkey]

/-- Variables of other names change nothing for the monitor. -/
theorem ofProcess_exports {assignments : List (Bytes × Bytes)}
    (h : ∀ p ∈ assignments, ∀ v : MonitorVariable, p.1 ≠ v.name) :
    MonitorEnvironment.ofProcess (env.exports assignments) = MonitorEnvironment.ofProcess env := by
  have hread (v : MonitorVariable) : (env.exports assignments).getenv v.name = env.getenv v.name :=
    Variables.getenv_exports_of_not_mem fun p hp ↦ h p hp v
  unfold MonitorEnvironment.ofProcess
  rw [hread, hread, hread, hread, hread]

/-! ## What the task gets -/

/-- A task in mode `CMDLINE`. -/
theorem executed_cmdline (hclean : Clean env) (hmode : l.task.parametersMode = .cmdline) :
    executed c dirs l env = (EvqueueMonitor.taskArgv (l.monitorEnvironment c)
      (c.monitorPath :: l.taskFilename c :: utf8 (toString l.tid) :: l.arguments)).map fun argv ↦
        { directory := directory dirs (l.monitorEnvironment c)
          argv
          environment := l.environment c env } := by
  unfold executed execMonitor
  rw [hmode]
  dsimp only
  rw [ofProcess_environment hclean]

/-- A task in mode `ENV`, whatever its parameters make of the variables. -/
theorem executed_env (hmode : l.task.parametersMode = .env) : executed c dirs l env =
    let environment := (l.environment c env).exports l.parameters
    let monitor := MonitorEnvironment.ofProcess environment
    (EvqueueMonitor.taskArgv monitor
      [c.monitorPath, l.taskFilename c, utf8 (toString l.tid)]).map fun argv ↦
        { directory := directory dirs monitor
          argv
          environment } := by
  unfold executed execMonitor arguments
  rw [hmode]

section EnvMode

variable {e : Executed}

end EnvMode

def installed : TaskSettings where
  tasksDirectory := bytes "/usr/share/evqueue/tasks"
  monitorPath := bytes "/usr/bin/evqueue_monitor"
  sshPath := bytes "/usr/bin/ssh"
  sshKey := []

/-- Nothing is set. -/
def emptyEnvironment : ProcessEnvironment where
  getenv _ := none
  invalid _ _ := rfl

/-- The engine was started in `/`, and only `/srv` can be entered. -/
def onlySrv : Directories where
  cwd := bytes "/"
  chdir path := if path = bytes "/srv" then some path else none

/-- **The command of a remote task.**  `ssh` goes to the host of the task, or to that of the workflow when the
task has none, as the user that belongs to it; it gets the inputs as quoted arguments in mode `CMDLINE`, and
nothing of them in mode `ENV`, where none of them may have the name of a variable of the monitor. -/
theorem executed_remote (c : TaskSettings) (dirs : Directories) (l : TaskLaunch) (env : ProcessEnvironment)
    (host : Bytes) (user : Option Bytes) (hclean : Clean env) (hremote : l.destination = some (host, user))
    (hnames : l.task.parametersMode = .env → ∀ p ∈ l.parameters, ∀ v : MonitorVariable, p.1 ≠ v.name) :
    ∃ e, executed c dirs l env = some e ∧ e.directory = dirs.cwd ∧
      e.argv = c.sshPath :: (if 0 < c.sshKey.length then [bytes "-i", c.sshKey] else []) ++
        [(user.map (· ++ [byte '@'])).getD [] ++ host] ++
        (l.task.taskWd.map fun taskWd ↦ bytes "cd " ++ utf8 taskWd ++ bytes ";").toList ++
        l.taskFilename c :: l.arguments.map EvqueueMonitor.escape := by
  have hssh : (l.monitorEnvironment c).usesSsh = true := by
    unfold MonitorEnvironment.usesSsh monitorEnvironment
    rw [hremote]
    rfl
  have hdirectory : directory dirs (l.monitorEnvironment c) = dirs.cwd := by
    unfold directory
    rw [hssh]
    cases (l.monitorEnvironment c).workingDirectory <;> rfl
  have hargv (arguments : List Bytes) : EvqueueMonitor.taskArgv (l.monitorEnvironment c)
      (c.monitorPath :: l.taskFilename c :: utf8 (toString l.tid) :: arguments) =
        some (c.sshPath :: (if 0 < c.sshKey.length then [bytes "-i", c.sshKey] else []) ++
          [(user.map (· ++ [byte '@'])).getD [] ++ host] ++
          (l.task.taskWd.map fun taskWd ↦ bytes "cd " ++ utf8 taskWd ++ bytes ";").toList ++
          l.taskFilename c :: arguments.map EvqueueMonitor.escape) := by
    unfold EvqueueMonitor.taskArgv
    dsimp only
    rw [if_pos hssh]
    unfold EvqueueMonitor.sshArguments EvqueueMonitor.command monitorEnvironment
    rw [hremote]
    by_cases hkey : 0 < c.sshKey.length <;> cases user <;> cases l.task.taskWd <;> simp [hkey]
  cases hmode : l.task.parametersMode with
  | cmdline =>
    rw [executed_cmdline hclean hmode, hargv]
    exact ⟨_, rfl, hdirectory, rfl⟩
  | env =>
    have harguments : l.arguments = [] := by
      unfold arguments
      rw [hmode]
    rw [executed_env hmode, harguments]
    dsimp only
    rw [ofProcess_exports (hnames hmode), ofProcess_environment hclean, hargv]
    exact ⟨_, rfl, hdirectory, rfl⟩

/-- The workflow has a host and a user; the user of the task belongs to no host. -/
def remoteBackup : TaskLaunch where
  task :=
    { taskBinary := "/bin/backup"
      taskWd := none
      taskUser := some "nobody"
      taskHost := none
      parametersMode := .cmdline
      outputMethod := .text }
  host := some (bytes "store")
  user := some (bytes "operator")
  inputs := [(some (bytes "TARGET"), bytes "a b")]
  tid := 7

theorem executed_remoteBackup : ∃ e, executed installed onlySrv remoteBackup emptyEnvironment = some e ∧
    e.argv = [bytes "/usr/bin/ssh", bytes "operator@store", bytes "/bin/backup", bytes "'a b'"] := by
  rcases executed_remote installed onlySrv remoteBackup emptyEnvironment (bytes "store") (some (bytes "operator"))
    (fun _ ↦ rfl) rfl nofun with ⟨e, hexecuted, -, hargv⟩
  exact ⟨e, hexecuted, hargv.trans (by decide)⟩

end TaskLaunch

end EvQueue
