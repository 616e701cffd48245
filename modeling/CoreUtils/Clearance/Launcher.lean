import CoreUtils.Clearance.Allowlist
import Mathlib.Data.Rat.Floor

/-!
# Starting and stopping the proxy

The lifecycle commands of `clearance-ensure`. A command runs against a world that answers its probes
of the port, its signal, its sleeps and its spawn, and whose file operations may fail; the files it
has written and the processes it has spawned are its state. Messages to the logger are left out.
-/

namespace CoreUtils.Clearance

/-- The port that the proxy listens on. -/
def CLEARANCE_PORT : ℕ := 19999

/-- The host that the proxy listens on. -/
def CLEARANCE_HOST : Text := "127.0.0.1".toList

/-- How long a start or a stop is waited for. -/
def CLEARANCE_START_TIMEOUT_MS : ℚ := 3000

/-- The time between two probes of the port. -/
def CLEARANCE_POLL_INTERVAL_MS : ℚ := 100

/-- The variables that are passed on to the proxy. -/
def FORWARDED_ENV_VARS : List String :=
  ["CLEARANCE_ALLOW_HOSTS", "CLEARANCE_ALLOW_HOSTS_FILES", "CLEARANCE_ALLOW_PORTS",
    "CLEARANCE_ALLOW_PRIVATE_IPS", "CLEARANCE_DNS_TTL_MS", "CLEARANCE_IDLE_TIMEOUT_MS",
    "CLEARANCE_MAX_SOCKETS", "HOME", "PATH", "XDG_CACHE_HOME"]

/-- The process and platform that a command runs in. -/
structure Platform extends ListPlatform where
  runtime : Runtime
  processEnv : ProcessEnv
  homedir : Text
  join : Text → Text → Text
  execPath : Text
  CLEARANCE_BIN_PATH : Text

/-- The input of a restart. Its probes, its signal, its sleeps and its spawn are the world's. -/
structure RestartClearanceInput where
  cacheDir : Option Text
  env : Option ProcessEnv
  envOverrides : Option ProcessEnv
  pollIntervalMs : Option ℚ
  timeoutMs : Option ℚ

/-- What a process is spawned with. -/
structure SpawnClearanceInput where
  args : List Text
  command : Text
  env : ProcessEnv
  logPath : Text

/-- The probes of the port in one restart: while the old proxy is waited for, before a new one is
started, and while that one is waited for. -/
inductive Probe where
  | stopping (attempt : ℕ)
  | beforeStart
  | starting (attempt : ℕ)
  deriving DecidableEq, Repr

/-- The two times a command waits. -/
inductive Phase where
  | stop
  | start
  deriving DecidableEq, Repr

/-- The answers that a command gets: whether the port is listening, what signalling a process, a
sleep and a spawn do, what the hosts files hold, and which file operations fail. -/
structure World where
  isListening : Probe → Except Failure Bool
  kill : ℕ → Except Failure Unit
  sleep : Phase → ℕ → Except Failure Unit
  spawnDetached : SpawnClearanceInput → Except Failure ℕ
  readFile : Text → Except Failure Text
  readFailure : Text → Option Failure
  writeFailure : Text → Option Failure
  removeFailure : Text → Option Failure
  makeDirectoryFailure : Text → Option Failure

/-- The pidfiles by path, and the processes this command has spawned. -/
structure LauncherState where
  files : Text → Option Text
  spawned : List (SpawnClearanceInput × ℕ)

/-- A command: it changes the state, or rejects. -/
abbrev Launch := StateT LauncherState (Except Failure)

/-- Fail if there is a failure. -/
def failWith : Option Failure → Except Failure Unit
  | none => .ok ()
  | some failure => .error failure

variable (platform : Platform) (world : World)

/-! ## Environments and paths -/

/-- The forwarded variables of this process. -/
def defaultProxyEnv : ProcessEnv where
  entries := FORWARDED_ENV_VARS.filterMap fun name ↦
    (platform.processEnv.value name).map fun value ↦ (name, some value)
  nodup := by
    have hnames : ∀ names : List String, ((names.filterMap fun name ↦
        (platform.processEnv.value name).map fun value ↦ (name, some value)).map Prod.fst).Sublist
          names := by
      intro names
      induction names with
      | nil => simp
      | cons name rest ih =>
          cases hvalue : platform.processEnv.value name with
          | none => simpa [hvalue] using ih.cons name
          | some value => simpa [hvalue] using ih.cons_cons name
    exact (hnames FORWARDED_ENV_VARS).nodup (by decide)

/-- The environment that a start uses. -/
def proxyEnv (input : RestartClearanceInput) : ProcessEnv :=
  let env := input.env.getD (defaultProxyEnv platform)
  match input.envOverrides with
  | none => env
  | some envOverrides => env.spread envOverrides

/-- The environment of the spawned proxy. -/
def childEnv (env : ProcessEnv) : ProcessEnv :=
  (env.set "CLEARANCE_LISTEN_HOST" (some CLEARANCE_HOST)).set "CLEARANCE_PORT"
    (some (toString CLEARANCE_PORT).toList)

/-- The directory for the log and the pidfile. -/
def cacheDirFor (env : ProcessEnv) : Text :=
  let fallback :=
    match env.value "HOME" with
    | some home =>
        if home.length > 0 then home else platform.homedir
    | none => platform.homedir
  let cache := platform.join (platform.join fallback ".cache".toList) "clearance".toList
  match env.value "XDG_CACHE_HOME" with
  | some xdgCacheHome =>
      if xdgCacheHome.length > 0 then platform.join xdgCacheHome "clearance".toList else cache
  | none => cache

/-- The pidfile that `stopClearance` looks at. -/
def stopPidPath (input : RestartClearanceInput) : Text :=
  let env := input.env.getD (defaultProxyEnv platform)
  platform.join (input.cacheDir.getD (cacheDirFor platform env)) "clearance.pid".toList

/-! ## Pidfiles -/

/-- The largest safe integer. -/
def MAX_SAFE_INTEGER : ℕ := 9007199254740991

/-- The process that the text of a pidfile names. -/
def pidOf (raw : Text) : Option ℕ :=
  let trimmedPid := Text.trim Text.isWhiteSpace raw
  if trimmedPid ≠ [] ∧ trimmedPid.all Char.isDigit then
    let pid := Nat.ofDigitChars 10 trimmedPid 0
    if pid ≤ MAX_SAFE_INTEGER ∧ 0 < pid then some pid else none
  else none

/-- The text of a pidfile. -/
def pidText (pid : ℕ) : Text := (toString pid).toList ++ ['\n']

/-- `readPidFile`: the process that a pidfile names, if there is such a file. -/
def readPidFile (pidPath : Text) : Launch (Option ℕ) := fun s ↦
  match world.readFailure pidPath with
  | some failure => if failure.code = some "ENOENT" then .ok (none, s) else .error failure
  | none => .ok ((s.files pidPath).bind pidOf, s)

/-- `writeFileSync` of a pidfile. -/
def writePidFile (pidPath : Text) (pid : ℕ) : Launch Unit := fun s ↦ do
  failWith (world.writeFailure pidPath)
  return ((), { s with files := Function.update s.files pidPath (some (pidText pid)) })

/-- `rmSync` of a pidfile. -/
def removePidFile (pidPath : Text) : Launch Unit := fun s ↦ do
  failWith (world.removeFailure pidPath)
  return ((), { s with files := Function.update s.files pidPath none })

/-- Spawn the proxy. -/
def spawnProxy (input : SpawnClearanceInput) : Launch ℕ := fun s ↦ do
  let pid ← world.spawnDetached input
  return (pid, { s with spawned := s.spawned ++ [(input, pid)] })

/-! ## Polling -/

/-- The number of probes that fit the timeout, at least one. -/
def pollAttempts (timeoutMs pollIntervalMs : ℚ) : ℕ := max 1 ⌈timeoutMs / pollIntervalMs⌉.toNat

/-- Probe until a check holds, with a sleep after each failed one. -/
def pollLoop (check : ℕ → Except Failure Bool) (sleep : ℕ → Except Failure Unit) :
    ℕ → ℕ → Except Failure Bool
  | _, 0 => .ok false
  | attempt, remaining + 1 => do
      if ← check attempt then return true
      sleep attempt
      pollLoop check sleep (attempt + 1) remaining

/-- `pollUntil`; an interval that is not positive is an error. -/
def pollUntil (check : ℕ → Except Failure Bool) (sleep : ℕ → Except Failure Unit)
    (input : RestartClearanceInput) : Except Failure Bool :=
  let pollIntervalMs := input.pollIntervalMs.getD CLEARANCE_POLL_INTERVAL_MS
  let timeoutMs := input.timeoutMs.getD CLEARANCE_START_TIMEOUT_MS
  if pollIntervalMs ≤ 0 then .error ⟨none, "pollIntervalMs must be a positive number".toList⟩
  else pollLoop check sleep 0 (pollAttempts timeoutMs pollIntervalMs)

/-! ## Commands -/

/-- What a stop reports. -/
inductive StopStatus where
  | notRunning
  | stopped
  deriving DecidableEq, Repr

/-- The result of a stop. -/
structure StopClearanceResult where
  pid : Option ℕ
  port : ℕ
  status : StopStatus
  deriving DecidableEq, Repr

/-- What a start reports. -/
inductive EnsureStatus where
  | alreadyRunning
  | started
  deriving DecidableEq, Repr

/-- The result of a start. -/
structure EnsureClearanceResult where
  logPath : Option Text
  pid : Option ℕ
  pidPath : Option Text
  port : ℕ
  status : EnsureStatus
  deriving DecidableEq, Repr

/-- Signal a process: whether it was there to be signalled. -/
def signal (pid : ℕ) : Except Failure Bool :=
  match world.kill pid with
  | .ok () => .ok true
  | .error error => if error.code = some "ESRCH" then .ok false else .error error

/-- Where the proxy is expected, as it is written in messages. -/
def endpoint : Text := CLEARANCE_HOST ++ [':'] ++ (toString CLEARANCE_PORT).toList

/-- Wait until the port is closed. -/
def waitForStop (input : RestartClearanceInput) (pid : ℕ) : Except Failure Unit := do
  let stopped ← pollUntil (fun attempt ↦ (world.isListening (.stopping attempt)).map (! ·))
    (world.sleep .stop) input
  if stopped then .ok ()
  else .error ⟨none, "Clearance (pid ".toList ++ (toString pid).toList ++
    ") did not stop listening on ".toList ++ endpoint⟩

/-- `stopClearance`: signal the process that the pidfile names, and wait until the port is
closed. -/
def stopClearance (input : RestartClearanceInput) : Launch StopClearanceResult := do
  let pidPath := stopPidPath platform input
  match ← readPidFile world pidPath with
  | none => return ⟨none, CLEARANCE_PORT, .notRunning⟩
  | some pid =>
      let didSignal ← (signal world pid : Except Failure Bool)
      if didSignal then
        (waitForStop world input pid : Except Failure Unit)
        removePidFile world pidPath
        return ⟨some pid, CLEARANCE_PORT, .stopped⟩
      else
        removePidFile world pidPath
        return ⟨some pid, CLEARANCE_PORT, .notRunning⟩

/-- Wait until the port is listening. -/
def waitForStart (input : RestartClearanceInput) (logPath : Text) : Except Failure Unit := do
  let isReady ← pollUntil (fun attempt ↦ world.isListening (.starting attempt))
    (world.sleep .start) input
  if isReady then .ok ()
  else .error ⟨none, "Clearance did not start listening on ".toList ++ endpoint ++
    "; check ".toList ++ logPath⟩

/-- Spawn a proxy and wait until it listens. -/
def startProxy (input : RestartClearanceInput) : Launch EnsureClearanceResult := do
  let env := proxyEnv platform input
  let _ ← (resolveAllowlist platform.runtime platform.toListPlatform world.readFile env :
    Except Failure (List Host))
  let cacheDir := input.cacheDir.getD (cacheDirFor platform env)
  let logPath := platform.join cacheDir "clearance.log".toList
  let pidPath := platform.join cacheDir "clearance.pid".toList
  (failWith (world.makeDirectoryFailure cacheDir) : Except Failure Unit)
  let pid ← spawnProxy world
    ⟨[platform.CLEARANCE_BIN_PATH], platform.execPath, childEnv env, logPath⟩
  writePidFile world pidPath pid
  (waitForStart world input logPath : Except Failure Unit)
  return ⟨some logPath, some pid, some pidPath, CLEARANCE_PORT, .started⟩

/-- `ensureClearance`: start a proxy unless the port is listening. -/
def ensureClearance (input : RestartClearanceInput) : Launch EnsureClearanceResult := do
  if ← (world.isListening .beforeStart : Except Failure Bool) then
    return ⟨none, none, none, CLEARANCE_PORT, .alreadyRunning⟩
  else startProxy platform world input

/-- `restartClearance`: a stop and then a start. -/
def restartClearance (input : RestartClearanceInput) : Launch EnsureClearanceResult := do
  let _ ← stopClearance platform world input
  ensureClearance platform world input

end CoreUtils.Clearance
