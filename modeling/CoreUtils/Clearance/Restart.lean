import CoreUtils.Clearance.Launcher
import CoreUtils.Library.StateExcept
import Std.Data.String.ToNat

/-!
# What a restart does

`restartClearance` stops the proxy that the pidfile names and then starts one unless the port is
listening. When the pidfile names no live process, nothing waits for the port to close, and a proxy
that listens all the same is left running. `restartClearance_restarts` says that the first probe of
the start decides.
-/

namespace CoreUtils.Clearance

open StateExcept

variable {platform : Platform} {world : World} {input : RestartClearanceInput}
  {s s' : LauncherState}

/-- The text of a pidfile names its process. -/
theorem pidOf_pidText {pid : ℕ} (hpos : 0 < pid) (hsafe : pid ≤ MAX_SAFE_INTEGER) :
    pidOf (pidText pid) = some pid := by
  have hdigits : (toString pid).toList = Nat.toDigits 10 pid := by simp [Nat.toString_eq_repr]
  have hdigit : ∀ c ∈ Nat.toDigits 10 pid, c.isDigit = true := fun c hc ↦
    Nat.isDigit_of_mem_toDigits (by decide) (by decide) hc
  have hblank : ∀ c ∈ Nat.toDigits 10 pid, Text.isWhiteSpace c = false := by
    intro c hc
    have hrange := Char.isDigit_iff_toNat.mp (hdigit c hc)
    rw [show '0'.toNat = 48 from rfl, show '9'.toNat = 57 from rfl] at hrange
    simp [Text.isWhiteSpace, Text.isWhiteSpaceCode]
    omega
  have hne : Nat.toDigits 10 pid ≠ [] := Nat.toDigits_ne_nil
  have htrim : Text.trim Text.isWhiteSpace (pidText pid) = Nat.toDigits 10 pid := by
    rw [pidText, hdigits]
    exact Text.trim_concat_blank hblank hne (by decide)
  rw [pidOf, htrim, if_pos ⟨hne, List.all_eq_true.mpr hdigit⟩, Nat.ofDigitChars_ten_toDigits]
  exact if_pos ⟨hsafe, hpos⟩

/-- What a restart is for: this call has spawned one process, with the allow list of the current
environment, it reports that process as started, and the pidfile names it. -/
structure Restarted (platform : Platform) (world : World) (input : RestartClearanceInput)
    (s : LauncherState) (result : EnsureClearanceResult) (s' : LauncherState) : Prop where
  status : result.status = .started
  allowed : ∃ hosts, resolveAllowlist platform.runtime platform.toListPlatform world.readFile
    (proxyEnv platform input) = .ok hosts
  spawned : ∃ pid spawn pidPath, result.pid = some pid ∧ result.pidPath = some pidPath ∧
    spawn.env = childEnv (proxyEnv platform input) ∧
    world.spawnDetached spawn = .ok pid ∧ s'.spawned = s.spawned ++ [(spawn, pid)] ∧
    ∃ raw, s'.files pidPath = some raw ∧
      (0 < pid → pid ≤ MAX_SAFE_INTEGER → pidOf raw = some pid)

/-- A pidfile is removed without spawning anything. -/
theorem spawned_of_removePidFile {pidPath : Text} {u : Unit}
    (h : removePidFile world pidPath s = .ok (u, s')) : s'.spawned = s.spawned := by
  unfold removePidFile at h
  cases hfail : failWith (world.removeFailure pidPath) with
  | error e => simp [hfail, bind, Except.bind] at h
  | ok u =>
      simp only [hfail, bind, Except.bind, pure, Except.pure, Except.ok.injEq, Prod.mk.injEq] at h
      rw [← h.2]

/-- A stop spawns nothing. -/
theorem spawned_of_stopClearance {result : StopClearanceResult}
    (h : stopClearance platform world input s = .ok (result, s')) : s'.spawned = s.spawned := by
  unfold stopClearance at h
  obtain ⟨found, s₁, hread, h⟩ := bind_eq_ok.mp h
  have hsame : s₁ = s := by
    unfold readPidFile at hread
    split at hread
    · split at hread
      · exact (Prod.mk.inj (Except.ok.inj hread)).2.symm
      · simp at hread
    · exact (Prod.mk.inj (Except.ok.inj hread)).2.symm
  subst hsame
  cases found with
  | none => exact congrArg LauncherState.spawned (pure_eq_ok.mp h).2.symm
  | some pid =>
      obtain ⟨didSignal, s₂, hsignal, h⟩ := bind_eq_ok.mp h
      obtain rfl := (lift_eq_ok.mp hsignal).2
      cases didSignal with
      | false =>
          obtain ⟨u, s₃, hremove, h⟩ := bind_eq_ok.mp h
          obtain rfl := (pure_eq_ok.mp h).2
          exact spawned_of_removePidFile hremove
      | true =>
          obtain ⟨u, s₃, hwait, h⟩ := bind_eq_ok.mp h
          obtain rfl := (lift_eq_ok.mp hwait).2
          obtain ⟨u', s₄, hremove, h⟩ := bind_eq_ok.mp h
          obtain rfl := (pure_eq_ok.mp h).2
          exact spawned_of_removePidFile hremove

/-- A process that was spawned, and the state after it. -/
theorem spawnProxy_eq_ok {spawn : SpawnClearanceInput} {pid : ℕ}
    (h : spawnProxy world spawn s = .ok (pid, s')) :
    world.spawnDetached spawn = .ok pid ∧ s'.spawned = s.spawned ++ [(spawn, pid)] := by
  unfold spawnProxy at h
  cases hspawn : world.spawnDetached spawn with
  | error e => simp [hspawn, bind, Except.bind] at h
  | ok pid' =>
      simp only [hspawn, bind, Except.bind, pure, Except.pure, Except.ok.injEq, Prod.mk.injEq] at h
      obtain ⟨rfl, rfl⟩ := h
      exact ⟨rfl, rfl⟩

/-- A pidfile that was written. -/
theorem writePidFile_eq_ok {pidPath : Text} {pid : ℕ} {u : Unit}
    (h : writePidFile world pidPath pid s = .ok (u, s')) :
    s'.files pidPath = some (pidText pid) ∧ s'.spawned = s.spawned := by
  unfold writePidFile at h
  cases hfail : failWith (world.writeFailure pidPath) with
  | error e => simp [hfail, bind, Except.bind] at h
  | ok u =>
      simp only [hfail, bind, Except.bind, pure, Except.pure, Except.ok.injEq, Prod.mk.injEq] at h
      rw [← h.2]
      exact ⟨by simp, rfl⟩

/-- A start that spawns a proxy does what a restart is for. -/
theorem restarted_of_startProxy {result : EnsureClearanceResult}
    (h : startProxy platform world input s = .ok (result, s')) :
    Restarted platform world input s result s' := by
  unfold startProxy at h
  obtain ⟨hosts, s₁, hallow, h⟩ := bind_eq_ok.mp h
  obtain ⟨hhosts, rfl⟩ := lift_eq_ok.mp hallow
  obtain ⟨_, s₂, hdirectory, h⟩ := bind_eq_ok.mp h
  obtain rfl := (lift_eq_ok.mp hdirectory).2
  obtain ⟨pid, s₃, hspawn, h⟩ := bind_eq_ok.mp h
  obtain ⟨hpid, hspawned⟩ := spawnProxy_eq_ok hspawn
  obtain ⟨_, s₄, hwrite, h⟩ := bind_eq_ok.mp h
  obtain ⟨hfile, hkept⟩ := writePidFile_eq_ok hwrite
  obtain ⟨_, s₅, hwait, h⟩ := bind_eq_ok.mp h
  obtain rfl := (lift_eq_ok.mp hwait).2
  obtain ⟨rfl, rfl⟩ := pure_eq_ok.mp h
  exact ⟨rfl, ⟨_, hhosts⟩, pid, _, _, rfl, rfl, rfl, hpid, hkept.trans hspawned, _, hfile,
    pidOf_pidText⟩

/-- A restart whose stop rejects is rejected. Otherwise it does what it is for, or rejects, exactly
when the first probe of the start does not find the port listening. -/
theorem restartClearance_restarts (platform : Platform) (world : World)
    (input : RestartClearanceInput) (s : LauncherState) :
    (∀ failure, stopClearance platform world input s = .error failure →
      restartClearance platform world input s = .error failure) ∧
    (∀ stopped s₁, stopClearance platform world input s = .ok (stopped, s₁) →
      ((∀ result s', restartClearance platform world input s = .ok (result, s') →
          Restarted platform world input s result s') ↔
        world.isListening .beforeStart ≠ .ok true)) := by
  refine ⟨fun failure hstop ↦ bind_of_error hstop, fun stopped s₁ hstop ↦ ?_⟩
  have hrestart : restartClearance platform world input s =
      ensureClearance platform world input s₁ := bind_of_ok hstop
  rw [hrestart]
  constructor
  · intro hrestarted hlistening
    -- the start finds the port listening and reports a proxy it has not started
    have hensure : ensureClearance platform world input s₁ =
        .ok (⟨none, none, none, CLEARANCE_PORT, .alreadyRunning⟩, s₁) := by
      unfold ensureClearance
      rw [hlistening]
      rfl
    exact absurd (hrestarted _ _ hensure).status (by simp)
  · intro hclosed result s' hensure
    unfold ensureClearance at hensure
    obtain ⟨listening, s₂, hprobe, hstart⟩ := bind_eq_ok.mp hensure
    obtain ⟨hanswer, rfl⟩ := lift_eq_ok.mp hprobe
    cases listening with
    | true => exact absurd hanswer hclosed
    | false =>
        have hstarted := restarted_of_startProxy hstart
        obtain ⟨pid, spawn, pidPath, hpid, hpath, henv, hspawn, hspawned, hfile⟩ :=
          hstarted.spawned
        rw [spawned_of_stopClearance hstop] at hspawned
        exact ⟨hstarted.status, hstarted.allowed, pid, spawn, pidPath, hpid, hpath, henv, hspawn,
          hspawned, hfile⟩

/-- A poll whose first probe holds needs no sleep. -/
theorem pollUntil_of_first {check : ℕ → Except Failure Bool} {sleep : ℕ → Except Failure Unit}
    (hinterval : 0 < input.pollIntervalMs.getD CLEARANCE_POLL_INTERVAL_MS)
    (hcheck : check 0 = .ok true) : pollUntil check sleep input = .ok true := by
  unfold pollUntil
  rw [if_neg (not_le.mpr hinterval)]
  obtain ⟨more, hmore⟩ : ∃ more, pollAttempts (input.timeoutMs.getD CLEARANCE_START_TIMEOUT_MS)
      (input.pollIntervalMs.getD CLEARANCE_POLL_INTERVAL_MS) = more + 1 :=
    Nat.exists_eq_succ_of_ne_zero (Nat.one_le_iff_ne_zero.mp (le_max_left _ _))
  rw [hmore, pollLoop, hcheck]
  rfl

/-! ## Two restarts -/

/-- A platform whose runtime leaves ASCII names alone. -/
def somePlatform : Platform where
  delimiter := ':'
  stringify path := path
  runtime := ⟨id, id⟩
  processEnv := OrderedMap.empty
  homedir := "/home/dev".toList
  join directory name := directory ++ ['/'] ++ name
  execPath := "/usr/bin/node".toList
  CLEARANCE_BIN_PATH := "/opt/clearance/bin/run.js".toList

/-- A restart with one allowed host. -/
def someInput : RestartClearanceInput where
  cacheDir := some "/cache".toList
  env := some (OrderedMap.empty.set "CLEARANCE_ALLOW_HOSTS" (some "api.example.com".toList))
  envOverrides := none
  pollIntervalMs := none
  timeoutMs := none

/-- A world in which every operation works; the port is closed while a stop waits, and open while a
start waits. -/
def someWorld (listensBeforeStart : Bool) : World where
  isListening
    | .stopping _ => .ok false
    | .beforeStart => .ok listensBeforeStart
    | .starting _ => .ok true
  kill _ := .ok ()
  sleep _ _ := .ok ()
  spawnDetached _ := .ok 222
  readFile _ := .ok []
  readFailure _ := none
  writeFailure _ := none
  removeFailure _ := none
  makeDirectoryFailure _ := none

/-- No pidfile exists, and nothing has been spawned. -/
def noPidFile : LauncherState := ⟨fun _ ↦ none, []⟩

/-- The pidfile names a process. -/
def somePidFile : LauncherState := ⟨fun _ ↦ some "111\n".toList, []⟩

/-- With the pidfile of a live proxy the restart stops it and starts another one. -/
theorem restartClearance_restarts_live :
    ∃ result s', restartClearance somePlatform (someWorld false) someInput somePidFile =
        .ok (result, s') ∧ result.pid = some 222 ∧
      Restarted somePlatform (someWorld false) someInput somePidFile result s' := by
  have hinterval : 0 < someInput.pollIntervalMs.getD CLEARANCE_POLL_INTERVAL_MS := by
    norm_num [someInput, CLEARANCE_POLL_INTERVAL_MS]
  have hclosed : waitForStop (someWorld false) someInput 111 = .ok () := by
    rw [waitForStop, pollUntil_of_first hinterval rfl]
    rfl
  have hopen : ∀ logPath, waitForStart (someWorld false) someInput logPath = .ok () := by
    intro logPath
    rw [waitForStart, pollUntil_of_first hinterval rfl]
    rfl
  have hstop : stopClearance somePlatform (someWorld false) someInput somePidFile =
      .ok (⟨some 111, CLEARANCE_PORT, .stopped⟩,
        ⟨Function.update somePidFile.files (stopPidPath somePlatform someInput) none, []⟩) := by
    refine bind_eq_ok.mpr ⟨some 111, somePidFile, rfl, ?_⟩
    refine bind_eq_ok.mpr ⟨true, somePidFile, rfl, ?_⟩
    refine bind_eq_ok.mpr ⟨(), somePidFile, lift_eq_ok.mpr ⟨hclosed, rfl⟩, ?_⟩
    exact bind_eq_ok.mpr ⟨(), _, rfl, rfl⟩
  let result : EnsureClearanceResult :=
    ⟨some "/cache/clearance.log".toList, some 222, some "/cache/clearance.pid".toList,
      CLEARANCE_PORT, .started⟩
  let spawn : SpawnClearanceInput :=
    ⟨["/opt/clearance/bin/run.js".toList], "/usr/bin/node".toList,
      childEnv (proxyEnv somePlatform someInput), "/cache/clearance.log".toList⟩
  let stopped := Function.update somePidFile.files (stopPidPath somePlatform someInput) none
  let s' : LauncherState :=
    ⟨Function.update stopped "/cache/clearance.pid".toList (some (pidText 222)), [(spawn, 222)]⟩
  have hresult : restartClearance somePlatform (someWorld false) someInput somePidFile =
      .ok (result, s') := by
    refine bind_eq_ok.mpr ⟨_, _, hstop, ?_⟩
    refine bind_eq_ok.mpr ⟨false, ⟨stopped, []⟩, rfl, ?_⟩
    refine bind_eq_ok.mpr ⟨["api.example.com".toList], ⟨stopped, []⟩, rfl, ?_⟩
    refine bind_eq_ok.mpr ⟨(), ⟨stopped, []⟩, rfl, ?_⟩
    refine bind_eq_ok.mpr ⟨222, ⟨stopped, [(spawn, 222)]⟩, rfl, ?_⟩
    refine bind_eq_ok.mpr ⟨(), s', rfl, ?_⟩
    exact bind_eq_ok.mpr ⟨(), s', lift_eq_ok.mpr ⟨hopen _, rfl⟩, rfl⟩
  have hrestarts := restartClearance_restarts somePlatform (someWorld false) someInput somePidFile
  refine ⟨result, s', hresult, rfl, ?_⟩
  exact (hrestarts.2 _ _ hstop).mpr (by simp [someWorld]) _ _ hresult

/-- Without a pidfile the restart leaves the listening proxy as it is, and reports that. -/
theorem restartClearance_keeps_old :
    ∃ result s', restartClearance somePlatform (someWorld true) someInput noPidFile =
        .ok (result, s') ∧ result.status = .alreadyRunning ∧ s'.spawned = [] ∧
      ¬Restarted somePlatform (someWorld true) someInput noPidFile result s' := by
  refine ⟨_, _, rfl, rfl, rfl, fun h ↦ absurd h.status (by decide)⟩

end CoreUtils.Clearance
