import CoreUtils.Toolkit.DeployedAssetsPool

/-!
# Waiting for deployed assets

`waitForDeployedAssets` polls the checks until all of them have passed for a stable window. The
start of the window is a variable that every probe may change: a failing probe clears it, and the
first healthy one after that sets it. `WindowIs` says what it is after a number of probes, and
`waitForDeployedAssets_stable` what follows when the polling resolves: the run of healthy probes is
as long as the window, unless the length of the window is NaN. The readings of the clock are
arbitrary.
-/

namespace CoreUtils.Toolkit.DeployedAssets

open Retry

variable {Url : Type} {τ : Type*}

/-! ## The polling -/

/-- What the operation of the polling throws: an `AssetGraphNotReadyError`, or an error of
`verifyDeployedAssets`. -/
inductive WaitError where
  | assetGraphNotReady (message : Text)
  | other (error : ThrownValue)
  deriving DecidableEq, Repr

/-- A number as the length of a window, which is not validated: a finite one, an infinity or NaN. -/
inductive WindowLength (τ : Type*) where
  | finite (lengthMs : τ)
  | infinity
  | negativeInfinity
  | nan
  deriving DecidableEq, Repr

/-- `WaitForDeployedAssetsParams` without the parameters of the probes. -/
structure WaitForDeployedAssetsParams (τ : Type*) where
  timeoutMs : Number τ
  pollIntervalMs : Option (Number τ)
  stableWindowMs : Option (WindowLength τ)

/-- A probe of all checks: what `verifyDeployedAssets` returned, and the reading of the clock after
it; or what either of them threw. -/
structure GraphProbe (τ : Type*) where
  outcome : Except (Thrown ThrownValue) (DeployedAssetVerificationReport τ)
  nowMs : τ

/-- What the polling meets: its probes by number and when they come back, and for the retry loop its
readings of the clock and its sleeps. -/
structure WaitEnvironment (τ : Type*) [LE τ] where
  probe : ℕ → GraphProbe τ
  settling : ℕ → Settling τ
  retryNow : ℕ → Except ThrownValue τ
  sleep : ℕ → Pending Unit WaitError τ

/-- What the operation returns. -/
structure StableReport (τ : Type*) where
  report : DeployedAssetVerificationReport τ
  stableWindowElapsedMs : τ

section Polling

variable [Ring τ] [LinearOrder τ] (platform : Platform Url τ)
  (params : WaitForDeployedAssetsParams τ)

omit [Ring τ] in
/-- `elapsedMs < lengthMs`. Nothing is below NaN. -/
def WindowLength.exceeds (window : WindowLength τ) (elapsedMs : τ) : Bool :=
  match window with
  | .finite lengthMs => decide (elapsedMs < lengthMs)
  | .infinity => true
  | .negativeInfinity => false
  | .nan => false

omit [Ring τ] in
/-- `lengthMs <= elapsedMs`. Nothing is above NaN either. -/
def WindowLength.ReachedBy (window : WindowLength τ) (elapsedMs : τ) : Prop :=
  match window with
  | .finite lengthMs => lengthMs ≤ elapsedMs
  | .infinity => False
  | .negativeInfinity => True
  | .nan => False

/-- The text of a length. -/
def WindowLength.text (window : WindowLength τ) : Text :=
  match window with
  | .finite lengthMs => platform.numberToText lengthMs
  | .infinity => "Infinity".toList
  | .negativeInfinity => "-Infinity".toList
  | .nan => "NaN".toList

/-- The length of the window, zero where none is given. -/
def WaitForDeployedAssetsParams.windowMs (params : WaitForDeployedAssetsParams τ) :
    WindowLength τ :=
  params.stableWindowMs.getD (.finite 0)

/-- A value that a probe throws. -/
def WaitError.ofThrown (thrown : Thrown ThrownValue) : Thrown WaitError :=
  match thrown with
  | .value error => .value (.other error)
  | .pollAttemptTimeoutError run => .pollAttemptTimeoutError run

/-- The operation: how it settles, and what it leaves of `stableWindowStartedAtMs`. -/
def probeGraph (stableWindowStartedAtMs : Option τ) (probe : GraphProbe τ) :
    Except (Thrown WaitError) (StableReport τ) × Option τ :=
  match probe.outcome with
  | .error error => (.error (WaitError.ofThrown error), stableWindowStartedAtMs)
  | .ok report =>
      if 0 < report.summary.failureCount then
        (.error (.value (.assetGraphNotReady ("Deployed asset graph has ".toList ++
          (toString report.summary.failureCount).toList ++ " failure(s)".toList))), none)
      else
        let startedAtMs := stableWindowStartedAtMs.getD probe.nowMs
        let stableWindowElapsedMs := probe.nowMs - startedAtMs
        if params.windowMs.exceeds stableWindowElapsedMs then
          (.error (.value (.assetGraphNotReady ("Deployed asset graph is healthy for ".toList ++
            platform.numberToText stableWindowElapsedMs ++ "ms; ".toList ++
            params.windowMs.text platform ++ "ms required".toList))), some startedAtMs)
        else (.ok ⟨report, stableWindowElapsedMs⟩, some startedAtMs)

variable (environment : WaitEnvironment τ)

/-- `stableWindowStartedAtMs` after a number of probes. -/
def windowAfter : ℕ → Option τ
  | 0 => none
  | probes + 1 =>
      (probeGraph platform params (windowAfter probes) (environment.probe (probes + 1))).2

/-- `toErrorMessage` of what the operation throws. -/
def WaitError.toErrorMessage : WaitError → Except ThrownValue Text
  | .assetGraphNotReady message => .ok message
  | .other error => error.toErrorMessage

/-- What the retry loop of the polling meets. There is no hook. -/
def waitEnvironment : Environment (StableReport τ) WaitError τ where
  operationName := "wait for deployed asset graph".toList
  numberToText := platform.numberToText
  toErrorMessage error := error.toErrorMessage.mapError (.value ∘ .other)
  clock reading := (environment.retryNow reading).mapError (.value ∘ .other)
  operation attemptNumber :=
    ⟨(probeGraph platform params (windowAfter platform params environment (attemptNumber - 1))
      (environment.probe attemptNumber)).1, environment.settling attemptNumber⟩
  onFailedAttempt _ := ⟨.ok (), .atOnce⟩
  sleep := environment.sleep

/-- The policy of the polling: every ten seconds where the parameters say nothing else, as long as
the assets are not ready. -/
def waitMode : RetryMode WaitError τ :=
  .poll {
    timeoutMs := params.timeoutMs
    intervalsMs := some [params.pollIntervalMs.getD (some 10000)]
    isTransient := some fun context ↦
      match context.error with
      | .thrown (.value (.assetGraphNotReady _)) => true
      | _ => false }

variable [IsStrictOrderedRing τ] [FloorRing τ]

/-- What `waitForDeployedAssets` resolves with after a number of iterations of its retry loop:
nothing while it polls, and nothing when it rejects. -/
def waitForDeployedAssets (iterations : ℕ) : Option (DeployedAssetVerificationReport τ) :=
  match runWithRetry (waitEnvironment platform params environment) (waitMode params) iterations with
  | .ok (.ended _ (.success value attempts)) =>
      some { value.report with wait := some ⟨attempts, true, value.stableWindowElapsedMs⟩ }
  | _ => none

end Polling

/-! ## Runs of healthy probes -/

/-- All checks have passed. -/
def Healthy (probe : GraphProbe τ) : Prop :=
  ∃ report, probe.outcome = .ok report ∧ report.summary.failureCount = 0

/-- Some check has failed. -/
def Unhealthy (probe : GraphProbe τ) : Prop :=
  ∃ report, probe.outcome = .ok report ∧ 0 < report.summary.failureCount

/-- The probes from the first to the last are healthy, and no probe comes before them or an
unhealthy one. -/
structure MaximalRun [LE τ] (environment : WaitEnvironment τ) (first last : ℕ) : Prop where
  pos : 1 ≤ first
  le : first ≤ last
  healthy : ∀ n, first ≤ n → n ≤ last → Healthy (environment.probe n)
  before : first = 1 ∨ Unhealthy (environment.probe (first - 1))

/-- A probe is not both. -/
theorem Healthy.not_unhealthy {probe : GraphProbe τ} (h : Healthy probe) : ¬Unhealthy probe := by
  obtain ⟨report, hreport, hnone⟩ := h
  rintro ⟨report', hreport', hsome⟩
  obtain rfl := Except.ok.inj (hreport.symm.trans hreport')
  omega

section Runs

variable [LE τ] {environment : WaitEnvironment τ}

/-- The first probe of a run is determined by the last. -/
theorem MaximalRun.first_unique {first first' last : ℕ} (h : MaximalRun environment first last)
    (h' : MaximalRun environment first' last) : first = first' := by
  have hle : ∀ {m n : ℕ}, MaximalRun environment m last → MaximalRun environment n last →
      m ≤ n := by
    intro m n hm hn
    by_contra hlt
    have hpos := hn.pos
    rcases hm.before with hone | hunhealthy
    · omega
    · have hle := hm.le
      exact (hn.healthy (m - 1) (by omega) (by omega)).not_unhealthy hunhealthy
  exact Nat.le_antisymm (hle h h') (hle h' h)

/-- A run goes on with a healthy probe. -/
theorem MaximalRun.succ {first last : ℕ} (h : MaximalRun environment first last)
    (hhealthy : Healthy (environment.probe (last + 1))) :
    MaximalRun environment first (last + 1) where
  pos := h.pos
  le := h.le.trans (Nat.le_succ _)
  healthy n hfirst hlast := by
    rcases Nat.lt_or_eq_of_le hlast with hlt | rfl
    · exact h.healthy n hfirst (Nat.lt_succ_iff.mp hlt)
    · exact hhealthy
  before := h.before

/-- What the start of the window is after a number of probes: not set at the beginning and after an
unhealthy probe, and otherwise the reading of the first probe of the run. -/
def WindowIs (environment : WaitEnvironment τ) (probes : ℕ) : Option τ → Prop
  | none => probes = 0 ∨ Unhealthy (environment.probe probes)
  | some startedAtMs => ∃ first, MaximalRun environment first probes ∧
      startedAtMs = (environment.probe first).nowMs

/-- After a healthy probe the window starts where the run does. -/
theorem WindowIs.healthy {probes : ℕ} {window : Option τ} (h : WindowIs environment probes window)
    (hhealthy : Healthy (environment.probe (probes + 1))) :
    WindowIs environment (probes + 1)
      (some (window.getD (environment.probe (probes + 1)).nowMs)) := by
  cases window with
  | none =>
      refine ⟨probes + 1, ⟨Nat.succ_pos _, le_rfl, fun n hfirst hlast ↦ ?_, ?_⟩, rfl⟩
      · rwa [Nat.le_antisymm hlast hfirst]
      · exact h.imp (fun hzero ↦ by omega) id
  | some startedAtMs =>
      obtain ⟨first, hrun, hstarted⟩ := h
      exact ⟨first, hrun.succ hhealthy, hstarted⟩

end Runs

/-! ## What a probe does -/

variable [Ring τ] [LinearOrder τ] {platform : Platform Url τ}
  {params : WaitForDeployedAssetsParams τ} {environment : WaitEnvironment τ}

/-- The three ways in which a probe may go: an unhealthy one clears the window, and a healthy one
starts it where it is not set and is stable when enough time has passed since its start. -/
theorem probeGraph_cases (platform : Platform Url τ) (params : WaitForDeployedAssetsParams τ)
    (window : Option τ) {probe : GraphProbe τ} {report : DeployedAssetVerificationReport τ}
    (hreport : probe.outcome = .ok report) :
    (Unhealthy probe ∧ ∃ message,
      probeGraph platform params window probe =
        (.error (.value (.assetGraphNotReady message)), none)) ∨
    (Healthy probe ∧ params.windowMs.exceeds (probe.nowMs - window.getD probe.nowMs) = true ∧
      ∃ message, probeGraph platform params window probe =
        (.error (.value (.assetGraphNotReady message)), some (window.getD probe.nowMs))) ∨
    (Healthy probe ∧ params.windowMs.exceeds (probe.nowMs - window.getD probe.nowMs) = false ∧
      probeGraph platform params window probe =
        (.ok ⟨report, probe.nowMs - window.getD probe.nowMs⟩, some (window.getD probe.nowMs))) := by
  unfold probeGraph
  rw [hreport]
  by_cases hfailed : 0 < report.summary.failureCount
  · exact .inl ⟨⟨report, hreport, hfailed⟩, _, if_pos hfailed⟩
  · have hhealthy : Healthy probe := ⟨report, hreport, by omega⟩
    simp only [if_neg hfailed]
    by_cases hearly : params.windowMs.exceeds (probe.nowMs - window.getD probe.nowMs) = true
    · exact .inr (.inl ⟨hhealthy, hearly, _, if_pos hearly⟩)
    · exact .inr (.inr ⟨hhealthy, Bool.eq_false_iff.mpr hearly, if_neg hearly⟩)

/-- An unhealthy probe clears the window. -/
theorem windowAfter_of_unhealthy {probes : ℕ}
    (h : Unhealthy (environment.probe (probes + 1))) :
    windowAfter platform params environment (probes + 1) = none := by
  have hreport := h.choose_spec.1
  rw [windowAfter]
  rcases probeGraph_cases platform params (windowAfter platform params environment probes) hreport
    with ⟨-, message, hprobe⟩ | ⟨hhealthy, -⟩ | ⟨hhealthy, -⟩
  · rw [hprobe]
  · exact absurd h hhealthy.not_unhealthy
  · exact absurd h hhealthy.not_unhealthy

/-- A healthy probe keeps the window or starts it. -/
theorem windowAfter_of_healthy {probes : ℕ} (h : Healthy (environment.probe (probes + 1))) :
    windowAfter platform params environment (probes + 1) =
      some ((windowAfter platform params environment probes).getD
        (environment.probe (probes + 1)).nowMs) := by
  have hreport := h.choose_spec.1
  rw [windowAfter]
  rcases probeGraph_cases platform params (windowAfter platform params environment probes) hreport
    with ⟨hunhealthy, -⟩ | ⟨-, -, message, hprobe⟩ | ⟨-, -, hprobe⟩
  · exact absurd hunhealthy h.not_unhealthy
  · rw [hprobe]
  · rw [hprobe]

/-- As long as no probe throws, the window is what `WindowIs` says. -/
theorem windowAfter_is {probes : ℕ}
    (h : ∀ n, 1 ≤ n → n ≤ probes → ∃ report, (environment.probe n).outcome = .ok report) :
    WindowIs environment probes (windowAfter platform params environment probes) := by
  induction probes with
  | zero => exact .inl rfl
  | succ probes ih =>
      have hbefore := ih fun n hfirst hn ↦ h n hfirst (hn.trans (Nat.le_succ _))
      obtain ⟨report, hreport⟩ := h (probes + 1) (Nat.succ_pos _) le_rfl
      by_cases hfailed : 0 < report.summary.failureCount
      · have hunhealthy : Unhealthy (environment.probe (probes + 1)) := ⟨report, hreport, hfailed⟩
        rw [windowAfter_of_unhealthy hunhealthy]
        exact .inr hunhealthy
      · have hhealthy : Healthy (environment.probe (probes + 1)) := ⟨report, hreport, by omega⟩
        rw [windowAfter_of_healthy hhealthy]
        exact hbefore.healthy hhealthy

/-! ## Runs that resolve -/

/-- The run of healthy probes that ends with this one is at least as long as the window. -/
def StableAt (params : WaitForDeployedAssetsParams τ) (environment : WaitEnvironment τ)
    (last : ℕ) : Prop :=
  ∃ first, MaximalRun environment first last ∧
    params.windowMs.ReachedBy
      ((environment.probe last).nowMs - (environment.probe first).nowMs)

omit [Ring τ] in
/-- A window that exceeds some time is not reached by it. -/
theorem WindowLength.not_reachedBy {window : WindowLength τ} {elapsedMs : τ}
    (h : window.exceeds elapsedMs = true) : ¬window.ReachedBy elapsedMs := by
  cases window with
  | finite lengthMs => exact not_le.mpr (of_decide_eq_true h)
  | infinity => exact id
  | negativeInfinity => exact absurd h Bool.false_ne_true
  | nan => exact id

omit [Ring τ] in
/-- A window that does not exceed some time is reached by it, unless it is NaN. -/
theorem WindowLength.reachedBy {window : WindowLength τ} {elapsedMs : τ}
    (h : window.exceeds elapsedMs = false) (hnan : window ≠ .nan) : window.ReachedBy elapsedMs := by
  cases window with
  | finite lengthMs => exact not_lt.mp (of_decide_eq_false h)
  | infinity => exact absurd h.symm Bool.false_ne_true
  | negativeInfinity => trivial
  | nan => exact absurd rfl hnan

/-- A probe does not throw, and the operation goes on to poll. -/
def NotReadyAt (platform : Platform Url τ) (params : WaitForDeployedAssetsParams τ)
    (environment : WaitEnvironment τ) (n : ℕ) : Prop :=
  ∃ message, (probeGraph platform params (windowAfter platform params environment (n - 1))
    (environment.probe n)).1 = .error (.value (.assetGraphNotReady message))

/-- A probe after which the polling goes on has a report. -/
theorem NotReadyAt.report {n : ℕ} (h : NotReadyAt platform params environment n) :
    ∃ report, (environment.probe n).outcome = .ok report := by
  obtain ⟨message, hprobe⟩ := h
  cases houtcome : (environment.probe n).outcome with
  | ok report => exact ⟨report, rfl⟩
  | error error => cases error <;> simp [probeGraph, houtcome, WaitError.ofThrown] at hprobe

/-- The polling does not go on after a stable probe. -/
theorem NotReadyAt.not_stable {n : ℕ} (h : NotReadyAt platform params environment n) (hpos : 1 ≤ n)
    (hbefore : ∀ m, 1 ≤ m → m < n → NotReadyAt platform params environment m) :
    ¬StableAt params environment n := by
  rintro ⟨first, hrun, hstable⟩
  obtain ⟨probes, rfl⟩ : ∃ probes, n = probes + 1 := ⟨n - 1, by omega⟩
  obtain ⟨report, hreport⟩ := h.report
  obtain ⟨message, hprobe⟩ := h
  have hhealthy := hrun.healthy (probes + 1) hrun.le le_rfl
  have hwindow : WindowIs environment probes (windowAfter platform params environment probes) :=
    windowAfter_is fun m hfirst hm ↦ (hbefore m hfirst (by omega)).report
  obtain ⟨first', hrun', hstarted⟩ := hwindow.healthy hhealthy
  obtain rfl := hrun.first_unique hrun'
  rw [Nat.add_sub_cancel] at hprobe
  rcases probeGraph_cases platform params (windowAfter platform params environment probes) hreport
    with ⟨hunhealthy, -⟩ | ⟨-, hearly, -⟩ | ⟨-, -, hready⟩
  · exact hhealthy.not_unhealthy hunhealthy
  · rw [hstarted] at hearly
    exact WindowLength.not_reachedBy hearly hstable
  · rw [hready] at hprobe
    contradiction

variable [FloorRing τ]

/-- A retried attempt of the polling is one whose assets were not ready. -/
theorem notReadyAt_of_retriedAt {mode : ValidPoll WaitError τ} {n : ℕ}
    (hmode : mode.isTransient = some fun context ↦
      match context.error with
      | .thrown (.value (.assetGraphNotReady _)) => true
      | _ => false)
    (h : RetriedAt (waitEnvironment platform params environment) (.poll mode) n) :
    NotReadyAt platform params environment n := by
  obtain ⟨error, context, hresult, herror, htransient⟩ := h.transient
  cases error with
  | assetGraphNotReady message => exact ⟨message, hresult⟩
  | other thrown => simp [hmode, herror] at htransient

variable [IsStrictOrderedRing τ]

/-- A polling that resolves has done so with the value of its last probe, and has gone on after all
others. -/
theorem exists_of_waitForDeployedAssets {iterations : ℕ}
    {report : DeployedAssetVerificationReport τ}
    (h : waitForDeployedAssets platform params environment iterations = some report) :
    ∃ (value : StableReport τ) (last : ℕ), 1 ≤ last ∧
      (probeGraph platform params (windowAfter platform params environment (last - 1))
        (environment.probe last)).1 = .ok value ∧
      report = { value.report with wait := some ⟨last, true, value.stableWindowElapsedMs⟩ } ∧
      ∀ n, 1 ≤ n → n < last → NotReadyAt platform params environment n := by
  unfold waitForDeployedAssets runWithRetry at h
  cases hvalid : validateRetryMode (waitMode params) with
  | error message => simp [hvalid, Except.map] at h
  | ok valid =>
      obtain ⟨mode, rfl, hmode⟩ := validateRetryMode_poll hvalid
      have hsteps := runFor_steps (waitEnvironment platform params environment) (.poll mode)
        iterations
      rw [hvalid] at h
      simp only [Except.map] at h
      split at h
      · rename_i s value attempts hrun
        rw [Except.ok.inj hrun] at hsteps
        obtain ⟨hpos, hresult, hretried⟩ := hsteps value attempts rfl
        exact ⟨value, attempts, hpos, hresult, (Option.some.inj h).symm,
          fun n hfirst hlt ↦ notReadyAt_of_retriedAt hmode (hretried n hfirst hlt)⟩
      · contradiction

/-- What it means that a polling resolves with a stable report: its probes end with a maximal run of
healthy ones, whose first and last readings differ by `stableWindowElapsedMs`, which is at least the
window; the report is that of the last probe; and no probe before it was stable. -/
def ResolvesStable (params : WaitForDeployedAssetsParams τ) (environment : WaitEnvironment τ)
    (report : DeployedAssetVerificationReport τ) : Prop :=
  ∃ (first last : ℕ) (probed : DeployedAssetVerificationReport τ) (wait : DeployedAssetWait τ),
    MaximalRun environment first last ∧ (environment.probe last).outcome = .ok probed ∧
    report = { probed with wait := some wait } ∧
    wait.attempts = last ∧ wait.isStableWindowSatisfied = true ∧
    wait.stableWindowElapsedMs =
      (environment.probe last).nowMs - (environment.probe first).nowMs ∧
    params.windowMs.ReachedBy wait.stableWindowElapsedMs ∧
    ∀ n < last, ¬StableAt params environment n

/-- An unhealthy probe always clears the window, so that the next healthy one starts it anew. -/
def RestartsWindow (platform : Platform Url τ) (params : WaitForDeployedAssetsParams τ)
    (environment : WaitEnvironment τ) : Prop :=
  ∀ n, Unhealthy (environment.probe (n + 1)) →
    windowAfter platform params environment (n + 1) = none ∧
    (Healthy (environment.probe (n + 2)) →
      windowAfter platform params environment (n + 2) =
        some (environment.probe (n + 2)).nowMs)

omit [FloorRing τ] [IsStrictOrderedRing τ] in
/-- Every polling restarts its window. -/
theorem restartsWindow (platform : Platform Url τ) (params : WaitForDeployedAssetsParams τ)
    (environment : WaitEnvironment τ) : RestartsWindow platform params environment := by
  intro n hunhealthy
  have hcleared : windowAfter platform params environment (n + 1) = none :=
    windowAfter_of_unhealthy hunhealthy
  refine ⟨hcleared, fun hhealthy ↦ ?_⟩
  rw [windowAfter_of_healthy hhealthy, hcleared]
  rfl

/-- A polling whose window is a number, and that resolves, does so with a stable report. -/
theorem resolvesStable_of_ne_nan {iterations : ℕ} {report : DeployedAssetVerificationReport τ}
    (h : waitForDeployedAssets platform params environment iterations = some report)
    (hnan : params.windowMs ≠ .nan) : ResolvesStable params environment report := by
  obtain ⟨value, last, hpos, hvalue, hreport, hbefore⟩ := exists_of_waitForDeployedAssets h
  obtain ⟨probes, rfl⟩ : ∃ probes, last = probes + 1 := ⟨last - 1, by omega⟩
  have hwindow : WindowIs environment probes
      (windowAfter platform params environment probes) :=
    windowAfter_is fun m hfirst hm ↦ (hbefore m hfirst (Nat.lt_succ_of_le hm)).report
  rw [Nat.add_sub_cancel] at hvalue
  obtain ⟨probed, hprobed⟩ : ∃ probed, (environment.probe (probes + 1)).outcome = .ok probed := by
    cases houtcome : (environment.probe (probes + 1)).outcome with
    | ok probed => exact ⟨probed, rfl⟩
    | error error => simp [probeGraph, houtcome] at hvalue
  rcases probeGraph_cases platform params (windowAfter platform params environment probes)
    hprobed with ⟨-, message, hprobe⟩ | ⟨-, -, message, hprobe⟩ | ⟨hhealthy, hlong, hprobe⟩
  · rw [hprobe] at hvalue
    contradiction
  · rw [hprobe] at hvalue
    contradiction
  · rw [hprobe] at hvalue
    obtain rfl := Except.ok.inj hvalue
    obtain ⟨first, hrun, hstarted⟩ := hwindow.healthy hhealthy
    rw [hstarted] at hlong hreport
    refine ⟨first, probes + 1, probed, _, hrun, hprobed, hreport, rfl, rfl, rfl,
      WindowLength.reachedBy hlong hnan, ?_⟩
    intro n hn hstable
    have hfirst : 1 ≤ n := hstable.choose_spec.1.pos.trans hstable.choose_spec.1.le
    exact (hbefore n hfirst hn).not_stable hfirst
      (fun m hm hlt ↦ hbefore m hm (hlt.trans hn)) hstable

/-- For all probes and readings of the clock, and every polling that resolves: it does so with a
stable report, and every unhealthy probe has restarted its window, exactly when the length of the
window is not NaN. -/
theorem waitForDeployedAssets_stable (platform : Platform Url τ)
    (params : WaitForDeployedAssetsParams τ) (environment : WaitEnvironment τ) (iterations : ℕ)
    (report : DeployedAssetVerificationReport τ)
    (h : waitForDeployedAssets platform params environment iterations = some report) :
    ResolvesStable params environment report ∧ RestartsWindow platform params environment ↔
      params.windowMs ≠ .nan := by
  constructor
  · rintro ⟨⟨first, last, probed, wait, -, -, -, -, -, -, hreached, -⟩, -⟩ hnan
    rw [hnan] at hreached
    exact hreached
  · exact fun hnan ↦ ⟨resolvesStable_of_ne_nan h hnan, restartsWindow platform params environment⟩

/-- A report about one check, which has passed or failed. -/
def oneCheck (failureCount : ℕ) : DeployedAssetVerificationReport ℤ :=
  ⟨[], ⟨failureCount, 1 - failureCount, 1⟩, none⟩

/-- A check that fails at the second probe. There are a hundred milliseconds between two probes. -/
def secondFails : WaitEnvironment ℤ where
  probe n := ⟨.ok (oneCheck (if n = 2 then 1 else 0)), 100 * n⟩
  settling _ := .atOnce
  retryNow reading := .ok (100 * (reading / 3))
  sleep _ := ⟨.ok (), .atOnce⟩

/-- A second of polling, every hundred milliseconds. -/
def waitSecond (stableWindowMs : WindowLength ℤ) : WaitForDeployedAssetsParams ℤ :=
  ⟨some 1000, some (some 100), some stableWindowMs⟩

/-- The window of two hundred milliseconds starts at the third probe, and ends with the fifth. -/
theorem waitForDeployedAssets_stable_secondFails :
    (∃ first, MaximalRun secondFails first 5) ∧ ∀ n < 5,
      ¬StableAt (waitSecond (.finite 200)) secondFails n := by
  have hresolves : waitForDeployedAssets plainPlatform (waitSecond (.finite 200)) secondFails 5 =
      some { oneCheck 0 with wait := some ⟨5, true, 200⟩ } := by decide +kernel
  obtain ⟨⟨first, last, probed, wait, hrun, -, hreport, hattempts, -, -, -, hbefore⟩, -⟩ :=
    (waitForDeployedAssets_stable plainPlatform _ secondFails 5 _ hresolves).mpr nofun
  have hwait := congrArg DeployedAssetVerificationReport.wait hreport
  obtain rfl : last = 5 := by
    rw [← hattempts, ← Option.some.inj hwait]
  exact ⟨⟨first, hrun⟩, hbefore⟩

/-- With NaN the first healthy probe resolves, although no time is at least the window. -/
theorem waitForDeployedAssets_stable_nan :
    ∃ report, waitForDeployedAssets plainPlatform (waitSecond .nan) secondFails 1 = some report ∧
      ¬ResolvesStable (waitSecond .nan) secondFails report := by
  refine ⟨{ oneCheck 0 with wait := some ⟨1, true, 0⟩ }, by decide +kernel, ?_⟩
  rintro ⟨first, last, probed, wait, -, -, -, -, -, -, hreached, -⟩
  exact hreached

end CoreUtils.Toolkit.DeployedAssets
