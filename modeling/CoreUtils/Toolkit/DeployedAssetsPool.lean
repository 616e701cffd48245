import CoreUtils.Toolkit.DeployedAssets
import Mathlib.Algebra.Order.Ring.Int

/-!
# The workers that verify deployed assets

The `catch` block of a verification absorbs every error whose message it can make
(`verifyDeployedAsset_ok`), and every verification settles, since its retries are bounded
(`verifications_bounded`). So whatever the order of the workers' turns, they end, and unless a value
without a message is thrown past a retry loop, the report has the result of each check at its place
(`verifyDeployedAssets_reachable`).
-/

namespace CoreUtils.Toolkit.DeployedAssets

open Retry Transition WorkerPool

variable {Url : Type} {τ : Type*}

/-! ## One verification -/

/-- A verification that has a result has one about its check, which is a success when the retries
end with an attempt. -/
theorem verifiedAsset_check {check : DeployedAssetCheck}
    {attempts : List (DeployedAssetAttempt τ)}
    {outcome : Except (Caught τ) (DeployedAssetAttempt τ)}
    {result : DeployedAssetResult τ} (h : verifiedAsset check attempts outcome = .ok result) :
    result.check = toDeployedAssetReportCheck check ∧
      (result.isSuccess = true ↔ ∃ attempt, outcome = .ok attempt) := by
  cases outcome with
  | ok attempt =>
      obtain rfl := Except.ok.inj h
      exact ⟨rfl, by simp⟩
  | error error =>
      unfold verifiedAsset at h
      simp only [Except.map] at h
      split at h
      · contradiction
      · obtain rfl := Except.ok.inj h
        exact ⟨rfl, by simp⟩

/-- A verification fails only where the retries throw a value whose message cannot be made. -/
theorem verifiedAsset_error {check : DeployedAssetCheck}
    {attempts : List (DeployedAssetAttempt τ)}
    {outcome : Except (Caught τ) (DeployedAssetAttempt τ)}
    {error : ThrownValue} (h : verifiedAsset check attempts outcome = .error error) :
    ∃ thrown, outcome = .error (.thrown thrown) ∧
      getErrorMessage (.thrown thrown) = .error error := by
  cases outcome with
  | ok attempt => contradiction
  | error caught =>
      unfold verifiedAsset at h
      simp only [Except.map] at h
      split at h
      · rename_i error' hmessage
        obtain rfl := Except.error.inj h
        split at hmessage
        · contradiction
        · cases caught with
          | thrown thrown => exact ⟨thrown, rfl, hmessage⟩
          | retryError error => contradiction
          | error message => contradiction
      · contradiction

/-- The workers start at the head of their loops. -/
theorem eq_initial_of_startWorkers {params : VerifyDeployedAssetsParams τ}
    {limit : ConcurrencyLimit} {start : AssetPool τ params.checks limit}
    (h : startWorkers params = .ok ⟨limit, start⟩) : start = Pool.initial := by
  unfold startWorkers at h
  split at h
  · contradiction
  · obtain ⟨rfl, hstart⟩ := Sigma.mk.inj (Except.ok.inj h)
    exact (eq_of_heq hstart).symm

variable [Ring τ] {platform : Platform Url τ} {check : DeployedAssetCheck}
  {environment : AssetEnvironment τ}

/-- What a verification makes of a run of its retries is made of the end of that run. -/
theorem exists_of_settledAsset
    {run : Except String (Progress (DeployedAssetAttempt τ) (AttemptError τ) τ)}
    {outcome : Except ThrownValue (DeployedAssetResult τ)}
    (h : settledAsset platform check environment run = some outcome) :
    ∃ attempts ending, verifiedAsset check attempts ending = outcome ∧
      ∀ thrown, ending = .error (.thrown thrown) → ∃ s, run = .ok (.ended s (.threw thrown)) := by
  cases run with
  | error message => exact ⟨_, _, Option.some.inj h, fun thrown hthrown ↦ by cases hthrown⟩
  | ok progress =>
      cases progress with
      | continues s => contradiction
      | ended s ending =>
          refine ⟨_, _, Option.some.inj h, fun thrown hthrown ↦ ?_⟩
          cases ending with
          | threw error =>
              obtain rfl := Caught.thrown.inj (Except.error.inj hthrown)
              exact ⟨s, rfl⟩
          | success | failed | invalidDelay => cases hthrown

variable [LinearOrder τ] [FloorRing τ] [IsStrictOrderedRing τ] {retry : Option (RetryOptions τ)}

/-- Whatever the clock or a sleep of a verification throws, or the message of the error that its
retries give up with, has a message. -/
def Told (platform : Platform Url τ) (retry : Option (RetryOptions τ)) (check : DeployedAssetCheck)
    (environment : AssetEnvironment τ) : Prop :=
  ∀ iterations progress,
    runWithRetry (retryEnvironment platform check environment) (retryMode retry) iterations =
      .ok progress →
    ∀ thrown, ThrownBy (retryEnvironment platform check environment) progress.state thrown →
      ∃ message, getErrorMessage (.thrown thrown) = .ok message

/-- A verification that has a result has one about its check. -/
theorem verifyDeployedAsset_check {iterations : ℕ} {result : DeployedAssetResult τ}
    (h : verifyDeployedAsset platform retry check environment iterations = some (.ok result)) :
    result.check = toDeployedAssetReportCheck check := by
  obtain ⟨attempts, ending, hverified, -⟩ := exists_of_settledAsset h
  exact (verifiedAsset_check hverified).1

/-- A verification does not reject when all that is thrown past its retries has a message. -/
theorem Told.not_error (htold : Told platform retry check environment) {iterations : ℕ}
    {error : ThrownValue} :
    verifyDeployedAsset platform retry check environment iterations ≠ some (.error error) := by
  intro h
  obtain ⟨attempts, ending, hverified, hthrew⟩ := exists_of_settledAsset h
  obtain ⟨thrown, hending, huntold⟩ := verifiedAsset_error hverified
  obtain ⟨s, hrun⟩ := hthrew thrown hending
  have hthrownBy : ThrownBy (retryEnvironment platform check environment) s thrown := by
    cases hmode : validateRetryMode (retryMode retry) with
    | error message => simp [runWithRetry, hmode, Except.map] at hrun
    | ok valid =>
        have hthrows := runFor_throwsOn (retryEnvironment platform check environment) valid
          iterations
        rw [runWithRetry, hmode] at hrun
        have hended : runFor (retryEnvironment platform check environment) valid iterations =
          .ended s (.threw thrown) := Except.ok.inj hrun
        rwa [hended] at hthrows
  obtain ⟨message, hmessage⟩ := htold iterations _ hrun thrown hthrownBy
  rw [hmessage] at huntold
  contradiction

/-- The number of attempts that the options allow. -/
def allowedAttempts (retry : Option (RetryOptions τ)) : ℕ :=
  (((retry.bind RetryOptions.maxAttempts).getD (some 3)).getD 0).toNat

/-- A verification that goes on has made fewer attempts than are allowed. -/
theorem lt_allowedAttempts {iterations : ℕ}
    (h : verifyDeployedAsset platform retry check environment iterations = none) :
    iterations < allowedAttempts retry := by
  unfold verifyDeployedAsset runWithRetry at h
  cases hvalid : validateRetryMode (retryMode retry) with
  | error message => simp [hvalid, Except.map, settledAsset] at h
  | ok valid =>
      obtain ⟨mode, rfl, hattempts, -⟩ := validateRetryMode_classified hvalid
      cases hrun : runFor (retryEnvironment platform check environment) (.classified mode)
          iterations with
      | ended s ending => simp [hvalid, hrun, Except.map, settledAsset] at h
      | continues s =>
          have hlt := runFor_classified_lt hrun
          have hallowed : (retry.bind RetryOptions.maxAttempts).getD (some 3) =
              some (mode.maxAttempts : ℤ) := hattempts
          rw [allowedAttempts, hallowed]
          exact hlt

/-! ## All verifications -/

variable {checks : List DeployedAssetCheck}

/-- The task of a check is at some iteration of its verification. -/
theorem eq_of_runs {index : Fin checks.length} {verification : Verification τ}
    (h : (verifications platform retry checks).Runs index environment verification) :
    verification.check = checks.get index ∧ verification.environment = environment := by
  induction h with
  | start => exact ⟨rfl, rfl⟩
  | @goesOn task task' _ hturn ih =>
      have hsame : task'.check = task.check ∧ task'.environment = task.environment := by
        have hnext : Verification.turn platform retry task = .goesOn task' := hturn
        unfold Verification.turn at hnext
        split at hnext
        · injection hnext with heq
          rw [← heq]
          exact ⟨rfl, rfl⟩
        · contradiction
      exact ⟨hsame.1.trans ih.1, hsame.2.trans ih.2⟩

/-- The task of a check settles as its verification does. -/
theorem verifyDeployedAsset_of_yields {index : Fin checks.length}
    {outcome : Except ThrownValue (DeployedAssetResult τ)}
    (h : (verifications platform retry checks).Yields index environment outcome) :
    ∃ iterations,
      verifyDeployedAsset platform retry (checks.get index) environment iterations =
        some outcome := by
  obtain ⟨verification, hruns, hturn⟩ := h
  obtain ⟨hcheck, henvironment⟩ := eq_of_runs hruns
  have hsettles : Verification.turn platform retry verification = .settles outcome := hturn
  unfold Verification.turn at hsettles
  split at hsettles
  · contradiction
  · rename_i outcome' hverified
    injection hsettles with heq
    rw [hcheck, henvironment, heq] at hverified
    exact ⟨verification.iterations, hverified⟩

/-- Every verification settles after the attempts that are allowed. -/
theorem verifications_bounded (platform : Platform Url τ) (retry : Option (RetryOptions τ))
    (checks : List DeployedAssetCheck) :
    (verifications platform retry checks).Bounded
      (fun verification ↦ allowedAttempts retry - verification.iterations)
      (allowedAttempts retry) where
  start := fun _ _ ↦ Nat.sub_le ..
  turn := by
    intro verification verification' hturn
    have hnext : Verification.turn platform retry verification = .goesOn verification' := hturn
    unfold Verification.turn at hnext
    split at hnext
    · rename_i hnone
      injection hnext with heq
      have hlt := lt_allowedAttempts hnone
      rw [← heq]
      show allowedAttempts retry - (verification.iterations + 1) <
        allowedAttempts retry - verification.iterations
      omega
    · contradiction

/-! ## The report -/

/-- A list without holes is what is left of it without them. -/
theorem eq_map_reduceOption {α : Type*} {l : List (Option α)} (h : ∀ x ∈ l, x.isSome) :
    l = l.reduceOption.map some := by
  induction l with
  | nil => rfl
  | cons x l ih =>
      obtain ⟨value, rfl⟩ := Option.isSome_iff_exists.mp (h x List.mem_cons_self)
      have htail := ih fun y hy ↦ h y (List.mem_cons_of_mem _ hy)
      rw [List.reduceOption_cons_of_some, List.map_cons, ← htail]

omit [Ring τ] [LinearOrder τ] [FloorRing τ] [IsStrictOrderedRing τ] in
/-- The counts of a report are those of its results, which have passed or failed. -/
theorem verificationReport_counts (results : List (Option (DeployedAssetResult τ))) :
    let report := verificationReport results
    report.summary.totalCount = report.results.length ∧
    report.summary.passedCount = report.results.countP (·.isSuccess) ∧
    report.summary.failureCount = report.results.countP (!·.isSuccess) ∧
    report.summary.passedCount + report.summary.failureCount = report.summary.totalCount := by
  intro report
  have hsplit := List.length_eq_countP_add_countP (fun result ↦ result.isSuccess)
    (l := report.results)
  simp only [Bool.not_eq_true, Bool.decide_eq_false] at hsplit
  have hfailed : report.summary.failureCount = report.results.countP (!·.isSuccess) :=
    List.countP_eq_length_filter.symm
  have hpassed : report.summary.passedCount =
      report.results.length - report.summary.failureCount := rfl
  have htotal : report.summary.totalCount = report.results.length := rfl
  refine ⟨htotal, ?_, hfailed, ?_⟩
  · omega
  · omega

/-- What the report says when all workers have returned: every check has been verified once, and its
result is at its place and counted once. -/
structure Reports (platform : Platform Url τ) (params : VerifyDeployedAssetsParams τ)
    {limit : ConcurrencyLimit} (p : AssetPool τ params.checks limit)
    (report : DeployedAssetVerificationReport τ) : Prop where
  verified : p.taken.map (fun entry ↦ entry.1.val) = List.range params.checks.length
  length : report.results.length = params.checks.length
  result : ∀ entry ∈ p.taken, ∃ result, report.results[entry.1.val]? = some result ∧
    result.check = toDeployedAssetReportCheck (params.checks.get entry.1) ∧
    ∃ iterations, verifyDeployedAsset platform params.retry (params.checks.get entry.1) entry.2
      iterations = some (.ok result)
  totalCount : report.summary.totalCount = params.checks.length
  sum : report.summary.passedCount + report.summary.failureCount = report.summary.totalCount
  passedCount : report.summary.passedCount = report.results.countP (·.isSuccess)
  failureCount : report.summary.failureCount = report.results.countP (!·.isSuccess)

/-- A bound for the steps that the workers may still take. -/
def remaining {limit : ConcurrencyLimit} (retry : Option (RetryOptions τ))
    (p : AssetPool τ checks limit) : ℕ :=
  p.remaining (fun verification ↦ allowedAttempts retry - verification.iterations)
    (allowedAttempts retry)

/-- The task of a check does not fail when all that is thrown past its retries has a message. -/
theorem Told.not_yields {index : Fin checks.length}
    (htold : Told platform retry (checks.get index) environment) (error : ThrownValue) :
    ¬(verifications platform retry checks).Yields index environment (.error error) := by
  intro hyields
  obtain ⟨iterations, hverified⟩ := verifyDeployedAsset_of_yields hyields
  exact htold.not_error hverified

/-- The report when all workers have returned. -/
theorem reports_of_resolved {params : VerifyDeployedAssetsParams τ} {limit : ConcurrencyLimit}
    {p : AssetPool τ params.checks limit}
    (h : Invariant (verifications platform params.retry params.checks) p)
    (hresolved : p.Resolved) :
    Reports platform params p (verificationReport p.results) := by
  have hworkers : params.checks.length ≠ 0 → Nonempty (Fin (min limit.val params.checks.length)) :=
    fun hne ↦ ⟨⟨0, lt_min limit.property (Nat.pos_of_ne_zero hne)⟩⟩
  obtain ⟨hverified, hresults⟩ := h.complete hworkers hresolved
  -- every place is taken, so that it has a result
  have hfull : ∀ stored ∈ p.results, stored.isSome := by
    intro stored hmem
    obtain ⟨i, hi, rfl⟩ := List.mem_iff_getElem.mp hmem
    have htaken : i ∈ p.taken.map fun entry ↦ entry.1.val := by
      rw [hverified]
      exact List.mem_range.mpr (h.length ▸ hi)
    obtain ⟨entry, hentry, rfl⟩ := List.mem_map.mp htaken
    obtain ⟨result, hresult, -⟩ := hresults entry hentry
    obtain ⟨_, hget⟩ := List.getElem?_eq_some_iff.mp hresult
    rw [hget]
    rfl
  have hsame : p.results = (verificationReport p.results).results.map some :=
    eq_map_reduceOption hfull
  have hlength : (verificationReport p.results).results.length = params.checks.length :=
    (List.reduceOption_length_eq_iff.mpr hfull).trans h.length
  obtain ⟨htotal, hpassed, hfailed, hsum⟩ := verificationReport_counts p.results
  refine ⟨hverified, hlength, ?_, htotal.trans hlength, hsum, hpassed, hfailed⟩
  intro entry hentry
  obtain ⟨result, hresult, hyields⟩ := hresults entry hentry
  obtain ⟨iterations, hsettled⟩ := verifyDeployedAsset_of_yields hyields
  refine ⟨result, ?_, verifyDeployedAsset_check hsettled, iterations, hsettled⟩
  rw [hsame, List.getElem?_map] at hresult
  simpa using hresult

/-- For all checks, every valid limit and every order of the workers' turns: no more verifications
are in flight than the limit allows, none is of a check that has been taken before, and every turn
uses up some of what remains. When all workers have returned, each check has been verified once,
with its result at its place in the report and counted by its own success. And in a run in which all
that is thrown past the retries has a message, no worker rejects, and there is a next turn until all
workers have returned. -/
theorem verifyDeployedAssets_reachable (platform : Platform Url τ)
    (params : VerifyDeployedAssetsParams τ) (limit : ConcurrencyLimit)
    (start p : AssetPool τ params.checks limit)
    (hstart : startWorkers params = .ok ⟨limit, start⟩)
    (h : Reachable (step (verifications platform params.retry params.checks))
      (fun _ _ _ ↦ True) start p) :
    p.inFlight.card ≤ limit.val ∧
      (p.taken.map fun entry ↦ entry.1.val).Nodup ∧
      (∀ action p', step (verifications platform params.retry params.checks) p action = some p' →
        remaining params.retry p' < remaining params.retry p) ∧
      (p.Resolved → Reports platform params p (verificationReport p.results)) ∧
      ((∀ entry ∈ p.taken, Told platform params.retry (params.checks.get entry.1) entry.2) →
        ¬p.Rejected ∧
        (¬p.Resolved → ∃ action p',
          step (verifications platform params.retry params.checks) p action = some p')) := by
  rw [eq_initial_of_startWorkers hstart] at h
  have hinv := Invariant.of_reachable h
  refine ⟨?_, ?_, ?_, reports_of_resolved hinv, fun htold ↦ ?_⟩
  · calc p.inFlight.card ≤ Fintype.card (Fin (min limit.val params.checks.length)) :=
        Finset.card_le_univ _
      _ = min limit.val params.checks.length := Fintype.card_fin _
      _ ≤ limit.val := min_le_left ..
  · rw [hinv.taken]
    exact List.nodup_range
  · intro action p' hstep
    exact remaining_lt (verifications_bounded platform params.retry params.checks) hstep
  · have hsafe := hinv.not_rejected fun entry hentry ↦ (htold entry hentry).not_yields
    have hnonempty : Nonempty (AssetEnvironment τ) :=
      ⟨⟨fun _ ↦ 0, fun _ ↦ .ok 0, fun _ ↦ .ok 0, fun _ _ ↦ .ok ⟨200, none⟩,
        fun _ _ ↦ .ok ⟨true, none, none⟩, fun _ ↦ .ok 0, fun _ ↦ .ok ()⟩⟩
    exact ⟨hsafe, exists_step hsafe⟩

/-- URLs are texts, and a number is written as an integer. -/
def plainPlatform : Platform Text ℤ where
  parseUrl := .ok
  urlToString := id
  setSearchParam url name value := url ++ '?' :: name ++ '=' :: value
  toLowerCase := List.map Char.toLower
  numberToText n := (toString n).toList

/-- A check of a page. -/
def pageCheck (path : String) : DeployedAssetCheck where
  path := path.toList
  url := ("https://example.test/" ++ path).toList
  method := none
  cacheMode := none
  expectedContentTypes := none
  headers := none
  validateResponse := false

/-- A page that is answered with this status. -/
def answered (status : ℕ) : AssetEnvironment ℤ where
  dateNow _ := 0
  startedAtMs _ := .ok 0
  endedAtMs _ := .ok 5
  fetch _ _ := .ok ⟨status, none⟩
  validateResponse _ _ := .ok ⟨true, none, none⟩
  retryNow _ := .ok 0
  sleep _ := .ok ()

/-- Two pages, verified by two workers. -/
def twoPages : VerifyDeployedAssetsParams ℤ where
  checks := [pageCheck "index.html", pageCheck "app.js"]
  concurrencyLimit := some (some 2)
  retry := none

/-- A run of the two workers. The second page is missing, and its verification is over before that
of the first has begun to settle. -/
def secondFirst : List (WorkerPool.Action (Fin 2) (AssetEnvironment ℤ)) :=
  let first : Fin 2 := ⟨0, Nat.zero_lt_two⟩
  let second : Fin 2 := ⟨1, Nat.one_lt_two⟩
  [.take first (answered 200), .take second (answered 404), .turn second, .turn second,
    .turn first, .turn first, .take first (answered 200), .take second (answered 200)]

/-- When the first iteration ends a verification, its clock and sleeps do not throw and the error
that it gives up with has a message, nothing without a message is thrown. -/
theorem told_of_ended {check : DeployedAssetCheck} {status : ℕ}
    {s : LoopState (AttemptError ℤ) ℤ} {ending : Ending (DeployedAssetAttempt ℤ) (AttemptError ℤ) ℤ}
    (hrun : runWithRetry (retryEnvironment plainPlatform check (answered status)) (retryMode none)
      1 = .ok (.ended s ending))
    (hcauses : ∀ event ∈ s.trace, (match event with
      | .giveUp cause =>
          ((retryEnvironment plainPlatform check (answered status)).getErrorMessage cause).isOk
      | _ => true) = true) :
    Told plainPlatform none check (answered status) := by
  intro iterations progress hprogress thrown hthrown
  have hstate : progress.state = LoopState.initial ∨ progress.state = s := by
    cases iterations with
    | zero =>
        obtain rfl := Except.ok.inj hprogress
        exact .inl rfl
    | succ iterations =>
        have hended := runFor_of_ended (Except.ok.inj hrun) (Nat.le_add_left 1 iterations)
        obtain rfl := (Except.ok.inj hprogress).symm.trans hended
        exact .inr rfl
  cases hthrown with
  | clock hread hclock => contradiction
  | hook hreport hhook => contradiction
  | sleep hsleep hslept => contradiction
  | message hgiveUp hmessage =>
      rcases hstate with hinitial | hs
      · rw [hinitial] at hgiveUp
        exact absurd hgiveUp List.not_mem_nil
      · rw [hs] at hgiveUp
        have hmade := hcauses _ hgiveUp
        simp only [hmessage] at hmade
        contradiction

/-- The results are at the places of their checks all the same. -/
theorem verifyDeployedAssets_reachable_two :
    ∃ p : AssetPool ℤ twoPages.checks ⟨2, by omega⟩, ¬p.Rejected ∧
      Reports plainPlatform twoPages p (verificationReport p.results) ∧
      (verificationReport p.results).results.map DeployedAssetResult.isSuccess = [true, false] := by
  obtain ⟨p, hfollow, hresolved, hresults, htaken⟩ :
      ∃ p : AssetPool ℤ twoPages.checks ⟨2, by omega⟩,
      follow (step (verifications plainPlatform twoPages.retry twoPages.checks))
        (fun _ _ _ ↦ True) Pool.initial secondFirst = some p ∧ p.Resolved ∧
      (verificationReport p.results).results.map DeployedAssetResult.isSuccess =
        [true, false] ∧
      p.taken = [(⟨0, Nat.zero_lt_two⟩, answered 200), (⟨1, Nat.one_lt_two⟩, answered 404)] := by
    refine ⟨_, rfl, fun (w : Fin 2) ↦ ?_, rfl, rfl⟩
    match w with
    | 0 => rfl
    | 1 => rfl
  have hreachable := Reachable.start.of_follow hfollow
  obtain ⟨-, -, -, hreports, hsafe⟩ :=
    verifyDeployedAssets_reachable plainPlatform twoPages _ _ p rfl hreachable
  refine ⟨p, (hsafe fun entry hentry ↦ ?_).1, hreports hresolved, hresults⟩
  rw [htaken] at hentry
  rcases List.mem_cons.mp hentry with rfl | hlast
  · exact told_of_ended rfl (by decide)
  · rw [List.mem_singleton.mp hlast]
    exact told_of_ended rfl (by decide)

/-- A page that is not there yet, and a sleep that throws an object whose message is an object
without a prototype. -/
def sleepsUntold : AssetEnvironment ℤ :=
  { answered 503 with
    sleep _ := .error (.value (.untold
      (.told "Cannot convert object to primitive value".toList
        [⟨some "TypeError".toList, none, none⟩] (some 0)) [⟨none, none, none⟩] (some 0))) }

/-- One page. -/
def onePage : VerifyDeployedAssetsParams ℤ where
  checks := [pageCheck "index.html"]
  concurrencyLimit := none
  retry := none

/-- The `catch` block of its verification throws, and the worker rejects. -/
theorem verifyDeployedAssets_reachable_untold :
    ∃ p : AssetPool ℤ onePage.checks ⟨5, by omega⟩,
      startWorkers onePage = .ok ⟨⟨5, by omega⟩, Pool.initial⟩ ∧
      Reachable (step (verifications plainPlatform onePage.retry onePage.checks))
        (fun _ _ _ ↦ True) Pool.initial p ∧ p.Rejected := by
  let worker : Fin 1 := ⟨0, Nat.zero_lt_one⟩
  let run : List (WorkerPool.Action (Fin 1) (AssetEnvironment ℤ)) :=
    [.take worker sleepsUntold, .turn worker, .turn worker]
  obtain ⟨p, hfollow, hrejected⟩ : ∃ p : AssetPool ℤ onePage.checks ⟨5, by omega⟩,
      follow (step (verifications plainPlatform onePage.retry onePage.checks))
        (fun _ _ _ ↦ True) Pool.initial run = some p ∧ p.Rejected :=
    ⟨_, rfl, worker, ⟨0, Nat.zero_lt_one⟩, _, rfl⟩
  exact ⟨p, rfl, Reachable.start.of_follow hfollow, hrejected⟩

end CoreUtils.Toolkit.DeployedAssets
