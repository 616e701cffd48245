import CoreUtils.Library.Transition
import Mathlib.Data.Fintype.BigOperators
import Mathlib.Data.List.Basic
import Mathlib.Tactic.Common

/-!
# Workers that share a queue

A fixed set of workers takes the indices of a queue one after the other, from a counter they share,
and each works on one index at a time. A step is one turn of one worker, so that a run is any
interleaving of their turns. What an index needs is a task, which goes on for some turns and then
settles with a result or an error; the environment of a task is chosen when its index is taken. The
results are kept by index.

Every index is taken once, in order (`Invariant.taken`); when all workers have returned there is a
result at every index (`Invariant.complete`); and every turn uses up some of what remains
(`remaining_lt`).
-/

namespace CoreUtils.WorkerPool

variable {count : ℕ} {W Ω Task ε ρ : Type*}

/-- What a turn of a task leads to. -/
inductive Turn (Task ε ρ : Type*) where
  | goesOn (task : Task)
  | settles (outcome : Except ε ρ)

/-- How the task of an index starts in an environment, and what its turns are. -/
structure Tasks (count : ℕ) (Ω Task ε ρ : Type*) where
  start : Fin count → Ω → Task
  turn : Task → Turn Task ε ρ

/-- Where a worker is: at the head of its loop, awaiting a task, or over. -/
inductive Worker (count : ℕ) (Task ε : Type*) where
  | looping
  | working (index : Fin count) (task : Task)
  | returned
  | threw (index : Fin count) (error : ε)

/-- The workers with what they share. `taken` has the indices that were taken, in order, with the
environments of their tasks. -/
structure Pool (count : ℕ) (W Ω Task ε ρ : Type*) where
  worker : W → Worker count Task ε
  nextIndex : ℕ
  results : List (Option ρ)
  taken : List (Fin count × Ω)

/-- A worker takes the next index, or its task has a turn. -/
inductive Action (W Ω : Type*) where
  | take (w : W) (environment : Ω)
  | turn (w : W)

/-- All workers at the head of their loops, and no results. -/
def Pool.initial : Pool count W Ω Task ε ρ where
  worker _ := .looping
  nextIndex := 0
  results := List.replicate count none
  taken := []

/-! ## The turns of a task -/

/-- The states of the task of an index in an environment. -/
inductive Tasks.Runs (tasks : Tasks count Ω Task ε ρ) (index : Fin count) (environment : Ω) :
    Task → Prop where
  | start : tasks.Runs index environment (tasks.start index environment)
  | goesOn {task task' : Task} : tasks.Runs index environment task →
      tasks.turn task = .goesOn task' → tasks.Runs index environment task'

/-- The task of an index settles in this way. -/
def Tasks.Yields (tasks : Tasks count Ω Task ε ρ) (index : Fin count) (environment : Ω)
    (outcome : Except ε ρ) : Prop :=
  ∃ task, tasks.Runs index environment task ∧ tasks.turn task = .settles outcome

/-! ## The invariant -/

variable {tasks : Tasks count Ω Task ε ρ} {p p' : Pool count W Ω Task ε ρ}

/-- Where the task of a taken index is: with a worker, over with its result stored, or over with an
error that ended its worker. -/
inductive Accounted (tasks : Tasks count Ω Task ε ρ) (p : Pool count W Ω Task ε ρ)
    (index : Fin count) (environment : Ω) : Prop where
  | working {w : W} {task : Task} (hworker : p.worker w = .working index task)
      (hruns : tasks.Runs index environment task)
  | stored {result : ρ} (hstored : p.results[index.val]? = some (some result))
      (hyields : tasks.Yields index environment (.ok result))
  | threw {w : W} {error : ε} (hworker : p.worker w = .threw index error)
      (hyields : tasks.Yields index environment (.error error))

/-- What the place of a worker says about the queue. -/
def Knows (tasks : Tasks count Ω Task ε ρ) (p : Pool count W Ω Task ε ρ) :
    Worker count Task ε → Prop
  | .looping => True
  | .working index task =>
      ∃ environment, (index, environment) ∈ p.taken ∧ tasks.Runs index environment task
  | .returned => count ≤ p.nextIndex
  | .threw index error =>
      ∃ environment, (index, environment) ∈ p.taken ∧
        tasks.Yields index environment (.error error)

/-- What holds in every reachable state. -/
structure Invariant (tasks : Tasks count Ω Task ε ρ) (p : Pool count W Ω Task ε ρ) : Prop where
  length : p.results.length = count
  taken : p.taken.map (fun entry ↦ entry.1.val) = List.range (min p.nextIndex count)
  accounted : ∀ entry ∈ p.taken, Accounted tasks p entry.1 entry.2
  knows : ∀ w, Knows tasks p (p.worker w)

/-- The start. -/
theorem Invariant.initial (tasks : Tasks count Ω Task ε ρ) :
    Invariant tasks (Pool.initial : Pool count W Ω Task ε ρ) where
  length := List.length_replicate
  taken := by simp [Pool.initial]
  accounted := fun _ hmem ↦ absurd hmem List.not_mem_nil
  knows := fun _ ↦ trivial

/-- An index has one environment. -/
theorem Invariant.environment_unique (h : Invariant tasks p) {index : Fin count}
    {environment environment' : Ω} (hmem : (index, environment) ∈ p.taken)
    (hmem' : (index, environment') ∈ p.taken) : environment = environment' := by
  have hnodup : (p.taken.map fun entry ↦ entry.1.val).Nodup := h.taken ▸ List.nodup_range
  exact congrArg Prod.snd (List.inj_on_of_nodup_map hnodup hmem hmem' rfl)

/-- The task of a worker is one of a taken index. -/
theorem Invariant.of_working (h : Invariant tasks p) {w : W} {index : Fin count} {task : Task}
    (hworking : p.worker w = .working index task) :
    ∃ environment, (index, environment) ∈ p.taken ∧ tasks.Runs index environment task := by
  have hknows := h.knows w
  rwa [hworking] at hknows

/-- What a worker knows stays true when more is taken. -/
theorem Knows.mono {worker : Worker count Task ε} (h : Knows tasks p worker)
    (htaken : ∀ entry ∈ p.taken, entry ∈ p'.taken) (hnext : p.nextIndex ≤ p'.nextIndex) :
    Knows tasks p' worker := by
  cases worker with
  | looping => trivial
  | working index task =>
      obtain ⟨environment, hmem, hruns⟩ := h
      exact ⟨environment, htaken _ hmem, hruns⟩
  | returned => exact le_trans h hnext
  | threw index error =>
      obtain ⟨environment, hmem, hyields⟩ := h
      exact ⟨environment, htaken _ hmem, hyields⟩

/-- A task that nothing has happened to is where it was. -/
theorem Accounted.frame {index : Fin count} {environment : Ω}
    (h : Accounted tasks p index environment)
    (hworking : ∀ w task, p.worker w = .working index task → p'.worker w = .working index task)
    (hthrew : ∀ w error, p.worker w = .threw index error → p'.worker w = .threw index error)
    (hresults : p'.results[index.val]? = p.results[index.val]?) :
    Accounted tasks p' index environment := by
  cases h with
  | working hworker hruns => exact .working (hworking _ _ hworker) hruns
  | stored hstored hyields => exact .stored (hresults.trans hstored) hyields
  | threw hworker hyields => exact .threw (hthrew _ _ hworker) hyields

/-! ## What the workers do altogether -/

/-- All workers have returned. -/
def Pool.Resolved (p : Pool count W Ω Task ε ρ) : Prop := ∀ w, p.worker w = .returned

/-- Some worker has ended with an error. -/
def Pool.Rejected (p : Pool count W Ω Task ε ρ) : Prop :=
  ∃ w index error, p.worker w = .threw index error

/-- A worker that awaits a task. -/
def Worker.isWorking : Worker count Task ε → Bool
  | .working _ _ => true
  | _ => false

/-- The workers that await a task. -/
def Pool.inFlight [Fintype W] (p : Pool count W Ω Task ε ρ) : Finset W :=
  Finset.univ.filter fun w ↦ (p.worker w).isWorking

/-- When no task that was taken fails, no worker does. -/
theorem Invariant.not_rejected (h : Invariant tasks p)
    (hsafe : ∀ entry ∈ p.taken, ∀ error, ¬tasks.Yields entry.1 entry.2 (.error error)) :
    ¬p.Rejected := by
  rintro ⟨w, index, error, hthrew⟩
  have hknows := h.knows w
  rw [hthrew] at hknows
  obtain ⟨environment, hmem, hyields⟩ := hknows
  exact hsafe (index, environment) hmem error hyields

/-- When all workers have returned, each index has been taken, and has the result that its task
settled with. -/
theorem Invariant.complete (h : Invariant tasks p) (hworkers : count ≠ 0 → Nonempty W)
    (hresolved : p.Resolved) :
    p.taken.map (fun entry ↦ entry.1.val) = List.range count ∧
      ∀ entry ∈ p.taken, ∃ result, p.results[entry.1.val]? = some (some result) ∧
        tasks.Yields entry.1 entry.2 (.ok result) := by
  have hle : count ≤ p.nextIndex := by
    by_cases hcount : count = 0
    · omega
    · obtain ⟨w⟩ := hworkers hcount
      have hknows := h.knows w
      rw [hresolved w] at hknows
      exact hknows
  refine ⟨by rw [h.taken, min_eq_right hle], fun entry hmem ↦ ?_⟩
  cases h.accounted entry hmem with
  | working hworking => exact absurd (hworking.symm.trans (hresolved _)) nofun
  | stored hstored hyields => exact ⟨_, hstored, hyields⟩
  | threw hthrew => exact absurd (hthrew.symm.trans (hresolved _)) nofun

/-! ## Steps -/

variable [DecidableEq W]

/-- The pool when a worker is somewhere else. -/
def Pool.setWorker (p : Pool count W Ω Task ε ρ) (w : W) (worker : Worker count Task ε) :
    Pool count W Ω Task ε ρ :=
  { p with worker := Function.update p.worker w worker }

/-- A worker that was at the head of its loop takes the next index, or returns when there is none
left. The counter is increased in either case. -/
def takeNext (tasks : Tasks count Ω Task ε ρ) (p : Pool count W Ω Task ε ρ) (w : W)
    (environment : Ω) : Pool count W Ω Task ε ρ :=
  if hlt : p.nextIndex < count then
    let index : Fin count := ⟨p.nextIndex, hlt⟩
    { p.setWorker w (.working index (tasks.start index environment)) with
      nextIndex := p.nextIndex + 1
      taken := p.taken ++ [(index, environment)] }
  else { p.setWorker w .returned with nextIndex := p.nextIndex + 1 }

/-- The task of a worker has had a turn. A result is stored at the index of the task, and an error
ends the worker. -/
def afterTurn (p : Pool count W Ω Task ε ρ) (w : W) (index : Fin count) :
    Turn Task ε ρ → Pool count W Ω Task ε ρ
  | .goesOn task => p.setWorker w (.working index task)
  | .settles (.ok result) =>
      { p.setWorker w .looping with results := p.results.set index.val (some result) }
  | .settles (.error error) => p.setWorker w (.threw index error)

/-- One turn of one worker. -/
def step (tasks : Tasks count Ω Task ε ρ) (p : Pool count W Ω Task ε ρ) :
    Action W Ω → Option (Pool count W Ω Task ε ρ)
  | .take w environment =>
      match p.worker w with
      | .looping => some (takeNext tasks p w environment)
      | _ => none
  | .turn w =>
      match p.worker w with
      | .working index task => some (afterTurn p w index (tasks.turn task))
      | _ => none

/-- The five kinds of step. -/
inductive Steps (tasks : Tasks count Ω Task ε ρ) (p : Pool count W Ω Task ε ρ) :
    Pool count W Ω Task ε ρ → Prop where
  | take (w : W) (environment : Ω) (hlooping : p.worker w = .looping) (hlt : p.nextIndex < count) :
      Steps tasks p
        { p.setWorker w
            (.working ⟨p.nextIndex, hlt⟩ (tasks.start ⟨p.nextIndex, hlt⟩ environment)) with
          nextIndex := p.nextIndex + 1
          taken := p.taken ++ [(⟨p.nextIndex, hlt⟩, environment)] }
  | leave (w : W) (hlooping : p.worker w = .looping) (hle : count ≤ p.nextIndex) :
      Steps tasks p { p.setWorker w .returned with nextIndex := p.nextIndex + 1 }
  | goesOn (w : W) (index : Fin count) (task task' : Task)
      (hworker : p.worker w = .working index task)
      (hturn : tasks.turn task = .goesOn task') :
      Steps tasks p (p.setWorker w (.working index task'))
  | store (w : W) (index : Fin count) (task : Task) (result : ρ)
      (hworker : p.worker w = .working index task)
      (hturn : tasks.turn task = .settles (.ok result)) :
      Steps tasks p
        { p.setWorker w .looping with results := p.results.set index.val (some result) }
  | throw (w : W) (index : Fin count) (task : Task) (error : ε)
      (hworker : p.worker w = .working index task)
      (hturn : tasks.turn task = .settles (.error error)) :
      Steps tasks p (p.setWorker w (.threw index error))

/-- Every step is of one of these kinds. -/
theorem steps_of_step {action : Action W Ω} (h : step tasks p action = some p') :
    Steps tasks p p' := by
  cases action with
  | take w environment =>
      cases hworker : p.worker w with
      | looping =>
          simp only [step, hworker, Option.some.injEq] at h
          rw [← h, takeNext]
          split
          · rename_i hlt
            exact .take w environment hworker hlt
          · rename_i hle
            exact .leave w hworker (Nat.not_lt.mp hle)
      | working | returned | threw => simp [step, hworker] at h
  | turn w =>
      cases hworker : p.worker w with
      | working index task =>
          simp only [step, hworker, Option.some.injEq] at h
          rw [← h]
          cases hturn : tasks.turn task with
          | goesOn task' => exact .goesOn w index task task' hworker hturn
          | settles outcome =>
              cases outcome with
              | ok result => exact .store w index task result hworker hturn
              | error error => exact .throw w index task error hworker hturn
      | looping | returned | threw => simp [step, hworker] at h

/-! ## The steps keep the invariant -/

/-- The worker that is moved is where it is moved to. -/
@[simp] theorem Pool.setWorker_self {w : W} {worker : Worker count Task ε} :
    (p.setWorker w worker).worker w = worker := Function.update_self ..

/-- The other workers stay. -/
theorem Pool.setWorker_of_ne {w w' : W} {worker : Worker count Task ε} (h : w' ≠ w) :
    (p.setWorker w worker).worker w' = p.worker w' := Function.update_of_ne h ..

/-- The counter is not moved. -/
@[simp] theorem Pool.setWorker_nextIndex {w : W} {worker : Worker count Task ε} :
    (p.setWorker w worker).nextIndex = p.nextIndex := rfl

/-- What the workers know after one of them has moved. -/
theorem Invariant.knows_moved (h : Invariant tasks p) {w : W} {worker : Worker count Task ε}
    (hmoved : p'.worker = (p.setWorker w worker).worker)
    (htaken : ∀ entry ∈ p.taken, entry ∈ p'.taken) (hnext : p.nextIndex ≤ p'.nextIndex)
    (hnew : Knows tasks p' worker) (w' : W) : Knows tasks p' (p'.worker w') := by
  rw [hmoved]
  by_cases hw : w' = w
  · rw [hw, Pool.setWorker_self]
    exact hnew
  · rw [Pool.setWorker_of_ne hw]
    exact (h.knows w').mono htaken hnext

/-- A worker at the head of its loop has no task, so that moving it loses none. -/
theorem Accounted.of_looping {w : W} {worker : Worker count Task ε} {index : Fin count}
    {environment : Ω} (h : Accounted tasks p index environment) (hlooping : p.worker w = .looping)
    (hmoved : p'.worker = (p.setWorker w worker).worker) (hresults : p'.results = p.results) :
    Accounted tasks p' index environment := by
  have hkept : ∀ {w' : W} {other : Worker count Task ε}, p.worker w' = other → other ≠ .looping →
      p'.worker w' = other := by
    intro w' other hother hdiffers
    have hne : w' ≠ w := fun heq ↦ hdiffers (by rw [← hother, heq, hlooping])
    rw [hmoved, Pool.setWorker_of_ne hne, hother]
  exact h.frame (fun w' task hw' ↦ hkept hw' nofun) (fun w' error hw' ↦ hkept hw' nofun)
    (by rw [hresults])

/-- When the task of a worker has had a turn, the other tasks are where they were. -/
theorem Invariant.accounted_turn (h : Invariant tasks p) {w : W} {index : Fin count} {task : Task}
    (hworking : p.worker w = .working index task) {worker : Worker count Task ε}
    (hmoved : p'.worker = (p.setWorker w worker).worker)
    (hresults : ∀ i ≠ index, p'.results[i.val]? = p.results[i.val]?)
    (hnew : ∀ environment, tasks.Runs index environment task →
      Accounted tasks p' index environment) :
    ∀ entry ∈ p.taken, Accounted tasks p' entry.1 entry.2 := by
  intro entry hmem
  by_cases hindex : entry.1 = index
  · obtain ⟨environment, hmem', hruns⟩ := h.of_working hworking
    have hmem'' : (index, entry.2) ∈ p.taken := hindex ▸ hmem
    rw [hindex, ← h.environment_unique hmem' hmem'']
    exact hnew environment hruns
  · have hkept : ∀ {w' : W} {other : Worker count Task ε}, p.worker w' = other →
        other ≠ .working index task → p'.worker w' = other := by
      intro w' other hother hdiffers
      have hne : w' ≠ w := fun heq ↦ hdiffers (by rw [← hother, heq, hworking])
      rw [hmoved, Pool.setWorker_of_ne hne, hother]
    refine (h.accounted entry hmem).frame (fun w' task' hw' ↦ hkept hw' ?_)
      (fun w' error hw' ↦ hkept hw' nofun) (hresults _ hindex)
    exact fun heq ↦ hindex (Worker.working.inj heq).1

/-- Taking the next index keeps the invariant. -/
theorem Invariant.take (h : Invariant tasks p) {w : W} (environment : Ω)
    (hlooping : p.worker w = .looping) (hlt : p.nextIndex < count) :
    Invariant tasks
      { p.setWorker w
          (.working ⟨p.nextIndex, hlt⟩ (tasks.start ⟨p.nextIndex, hlt⟩ environment)) with
        nextIndex := p.nextIndex + 1
        taken := p.taken ++ [(⟨p.nextIndex, hlt⟩, environment)] } where
  length := h.length
  taken := by
    have hbefore := h.taken
    have hafter : min (p.nextIndex + 1) count = p.nextIndex + 1 := min_eq_left hlt
    rw [min_eq_left hlt.le] at hbefore
    simp [hafter, List.range_succ, hbefore]
  accounted := by
    intro entry hmem
    rcases List.mem_append.mp hmem with hold | hnew
    · exact (h.accounted entry hold).of_looping hlooping rfl rfl
    · rw [List.mem_singleton.mp hnew]
      exact .working Pool.setWorker_self .start
  knows := h.knows_moved rfl (fun _ ↦ List.mem_append_left _) (Nat.le_succ _)
    ⟨environment, by simp, .start⟩

/-- A worker that finds no index left keeps the invariant. -/
theorem Invariant.leave (h : Invariant tasks p) {w : W} (hlooping : p.worker w = .looping)
    (hle : count ≤ p.nextIndex) :
    Invariant tasks { p.setWorker w .returned with nextIndex := p.nextIndex + 1 } where
  length := h.length
  taken := by
    have hbefore := h.taken
    have hafter : min (p.nextIndex + 1) count = count := min_eq_right (hle.trans (Nat.le_succ _))
    rw [min_eq_right hle] at hbefore
    rw [hafter]
    exact hbefore
  accounted := fun entry hmem ↦ (h.accounted entry hmem).of_looping hlooping rfl rfl
  knows := h.knows_moved rfl (fun _ ↦ id) (Nat.le_succ _) (hle.trans (Nat.le_succ _))

/-- A task that goes on keeps the invariant. -/
theorem Invariant.goesOn (h : Invariant tasks p) {w : W} {index : Fin count} {task task' : Task}
    (hworking : p.worker w = .working index task) (hturn : tasks.turn task = .goesOn task') :
    Invariant tasks (p.setWorker w (.working index task')) where
  length := h.length
  taken := h.taken
  accounted := h.accounted_turn hworking rfl (fun _ _ ↦ rfl) fun _ hruns ↦
    .working Pool.setWorker_self (hruns.goesOn hturn)
  knows := by
    obtain ⟨environment, hmem, hruns⟩ := h.of_working hworking
    exact h.knows_moved rfl (fun _ ↦ id) le_rfl ⟨environment, hmem, hruns.goesOn hturn⟩

/-- Storing a result keeps the invariant. -/
theorem Invariant.store (h : Invariant tasks p) {w : W} {index : Fin count} {task : Task}
    {result : ρ} (hworking : p.worker w = .working index task)
    (hturn : tasks.turn task = .settles (.ok result)) :
    Invariant tasks
      { p.setWorker w .looping with results := p.results.set index.val (some result) } where
  length := (List.length_set ..).trans h.length
  taken := h.taken
  accounted := by
    have hlt : index.val < p.results.length := h.length.symm ▸ index.isLt
    refine h.accounted_turn hworking rfl ?_ fun environment hruns ↦ ?_
    · exact fun i hi ↦ List.getElem?_set_ne (Fin.val_ne_of_ne hi.symm)
    · exact .stored (List.getElem?_set_self hlt) ⟨task, hruns, hturn⟩
  knows := h.knows_moved rfl (fun _ ↦ id) le_rfl trivial

/-- An error that ends a worker keeps the invariant. -/
theorem Invariant.throw (h : Invariant tasks p) {w : W} {index : Fin count} {task : Task}
    {error : ε} (hworking : p.worker w = .working index task)
    (hturn : tasks.turn task = .settles (.error error)) :
    Invariant tasks (p.setWorker w (.threw index error)) where
  length := h.length
  taken := h.taken
  accounted := h.accounted_turn hworking rfl (fun _ _ ↦ rfl) fun _ hruns ↦
    .threw Pool.setWorker_self ⟨task, hruns, hturn⟩
  knows := by
    obtain ⟨environment, hmem, hruns⟩ := h.of_working hworking
    exact h.knows_moved rfl (fun _ ↦ id) le_rfl ⟨environment, hmem, task, hruns, hturn⟩

/-- Every step keeps the invariant. -/
theorem Invariant.step (h : Invariant tasks p) {action : Action W Ω}
    (hstep : step tasks p action = some p') : Invariant tasks p' := by
  cases steps_of_step hstep with
  | take w environment hlooping hlt => exact h.take environment hlooping hlt
  | leave w hlooping hle => exact h.leave hlooping hle
  | goesOn w index task task' hworking hturn => exact h.goesOn hworking hturn
  | store w index task result hworking hturn => exact h.store hworking hturn
  | throw w index task error hworking hturn => exact h.throw hworking hturn

/-- Every reachable state has it. -/
theorem Invariant.of_reachable
    (h : Transition.Reachable (WorkerPool.step tasks) (fun _ _ _ ↦ True)
      Pool.initial p) : Invariant tasks p :=
  h.invariant (.initial tasks) fun hinv hstep _ ↦ hinv.step hstep

/-! ## What remains -/

/-- Tasks that settle: a size that every turn decreases, and a bound for the start. -/
structure Tasks.Bounded (tasks : Tasks count Ω Task ε ρ) (size : Task → ℕ) (bound : ℕ) : Prop where
  start : ∀ index environment, size (tasks.start index environment) ≤ bound
  turn : ∀ {task task'}, tasks.turn task = .goesOn task' → size task' < size task

/-- What a worker may still do without the queue. -/
def Worker.remaining (size : Task → ℕ) : Worker count Task ε → ℕ
  | .looping => 1
  | .working _ task => size task + 2
  | .returned => 0
  | .threw _ _ => 0

/-- What the workers may still do: a bound for the number of steps. -/
def Pool.remaining [Fintype W] (size : Task → ℕ) (bound : ℕ) (p : Pool count W Ω Task ε ρ) : ℕ :=
  ∑ w, (p.worker w).remaining size + (bound + 2) * (count - p.nextIndex)

/-- Moving a worker changes what remains by what it may still do before and after. -/
theorem sum_remaining_setWorker [Fintype W] (size : Task → ℕ) (w : W)
    (worker : Worker count Task ε) :
    ∑ w', ((p.setWorker w worker).worker w').remaining size + (p.worker w).remaining size =
      ∑ w', (p.worker w').remaining size + worker.remaining size := by
  have hothers : ∑ w' ∈ Finset.univ.erase w, ((p.setWorker w worker).worker w').remaining size =
      ∑ w' ∈ Finset.univ.erase w, (p.worker w').remaining size :=
    Finset.sum_congr rfl fun w' hw' ↦ by
      rw [Pool.setWorker_of_ne (Finset.ne_of_mem_erase hw')]
  rw [← Finset.add_sum_erase _ _ (Finset.mem_univ w), hothers, Pool.setWorker_self,
    ← Finset.add_sum_erase _ (fun w' ↦ (p.worker w').remaining size) (Finset.mem_univ w)]
  omega

/-- Every step uses up some of what remains. -/
theorem remaining_lt [Fintype W] {size : Task → ℕ} {bound : ℕ}
    (hbounded : tasks.Bounded size bound) {action : Action W Ω}
    (hstep : step tasks p action = some p') :
    p'.remaining size bound < p.remaining size bound := by
  unfold Pool.remaining
  cases steps_of_step hstep with
  | take w environment hlooping hlt =>
      have hsum := sum_remaining_setWorker (p := p) size w
        (.working ⟨p.nextIndex, hlt⟩ (tasks.start ⟨p.nextIndex, hlt⟩ environment))
      have hstart := hbounded.start ⟨p.nextIndex, hlt⟩ environment
      have hqueue : (bound + 2) * (count - p.nextIndex) =
          (bound + 2) * (count - (p.nextIndex + 1)) + (bound + 2) := by
        rw [← Nat.mul_succ]
        congr 1
        omega
      rw [hlooping] at hsum
      change _ + 1 = _ + (size _ + 2) at hsum
      show ∑ w', ((p.setWorker w _).worker w').remaining size +
        (bound + 2) * (count - (p.nextIndex + 1)) < _
      omega
  | leave w hlooping hle =>
      have hsum := sum_remaining_setWorker (p := p) size w .returned
      have hqueue : count - (p.nextIndex + 1) = count - p.nextIndex := by omega
      rw [hlooping] at hsum
      change _ + 1 = _ + 0 at hsum
      show ∑ w', ((p.setWorker w _).worker w').remaining size +
        (bound + 2) * (count - (p.nextIndex + 1)) < _
      rw [hqueue]
      omega
  | goesOn w index task task' hworking hturn =>
      have hsum := sum_remaining_setWorker (p := p) size w (.working index task')
      have hsize := hbounded.turn hturn
      rw [hworking] at hsum
      change _ + (size task + 2) = _ + (size task' + 2) at hsum
      rw [Pool.setWorker_nextIndex]
      omega
  | store w index task result hworking hturn =>
      have hsum := sum_remaining_setWorker (p := p) size w .looping
      rw [hworking] at hsum
      change _ + (size task + 2) = _ + 1 at hsum
      show ∑ w', ((p.setWorker w _).worker w').remaining size +
        (bound + 2) * (count - p.nextIndex) < _
      omega
  | throw w index task error hworking hturn =>
      have hsum := sum_remaining_setWorker (p := p) size w (.threw index error)
      rw [hworking] at hsum
      change _ + (size task + 2) = _ + 0 at hsum
      rw [Pool.setWorker_nextIndex]
      omega

/-- While a worker is not over, it can take a turn. -/
theorem exists_step [Nonempty Ω] (hrejected : ¬p.Rejected) (hresolved : ¬p.Resolved) :
    ∃ action p', step tasks p action = some p' := by
  obtain ⟨w, hw⟩ := not_forall.mp hresolved
  obtain ⟨environment⟩ := ‹Nonempty Ω›
  cases hworker : p.worker w with
  | looping => exact ⟨.take w environment, _, by simp [step, hworker]; rfl⟩
  | working index task => exact ⟨.turn w, _, by simp [step, hworker]; rfl⟩
  | returned => exact absurd hworker hw
  | threw index error => exact absurd ⟨w, index, error, hworker⟩ hrejected

end CoreUtils.WorkerPool
