import Mathlib.Data.Fintype.Basic
import CoreUtils.Toolkit.AdminAuthTokenLockInvariant

/-!
# Mutual exclusion of the admin token cache lock

`releaseLock` reads the lock file and removes it in two steps, and so does `removeStaleLock` for a
file it cannot parse. As long as every removal hits the file that was looked at, the lock excludes
(`lock_excludes`); when another process replaces the file in between, a fresh lock is removed and
two processes are inside `operation` (`racing_waiters_break_exclusion`).
-/

namespace CoreUtils.Toolkit

open Transition

namespace State

variable {P : Type} {lockStaleAfterMs : ℤ} {s s' : State P}

/-- A timely process inside `operation` has its lock at the path. -/
theorem Invariant.present (h : s.Invariant lockStaleAfterMs) (htimely : s.Timely lockStaleAfterMs)
    {p : P} (hoperating : (s.operating p).isSome) :
    ∃ file, s.lockFile = some file ∧ file.creator = p := by
  obtain ⟨lock, hlock⟩ := Option.isSome_iff_exists.mp hoperating
  have hknows := h.knows p
  have hfresh := htimely p lock hlock
  unfold operating at hlock
  split at hlock
  · rename_i held hcontrol
    obtain rfl := Option.some.inj hlock
    rw [hcontrol] at hknows
    rcases hknows.2 with ⟨file, hfile, -, hcreator⟩ | hexpired
    · exact ⟨file, hfile, hcreator⟩
    · exact absurd hfresh (not_lt.mpr hexpired)
  · contradiction

variable [DecidableEq P]

/-- Only the two `rm` steps make the lock file disappear. -/
theorem removing_of_removed {a : Action P} (hstep : s.step lockStaleAfterMs a = some s')
    {file : LockFile P} (hfile : s.lockFile = some file) (hnone : s'.lockFile = none) :
    ∃ p seen, a = .advance p ∧ s.removing p = some seen := by
  have hremoved : s'.lockFile ≠ s.lockFile := by
    rw [hfile, hnone]
    simp
  cases a with
  | tick nowMs =>
      obtain ⟨-, hnext⟩ := Option.ite_none_right_eq_some.mp hstep
      exact absurd (Option.some.inj hnext ▸ rfl) hremoved
  | begin p pid uuid =>
      obtain ⟨-, hnext⟩ := Option.ite_none_right_eq_some.mp hstep
      exact absurd (Option.some.inj hnext ▸ rfl) hremoved
  | timeOut p =>
      obtain ⟨-, hnext⟩ := Option.ite_none_right_eq_some.mp hstep
      exact absurd (Option.some.inj hnext ▸ rfl) hremoved
  | crash p =>
      obtain ⟨-, hnext⟩ := Option.ite_none_left_eq_some.mp hstep
      exact absurd (Option.some.inj hnext ▸ rfl) hremoved
  | finish p =>
      simp only [State.step] at hstep
      cases hcontrol : s.control p with
      | operating lock =>
          simp only [hcontrol, Option.some.injEq] at hstep
          exact absurd (hstep ▸ rfl) hremoved
      | _ => simp [hcontrol] at hstep
  | advance p =>
      simp only [State.step, State.advance] at hstep
      cases hcontrol : s.control p with
      | staleRemove seen => exact ⟨p, seen, rfl, by simp [removing, hcontrol]⟩
      | releaseRemove seen after => exact ⟨p, seen, rfl, by simp [removing, hcontrol]⟩
      | waiting | operating | done | crashed => simp [hcontrol] at hstep
      | writing lock inode =>
          simp only [hcontrol, Option.some.injEq] at hstep
          simp [← hstep, writeLock, hfile] at hnone
      | opening | staleRead | staleStat | staleCheck | releaseRead =>
          simp only [hcontrol, hfile, openExclusive, Option.some.injEq] at hstep
          simp [← hstep] at hremoved

/-- Under the assumptions of the lock, in every run whose removals are undisturbed, at most one
process is inside `operation`, and a lock file is removed by its creator or at least
`lockStaleAfterMs` old. -/
theorem lock_excludes {clockMs : ℤ}
    (h : Reachable (step lockStaleAfterMs)
      (fun s a s' ↦ s.Undisturbed a ∧ s'.Timely lockStaleAfterMs) (initial (P := P) clockMs) s) :
    s.MutuallyExclusive ∧ ∀ a s', s.step lockStaleAfterMs a = some s' → s.Undisturbed a →
      s.RemovesOwnOrStale lockStaleAfterMs a s' := by
  obtain ⟨hinv, htimely⟩ : s.Invariant lockStaleAfterMs ∧ s.Timely lockStaleAfterMs := by
    refine h.invariant (I := fun s ↦ s.Invariant lockStaleAfterMs ∧ s.Timely lockStaleAfterMs)
      ⟨initial_invariant clockMs, ?_⟩ ?_
    · intro p lock hlock
      contradiction
    · intro s s' a hs hstep hok
      exact ⟨hs.1.step hok.1 hstep, hok.2⟩
  refine ⟨fun p q hp hq ↦ ?_, fun a s' hstep hundisturbed file hfile hnone ↦ ?_⟩
  · obtain ⟨file, hfile, rfl⟩ := hinv.present htimely hp
    obtain ⟨other, hother, rfl⟩ := hinv.present htimely hq
    rw [Option.some.inj (hfile.symm.trans hother)]
  · obtain ⟨p, seen, rfl, hseen⟩ := removing_of_removed hstep hfile hnone
    rcases hinv.removing hseen (hundisturbed seen hseen) hfile with hcreator | hexpired
    · exact .inl (hcreator ▸ rfl)
    · exact .inr hexpired

/-! ## Schedules -/

/-- The environment assumption of a schedule can be checked. -/
instance [Fintype P] (s : State P) : Decidable (s.Timely lockStaleAfterMs) :=
  inferInstanceAs (Decidable (∀ p, ∀ lock ∈ s.operating p, _))

/-- Whether a removal is disturbed can be checked. -/
instance (s : State P) : (a : Action P) → Decidable (s.Undisturbed a)
  | .advance p =>
      inferInstanceAs (Decidable (∀ seen ∈ s.removing p, ∀ file ∈ s.lockFile, file.inode = seen))
  | .tick _ | .begin _ _ _ | .timeOut _ | .finish _ | .crash _ => isTrue trivial

/-- A process acquires the free lock and starts its operation. -/
def acquire (p : P) (pid : ℕ) (uuid : String) : List (Action P) :=
  [.begin p pid uuid, .advance p, .advance p]

/-- A process finds the lock taken and stale, and is about to remove it. -/
def findStale (p : P) (pid : ℕ) (uuid : String) : List (Action P) :=
  [.begin p pid uuid, .advance p, .advance p, .advance p, .advance p, .advance p]

/-- One process runs its operation and releases the lock, then another one acquires it. -/
def handover : List (Action (Fin 2)) :=
  acquire 0 11 "a" ++ [.tick 5, .finish 0, .advance 0, .advance 0] ++ acquire 1 12 "b"

/-- Runs of two processes, one of which hands the lock over to the other. -/
theorem lock_excludes_handover :
    ∃ s : State (Fin 2),
      follow (step 10) (fun s a s' ↦ s.Undisturbed a ∧ s'.Timely 10) (initial 0) handover =
        some s ∧
      (s.operating 1).isSome ∧ s.MutuallyExclusive ∧
      ∀ a s', s.step 10 a = some s' → s.Undisturbed a → s.RemovesOwnOrStale 10 a s' := by
  have hrun : (follow (step 10) (fun s a s' ↦ s.Undisturbed a ∧ s'.Timely 10) (initial 0)
      handover).any fun s ↦ (s.operating 1).isSome := by decide
  obtain ⟨s, hs, hoperating⟩ := (Option.any_eq_true _ _).mp hrun
  exact ⟨s, hs, hoperating, lock_excludes (Reachable.start.of_follow hs)⟩

/-- The owner crashes. Two waiters find its lock stale; after the first has removed it, a third one
acquires the lock, whose file the second waiter then removes, so that a fourth one gets in too. -/
def race : List (Action (Fin 5)) :=
  acquire 0 11 "a" ++ [.crash 0, .tick 10] ++ findStale 1 12 "b" ++ findStale 2 13 "c" ++
    [.advance 1] ++ acquire 3 14 "d"

/-- Two waiters that race to remove one stale lock break the lock: a run under its assumptions
removes a fresh lock file of another process and ends with two processes inside `operation`. -/
theorem racing_waiters_break_exclusion :
    (∃ s : State (Fin 5),
      Reachable (step 10) (fun _ _ s' ↦ s'.Timely 10) (initial 0) s ∧ ¬s.MutuallyExclusive) ∧
    ∃ (s s' : State (Fin 5)) (a : Action (Fin 5)),
      Reachable (step 10) (fun _ _ s' ↦ s'.Timely 10) (initial 0) s ∧
      s.step 10 a = some s' ∧ s'.Timely 10 ∧ ¬s.RemovesOwnOrStale 10 a s' := by
  have hbefore : (follow (step 10) (fun _ _ s' ↦ s'.Timely 10) (initial 0) race).any fun s ↦
      s.lockFile = some ⟨1, 3, some ⟨ownerIdOf 14 "d", 10, 14⟩, 10⟩ ∧ s.clockMs = 10 ∧
      (s.step 10 (.advance 2)).any fun s' ↦ s'.lockFile = none ∧ s'.Timely 10 := by decide
  have hafter : (follow (step 10) (fun _ _ s' ↦ s'.Timely 10) (initial 0)
      (race ++ [.advance 2] ++ acquire 4 15 "e")).any fun s ↦
      (s.operating 3).isSome ∧ (s.operating 4).isSome := by decide
  constructor
  · obtain ⟨s, hs, hoperating⟩ := (Option.any_eq_true _ _).mp hafter
    obtain ⟨hthree, hfour⟩ := of_decide_eq_true hoperating
    exact ⟨s, Reachable.start.of_follow hs, fun h ↦ absurd (h 3 4 hthree hfour) (by decide)⟩
  · obtain ⟨s, hs, hfacts⟩ := (Option.any_eq_true _ _).mp hbefore
    obtain ⟨hfile, hclock, hnext⟩ := of_decide_eq_true hfacts
    obtain ⟨s', hs', hfacts'⟩ := (Option.any_eq_true _ _).mp hnext
    obtain ⟨hnone, htimely⟩ := of_decide_eq_true hfacts'
    refine ⟨s, s', _, Reachable.start.of_follow hs, hs', htimely, fun h ↦ ?_⟩
    rcases h _ hfile hnone with hown | hstale
    · exact absurd (Action.advance.inj hown) (by decide)
    · rw [hclock] at hstale
      exact absurd hstale (by decide)

end State

end CoreUtils.Toolkit
