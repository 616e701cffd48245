import Mathlib.Data.List.Basic
import Mathlib.Logic.Relation

/-!
# Runs of a state machine

A machine is a partial step function; an environment assumption `ok` restricts the steps a run may
take. `Reachable` collects the states at the end of such runs, `Reachable.invariant` is their
induction rule, and `follow` computes the run of an explicit schedule.
-/

namespace CoreUtils.Transition

variable {σ α : Type*}

/-- The states a run reaches when each of its steps satisfies `ok`. -/
inductive Reachable (step : σ → α → Option σ) (ok : σ → α → σ → Prop) (start : σ) : σ → Prop where
  | start : Reachable step ok start start
  | next {s s' : σ} {a : α} : Reachable step ok start s → step s a = some s' → ok s a s' →
      Reachable step ok start s'

variable {step : σ → α → Option σ} {ok ok' : σ → α → σ → Prop} {start s : σ}

/-- What holds at the start and is kept by every allowed step holds in every reachable state. -/
theorem Reachable.invariant {I : σ → Prop} (h : Reachable step ok start s) (hstart : I start)
    (hstep : ∀ {s s' a}, I s → step s a = some s' → ok s a s' → I s') : I s := by
  induction h with
  | start => exact hstart
  | next _ hs hok ih => exact hstep ih hs hok

/-- A run under a stronger assumption is a run under a weaker one. -/
theorem Reachable.mono (h : Reachable step ok start s) (hok : ∀ s a s', ok s a s' → ok' s a s') :
    Reachable step ok' start s := by
  induction h with
  | start => exact .start
  | next _ hs hallowed ih => exact .next ih hs (hok _ _ _ hallowed)

/-- A simulation: if every step from related states is answered by a step of the other system or by
none, every reachable state is related to one that the other system reaches. -/
theorem Reachable.simulation {τ β : Type*} {step' : τ → β → Option τ} {ok' : τ → β → τ → Prop}
    {start' : τ} {R : σ → τ → Prop} (h : Reachable step ok start s) (hstart : R start start')
    (hstep : ∀ {s t s' a}, R s t → step s a = some s' → ok s a s' →
      ∃ t', (t' = t ∨ ∃ b, step' t b = some t' ∧ ok' t b t') ∧ R s' t') :
    ∃ t, Reachable step' ok' start' t ∧ R s t := by
  induction h with
  | start => exact ⟨start', .start, hstart⟩
  | next _ hs hok ih =>
      obtain ⟨t, ht, hrelated⟩ := ih
      obtain ⟨t', hanswer, hrelated'⟩ := hstep hrelated hs hok
      rcases hanswer with rfl | ⟨b, hb, hokb⟩
      · exact ⟨t', ht, hrelated'⟩
      · exact ⟨t', .next ht hb hokb, hrelated'⟩

/-- The state a schedule ends in, when each step is possible and allowed. -/
def follow (step : σ → α → Option σ) (ok : σ → α → σ → Prop) [∀ s a s', Decidable (ok s a s')] :
    σ → List α → Option σ
  | s, [] => some s
  | s, a :: rest =>
      match step s a with
      | none => none
      | some s' => if ok s a s' then follow step ok s' rest else none

variable [∀ s a s', Decidable (ok s a s')]

/-- The end of an allowed schedule is reachable. -/
theorem Reachable.of_follow {schedule : List α} {s' : σ} (h : Reachable step ok start s)
    (hfollow : follow step ok s schedule = some s') : Reachable step ok start s' := by
  induction schedule generalizing s with
  | nil =>
      obtain rfl : s = s' := by simpa [follow] using hfollow
      exact h
  | cons a rest ih =>
      rw [follow] at hfollow
      cases hs : step s a with
      | none => simp [hs] at hfollow
      | some next =>
          rw [hs] at hfollow
          by_cases hok : ok s a next
          · exact ih (h.next hs hok) (by simpa [hok] using hfollow)
          · simp [hok] at hfollow

end CoreUtils.Transition
