import Mathlib.Data.List.Forall2
import Mathlib.Tactic.Common

/-!
# Programs with state and errors

Inversion lemmas for programs that change a state or fail: what a sequence, a lifted computation and
a returned value must have done when the program succeeds; and the same where a program that fails
keeps the state that it has come to. The last ones are about programs without a state.
-/

namespace CoreUtils.StateExcept

universe u v

variable {ε : Type v} {σ α β : Type u} {s : σ}

/-- A sequence succeeds when both of its parts do. -/
theorem bind_eq_ok {x : StateT σ (Except ε) α} {f : α → StateT σ (Except ε) β} {r : β × σ} :
    (x >>= f) s = .ok r ↔ ∃ a s', x s = .ok (a, s') ∧ f a s' = .ok r := by
  have hbind : (x >>= f) s = (x s).bind fun p ↦ f p.1 p.2 := rfl
  rw [hbind]
  cases hx : x s with
  | error e => simp [Except.bind]
  | ok p =>
      constructor
      · exact fun h ↦ ⟨p.1, p.2, rfl, h⟩
      · rintro ⟨a, s', hp, h⟩
        rw [Except.ok.inj hp]
        exact h

/-- A sequence whose first part fails is the failure. -/
theorem bind_of_error {x : StateT σ (Except ε) α} {f : α → StateT σ (Except ε) β} {e : ε}
    (h : x s = .error e) : (x >>= f) s = .error e := by
  have hbind : (x >>= f) s = (x s).bind fun p ↦ f p.1 p.2 := rfl
  rw [hbind, h]
  rfl

/-- A sequence whose first part succeeds goes on with the second. -/
theorem bind_of_ok {x : StateT σ (Except ε) α} {f : α → StateT σ (Except ε) β} {a : α} {s' : σ}
    (h : x s = .ok (a, s')) : (x >>= f) s = f a s' := by
  have hbind : (x >>= f) s = (x s).bind fun p ↦ f p.1 p.2 := rfl
  rw [hbind, h]
  rfl

/-- A lifted computation leaves the state alone. -/
theorem lift_eq_ok {x : Except ε α} {a : α} {s' : σ} :
    (liftM x : StateT σ (Except ε) α) s = .ok (a, s') ↔ x = .ok a ∧ s = s' := by
  have hlift : (liftM x : StateT σ (Except ε) α) s = x.bind fun a ↦ .ok (a, s) := rfl
  rw [hlift]
  cases x with
  | error e => simp [Except.bind]
  | ok a => simp [Except.bind]

/-- A returned value leaves the state alone. -/
theorem pure_eq_ok {a b : α} {s' : σ} :
    (pure a : StateT σ (Except ε) α) s = .ok (b, s') ↔ a = b ∧ s = s' := by
  have hpure : (pure a : StateT σ (Except ε) α) s = .ok (a, s) := rfl
  rw [hpure, Except.ok.injEq, Prod.mk.injEq]

/-! ## Programs that keep their state when they fail -/

section

variable {ε σ α β : Type u} {s s' : σ} {x : EStateM ε σ α} {f : α → EStateM ε σ β}

/-- Such a sequence succeeds when both of its parts do. -/
theorem estate_bind_eq_ok {b : β} :
    (x >>= f) s = .ok b s' ↔ ∃ a t, x s = .ok a t ∧ f a t = .ok b s' := by
  have hbind : (x >>= f) s = EStateM.bind x f s := rfl
  rw [hbind, EStateM.bind]
  cases x s with
  | error e t => simp
  | ok a t => simp

/-- It fails when its first part does, or its second part after it. -/
theorem estate_bind_eq_error {e : ε} :
    (x >>= f) s = .error e s' ↔
      x s = .error e s' ∨ ∃ a t, x s = .ok a t ∧ f a t = .error e s' := by
  have hbind : (x >>= f) s = EStateM.bind x f s := rfl
  rw [hbind, EStateM.bind]
  cases x s with
  | error e t => simp
  | ok a t => simp

end

/-! ## Programs that may fail -/

/-- A sequence without a state succeeds when both of its parts do. -/
theorem except_bind_eq_ok {x : Except ε α} {f : α → Except ε β} {b : β} :
    (x >>= f) = .ok b ↔ ∃ a, x = .ok a ∧ f a = .ok b := by
  cases x with
  | error e =>
      refine ⟨fun h ↦ ?_, fun ⟨_, h, _⟩ ↦ ?_⟩
      · cases h
      · cases h
  | ok a =>
      refine ⟨fun h ↦ ⟨a, rfl, h⟩, fun ⟨_, h, hb⟩ ↦ ?_⟩
      obtain rfl := Except.ok.inj h
      exact hb

/-- Another error changes no success. -/
theorem mapError_eq_ok {ε' : Type*} {x : Except ε α} {f : ε → ε'} {a : α} :
    x.mapError f = .ok a ↔ x = .ok a := by
  cases x with
  | error e =>
      refine ⟨fun h ↦ ?_, fun h ↦ ?_⟩
      · cases h
      · cases h
  | ok a' => exact ⟨fun h ↦ congrArg _ (Except.ok.inj h), fun h ↦ congrArg _ (Except.ok.inj h)⟩

/-- Another error comes from an error. -/
theorem mapError_eq_error {ε' : Type*} {x : Except ε α} {f : ε → ε'} {e' : ε'} :
    x.mapError f = .error e' ↔ ∃ e, x = .error e ∧ f e = e' := by
  cases x with
  | error e =>
      refine ⟨fun h ↦ ⟨e, rfl, Except.error.inj h⟩, fun ⟨_, h, hf⟩ ↦ ?_⟩
      obtain rfl := Except.error.inj h
      exact congrArg _ hf
  | ok a =>
      refine ⟨fun h ↦ ?_, fun ⟨_, h, _⟩ ↦ ?_⟩
      · cases h
      · cases h

/-- All elements are converted when each of them is. -/
theorem mapM_eq_ok_iff {f : α → Except ε β} {elements : List α} {converted : List β} :
    elements.mapM f = .ok converted ↔ List.Forall₂ (fun a b ↦ f a = .ok b) elements converted := by
  induction elements generalizing converted with
  | nil =>
      rw [List.mapM_nil, List.forall₂_nil_left_iff]
      exact ⟨fun h ↦ (Except.ok.inj h).symm, fun h ↦ h ▸ rfl⟩
  | cons a rest ih =>
      rw [List.mapM_cons, except_bind_eq_ok, List.forall₂_cons_left_iff]
      constructor
      · rintro ⟨b, hb, h⟩
        obtain ⟨others, hothers, h⟩ := except_bind_eq_ok.mp h
        exact ⟨b, others, hb, ih.mp hothers, (Except.ok.inj h).symm⟩
      · rintro ⟨b, others, hb, hothers, rfl⟩
        exact ⟨b, hb, except_bind_eq_ok.mpr ⟨others, ih.mpr hothers, rfl⟩⟩

/-- Where nothing is returned for a failure, a list is converted exactly if each of its elements
is. -/
theorem mapM_eq_some_iff {f : α → Option β} {elements : List α} {converted : List β} :
    elements.mapM f = some converted ↔
      List.Forall₂ (fun a b ↦ f a = some b) elements converted := by
  induction elements generalizing converted with
  | nil =>
      rw [List.mapM_nil, List.forall₂_nil_left_iff]
      exact ⟨fun h ↦ (Option.some.inj h).symm, fun h ↦ h ▸ rfl⟩
  | cons a rest ih =>
      rw [List.mapM_cons, List.forall₂_cons_left_iff]
      simp only [Option.bind_eq_bind, Option.bind_eq_some_iff, ih]
      constructor
      · rintro ⟨b, hb, others, hothers, hpure⟩
        exact ⟨b, others, hb, hothers, (Option.some.inj hpure).symm⟩
      · rintro ⟨b, others, hb, hothers, rfl⟩
        exact ⟨b, hb, others, hothers, rfl⟩

/-- Elements that a partial function takes to others, one by one. -/
theorem forall₂_eq_some_iff {f : α → Option β} {elements : List α} {converted : List β} :
    List.Forall₂ (fun a b ↦ f a = some b) elements converted ↔
      (∀ a ∈ elements, f a ≠ none) ∧ converted = elements.filterMap f := by
  induction elements generalizing converted with
  | nil => simp
  | cons a rest ih =>
      rw [List.forall₂_cons_left_iff, List.forall_mem_cons]
      constructor
      · rintro ⟨b, others, hb, hothers, rfl⟩
        obtain ⟨hall, rfl⟩ := ih.mp hothers
        exact ⟨⟨by simp [hb], hall⟩, (List.filterMap_cons_some hb).symm⟩
      · rintro ⟨⟨hsome, hall⟩, rfl⟩
        obtain ⟨b, hb⟩ := Option.ne_none_iff_exists'.mp hsome
        exact ⟨b, _, hb, ih.mpr ⟨hall, rfl⟩, List.filterMap_cons_some hb⟩

end CoreUtils.StateExcept
