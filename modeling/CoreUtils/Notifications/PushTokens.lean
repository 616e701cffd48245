import CoreUtils.Library.Transition
import CoreUtils.Notifications.TriggerChunked

/-!
# Appending push tokens

`NotificationClient.appendPushToken` for one user and channel as a state machine. The provider holds
one register; a call reads it and then writes the list it read with its own token at the end.
Nothing keeps another call from writing in between, and then the later write drops the token of the
earlier one. `appendPushToken_keeps` says that this is the only way to lose a token.
-/

namespace CoreUtils.Notifications

namespace PushTokens

open Transition

/-- The data of a channel: push tokens, or data of another kind. -/
inductive ChannelData where
  | tokens (tokens : List String)
  | other
  deriving DecidableEq

/-- The tokens of channel data. -/
def ChannelData.tokensOf : ChannelData → List String
  | .tokens held => held
  | .other => []

/-- The tokens that the provider's register holds; a channel without data holds none. -/
def registered (register : Option ChannelData) : List String :=
  (register.map ChannelData.tokensOf).getD []

/-- The existing tokens by the provider's answer; a 404 stands for no data. -/
def getExistingTokens : Except Thrown ChannelData → Except Thrown (List String)
  | .ok data => .ok data.tokensOf
  | .error thrown => if thrown.status = some 404 then .ok [] else .error thrown

/-- The list that a call writes: what it read and its own token, without duplicates. -/
def appendToken (existingTokens : List String) (token : String) : List String :=
  OrderedMap.keys (OrderedSet.ofList (existingTokens ++ [token]))

/-- The result of a call. -/
abbrev Result := Except NotificationError Unit

/-- Where a call of `appendPushToken` stands. -/
inductive Call where
  | idle
  | read (existingTokens : List String)
  | returned (result : Result)
  deriving DecidableEq

/-- How a provider read ends. -/
inductive GetOutcome where
  | answers
  | fails (thrown : Thrown)

/-- How a provider write ends: it is executed and answered, fails before it is executed, or
after. -/
inductive SetOutcome where
  | answers
  | failsBefore (thrown : Thrown)
  | failsAfter (thrown : Thrown)

/-- A provider access of a call. -/
inductive Action (A : Type*) where
  | getChannelData (call : A) (outcome : GetOutcome)
  | setChannelData (call : A) (outcome : SetOutcome)

/-- The provider's register and the calls. -/
structure State (A : Type*) where
  register : Option ChannelData
  calls : A → Call

variable {A : Type*}

/-- No call has begun. -/
def State.initial (register : Option ChannelData) : State A := ⟨register, fun _ ↦ .idle⟩

/-- The provider's answer to a read. -/
def State.answer (s : State A) : GetOutcome → Except Thrown ChannelData
  | .answers =>
      match s.register with
      | none => .error ⟨some 404, "Not found"⟩
      | some data => .ok data
  | .fails thrown => .error thrown

variable [DecidableEq A]

/-- Move a call. -/
def State.move (s : State A) (call : A) (control : Call) : State A :=
  { s with calls := Function.update s.calls call control }

/-- The write of a call, with the result it returns. -/
def State.write (s : State A) (call : A) (tokens : List String) : SetOutcome → State A
  | .answers => State.move { s with register := some (.tokens tokens) } call (.returned (.ok ()))
  | .failsBefore thrown => s.move call (.returned (.error (toNotificationError thrown)))
  | .failsAfter thrown =>
      State.move { s with register := some (.tokens tokens) } call
        (.returned (.error (toNotificationError thrown)))

/-- One provider access; `token` gives the token of each call. -/
def step (token : A → String) (s : State A) : Action A → Option (State A)
  | .getChannelData call outcome =>
      match s.calls call with
      | .idle =>
          match getExistingTokens (s.answer outcome) with
          | .error thrown =>
              some (s.move call (.returned (.error (toNotificationError thrown))))
          | .ok existingTokens => some (s.move call (.read existingTokens))
      | _ => none
  | .setChannelData call outcome =>
      match s.calls call with
      | .read existingTokens =>
          some (s.write call (appendToken existingTokens (token call)) outcome)
      | _ => none

/-- A call that is about to write has read every token that the register holds, its own token
apart. -/
def Call.UpToDate (held : List String) (ownToken : String) : Call → Prop
  | .read existingTokens => ∀ t ∈ held, t ∈ existingTokens ∨ t = ownToken
  | _ => True

/-- Whether a call is up to date is decidable. -/
instance (held : List String) (ownToken : String) :
    (call : Call) → Decidable (call.UpToDate held ownToken)
  | .read existingTokens =>
      inferInstanceAs (Decidable (∀ t ∈ held, t ∈ existingTokens ∨ t = ownToken))
  | .idle => isTrue trivial
  | .returned _ => isTrue trivial

/-- A write finds no token in the register that its call has not read, its own token apart. -/
def State.UpToDate (token : A → String) (s : State A) : Action A → Prop
  | .setChannelData call _ => (s.calls call).UpToDate (registered s.register) (token call)
  | .getChannelData _ _ => True

/-- The condition of a step is decidable. -/
instance (token : A → String) (s : State A) :
    (action : Action A) → Decidable (s.UpToDate token action)
  | .setChannelData call _ =>
      inferInstanceAs (Decidable ((s.calls call).UpToDate (registered s.register) (token call)))
  | .getChannelData _ _ => isTrue trivial

/-- No token is lost: the register holds the initial tokens and those of all successful calls, and
after a successful call it holds none twice. -/
structure Kept (token : A → String) (initialTokens : List String) (s : State A) : Prop where
  initial : ∀ initialToken ∈ initialTokens, initialToken ∈ registered s.register
  appended : ∀ call, s.calls call = .returned (.ok ()) → token call ∈ registered s.register
  nodup : ∀ call, s.calls call = .returned (.ok ()) → (registered s.register).Nodup

variable {token : A → String} {initialTokens : List String} {register : Option ChannelData}
  {s s' : State A}

/-- A written list has no duplicates. -/
theorem nodup_appendToken (existingTokens : List String) (ownToken : String) :
    (appendToken existingTokens ownToken).Nodup :=
  (OrderedSet.ofList (existingTokens ++ [ownToken])).nodup

/-- The tokens of a written list. -/
theorem mem_appendToken {existingTokens : List String} {ownToken t : String} :
    t ∈ appendToken existingTokens ownToken ↔ t ∈ existingTokens ∨ t = ownToken := by
  rw [appendToken, OrderedSet.mem_keys_ofList, List.mem_append, List.mem_singleton]

/-- Moving a call that has not succeeded keeps the tokens. -/
theorem Kept.move (h : Kept token initialTokens s) (call : A) {control : Call}
    (hcontrol : control ≠ .returned (.ok ())) : Kept token initialTokens (s.move call control) := by
  have hcalls : ∀ other, (s.move call control).calls other = .returned (.ok ()) →
      s.calls other = .returned (.ok ()) := by
    intro other hother
    by_cases hsame : other = call
    · rw [hsame] at hother
      exact absurd (by simpa [State.move] using hother) hcontrol
    · simpa [State.move, hsame] using hother
  exact ⟨h.initial, fun other hother ↦ h.appended other (hcalls other hother),
    fun other hother ↦ h.nodup other (hcalls other hother)⟩

/-- An executed write that misses no registered token keeps the tokens. -/
theorem Kept.overwrite (h : Kept token initialTokens s) (call : A) {existingTokens : List String}
    (hfresh : ∀ t ∈ registered s.register, t ∈ existingTokens ∨ t = token call) (result : Result) :
    Kept token initialTokens
      (State.move { s with register := some (.tokens (appendToken existingTokens (token call))) }
        call (.returned result)) := by
  have hkept : ∀ t ∈ registered s.register, t ∈ appendToken existingTokens (token call) :=
    fun t ht ↦ mem_appendToken.mpr (hfresh t ht)
  refine ⟨fun t ht ↦ hkept t (h.initial t ht), ?_, fun _ _ ↦ nodup_appendToken _ _⟩
  intro other hother
  by_cases hsame : other = call
  · rw [hsame]
    exact mem_appendToken.mpr (.inr rfl)
  · refine hkept _ (h.appended other ?_)
    simpa [State.move, hsame] using hother

/-- Every step whose write misses no registered token keeps the tokens. -/
theorem Kept.step (h : Kept token initialTokens s) {action : Action A}
    (hstep : step token s action = some s') (hfresh : s.UpToDate token action) :
    Kept token initialTokens s' := by
  cases action with
  | getChannelData call outcome =>
      simp only [PushTokens.step] at hstep
      split at hstep
      · split at hstep
        · obtain rfl := Option.some.inj hstep
          exact h.move call (by simp)
        · obtain rfl := Option.some.inj hstep
          exact h.move call (by simp)
      · simp at hstep
  | setChannelData call outcome =>
      simp only [PushTokens.step] at hstep
      split at hstep
      · rename_i existingTokens hread
        obtain rfl := Option.some.inj hstep
        simp only [State.UpToDate, hread, Call.UpToDate] at hfresh
        cases outcome with
        | answers => exact h.overwrite call hfresh _
        | failsBefore thrown => exact h.move call (by simp)
        | failsAfter thrown => exact h.overwrite call hfresh _
      · simp at hstep

/-- In every run in which no write finds a token in the register that its call has not read, no
token is lost: the initial tokens and the tokens of all successful calls are registered, without
duplicates. -/
theorem appendPushToken_keeps
    (hrun : Reachable (step token) (fun s action _ ↦ s.UpToDate token action)
      (State.initial register) s) :
    Kept token (registered register) s := by
  refine hrun.invariant (I := Kept token (registered register)) ?_ fun h hstep hfresh ↦
    h.step hstep hfresh
  exact ⟨fun _ ht ↦ ht, fun _ hcall ↦ by simp [State.initial] at hcall,
    fun _ hcall ↦ by simp [State.initial] at hcall⟩

/-- Two calls, one after the other. -/
def oneByOne : List (Action Bool) :=
  [.getChannelData false .answers, .setChannelData false .answers,
    .getChannelData true .answers, .setChannelData true .answers]

/-- The tokens of the two calls. -/
def twoTokens : Bool → String
  | false => "a"
  | true => "b"

/-- Two calls in sequence keep the initial token and both of their own. -/
theorem appendPushToken_keeps_oneByOne : ∃ s : State Bool,
    follow (step twoTokens) (fun s action _ ↦ s.UpToDate twoTokens action)
      (State.initial (some (.tokens ["x"]))) oneByOne = some s ∧
    s.register = some (.tokens ["x", "a", "b"]) ∧ Kept twoTokens ["x"] s := by
  have hrun : (follow (step twoTokens) (fun s action _ ↦ s.UpToDate twoTokens action)
      (State.initial (some (.tokens ["x"]))) oneByOne).any fun s ↦
      s.register = some (.tokens ["x", "a", "b"]) := by decide
  obtain ⟨s, hs, hregister⟩ := (Option.any_eq_true _ _).mp hrun
  exact ⟨s, hs, of_decide_eq_true hregister,
    appendPushToken_keeps (Reachable.start.of_follow hs)⟩

/-- Two calls that both read before either writes. -/
def bothRead : List (Action Bool) :=
  [.getChannelData false .answers, .getChannelData true .answers,
    .setChannelData false .answers, .setChannelData true .answers]

/-- Both calls succeed, and the token of the first one is gone. -/
theorem appendPushToken_loses : ∃ s : State Bool,
    Reachable (step twoTokens) (fun _ _ _ ↦ True) (State.initial none) s ∧
    (∀ call, s.calls call = .returned (.ok ())) ∧ twoTokens false ∉ registered s.register := by
  have hrun : (follow (step twoTokens) (fun _ _ _ ↦ True) (State.initial none) bothRead).any fun s ↦
      (∀ call, s.calls call = .returned (.ok ())) ∧ twoTokens false ∉ registered s.register := by
    decide
  obtain ⟨s, hs, hfacts⟩ := (Option.any_eq_true _ _).mp hrun
  exact ⟨s, Reachable.start.of_follow hs, of_decide_eq_true hfacts⟩

end PushTokens

end CoreUtils.Notifications
