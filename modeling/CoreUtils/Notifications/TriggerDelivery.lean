import CoreUtils.Library.Text
import CoreUtils.Notifications.TriggerChunked
import Std.Data.String.ToNat

/-!
# Delivery of a chunked trigger

However often `triggerChunked` is repeated and wherever its provider calls fail, the recorded runs
are the first chunk calls of the request, in order and each recorded once. The main result is
`triggerChunked_delivers`: no idempotency key ever carries two bodies, and an attempt that succeeds
leaves every recipient recorded in its position.
-/

namespace CoreUtils.Notifications

open UtilTs Transition

/-! ## Keys -/

/-- The key of a chunk determines the key of the request and the number of the chunk. -/
theorem chunkIdempotencyKey_inj {key key' : String} {number number' : ℕ}
    (h : chunkIdempotencyKey key number = chunkIdempotencyKey key' number') :
    key = key' ∧ number = number' := by
  have hdash : ∀ n : ℕ, '-' ∉ (Nat.toDigits 10 n).reverse := by
    intro n hmem
    have hdigit := Nat.isDigit_of_mem_toDigits (by decide) (by decide) (List.mem_reverse.mp hmem)
    exact absurd hdigit (by decide)
  have hreversed : ∀ (text : String) (n : ℕ), (chunkIdempotencyKey text n).toList.reverse =
      (Nat.toDigits 10 n).reverse ++ '-' :: text.toList.reverse := by
    intro text n
    simp [chunkIdempotencyKey, Nat.toString_eq_repr]
  have hlists := congrArg (fun text ↦ text.toList.reverse) h
  simp only [hreversed] at hlists
  obtain ⟨hdigits, hkeys⟩ := Text.separator_unique (hdash number) (hdash number') hlists
  refine ⟨String.toList_injective (List.reverse_injective hkeys), Nat.repr_injective ?_⟩
  refine String.toList_injective ?_
  simpa [Nat.toList_repr] using hdigits

/-! ## Chunks -/

/-- The chunks of a recipient list. -/
structure Chunked {R : Type*} (recipients : List R) (chunks : List (RecipientChunk R)) : Prop where
  /-- Together the chunks are the list. -/
  joined : chunks.flatMap RecipientChunk.recipients = recipients
  /-- No chunk is larger than the provider allows. -/
  bounded : ∀ recipientChunk ∈ chunks,
    recipientChunk.recipients.length ≤ MAXIMUM_RECIPIENTS_COUNT
  /-- The chunks have different numbers. -/
  numbered : (chunks.map RecipientChunk.number).Nodup

/-- `chunkRecipients` does not throw, and splits the list. -/
theorem chunkRecipients_spec {R : Type*} (recipients : List R) :
    ∃ chunks, chunkRecipients recipients = .ok chunks ∧ Chunked recipients chunks := by
  unfold chunkRecipients
  split
  · rename_i hempty
    obtain rfl := List.length_eq_zero_iff.mp hempty
    exact ⟨[⟨1, []⟩], rfl, by simp, by simp, List.nodup_singleton 1⟩
  · have hpositive : 0 < MAXIMUM_RECIPIENTS_COUNT := by decide
    obtain ⟨groups, hgroups, hjoined, hbounded⟩ := chunk_spec recipients hpositive
    rw [hgroups]
    refine ⟨groups.mapIdx fun index recipientsChunk ↦ ⟨index + 1, recipientsChunk⟩, rfl,
      ?_, ?_, ?_⟩
    · rw [List.flatMap_def, List.mapIdx_eq_zipIdx_map, List.map_map]
      have hgroups : (groups.zipIdx.map Prod.fst).flatten = recipients := by
        rwa [List.zipIdx_map_fst]
      exact hgroups
    · intro recipientChunk hmem
      obtain ⟨index, hindex, rfl⟩ := List.mem_mapIdx.mp hmem
      exact hbounded _ (List.getElem_mem hindex)
    · rw [List.mapIdx_eq_zipIdx_map, List.map_map]
      have hnumbers : ((groups.zipIdx.map Prod.snd).map (· + 1)).Nodup := by
        rw [List.zipIdx_map_snd]
        have hpositions : (List.range' 0 groups.length).Nodup := List.nodup_range'
        exact hpositions.map (add_left_injective 1)
      rw [List.map_map] at hnumbers
      exact hnumbers

variable {V A : Type*} {formatE164 : String → Option String} {request : TriggerChunkedRequest V}
  {chunks : List (RecipientChunk (RecipientRequest V))}

/-- The provider calls of the request, in order; a chunk that cannot be converted has none. -/
def plannedCalls (formatE164 : String → Option String) (request : TriggerChunkedRequest V)
    (chunks : List (RecipientChunk (RecipientRequest V))) : List (Except Thrown (TriggerCall V)) :=
  chunks.map (chunkCall formatE164 request)

/-- What the call of a chunk carries. -/
theorem chunkCall_spec {recipientChunk : RecipientChunk (RecipientRequest V)} {call : TriggerCall V}
    (h : chunkCall formatE164 request recipientChunk = .ok call) :
    call.idempotencyKey = chunkIdempotencyKey request.idempotencyKey recipientChunk.number ∧
      recipientChunk.recipients.mapM (toRecipient formatE164) = .ok call.body.recipients := by
  unfold chunkCall at h
  cases hbody : toTriggerBody formatE164
      { request.body with recipients := recipientChunk.recipients } with
  | error thrown => simp [hbody, bind, Except.bind] at h
  | ok body =>
      simp only [hbody, bind, Except.bind, pure, Except.pure] at h
      obtain rfl := Except.ok.inj h
      exact ⟨rfl, recipients_of_toTriggerBody hbody⟩

/-- A key belongs to one planned call. -/
theorem planned_unique (hchunks : Chunked request.body.recipients chunks)
    {call call' : TriggerCall V}
    (hcall : .ok call ∈ plannedCalls formatE164 request chunks)
    (hcall' : .ok call' ∈ plannedCalls formatE164 request chunks)
    (hkey : call.idempotencyKey = call'.idempotencyKey) : call = call' := by
  obtain ⟨recipientChunk, hmem, hok⟩ := List.mem_map.mp hcall
  obtain ⟨recipientChunk', hmem', hok'⟩ := List.mem_map.mp hcall'
  rw [(chunkCall_spec hok).1, (chunkCall_spec hok').1] at hkey
  have hsame := List.inj_on_of_nodup_map hchunks.numbered hmem hmem'
    (chunkIdempotencyKey_inj hkey).2
  rw [hsame, hok'] at hok
  exact (Except.ok.inj hok).symm

/-! ## The recorded runs -/

/-- The provider has recorded the first planned calls, each under its key. -/
structure Recorded (planned : List (Except Thrown (TriggerCall V))) (recorded : Runs V) : Prop where
  keyed : ∀ entry ∈ recorded.entries, entry.2.call.idempotencyKey = entry.1
  begun : recorded.entries.map (fun entry ↦ .ok entry.2.call) <+: planned

/-- Accepting the call of a chunk whose predecessors are recorded records it. -/
theorem Recorded.accept {done : List (Except Thrown (TriggerCall V))} {call : TriggerCall V}
    {rest : List (Except Thrown (TriggerCall V))} {recorded : Runs V}
    (hunique : ∀ call', .ok call' ∈ done → call'.idempotencyKey ≠ call.idempotencyKey)
    (h : Recorded (done ++ .ok call :: rest) recorded) (hdone : done.length ≤ recorded.size)
    (id : String) :
    Recorded (done ++ .ok call :: rest) (recorded.accept call id) ∧
      recorded.size ≤ (recorded.accept call id).size ∧
      done.length < (recorded.accept call id).size := by
  have hlength : (recorded.entries.map fun entry ↦
      (Except.ok entry.2.call : Except Thrown (TriggerCall V))).length = recorded.size :=
    List.length_map _
  cases hget : recorded.get call.idempotencyKey with
  | some run =>
      have haccept : recorded.accept call id = recorded := by simp [Runs.accept, hget]
      rw [haccept]
      refine ⟨h, le_rfl, ?_⟩
      -- the key is recorded, but by none of the calls before this one
      refine Nat.lt_of_le_of_ne hdone fun hall ↦ ?_
      have hbegun := List.prefix_iff_eq_take.mp h.begun
      rw [hlength, ← hall, List.take_left] at hbegun
      have hentry : (call.idempotencyKey, run) ∈ recorded.entries :=
        OrderedMap.mem_entries.mpr hget
      have hmem : .ok run.call ∈ done :=
        hbegun ▸ List.mem_map.mpr ⟨(call.idempotencyKey, run), hentry, rfl⟩
      exact hunique _ hmem (h.keyed _ hentry)
  | none =>
      have haccept : (recorded.accept call id).entries =
          recorded.entries ++ [(call.idempotencyKey, ⟨id, call⟩)] := by
        simp only [Runs.accept, hget]
        rw [OrderedMap.set, dif_pos hget]
      -- were the call recorded already, its key would be present
      have hall : recorded.size = done.length := by
        refine le_antisymm (Nat.le_of_not_lt fun hlt ↦ ?_) hdone
        obtain ⟨tail, htail⟩ := h.begun
        have hnext : (recorded.entries.map fun entry ↦
            (Except.ok entry.2.call : Except Thrown (TriggerCall V)))[done.length]? =
            some (.ok call) := by
          have hat := congrArg (·[done.length]?) htail
          simpa [List.getElem?_append_left (hlength ▸ hlt)] using hat
        obtain ⟨entry, hentry, hcall⟩ := List.mem_map.mp (List.mem_of_getElem? hnext)
        have hkey := h.keyed entry hentry
        rw [Except.ok.inj hcall] at hkey
        refine OrderedMap.not_mem_keys hget (List.mem_map.mpr ⟨entry, hentry, hkey.symm⟩)
      have hsize : (recorded.accept call id).size = recorded.size + 1 := by
        simp [OrderedMap.size, haccept]
      refine ⟨⟨?_, ?_⟩, by omega, by omega⟩
      · intro entry hentry
        rw [haccept] at hentry
        rcases List.mem_append.mp hentry with hold | hnew
        · exact h.keyed entry hold
        · rw [List.mem_singleton.mp hnew]
      · have hbegun := List.prefix_iff_eq_take.mp h.begun
        rw [hlength, hall, List.take_left] at hbegun
        rw [haccept, List.map_append, hbegun]
        exact ⟨rest, by simp⟩

/-! ## The invariant -/

/-- How far an attempt is allowed to be when a number of runs are recorded. -/
def Progress (chunks : List (RecipientChunk (RecipientRequest V))) (count : ℕ) : Attempt V → Prop
  | .sending _ remaining _ => ∃ done, chunks = done ++ remaining ∧ done.length ≤ count
  | .returned (.ok _) => chunks.length ≤ count
  | _ => True

/-- More recorded runs allow the same attempts. -/
theorem Progress.mono {count count' : ℕ} {attempt : Attempt V} (h : Progress chunks count attempt)
    (hle : count ≤ count') : Progress chunks count' attempt := by
  unfold Progress at h ⊢
  split at h
  · obtain ⟨done, hsplit, hdone⟩ := h
    exact ⟨done, hsplit, hdone.trans hle⟩
  · exact Nat.le_trans h hle
  · trivial

/-- The head of the loop is reached with all earlier chunks recorded. -/
theorem progress_loop {done remaining : List (RecipientChunk (RecipientRequest V))} {count : ℕ}
    (hsplit : chunks = done ++ remaining) (hdone : done.length ≤ count) (total : ℕ)
    (responses : List ChunkResponse) :
    Progress chunks count (.loop total remaining responses) := by
  cases remaining with
  | nil =>
      rw [List.append_nil] at hsplit
      exact hsplit ▸ hdone
  | cons recipientChunk rest => exact ⟨done, hsplit, hdone⟩

/-- An attempt begins with nothing done. -/
theorem progress_begin (hdry : request.dryRun ≠ some true)
    (hchunks : chunkRecipients request.body.recipients = .ok chunks) (now : ℤ) (count : ℕ) :
    Progress chunks count (.begin request now) := by
  unfold Attempt.begin
  split
  · trivial
  · rw [if_neg hdry, hchunks]
    exact progress_loop (List.nil_append _).symm (Nat.zero_le _) _ _

/-- The invariant of the system. -/
structure Delivers (formatE164 : String → Option String) (request : TriggerChunkedRequest V)
    (chunks : List (RecipientChunk (RecipientRequest V))) (s : State A V) : Prop where
  recorded : Recorded (plannedCalls formatE164 request chunks) s.recorded
  progress : ∀ a, Progress chunks s.recorded.size (s.attempts a)
  received : ∀ call ∈ s.received, .ok call ∈ plannedCalls formatE164 request chunks

variable {s s' : State A V}

/-- Nothing is recorded at the start. -/
theorem delivers_initial : Delivers formatE164 request chunks (State.initial : State A V) where
  recorded := ⟨by simp [State.initial, OrderedMap.empty], by simp [State.initial, OrderedMap.empty]⟩
  progress _ := trivial
  received := by simp [State.initial]

/-- Handing a planned call to the provider keeps the invariant. -/
theorem Delivers.receive (h : Delivers formatE164 request chunks s) {call : TriggerCall V}
    {recorded : Runs V} (hcall : .ok call ∈ plannedCalls formatE164 request chunks)
    (hrecorded : Recorded (plannedCalls formatE164 request chunks) recorded)
    (hsize : s.recorded.size ≤ recorded.size) :
    Delivers formatE164 request chunks (s.receive call recorded) where
  recorded := hrecorded
  progress a := (h.progress a).mono hsize
  received := by
    intro call' hmem
    rcases List.mem_append.mp hmem with hold | hnew
    · exact h.received call' hold
    · exact List.mem_singleton.mp hnew ▸ hcall

variable [DecidableEq A]

/-- Moving an attempt keeps the invariant when the attempt is not too far. -/
theorem Delivers.move (h : Delivers formatE164 request chunks s) (a : A) {control : Attempt V}
    (hprogress : Progress chunks s.recorded.size control) :
    Delivers formatE164 request chunks (s.move a control) where
  recorded := h.recorded
  progress a' := by
    by_cases hsame : a' = a
    · subst hsame
      simpa [State.move] using hprogress
    · simpa [State.move, hsame] using h.progress a'
  received := h.received

/-- One provider call keeps the invariant. -/
theorem Delivers.callChunk (h : Delivers formatE164 request chunks s)
    (hchunked : Chunked request.body.recipients chunks) (a : A) {total : ℕ}
    {recipientChunk : RecipientChunk (RecipientRequest V)}
    {done remaining : List (RecipientChunk (RecipientRequest V))} {responses : List ChunkResponse}
    {call : TriggerCall V} (hsplit : chunks = done ++ recipientChunk :: remaining)
    (hdone : done.length ≤ s.recorded.size)
    (hcall : chunkCall formatE164 request recipientChunk = .ok call) (outcome : CallOutcome) :
    Delivers formatE164 request chunks
      (s.callChunk a total recipientChunk remaining responses call outcome) := by
  have hplanned : plannedCalls formatE164 request chunks =
      plannedCalls formatE164 request done ++
        .ok call :: plannedCalls formatE164 request remaining := by
    simp [plannedCalls, hsplit, hcall]
  have hmem : .ok call ∈ plannedCalls formatE164 request chunks := by simp [hplanned]
  have haccept : ∀ id, Recorded (plannedCalls formatE164 request chunks)
      (s.recorded.accept call id) ∧ s.recorded.size ≤ (s.recorded.accept call id).size ∧
      done.length < (s.recorded.accept call id).size := by
    intro id
    have hlength : (plannedCalls formatE164 request done).length = done.length := List.length_map _
    have hrecorded := h.recorded
    rw [hplanned] at hrecorded ⊢
    rw [← hlength] at hdone ⊢
    refine hrecorded.accept ?_ hdone id
    -- an earlier chunk has another number, hence another key
    intro call' hearlier hkey
    obtain ⟨recipientChunk', hmem', hok'⟩ := List.mem_map.mp hearlier
    rw [(chunkCall_spec hok').1, (chunkCall_spec hcall).1] at hkey
    have hnumbered := hchunked.numbered
    rw [hsplit, List.map_append, List.nodup_append] at hnumbered
    refine hnumbered.2.2 _ (List.mem_map_of_mem hmem') _ ?_ (chunkIdempotencyKey_inj hkey).2
    exact List.mem_map_of_mem List.mem_cons_self
  cases outcome with
  | failsBefore thrown => exact (h.receive hmem h.recorded le_rfl).move a trivial
  | failsAfter id thrown =>
      obtain ⟨hrecorded, hsize, -⟩ := haccept id
      exact (h.receive hmem hrecorded hsize).move a trivial
  | responds id =>
      obtain ⟨hrecorded, hsize, hlt⟩ := haccept id
      have hreached : chunks = (done ++ [recipientChunk]) ++ remaining := by simp [hsplit]
      have hcount : (done ++ [recipientChunk]).length ≤ (s.recorded.accept call id).size := by
        rw [List.length_append, List.length_singleton]
        exact hlt
      exact (h.receive hmem hrecorded hsize).move a (progress_loop hreached hcount _ _)

/-- Every step keeps the invariant. -/
theorem Delivers.step (h : Delivers formatE164 request chunks s)
    (hdry : request.dryRun ≠ some true)
    (hchunks : chunkRecipients request.body.recipients = .ok chunks)
    (hchunked : Chunked request.body.recipients chunks) {action : Action A}
    (hstep : step formatE164 request s action = some s') :
    Delivers formatE164 request chunks s' := by
  cases action with
  | begin a now =>
      simp only [Notifications.step] at hstep
      split at hstep
      · obtain rfl := Option.some.inj hstep
        exact h.move a (progress_begin hdry hchunks now _)
      · simp at hstep
  | call a outcome =>
      simp only [Notifications.step] at hstep
      split at hstep
      · rename_i total recipientChunk remaining responses hcontrol
        have hprogress := h.progress a
        rw [hcontrol] at hprogress
        obtain ⟨done, hsplit, hdone⟩ := hprogress
        split at hstep
        · obtain rfl := Option.some.inj hstep
          exact h.move a trivial
        · rename_i call hcall
          obtain rfl := Option.some.inj hstep
          exact h.callChunk hchunked a hsplit hdone hcall outcome
      · simp at hstep

/-! ## Delivery -/

/-- Converting the chunks one by one converts the list. -/
theorem mapM_flatMap_chunks {calls : List (TriggerCall V)}
    (h : plannedCalls formatE164 request chunks = calls.map .ok) :
    (chunks.flatMap RecipientChunk.recipients).mapM (toRecipient formatE164) =
      .ok (calls.flatMap fun call ↦ call.body.recipients) := by
  induction chunks generalizing calls with
  | nil =>
      obtain rfl : calls = [] := by simpa [plannedCalls] using h.symm
      rfl
  | cons recipientChunk rest ih =>
      cases calls with
      | nil => simp [plannedCalls] at h
      | cons call calls =>
          obtain ⟨hcall, hrest⟩ := List.cons.inj h
          rw [List.flatMap_cons, List.mapM_append, (chunkCall_spec hcall).2, ih hrest]
          rfl

/-- A list is converted element by element. -/
theorem length_of_mapM {R K E : Type*} {f : R → Except E K} {items : List R} {converted : List K}
    (h : items.mapM f = .ok converted) : converted.length = items.length := by
  induction items generalizing converted with
  | nil =>
      obtain rfl : [] = converted := Except.ok.inj h
      rfl
  | cons item rest ih =>
      rw [List.mapM_cons] at h
      cases hitem : f item with
      | error e => simp [hitem, bind, Except.bind] at h
      | ok first =>
          cases hrest : rest.mapM f with
          | error e => simp [hitem, hrest, bind, Except.bind] at h
          | ok others =>
              simp only [hitem, hrest, bind, Except.bind, pure, Except.pure] at h
              obtain rfl := Except.ok.inj h
              simp [ih hrest]

/-- In every run of attempts of one request, whatever provider calls fail before or after they are
recorded, no idempotency key is received with two bodies; once an attempt has succeeded, the
recorded runs hold the recipients of the request, each position once and in order, at most 1000 in a
run. The chunk keys of a request with another idempotency key are different. -/
theorem triggerChunked_delivers (formatE164 : String → Option String)
    (request : TriggerChunkedRequest V) (hdry : request.dryRun ≠ some true) (s : State A V)
    (hrun : Reachable (step formatE164 request) (fun _ _ _ ↦ True) State.initial s) :
    (∀ call ∈ s.received, ∀ call' ∈ s.received,
      call.idempotencyKey = call'.idempotencyKey → call = call') ∧
    (∀ a responses, s.attempts a = .returned (.ok responses) →
      request.body.recipients.mapM (toRecipient formatE164) =
          .ok (s.recorded.values.flatMap fun run ↦ run.call.body.recipients) ∧
        (∀ run ∈ s.recorded.values,
          run.call.body.recipients.length ≤ MAXIMUM_RECIPIENTS_COUNT)) ∧
    (∀ otherKey number number', otherKey ≠ request.idempotencyKey →
      chunkIdempotencyKey otherKey number ≠
        chunkIdempotencyKey request.idempotencyKey number') := by
  obtain ⟨chunks, hchunks, hchunked⟩ := chunkRecipients_spec request.body.recipients
  have hinv : Delivers formatE164 request chunks s :=
    hrun.invariant delivers_initial fun h hstep _ ↦ h.step hdry hchunks hchunked hstep
  refine ⟨?_, ?_, ?_⟩
  · intro call hmem call' hmem' hkey
    exact planned_unique hchunked (hinv.received call hmem) (hinv.received call' hmem') hkey
  · intro a responses hreturned
    have hall : chunks.length ≤ s.recorded.size := by
      have hprogress := hinv.progress a
      rw [hreturned] at hprogress
      exact hprogress
    have hcalls : plannedCalls formatE164 request chunks =
        (s.recorded.values.map WorkflowRun.call).map .ok := by
      have hlength : (plannedCalls formatE164 request chunks).length = chunks.length :=
        List.length_map _
      have hbegun := hinv.recorded.begun.eq_of_length_le (by
        rw [hlength, List.length_map]
        exact hall)
      rw [← hbegun]
      simp [OrderedMap.values, Function.comp_def]
    refine ⟨?_, ?_⟩
    · rw [← hchunked.joined, mapM_flatMap_chunks hcalls, List.flatMap_map]
    · intro run hrun
      have hmem : .ok run.call ∈ plannedCalls formatE164 request chunks := by
        rw [hcalls]
        exact List.mem_map_of_mem (List.mem_map_of_mem hrun)
      obtain ⟨recipientChunk, hchunk, hcall⟩ := List.mem_map.mp hmem
      rw [length_of_mapM (chunkCall_spec hcall).2]
      exact hchunked.bounded recipientChunk hchunk
  · intro otherKey number number' hother hsame
    exact hother (chunkIdempotencyKey_inj hsame).1

/-- A request for more users than one call takes. -/
def manyUsers : TriggerChunkedRequest Unit where
  body := ⟨List.replicate 1001 (.userId "u1"), none, none, none, none, none⟩
  dryRun := none
  expiresAt := some 1000
  idempotencyKey := "job"
  workflowKey := "shift-reminder"

/-- The first attempt fails at its second chunk, although the provider recorded it; the second
attempt succeeds. -/
def failThenRetry : List (Action Bool) :=
  [.begin false 10, .call false (.responds "run-1"),
    .call false (.failsAfter "run-2" ⟨none, "socket hang up"⟩), .begin true 20,
    .call true (.responds "run-3"), .call true (.responds "run-4")]

/-- What an attempt has returned. -/
def Attempt.responses {V : Type*} : Attempt V → Option (List ChunkResponse)
  | .returned (.ok responses) => some responses
  | _ => none

/-- An attempt with responses has returned them. -/
theorem Attempt.eq_of_responses {V : Type*} {attempt : Attempt V} {responses : List ChunkResponse}
    (h : attempt.responses = some responses) : attempt = .returned (.ok responses) := by
  cases attempt with
  | returned result =>
      cases result with
      | ok given =>
          obtain rfl := Option.some.inj h
          rfl
      | error thrown => cases h
  | _ => cases h

/-- The retry gets the ids of the recorded runs, and nothing is recorded twice. -/
theorem triggerChunked_delivers_retried : ∃ s : State Bool Unit,
    follow (step (fun _ ↦ none) manyUsers) (fun _ _ _ ↦ True) State.initial failThenRetry = some s ∧
    s.attempts true = .returned (.ok [⟨1, "run-1"⟩, ⟨2, "run-2"⟩]) ∧
    ((∀ call ∈ s.received, ∀ call' ∈ s.received,
      call.idempotencyKey = call'.idempotencyKey → call = call') ∧
    (∀ a responses, s.attempts a = .returned (.ok responses) →
      manyUsers.body.recipients.mapM (toRecipient fun _ ↦ none) =
          .ok (s.recorded.values.flatMap fun run ↦ run.call.body.recipients) ∧
        (∀ run ∈ s.recorded.values,
          run.call.body.recipients.length ≤ MAXIMUM_RECIPIENTS_COUNT)) ∧
    (∀ otherKey number number', otherKey ≠ manyUsers.idempotencyKey →
      chunkIdempotencyKey otherKey number ≠
        chunkIdempotencyKey manyUsers.idempotencyKey number')) := by
  have hrun : (follow (step (fun _ ↦ none) manyUsers) (fun _ _ _ ↦ True)
      (State.initial : State Bool Unit) failThenRetry).bind (fun s ↦ (s.attempts true).responses) =
        some [⟨1, "run-1"⟩, ⟨2, "run-2"⟩] := by decide +kernel
  obtain ⟨s, hfollow, hresponses⟩ := Option.bind_eq_some_iff.mp hrun
  exact ⟨s, hfollow, Attempt.eq_of_responses hresponses, triggerChunked_delivers (fun _ ↦ none)
    manyUsers (by decide) s (Reachable.start.of_follow hfollow)⟩

end CoreUtils.Notifications
