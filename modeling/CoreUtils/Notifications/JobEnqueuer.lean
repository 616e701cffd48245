import CoreUtils.Notifications.IdempotencyKey
import CoreUtils.Notifications.TriggerChunked

/-!
# Enqueueing notification jobs

`NotificationJobEnqueuer.enqueueOneOrMore` splits the recipients into chunks and enqueues a job for
each, under the hash of its key. The recipients of a chunk are sorted for the hash, but they are
split in the order in which they come, so that another order of the recipients has the same hashes
exactly when every chunk has the same recipients (`enqueueOneOrMore_hashes_iff`).
-/

namespace CoreUtils.Notifications

open Json UtilTs

/-- What is enqueued. An array has fewer than `2 ^ 32` elements. -/
structure NotificationEnqueueData where
  idempotencyKeyParts : IdempotencyKeyParts
  expiresAt : List Char
  recipients : List (List Char)
  workflowKey : List Char
  length_recipients : recipients.length < 2 ^ 32

/-- A job as it is enqueued, with its idempotency key in the data and its unique key. The handler,
the other data and the other options are passed on as they are. -/
structure EnqueuedJob where
  idempotencyKeyParts : IdempotencyKeyParts
  expiresAt : List Char
  recipients : List (List Char)
  workflowKey : List Char
  idempotencyKey : List Char
  uniqueKey : List Char

/-- A natural number as a number; the numbers of chunks are small enough. -/
def toDouble (n : ℕ) : Double :=
  if h : n < 2 ^ 53 then ⟨n, NumericText.roundToDouble_natCast h⟩ else ⟨(1 : ℕ), isDouble_one⟩

section

variable (numberText : ℚ → List Char) (sha256 : List Char → List Char)

/-- The parameters of the key of a chunk. -/
def idempotencyKeyParams (data : NotificationEnqueueData)
    (recipientChunk : RecipientChunk (List Char)) : TriggerIdempotencyKeyParams :=
  { data.idempotencyKeyParts with
    chunk := toDouble recipientChunk.number
    recipients := recipientChunk.recipients
    workflowKey := data.workflowKey }

/-- The job of a chunk. -/
def enqueuedJob (data : NotificationEnqueueData) (recipientChunk : RecipientChunk (List Char)) :
    EnqueuedJob :=
  let params := idempotencyKeyParams data recipientChunk
  { idempotencyKeyParts := data.idempotencyKeyParts
    expiresAt := data.expiresAt
    recipients := recipientChunk.recipients
    workflowKey := data.workflowKey
    idempotencyKey := triggerIdempotencyKey numberText params.members
    uniqueKey := triggerIdempotencyKeyParamsToHash numberText sha256
      { params with workplaceId := none } }

/-- `enqueueOneOrMore`: the jobs that it enqueues. -/
def enqueueOneOrMore (data : NotificationEnqueueData) : Except String (List EnqueuedJob) := do
  let chunks ← chunkRecipients data.recipients
  return chunks.map (enqueuedJob numberText sha256 data)

end

/-! ## The chunks of the recipients -/

/-- The recipients of a chunk, by its position. -/
def recipientsOfChunk {R : Type*} (recipients : List R) (index : ℕ) : List R :=
  slice recipients (index * MAXIMUM_RECIPIENTS_COUNT) ((index + 1) * MAXIMUM_RECIPIENTS_COUNT)

/-- The number of chunks, of which there is one when there are no recipients. -/
def chunkCount (length : ℕ) : ℕ :=
  max 1 ((length + MAXIMUM_RECIPIENTS_COUNT - 1) / MAXIMUM_RECIPIENTS_COUNT)

/-- The chunks are numbered consecutive slices. -/
theorem chunkRecipients_eq {R : Type*} (recipients : List R) :
    chunkRecipients recipients = .ok ((List.range (chunkCount recipients.length)).map fun index ↦
      ⟨index + 1, recipientsOfChunk recipients index⟩) := by
  unfold chunkRecipients
  split
  · rename_i hempty
    obtain rfl := List.length_eq_zero_iff.mp hempty
    have hcount : chunkCount 0 = 1 := by decide
    simp [hcount, recipientsOfChunk, slice]
  · rename_i hne
    have hpositive : MAXIMUM_RECIPIENTS_COUNT ≠ 0 := by decide
    have hcount : chunkCount recipients.length =
        (recipients.length + MAXIMUM_RECIPIENTS_COUNT - 1) / MAXIMUM_RECIPIENTS_COUNT := by
      refine max_eq_right ((Nat.one_le_div_iff (by decide)).mpr ?_)
      omega
    rw [chunk, if_neg hpositive, if_neg hne, hcount]
    refine congrArg Except.ok (List.ext_getElem (by simp) fun index _ _ ↦ ?_)
    simp [recipientsOfChunk]

/-- Behind the last chunk there are no recipients. -/
theorem recipientsOfChunk_of_le {R : Type*} {recipients : List R} {index : ℕ}
    (h : chunkCount recipients.length ≤ index) : recipientsOfChunk recipients index = [] := by
  have hbehind : recipients.length ≤ index * MAXIMUM_RECIPIENTS_COUNT := by
    have hle := (le_max_right _ _).trans h
    have hdiv := Nat.div_add_mod (recipients.length + MAXIMUM_RECIPIENTS_COUNT - 1)
      MAXIMUM_RECIPIENTS_COUNT
    simp only [MAXIMUM_RECIPIENTS_COUNT] at hle hdiv ⊢
    omega
  rw [recipientsOfChunk, slice, List.drop_eq_nil_of_le hbehind, List.take_nil]

/-! ## The hashes of the jobs -/

/-- Numbers of chunks are told apart. -/
theorem toDouble_inj {m n : ℕ} (hm : m < 2 ^ 53) (hn : n < 2 ^ 53) (h : toDouble m = toDouble n) :
    m = n := by
  rw [toDouble, toDouble, dif_pos hm, dif_pos hn] at h
  have hvalue : (m : ℚ) = n := congrArg Subtype.val h
  exact_mod_cast hvalue

section

variable (numberText : ℚ → List Char) (sha256 : List Char → List Char)

/-- The hash of a chunk. -/
def chunkHash (data : NotificationEnqueueData) (recipients : List (List Char)) (index : ℕ) :
    List Char :=
  triggerIdempotencyKeyParamsToHash numberText sha256
    { idempotencyKeyParams data ⟨index + 1, recipientsOfChunk recipients index⟩ with
      workplaceId := none }

variable {numberText sha256}

/-- The hashes of the jobs are those of the chunks. -/
theorem exists_enqueueOneOrMore (data : NotificationEnqueueData) :
    ∃ jobs, enqueueOneOrMore numberText sha256 data = .ok jobs ∧
      ∀ hash, hash ∈ jobs.map EnqueuedJob.uniqueKey ↔
        ∃ index < chunkCount data.recipients.length,
          chunkHash numberText sha256 data data.recipients index = hash := by
  refine ⟨_, by rw [enqueueOneOrMore, chunkRecipients_eq]; rfl, fun hash ↦ ?_⟩
  simp [enqueuedJob, chunkHash]

end

/-- Another order of the recipients is an array, too. -/
theorem NotificationEnqueueData.length_lt_of_perm (data : NotificationEnqueueData)
    {recipients : List (List Char)} (h : recipients.Perm data.recipients) :
    recipients.length < 2 ^ 32 :=
  h.length_eq ▸ data.length_recipients

/-- The same data with its recipients in another order. -/
def NotificationEnqueueData.reorder (data : NotificationEnqueueData)
    (recipients : List (List Char)) (h : recipients.Perm data.recipients) :
    NotificationEnqueueData :=
  { data with recipients, length_recipients := data.length_lt_of_perm h }

section

variable {format : NumberFormat} {sha256 : List Char → List Char}

/-- The hash of a chunk says its position and its recipients. -/
theorem chunkHash_eq_iff (hsha256 : CollisionFree format.text sha256)
    {data : NotificationEnqueueData} {recipients recipients' : List (List Char)} {i j : ℕ}
    (hi : i + 1 < 2 ^ 53) (hj : j + 1 < 2 ^ 53) :
    chunkHash format.text sha256 data recipients i =
        chunkHash format.text sha256 data recipients' j ↔
      i = j ∧ (recipientsOfChunk recipients i).Perm (recipientsOfChunk recipients' j) := by
  rw [chunkHash, chunkHash, hash_eq_iff hsha256]
  constructor
  · intro h
    exact ⟨Nat.succ_injective (toDouble_inj hi hj h.chunk), h.recipients⟩
  · rintro ⟨rfl, h⟩
    exact ⟨rfl, rfl, rfl, rfl, rfl, rfl, h⟩

/-- Two orders of the recipients have the same hashes exactly when every chunk has the same
recipients. -/
theorem forall_chunkHash_iff (hsha256 : CollisionFree format.text sha256)
    {data : NotificationEnqueueData} {recipients recipients' : List (List Char)} {count : ℕ}
    (hcount : count < 2 ^ 53) :
    (∀ hash, (∃ i < count, chunkHash format.text sha256 data recipients i = hash) ↔
        ∃ j < count, chunkHash format.text sha256 data recipients' j = hash) ↔
      ∀ i < count, (recipientsOfChunk recipients i).Perm (recipientsOfChunk recipients' i) := by
  constructor
  · intro h i hi
    obtain ⟨j, hj, hhash⟩ := (h _).mp ⟨i, hi, rfl⟩
    obtain ⟨rfl, hperm⟩ := (chunkHash_eq_iff hsha256 (by omega) (by omega)).mp hhash
    exact hperm.symm
  · intro h hash
    refine exists_congr fun i ↦ and_congr_right fun hi ↦ ?_
    have hsame : chunkHash format.text sha256 data recipients i =
        chunkHash format.text sha256 data recipients' i :=
      (chunkHash_eq_iff hsha256 (by omega) (by omega)).mpr ⟨rfl, h i hi⟩
    rw [hsame]

/-- The chunks of an array have small numbers. -/
theorem chunkCount_lt {length : ℕ} (h : length < 2 ^ 32) : chunkCount length < 2 ^ 53 := by
  have hle : (length + MAXIMUM_RECIPIENTS_COUNT - 1) / MAXIMUM_RECIPIENTS_COUNT ≤
      length + MAXIMUM_RECIPIENTS_COUNT - 1 := Nat.div_le_self _ _
  simp only [chunkCount, MAXIMUM_RECIPIENTS_COUNT] at hle ⊢
  omega

/-- The jobs for two orders of the recipients have the same hashes exactly when every chunk has the
same recipients. -/
theorem exists_jobs_hashes_iff (hsha256 : CollisionFree format.text sha256)
    (data : NotificationEnqueueData) {recipients : List (List Char)}
    (h : recipients.Perm data.recipients) :
    ∃ jobs jobs', enqueueOneOrMore format.text sha256 data = .ok jobs ∧
      enqueueOneOrMore format.text sha256 (data.reorder recipients h) = .ok jobs' ∧
      ((∀ hash, hash ∈ jobs.map EnqueuedJob.uniqueKey ↔ hash ∈ jobs'.map EnqueuedJob.uniqueKey) ↔
        ∀ index, (recipientsOfChunk data.recipients index).Perm
          (recipientsOfChunk recipients index)) := by
  obtain ⟨jobs, hjobs, hhashes⟩ := exists_enqueueOneOrMore data
  obtain ⟨jobs', hjobs', hhashes'⟩ := exists_enqueueOneOrMore (data.reorder recipients h)
  have hhashes'' : ∀ hash, hash ∈ jobs'.map EnqueuedJob.uniqueKey ↔
      ∃ j < chunkCount data.recipients.length,
        chunkHash format.text sha256 data recipients j = hash := by
    rw [← h.length_eq]
    exact hhashes'
  refine ⟨jobs, jobs', hjobs, hjobs', ?_⟩
  simp only [hhashes, hhashes'',
    forall_chunkHash_iff hsha256 (chunkCount_lt data.length_recipients)]
  refine ⟨fun hperm index ↦ ?_, fun hperm index _ ↦ hperm index⟩
  rcases lt_or_ge index (chunkCount data.recipients.length) with hlt | hle
  · exact hperm index hlt
  · rw [recipientsOfChunk_of_le hle, recipientsOfChunk_of_le (h.length_eq ▸ hle)]

/-- A single chunk has the same recipients in every order. -/
theorem recipientsOfChunk_perm_of_le {R : Type*} {recipients recipients' : List R}
    (h : recipients.Perm recipients') (hlength : recipients.length ≤ MAXIMUM_RECIPIENTS_COUNT)
    (index : ℕ) :
    (recipientsOfChunk recipients index).Perm (recipientsOfChunk recipients' index) := by
  cases index with
  | zero =>
      have hfirst : ∀ {recipients : List R}, recipients.length ≤ MAXIMUM_RECIPIENTS_COUNT →
          recipientsOfChunk recipients 0 = recipients := by
        intro recipients hle
        simp [recipientsOfChunk, slice, hle]
      rw [hfirst hlength, hfirst (h.length_eq ▸ hlength)]
      exact h
  | succ index =>
      have hcount : chunkCount recipients.length ≤ index + 1 := by
        simp only [chunkCount, MAXIMUM_RECIPIENTS_COUNT] at hlength ⊢
        omega
      rw [recipientsOfChunk_of_le hcount, recipientsOfChunk_of_le (h.length_eq ▸ hcount)]

/-- Jobs are enqueued under the same hashes in another order of the recipients exactly when every
chunk has the same recipients, and so always when there is only one chunk. -/
theorem enqueueOneOrMore_hashes_iff (hsha256 : CollisionFree format.text sha256)
    (data : NotificationEnqueueData) {recipients : List (List Char)}
    (h : recipients.Perm data.recipients) :
    ∃ jobs jobs', enqueueOneOrMore format.text sha256 data = .ok jobs ∧
      enqueueOneOrMore format.text sha256 (data.reorder recipients h) = .ok jobs' ∧
      ((∀ hash, hash ∈ jobs.map EnqueuedJob.uniqueKey ↔ hash ∈ jobs'.map EnqueuedJob.uniqueKey) ↔
        ∀ index, (recipientsOfChunk data.recipients index).Perm
          (recipientsOfChunk recipients index)) ∧
      (data.recipients.length ≤ MAXIMUM_RECIPIENTS_COUNT →
        ∀ hash, hash ∈ jobs.map EnqueuedJob.uniqueKey ↔
          hash ∈ jobs'.map EnqueuedJob.uniqueKey) := by
  obtain ⟨jobs, jobs', hjobs, hjobs', hiff⟩ := exists_jobs_hashes_iff hsha256 data h
  exact ⟨jobs, jobs', hjobs, hjobs', hiff, fun hlength ↦
    hiff.mpr (recipientsOfChunk_perm_of_le h.symm hlength)⟩

end

/-! ## Two orders -/

/-- Different texts have different hashes when the hash is the text. -/
theorem collisionFree_id (numberText : ℚ → List Char) : CollisionFree numberText id :=
  fun _ _ _ _ h ↦ h

/-- A reminder for some recipients. -/
def reminder (recipients : List (List Char)) (h : recipients.length < 2 ^ 32) :
    NotificationEnqueueData where
  idempotencyKeyParts := { eventOccurredAt := none, resource := none }
  expiresAt := []
  recipients
  workflowKey := "reminder".toList
  length_recipients := h

/-- Two recipients. -/
def twoRecipients : List (List Char) := [['b'], ['a']]

theorem length_twoRecipients : twoRecipients.length < 2 ^ 32 := by decide

theorem perm_twoRecipients : [['a'], ['b']].Perm twoRecipients := .swap ['b'] ['a'] []

/-- Two recipients have the same hash in either order. -/
theorem enqueueOneOrMore_hashes_two :
    ∃ jobs jobs',
      enqueueOneOrMore fractions.text id (reminder twoRecipients length_twoRecipients) = .ok jobs ∧
      enqueueOneOrMore fractions.text id ((reminder twoRecipients length_twoRecipients).reorder _
        perm_twoRecipients) = .ok jobs' ∧
      ∀ hash, hash ∈ jobs.map EnqueuedJob.uniqueKey ↔
        hash ∈ jobs'.map EnqueuedJob.uniqueKey := by
  obtain ⟨jobs, jobs', hjobs, hjobs', -, hsame⟩ := enqueueOneOrMore_hashes_iff
    (collisionFree_id fractions.text) (reminder twoRecipients length_twoRecipients)
    perm_twoRecipients
  exact ⟨jobs, jobs', hjobs, hjobs', hsame (by decide)⟩

/-- One recipient more than there may be in a chunk. -/
def manyRecipients : List (List Char) := ['b'] :: List.replicate 1000 ['a']

theorem length_manyRecipients : manyRecipients.length < 2 ^ 32 := by
  rw [manyRecipients, List.length_cons, List.length_replicate]
  decide

theorem perm_manyRecipients : (List.replicate 1000 ['a'] ++ [['b']]).Perm manyRecipients :=
  List.perm_append_singleton _ _

/-- With the first recipient at the end, jobs are enqueued under other hashes. -/
theorem enqueueOneOrMore_hashes_many :
    ∃ jobs jobs',
      enqueueOneOrMore fractions.text id (reminder manyRecipients length_manyRecipients) =
        .ok jobs ∧
      enqueueOneOrMore fractions.text id ((reminder manyRecipients length_manyRecipients).reorder _
        perm_manyRecipients) = .ok jobs' ∧
      ¬∀ hash, hash ∈ jobs.map EnqueuedJob.uniqueKey ↔
        hash ∈ jobs'.map EnqueuedJob.uniqueKey := by
  obtain ⟨jobs, jobs', hjobs, hjobs', hiff⟩ := exists_jobs_hashes_iff
    (collisionFree_id fractions.text) (reminder manyRecipients length_manyRecipients)
    perm_manyRecipients
  refine ⟨jobs, jobs', hjobs, hjobs', fun hsame ↦ ?_⟩
  -- the second chunk has one recipient
  have hsecond : recipientsOfChunk manyRecipients 1 = [['a']] := by
    rw [recipientsOfChunk, slice, manyRecipients, MAXIMUM_RECIPIENTS_COUNT]
    simp [-List.reduceReplicate]
  have hsecond' : recipientsOfChunk (List.replicate 1000 ['a'] ++ [['b']]) 1 = [['b']] := by
    rw [recipientsOfChunk, slice, MAXIMUM_RECIPIENTS_COUNT]
    simp [-List.reduceReplicate]
  have hperm : (recipientsOfChunk manyRecipients 1).Perm
      (recipientsOfChunk (List.replicate 1000 ['a'] ++ [['b']]) 1) := hiff.mp hsame 1
  rw [hsecond, hsecond'] at hperm
  exact absurd (List.singleton_perm_singleton.mp hperm) (by decide)

end CoreUtils.Notifications
