import CoreUtils.Library.Json
import CoreUtils.Library.OrderedMap
import CoreUtils.Library.Transition

/-!
# The context of asynchronous work

`contextStore.ts`: a context is shared by all asynchronous work that a callback starts, and the
functions that add metadata find it in the local storage of whoever calls them. Work is a thread
here; a step of one of them is a step of the system, in any order. What a context ends up with is
what the operations in it do one after the other (`contexts_isolated`), whatever goes on in others.
-/

namespace CoreUtils.ExecutionContext

open Transition

/-- A text. -/
abbrev Text := List Char

/-- The metadata of a context, by keys. -/
abbrev Metadata := OrderedMap Text Json

/-- A context: where it comes from and what is known in it, `ExecutionContext`. -/
structure Context where
  source : Text
  metadata : Metadata

/-- The context of a source, about which nothing is known yet. -/
def newExecutionContext (source : Text) : Context := ⟨source, OrderedMap.empty⟩

/-! ## Metadata -/

/-- Spread the members of a record over others: a key that is there keeps its place. -/
def spread (base extra : Metadata) : Metadata :=
  extra.entries.foldl (fun members entry ↦ members.set entry.1 entry.2) base

/-- `{ [key]: value }`. -/
def single (key : Text) (value : Json) : Metadata := OrderedMap.empty.set key value

/-- The members of an object as a record; of a repeated key the last one counts. -/
def recordOf (members : List (Text × Json)) : Metadata :=
  members.foldl (fun members entry ↦ members.set entry.1 entry.2) OrderedMap.empty

/-- The list at a key, empty if there is no list. -/
def getMetadataListByKey (metadata : Metadata) (key : Text) : List Json :=
  match metadata.get key with
  | some (.array items) => items
  | _ => []

/-- The record at a key, empty if there is no record. -/
def getMetadataRecordByKey (metadata : Metadata) (key : Text) : Metadata :=
  match metadata.get key with
  | some (.object members) => recordOf members
  | _ => OrderedMap.empty

/-- What is done to the metadata of the current context. -/
inductive Operation where
  | addMetadataToLocalContext (metadata : Metadata)
  | addToMetadataList (key : Text) (metadata : Metadata)
  | addToMetadataRecord (key : Text) (metadata : Metadata)

/-- The metadata after an operation. -/
def Operation.apply (metadata : Metadata) : Operation → Metadata
  | .addMetadataToLocalContext added => spread metadata added
  | .addToMetadataList key added =>
      spread metadata (single key (.array
        (getMetadataListByKey metadata key ++ [.object added.entries])))
  | .addToMetadataRecord key added =>
      spread metadata (single key (.object
        (spread (getMetadataRecordByKey metadata key) added).entries))

/-! ## Threads -/

/-- The contexts by their references, and the store of each thread: a reference, if it runs in a
context. A thread keeps its store across the promises that it awaits. -/
structure Threads where
  contexts : List Context
  stores : List (Option ℕ)

/-- What a thread does. -/
inductive Action where
  /-- `newExecutionContext`. -/
  | create (source : Text)
  /-- `runWithExecutionContext`: the callback is a thread in the context; the caller goes on. -/
  | run (thread context : ℕ)
  /-- Asynchronous work inherits the store. -/
  | spawn (thread : ℕ)
  /-- One of the functions that add metadata. -/
  | operate (thread : ℕ) (operation : Operation)

/-- `getExecutionContext` of a thread. -/
def getExecutionContext (s : Threads) (thread : ℕ) : Option ℕ := (s.stores[thread]?).join

/-- One step of a thread. Without a context an operation does nothing. -/
def step (s : Threads) : Action → Option Threads
  | .create source => some { s with contexts := s.contexts ++ [newExecutionContext source] }
  | .run thread context =>
      if thread < s.stores.length ∧ context < s.contexts.length then
        some { s with stores := s.stores ++ [some context] }
      else none
  | .spawn thread =>
      if thread < s.stores.length then
        some { s with stores := s.stores ++ [getExecutionContext s thread] }
      else none
  | .operate thread operation =>
      if thread < s.stores.length then
        match getExecutionContext s thread with
        | none => some s
        | some context =>
            some { s with contexts := s.contexts.modify context fun current ↦
              { current with metadata := operation.apply current.metadata } }
      else none

/-- A process before any context: one thread, which runs in none. -/
def initial : Threads := ⟨[], [none]⟩

/-! ## What happens in one context -/

/-- The stores after an action. -/
def storesAfter (stores : List (Option ℕ)) : Action → List (Option ℕ)
  | .create _ | .operate _ _ => stores
  | .run _ context => stores ++ [some context]
  | .spawn thread => stores ++ [(stores[thread]?).join]

/-- The operations of a schedule that threads in a context do. -/
def operationsIn (context : ℕ) : List (Option ℕ) → List Action → List Operation
  | _, [] => []
  | stores, action :: rest =>
      (match action with
        | .operate thread operation =>
            if (stores[thread]?).join = some context then [operation] else []
        | _ => []) ++ operationsIn context (storesAfter stores action) rest

/-- The contexts that a schedule creates. -/
def createdIn (schedule : List Action) : List Context :=
  schedule.filterMap fun action ↦
    match action with
    | .create source => some (newExecutionContext source)
    | _ => none

/-- A context after some operations in it. -/
def Context.after (context : Context) (operations : List Operation) : Context :=
  { context with metadata := operations.foldl Operation.apply context.metadata }

/-- Every store refers to a context. -/
def WellFormed (s : Threads) : Prop :=
  ∀ thread context, getExecutionContext s thread = some context → context < s.contexts.length

/-! ## One step -/

variable {s s' : Threads} {action : Action}

/-- A context after no operation. -/
@[simp] theorem Context.after_nil (context : Context) : context.after [] = context := rfl

/-- A context after some operations and others. -/
theorem Context.after_append (context : Context) (first second : List Operation) :
    context.after (first ++ second) = (context.after first).after second := by
  rw [Context.after, List.foldl_append]
  rfl

/-- A step does to the stores what the action says. -/
theorem stores_of_step (h : step s action = some s') :
    s'.stores = storesAfter s.stores action := by
  cases action with
  | create source => exact Option.some.inj h ▸ rfl
  | run thread context =>
      simp only [step] at h
      split at h
      next => exact Option.some.inj h ▸ rfl
      next => contradiction
  | spawn thread =>
      simp only [step] at h
      split at h
      next => exact Option.some.inj h ▸ rfl
      next => contradiction
  | operate thread operation =>
      simp only [step] at h
      split at h
      next =>
        split at h
        next => exact Option.some.inj h ▸ rfl
        next => exact Option.some.inj h ▸ rfl
      next => contradiction

/-- A step does to each context what its own operations do. -/
theorem contexts_of_step (h : step s action = some s') (c : ℕ) :
    s'.contexts[c]? = (s.contexts ++ createdIn [action])[c]?.map
      (·.after (operationsIn c s.stores [action])) := by
  cases action with
  | create source =>
      obtain rfl := Option.some.inj h
      simp [operationsIn, createdIn]
  | run thread context =>
      simp only [step] at h
      split at h
      next =>
        obtain rfl := Option.some.inj h
        simp [operationsIn, createdIn]
      next => contradiction
  | spawn thread =>
      simp only [step] at h
      split at h
      next =>
        obtain rfl := Option.some.inj h
        simp [operationsIn, createdIn]
      next => contradiction
  | operate thread operation =>
      simp only [step] at h
      split at h
      next =>
        split at h
        next hnone =>
          obtain rfl := Option.some.inj h
          have hstore : (s.stores[thread]?).join ≠ some c := by
            rw [show (s.stores[thread]?).join = none from hnone]
            simp
          simp [operationsIn, createdIn, hstore]
        next context hcontext =>
          obtain rfl := Option.some.inj h
          have hstore : (s.stores[thread]?).join = some context := hcontext
          simp only [operationsIn, createdIn, hstore, List.getElem?_modify]
          by_cases hc : context = c
          · simp [hc, Context.after]
          · simp [hc]
      next => contradiction

/-- Lists whose elements correspond are equally long. -/
theorem length_eq_of_getElem {l l' : List Context} {f : ℕ → Context → Context}
    (h : ∀ c, l'[c]? = l[c]?.map (f c)) : l'.length = l.length := by
  have hiff : ∀ c, c < l'.length ↔ c < l.length := by
    intro c
    rw [← not_le, ← not_le, ← List.getElem?_eq_none_iff, ← List.getElem?_eq_none_iff, h,
      Option.map_eq_none_iff]
  refine le_antisymm (not_lt.mp fun hlt ↦ ?_) (not_lt.mp fun hlt ↦ ?_)
  · exact lt_irrefl _ ((hiff _).mp hlt)
  · exact lt_irrefl _ ((hiff _).mpr hlt)

/-- A step keeps the stores referring to contexts. -/
theorem WellFormed.step (hwell : WellFormed s) (h : step s action = some s') : WellFormed s' := by
  have hlength : s.contexts.length ≤ s'.contexts.length := by
    rw [length_eq_of_getElem (contexts_of_step h), List.length_append]
    omega
  have hstores := stores_of_step h
  intro thread context hcontext
  rw [getExecutionContext, hstores] at hcontext
  cases action with
  | create source => exact (hwell thread context hcontext).trans_le hlength
  | operate other operation => exact (hwell thread context hcontext).trans_le hlength
  | run other entered =>
      simp only [ExecutionContext.step] at h
      split at h
      next hthere =>
        simp only [storesAfter, List.getElem?_append] at hcontext
        split at hcontext
        next => exact (hwell thread context hcontext).trans_le hlength
        next =>
          obtain rfl : entered = context := by
            rcases hindex : thread - s.stores.length with _ | index
            · simpa [hindex] using hcontext
            · simp [hindex] at hcontext
          exact hthere.2.trans_le hlength
      next => contradiction
  | spawn other =>
      simp only [storesAfter, List.getElem?_append] at hcontext
      split at hcontext
      next => exact (hwell thread context hcontext).trans_le hlength
      next =>
        rcases hindex : thread - s.stores.length with _ | index
        · have hother : getExecutionContext s other = some context := by
            show (s.stores[other]?).join = some context
            simpa [hindex] using hcontext
          exact (hwell other context hother).trans_le hlength
        · simp [hindex] at hcontext

/-- No thread runs in a context that is not there. -/
theorem WellFormed.operationsIn_eq_nil (hwell : WellFormed s) {c : ℕ}
    (hc : s.contexts.length ≤ c) (action : Action) : operationsIn c s.stores [action] = [] := by
  cases action with
  | operate thread operation =>
      have hstore : (s.stores[thread]?).join ≠ some c := fun hsome ↦
        absurd (hwell thread c hsome) (not_lt.mpr hc)
      simp [operationsIn, hstore]
  | _ => rfl

/-! ## Whole runs -/

/-- A run does to each context what its own operations do. -/
theorem contexts_of_follow {schedule : List Action} (hwell : WellFormed s)
    (h : follow step (fun _ _ _ ↦ True) s schedule = some s') (c : ℕ) :
    s'.contexts[c]? = (s.contexts ++ createdIn schedule)[c]?.map
      (·.after (operationsIn c s.stores schedule)) := by
  induction schedule generalizing s with
  | nil =>
      obtain rfl : s = s' := by simpa [follow] using h
      simp [createdIn, operationsIn]
  | cons action rest ih =>
      rw [follow] at h
      cases hstep : step s action with
      | none => simp [hstep] at h
      | some next =>
          rw [hstep] at h
          have hrest := ih (hwell.step hstep) (by simpa using h)
          have hnext := contexts_of_step hstep
          have hlength := length_eq_of_getElem hnext
          have hcreated : createdIn (action :: rest) = createdIn [action] ++ createdIn rest :=
            List.filterMap_append (l := [action])
          have hoperations : operationsIn c s.stores (action :: rest) =
              operationsIn c s.stores [action] ++ operationsIn c next.stores rest := by
            rw [stores_of_step hstep]
            simp only [operationsIn, List.append_nil]
          rw [hrest, hcreated, hoperations, ← List.append_assoc]
          by_cases hc : c < next.contexts.length
          · rw [List.getElem?_append_left hc, List.getElem?_append_left (hlength ▸ hc), hnext,
              Option.map_map]
            congr 1
            funext context
            exact (context.after_append _ _).symm
          · -- a context that is created later has seen no operation yet
            have hold : s.contexts.length ≤ c := by
              rw [List.length_append] at hlength
              omega
            rw [List.getElem?_append_right (not_lt.mp hc),
              List.getElem?_append_right (hlength ▸ not_lt.mp hc), hlength,
              hwell.operationsIn_eq_nil hold, List.nil_append]

/-! ## Lists of metadata -/

/-- The value under a key after a spread. -/
theorem get_spread (base extra : Metadata) (key : Text) :
    (spread base extra).get key = (extra.get key).or (base.get key) :=
  OrderedMap.get_foldl_set base extra key

/-- The value that is the only one. -/
theorem get_single (key other : Text) (value : Json) :
    (single key value).get other = if other = key then some value else none := by
  rw [single, OrderedMap.get_set]
  rfl

/-- What an operation adds to the list under a key. -/
def listItem (key : Text) : Operation → Option Json
  | .addToMetadataList other added => if other = key then some (.object added.entries) else none
  | _ => none

/-- An operation that changes the value under a key by adding to its list only. -/
def Operation.KeepsList (key : Text) : Operation → Prop
  | .addMetadataToLocalContext added => added.get key = none
  | .addToMetadataList _ _ => True
  | .addToMetadataRecord other _ => other ≠ key

/-- The list under a key after an operation that does not overwrite it. -/
theorem getMetadataListByKey_apply {operation : Operation} {key : Text}
    (h : operation.KeepsList key) (metadata : Metadata) :
    getMetadataListByKey (operation.apply metadata) key =
      getMetadataListByKey metadata key ++ (listItem key operation).toList := by
  cases operation with
  | addMetadataToLocalContext added =>
      have hnone : added.get key = none := h
      rw [Operation.apply, getMetadataListByKey, get_spread, hnone]
      simp [listItem, getMetadataListByKey]
  | addToMetadataList other added =>
      by_cases hkey : key = other
      · subst hkey
        rw [Operation.apply, getMetadataListByKey, get_spread, get_single, if_pos rfl]
        simp [listItem]
      · rw [Operation.apply, getMetadataListByKey, get_spread, get_single, if_neg hkey]
        simp [listItem, getMetadataListByKey, Ne.symm hkey]
  | addToMetadataRecord other added =>
      have hkey : key ≠ other := fun hsame ↦ h hsame.symm
      rw [Operation.apply, getMetadataListByKey, get_spread, get_single, if_neg hkey]
      simp [listItem, getMetadataListByKey]

/-- The list under a key after operations that do not overwrite it. -/
theorem getMetadataListByKey_after {operations : List Operation} {key : Text}
    (h : ∀ operation ∈ operations, operation.KeepsList key) (context : Context) :
    getMetadataListByKey (context.after operations).metadata key =
      getMetadataListByKey context.metadata key ++ operations.filterMap (listItem key) := by
  induction operations generalizing context with
  | nil => simp
  | cons operation rest ih =>
      obtain ⟨hfirst, hrest⟩ := List.forall_mem_cons.mp h
      rw [show operation :: rest = [operation] ++ rest from rfl, context.after_append, ih hrest]
      show getMetadataListByKey (operation.apply context.metadata) key ++ _ = _
      rw [getMetadataListByKey_apply hfirst, List.append_assoc, List.filterMap_append]
      cases hitem : listItem key operation with
      | none => simp [hitem]
      | some item => simp [hitem]

/-- In every interleaving of threads, a context that has been created is what the operations of the
threads in it make of a new one, in their order; in particular the list under a key has everything
that was added to it, unless the key was overwritten. -/
theorem contexts_isolated {schedule : List Action}
    (h : follow step (fun _ _ _ ↦ True) initial schedule = some s) (c : ℕ) :
    let operations := operationsIn c [none] schedule
    s.contexts[c]? = (createdIn schedule)[c]?.map (·.after operations) ∧
      ∀ key, (∀ operation ∈ operations, operation.KeepsList key) →
        ∀ context ∈ s.contexts[c]?,
          getMetadataListByKey context.metadata key = operations.filterMap (listItem key) := by
  intro operations
  have hwell : WellFormed initial := by
    intro thread context hcontext
    rcases thread with _ | thread
    · simp [getExecutionContext, initial] at hcontext
    · simp [getExecutionContext, initial] at hcontext
  have hcontexts : s.contexts[c]? = (createdIn schedule)[c]?.map (·.after operations) :=
    contexts_of_follow hwell h c
  refine ⟨hcontexts, fun key hkeeps context hcontext ↦ ?_⟩
  rw [hcontexts] at hcontext
  obtain ⟨created, hcreated, rfl⟩ := Option.map_eq_some_iff.mp hcontext
  obtain ⟨action, -, haction⟩ := List.mem_filterMap.mp (List.mem_of_getElem? hcreated)
  rw [getMetadataListByKey_after hkeeps]
  cases action with
  | create source =>
      obtain rfl := Option.some.inj haction
      rfl
  | _ => contradiction

/-- Two requests that run at the same time, the first of them with work that it starts. -/
def interleaved : List Action :=
  [.create ['a'], .create ['b'], .run 0 0, .run 0 1,
    .operate 1 (.addToMetadataList ['k'] (single ['x'] (.bool true))), .spawn 1,
    .operate 2 (.addToMetadataList ['k'] (single ['y'] .null)),
    .operate 3 (.addToMetadataList ['k'] OrderedMap.empty)]

/-- The list of the first request has what it and its work added, and nothing of the second. -/
theorem contexts_isolated_interleaved :
    ∃ s, follow step (fun _ _ _ ↦ True) initial interleaved = some s ∧
      ∀ context ∈ s.contexts[0]?, getMetadataListByKey context.metadata ['k'] =
        [.object [(['x'], .bool true)], .object []] := by
  refine ⟨_, rfl, ?_⟩
  exact (@contexts_isolated _ interleaved rfl 0).2 ['k']
    (by simp [interleaved, operationsIn, storesAfter, Operation.KeepsList])

end CoreUtils.ExecutionContext
