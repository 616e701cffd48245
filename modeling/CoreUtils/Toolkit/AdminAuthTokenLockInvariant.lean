import CoreUtils.Toolkit.AdminAuthTokenLock

/-!
# What the processes of the admin token cache lock know

Each control point gives its process some knowledge of the lock path (`Knows`), which the steps of
the other processes leave true as long as every `rm` hits the file it was meant for: such a step
removes an own file or a stale one (`Evolves`). The invariant of the system is that every process
knows what its control point says.
-/

namespace CoreUtils.Toolkit

namespace State

variable {P : Type}

/-- The file at the path with this inode, if it is still there, satisfies `Q`. -/
def AtInode (s : State P) (inode : ℕ) (Q : LockFile P → Prop) : Prop :=
  inode < s.nextInode ∧ ∀ file, s.lockFile = some file → file.inode = inode → Q file

/-- The age limit since `createdAtMs` has passed. -/
def Expired (lockStaleAfterMs : ℤ) (s : State P) (createdAtMs : ℤ) : Prop :=
  createdAtMs + lockStaleAfterMs ≤ s.clockMs

/-- What a process knows at a control point. -/
def Knows (lockStaleAfterMs : ℤ) (s : State P) (p : P) : Control → Prop
  | .opening lock => (p, lock) ∈ s.issued ∧ lock.createdAtMs ≤ s.clockMs
  | .writing lock inode =>
      (p, lock) ∈ s.issued ∧ lock.createdAtMs ≤ s.clockMs ∧
      s.AtInode inode (fun file ↦
        file.content = none ∧ file.creator = p ∧ lock.createdAtMs ≤ file.mtimeMs) ∧
      (s.lockFile.map LockFile.inode = some inode ∨ s.Expired lockStaleAfterMs lock.createdAtMs)
  | .operating lock =>
      (p, lock) ∈ s.issued ∧
      ((∃ file, s.lockFile = some file ∧ file.content = some lock ∧ file.creator = p) ∨
        s.Expired lockStaleAfterMs lock.createdAtMs)
  | .staleStat lock => ∀ l ∈ lock, ∃ q, (q, l) ∈ s.issued
  | .staleCheck lock stats =>
      (∀ l ∈ lock, ∃ q, (q, l) ∈ s.issued) ∧
      s.AtInode stats.inode fun file ↦ file.lockCreatedAtMs ≤ stats.mtimeMs
  | .staleRemove seen =>
      s.AtInode seen fun file ↦ s.Expired lockStaleAfterMs file.lockCreatedAtMs
  | .releaseRead ownerId .retry =>
      ∃ q lock, (q, lock) ∈ s.issued ∧ lock.ownerId = ownerId ∧
        s.Expired lockStaleAfterMs lock.createdAtMs
  | .releaseRead ownerId .exit => ∃ lock, (p, lock) ∈ s.issued ∧ lock.ownerId = ownerId
  | .releaseRemove seen .retry =>
      s.AtInode seen fun file ↦ s.Expired lockStaleAfterMs file.lockCreatedAtMs
  | .releaseRemove seen .exit => s.AtInode seen fun file ↦ file.creator = p
  | .waiting | .staleRead | .done | .crashed => True

/-- The invariant of the lock. -/
structure Invariant (lockStaleAfterMs : ℤ) (s : State P) : Prop where
  ownerIds : ∀ {p q l l'}, (p, l) ∈ s.issued → (q, l') ∈ s.issued → l.ownerId = l'.ownerId →
    p = q ∧ l = l'
  inode_lt : ∀ {file}, s.lockFile = some file → file.inode < s.nextInode
  issued : ∀ {file l}, s.lockFile = some file → file.content = some l →
    (file.creator, l) ∈ s.issued ∧ l.createdAtMs ≤ file.mtimeMs
  knows : ∀ p, s.Knows lockStaleAfterMs p (s.control p)

/-- A file dates from its last write at the latest. -/
theorem Invariant.lockCreatedAtMs_le {lockStaleAfterMs : ℤ} {s : State P}
    (h : s.Invariant lockStaleAfterMs) {file : LockFile P} (hfile : s.lockFile = some file) :
    file.lockCreatedAtMs ≤ file.mtimeMs := by
  cases hcontent : file.content with
  | none => simp [LockFile.lockCreatedAtMs, hcontent]
  | some lock => simpa [LockFile.lockCreatedAtMs, hcontent] using (h.issued hfile hcontent).2

/-! ## What a step of another process may change -/

/-- How a step of the process `actor` may change the clock and the lock path. -/
structure Evolves (lockStaleAfterMs : ℤ) (actor : Option P) (s s' : State P) : Prop where
  clock : s.clockMs ≤ s'.clockMs
  issued : ∀ entry ∈ s.issued, entry ∈ s'.issued
  nextInode : s.nextInode ≤ s'.nextInode
  backward : ∀ {file'}, s'.lockFile = some file' → file'.inode < s.nextInode →
    s.lockFile = some file' ∨
    ∃ file, s.lockFile = some file ∧ file'.inode = file.inode ∧ file'.creator = file.creator ∧
      some file.creator = actor ∧ file'.lockCreatedAtMs ≤ file.lockCreatedAtMs
  forward : ∀ {file}, s.lockFile = some file →
    s'.lockFile = some file ∨ some file.creator = actor ∨
      s.Expired lockStaleAfterMs file.lockCreatedAtMs

variable {lockStaleAfterMs : ℤ} {actor : Option P} {s s' : State P}

/-- A limit that has passed stays passed. -/
theorem Expired.mono {createdAtMs : ℤ} (h : s.Expired lockStaleAfterMs createdAtMs)
    (hclock : s.clockMs ≤ s'.clockMs) : s'.Expired lockStaleAfterMs createdAtMs :=
  le_trans h hclock

/-- An earlier time has passed its limit too. -/
theorem Expired.earlier {createdAtMs earlierMs : ℤ} (h : s.Expired lockStaleAfterMs createdAtMs)
    (hle : earlierMs ≤ createdAtMs) : s.Expired lockStaleAfterMs earlierMs := by
  unfold Expired at h ⊢
  omega

/-- Knowledge of a file that its creator's writes keep true stays true. -/
theorem Evolves.atInode (h : Evolves lockStaleAfterMs actor s s') {inode : ℕ}
    {Q Q' : LockFile P → Prop} (hknown : s.AtInode inode Q) (hsame : ∀ file, Q file → Q' file)
    (hwritten : ∀ file file', Q file → file'.creator = file.creator → some file.creator = actor →
      file'.lockCreatedAtMs ≤ file.lockCreatedAtMs → Q' file') :
    s'.AtInode inode Q' := by
  refine ⟨Nat.lt_of_lt_of_le hknown.1 h.nextInode, fun file' hfile' hinode ↦ ?_⟩
  have hlt : file'.inode < s.nextInode := hinode ▸ hknown.1
  rcases h.backward hfile' hlt with hfile | ⟨file, hfile, hfileInode, hcreator, hactor, hle⟩
  · exact hsame file' (hknown.2 file' hfile hinode)
  · exact hwritten file file' (hknown.2 file hfile (hfileInode ▸ hinode)) hcreator hactor hle

/-- Steps of other processes leave a process's knowledge true. -/
theorem Evolves.knows (h : Evolves lockStaleAfterMs actor s s') {p : P} (hp : some p ≠ actor)
    {control : Control}
    (hknows : s.Knows lockStaleAfterMs p control) : s'.Knows lockStaleAfterMs p control := by
  -- a file that has expired stays expired, since the clock does not go back
  have hexpired : ∀ inode,
      s.AtInode inode (fun file ↦ s.Expired lockStaleAfterMs file.lockCreatedAtMs) →
      s'.AtInode inode fun file ↦ s'.Expired lockStaleAfterMs file.lockCreatedAtMs :=
    fun inode hknown ↦ h.atInode hknown (fun _ hfile ↦ hfile.mono h.clock)
      fun _ _ hfile _ _ hle ↦ (hfile.earlier hle).mono h.clock
  cases control with
  | opening lock => exact ⟨h.issued _ hknows.1, le_trans hknows.2 h.clock⟩
  | writing lock inode =>
      obtain ⟨hissued, hclock, hfile, hpath⟩ := hknows
      refine ⟨h.issued _ hissued, le_trans hclock h.clock,
        h.atInode hfile (fun _ hfile ↦ hfile) ?_, ?_⟩
      · -- only the party itself writes to the file that it has created
        rintro file file' ⟨-, hcreator, -⟩ - hactor -
        exact absurd (hcreator ▸ hactor) hp
      · rcases hpath with hpath | hpath
        · obtain ⟨file, hpresent, hinode⟩ := Option.map_eq_some_iff.mp hpath
          obtain ⟨hcontent, hcreator, hcreated⟩ := hfile.2 file hpresent hinode
          rcases h.forward hpresent with hkept | hactor | hstale
          · -- the file is still at the path
            exact .inl (by rw [hkept, Option.map_some, hinode])
          · exact absurd (hcreator ▸ hactor) hp
          · -- another party has removed it as stale, so it has expired
            have hmtime : file.lockCreatedAtMs = file.mtimeMs := by
              simp [LockFile.lockCreatedAtMs, hcontent]
            exact .inr ((hstale.earlier (hmtime ▸ hcreated)).mono h.clock)
        · exact .inr (hpath.mono h.clock)
  | operating lock =>
      obtain ⟨hissued, hpath⟩ := hknows
      refine ⟨h.issued _ hissued, ?_⟩
      rcases hpath with ⟨file, hpresent, hcontent, hcreator⟩ | hpath
      · rcases h.forward hpresent with hkept | hactor | hstale
        · exact .inl ⟨file, hkept, hcontent, hcreator⟩
        · exact absurd (hcreator ▸ hactor) hp
        · have hcreated : file.lockCreatedAtMs = lock.createdAtMs := by
            simp [LockFile.lockCreatedAtMs, hcontent]
          exact .inr ((hcreated ▸ hstale).mono h.clock)
      · exact .inr (hpath.mono h.clock)
  | staleStat lock =>
      intro l hl
      obtain ⟨q, hq⟩ := hknows l hl
      exact ⟨q, h.issued _ hq⟩
  | staleCheck lock stats =>
      refine ⟨fun l hl ↦ ?_, h.atInode hknows.2 (fun _ hfile ↦ hfile)
        fun _ _ hfile _ _ hle ↦ le_trans hle hfile⟩
      obtain ⟨q, hq⟩ := hknows.1 l hl
      exact ⟨q, h.issued _ hq⟩
  | staleRemove seen => exact hexpired seen hknows
  | releaseRead ownerId after =>
      cases after with
      | retry =>
          obtain ⟨q, lock, hissued, howner, hpassed⟩ := hknows
          exact ⟨q, lock, h.issued _ hissued, howner, hpassed.mono h.clock⟩
      | exit =>
          obtain ⟨lock, hissued, howner⟩ := hknows
          exact ⟨lock, h.issued _ hissued, howner⟩
  | releaseRemove seen after =>
      cases after with
      | retry => exact hexpired seen hknows
      | exit =>
          exact h.atInode hknows (fun _ hfile ↦ hfile)
            fun _ _ hfile hcreator _ _ ↦ hcreator.trans hfile
  | waiting | staleRead | done | crashed => trivial

/-! ## The steps -/

/-- A step that leaves the path alone evolves it as allowed. -/
theorem Evolves.refl (actor : Option P) (s : State P) : Evolves lockStaleAfterMs actor s s :=
  ⟨le_rfl, fun _ h ↦ h, le_rfl, fun h _ ↦ .inl h, fun h ↦ .inl h⟩

variable {p : P} {control : Control}

/-- A process that is about to remove the file it looked at knows that it is its own or stale. -/
theorem Invariant.removing (h : s.Invariant lockStaleAfterMs) {seen : ℕ}
    (hseen : s.removing p = some seen)
    (hundisturbed : ∀ file ∈ s.lockFile, file.inode = seen) {file : LockFile P}
    (hfile : s.lockFile = some file) :
    file.creator = p ∨ s.Expired lockStaleAfterMs file.lockCreatedAtMs := by
  have hinode : file.inode = seen := hundisturbed file hfile
  have hknows := h.knows p
  unfold State.removing at hseen
  split at hseen
  · rename_i other hcontrol
    obtain rfl := Option.some.inj hseen
    rw [hcontrol] at hknows
    exact .inr (hknows.2 file hfile hinode)
  · rename_i other after hcontrol
    obtain rfl := Option.some.inj hseen
    rw [hcontrol] at hknows
    cases after with
    | retry => exact .inr (hknows.2 file hfile hinode)
    | exit => exact .inl (hknows.2 file hfile hinode)
  · contradiction

/-- After a release a process knows nothing. -/
theorem knows_afterRelease {after : AfterRelease} :
    s.Knows lockStaleAfterMs p (afterRelease after) := by
  cases after <;> trivial

/-- The invariant holds before any process has started. -/
theorem initial_invariant (clockMs : ℤ) : (initial (P := P) clockMs).Invariant lockStaleAfterMs :=
  ⟨fun h ↦ by simp [initial] at h, fun h ↦ by simp [initial] at h,
    fun h ↦ by simp [initial] at h, fun _ ↦ trivial⟩

/-- The clock keeps the invariant. -/
theorem Invariant.tick (h : s.Invariant lockStaleAfterMs) {nowMs : ℤ} (hle : s.clockMs ≤ nowMs) :
    Invariant lockStaleAfterMs { s with clockMs := nowMs } := by
  have hevolves : Evolves lockStaleAfterMs none s { s with clockMs := nowMs } :=
    { Evolves.refl none s with clock := hle }
  exact ⟨h.ownerIds, h.inode_lt, h.issued, fun p ↦ hevolves.knows (by simp) (h.knows p)⟩

variable [DecidableEq P]

/-- Moving a process changes no knowledge. -/
theorem knows_goto {q : P} {known : Control} :
    (s.goto p control).Knows lockStaleAfterMs q known ↔ s.Knows lockStaleAfterMs q known :=
  Iff.rfl

/-- A step of the process `p` keeps the invariant when it evolves the path as allowed and `p` knows
what its next control point says. -/
theorem Invariant.act (h : s.Invariant lockStaleAfterMs)
    (hevolves : Evolves lockStaleAfterMs (some p) s s') (hcontrol : s'.control = s.control)
    (hownerIds : ∀ {p q l l'}, (p, l) ∈ s'.issued → (q, l') ∈ s'.issued → l.ownerId = l'.ownerId →
      p = q ∧ l = l')
    (hinode : ∀ {file}, s'.lockFile = some file → file.inode < s'.nextInode)
    (hissued : ∀ {file l}, s'.lockFile = some file → file.content = some l →
      (file.creator, l) ∈ s'.issued ∧ l.createdAtMs ≤ file.mtimeMs)
    (hknows : s'.Knows lockStaleAfterMs p control) :
    (s'.goto p control).Invariant lockStaleAfterMs := by
  refine ⟨hownerIds, hinode, hissued, fun q ↦ ?_⟩
  rw [knows_goto]
  by_cases hq : q = p
  · subst hq
    rw [goto_control_self]
    exact hknows
  · rw [goto_control_of_ne hq, hcontrol]
    exact hevolves.knows (by simpa using hq) (h.knows q)

/-- A step that only moves a process keeps the invariant. -/
theorem Invariant.goto (h : s.Invariant lockStaleAfterMs)
    (hknows : s.Knows lockStaleAfterMs p control) :
    (s.goto p control).Invariant lockStaleAfterMs :=
  h.act (Evolves.refl _ s) rfl h.ownerIds h.inode_lt h.issued hknows

/-- Making up a lock with a fresh owner id keeps the invariant. -/
theorem Invariant.begin (h : s.Invariant lockStaleAfterMs) {lock : AdminAuthTokenLock}
    (hfresh : ∀ entry ∈ s.issued, entry.2.ownerId ≠ lock.ownerId)
    (hcreated : lock.createdAtMs ≤ s.clockMs) :
    ({ s with issued := (p, lock) :: s.issued }.goto p (.opening lock)).Invariant
      lockStaleAfterMs := by
  have hevolves : Evolves lockStaleAfterMs (some p) s { s with issued := (p, lock) :: s.issued } :=
    { Evolves.refl (some p) s with issued := fun _ ↦ List.mem_cons_of_mem _ }
  refine h.act hevolves rfl ?_ h.inode_lt (fun hfile hcontent ↦ ?_) ⟨List.mem_cons_self, hcreated⟩
  · intro a b l l' ha hb howner
    rcases List.mem_cons.mp ha with hnew | hold <;> rcases List.mem_cons.mp hb with hnew' | hold'
    · rw [Prod.mk.injEq] at hnew hnew'
      exact ⟨hnew.1.trans hnew'.1.symm, hnew.2.trans hnew'.2.symm⟩
    · rw [Prod.mk.injEq] at hnew
      exact absurd (howner.symm.trans (by rw [hnew.2])) (hfresh (b, l') hold')
    · rw [Prod.mk.injEq] at hnew'
      exact absurd (howner.trans (by rw [hnew'.2])) (hfresh (a, l) hold)
    · exact h.ownerIds hold hold' howner
  · obtain ⟨hissued, hle⟩ := h.issued hfile hcontent
    exact ⟨List.mem_cons_of_mem _ hissued, hle⟩

/-- The exclusive create keeps the invariant. -/
theorem Invariant.openExclusive (h : s.Invariant lockStaleAfterMs) {lock : AdminAuthTokenLock}
    (hknows : s.Knows lockStaleAfterMs p (.opening lock)) :
    (s.openExclusive p lock).Invariant lockStaleAfterMs := by
  unfold State.openExclusive
  cases hpath : s.lockFile with
  | some file => exact h.goto trivial
  | none =>
      refine h.act ⟨le_rfl, fun _ hentry ↦ hentry, Nat.le_succ _, ?_, ?_⟩ rfl h.ownerIds ?_ ?_ ?_
      · rintro file' hfile' hlt
        obtain rfl := Option.some.inj hfile'
        exact absurd hlt (lt_irrefl _)
      · intro file hfile
        rw [hpath] at hfile
        contradiction
      · intro file hfile
        obtain rfl := Option.some.inj hfile
        exact Nat.lt_succ_self _
      · intro file l hfile hcontent
        obtain rfl := Option.some.inj hfile
        contradiction
      · refine ⟨hknows.1, hknows.2, ⟨Nat.lt_succ_self _, fun file hfile _ ↦ ?_⟩, .inl rfl⟩
        obtain rfl := Option.some.inj hfile
        exact ⟨rfl, rfl, hknows.2⟩

/-- Writing the created file keeps the invariant, whether or not it is still at the path. -/
theorem Invariant.writeLock (h : s.Invariant lockStaleAfterMs) {lock : AdminAuthTokenLock}
    {inode : ℕ} (hknows : s.Knows lockStaleAfterMs p (.writing lock inode)) :
    ((s.writeLock lock inode).goto p (.operating lock)).Invariant lockStaleAfterMs := by
  obtain ⟨hissued, hclock, hfile, hpath⟩ := hknows
  cases hpresent : s.lockFile with
  | none =>
      -- the path is gone, so the write goes to a file without a name
      have hsame : s.writeLock lock inode = s := by
        cases s
        simp_all [State.writeLock]
      rw [hsame]
      refine h.goto ⟨hissued, .inr (hpath.resolve_left ?_)⟩
      simp [hpresent]
  | some file =>
      by_cases hinode : file.inode = inode
      · -- the path still names the file that this party has created
        obtain ⟨hcontent, hcreator, hcreated⟩ := hfile.2 file hpresent hinode
        have hwritten : s.writeLock lock inode = { s with
            lockFile := some { file with content := some lock, mtimeMs := s.clockMs } } := by
          simp [State.writeLock, hpresent, hinode]
        rw [hwritten]
        refine h.act ⟨le_rfl, fun _ hentry ↦ hentry, le_rfl, ?_, ?_⟩ rfl h.ownerIds ?_ ?_ ?_
        · rintro file' hfile' -
          obtain rfl := Option.some.inj hfile'
          refine .inr ⟨file, hpresent, rfl, rfl, by rw [hcreator], ?_⟩
          simpa [LockFile.lockCreatedAtMs, hcontent] using hcreated
        · intro other hother
          obtain rfl := Option.some.inj (hpresent.symm.trans hother)
          exact .inr (.inl (by rw [hcreator]))
        · intro other hother
          obtain rfl := Option.some.inj hother
          show file.inode < s.nextInode
          exact h.inode_lt hpresent
        · intro other l hother hl
          obtain rfl := Option.some.inj hother
          obtain rfl := Option.some.inj hl
          exact ⟨hcreator ▸ hissued, hclock⟩
        · exact ⟨hissued, .inl ⟨_, rfl, rfl, hcreator⟩⟩
      · have hsame : s.writeLock lock inode = s := by
          cases s
          simp_all [State.writeLock]
        rw [hsame]
        refine h.goto ⟨hissued, .inr (hpath.resolve_left ?_)⟩
        simp [hpresent, hinode]

/-- Removing an own file or a stale one keeps the invariant. -/
theorem Invariant.rm (h : s.Invariant lockStaleAfterMs)
    (hfile : ∀ file, s.lockFile = some file →
      file.creator = p ∨ s.Expired lockStaleAfterMs file.lockCreatedAtMs)
    (hknows : s.rm.Knows lockStaleAfterMs p control) :
    (s.rm.goto p control).Invariant lockStaleAfterMs := by
  refine h.act ⟨le_rfl, fun _ hentry ↦ hentry, le_rfl, ?_, fun {file} hpresent ↦ ?_⟩ rfl h.ownerIds
    ?_ ?_ hknows
  · intro file hnone
    contradiction
  · rcases hfile file hpresent with hcreator | hstale
    · exact .inr (.inl (by rw [hcreator]))
    · exact .inr (.inr hstale)
  · intro file hnone
    contradiction
  · intro file l hnone
    contradiction

/-- The age check keeps the invariant: who goes on to a removal has seen the limit pass. -/
theorem Invariant.checkStale (h : s.Invariant lockStaleAfterMs)
    {lock : Option AdminAuthTokenLock} {stats : LockFileStats}
    (hknows : s.Knows lockStaleAfterMs p (.staleCheck lock stats)) :
    (s.checkStale lockStaleAfterMs p lock stats).Invariant lockStaleAfterMs := by
  obtain ⟨hissued, hfile⟩ := hknows
  have hwaiting : (s.goto p .waiting).Invariant lockStaleAfterMs := h.goto trivial
  unfold State.checkStale
  cases lock with
  | none =>
      by_cases hage : s.clockMs - stats.mtimeMs < lockStaleAfterMs
      · simpa [hage] using hwaiting
      · have hpassed : s.Expired lockStaleAfterMs stats.mtimeMs := by
          unfold Expired
          omega
        simp only [Option.map_none, Option.getD_none, hage, if_false]
        exact h.goto ⟨hfile.1, fun file hpresent hinode ↦
          hpassed.earlier (hfile.2 file hpresent hinode)⟩
  | some lock =>
      by_cases hage : s.clockMs - lock.createdAtMs < lockStaleAfterMs
      · simpa [hage] using hwaiting
      · have hpassed : s.Expired lockStaleAfterMs lock.createdAtMs := by
          unfold Expired
          omega
        obtain ⟨q, hq⟩ := hissued lock rfl
        simp only [Option.map_some, Option.getD_some, hage, if_false]
        exact h.goto ⟨q, lock, hq, rfl, hpassed⟩

/-- The owner comparison keeps the invariant: a lock with the owner id is the one that was made up
with it. -/
theorem Invariant.checkOwner (h : s.Invariant lockStaleAfterMs) {ownerId : String}
    {after : AfterRelease} (hknows : s.Knows lockStaleAfterMs p (.releaseRead ownerId after)) :
    (s.checkOwner p ownerId after).Invariant lockStaleAfterMs := by
  unfold State.checkOwner
  cases hpath : s.lockFile with
  | none => exact h.goto knows_afterRelease
  | some currentFile =>
      by_cases howner : currentFile.content.map AdminAuthTokenLock.ownerId = some ownerId
      · obtain ⟨currentLock, hcontent, hid⟩ := Option.map_eq_some_iff.mp howner
        obtain ⟨hcurrent, -⟩ := h.issued hpath hcontent
        simp only [howner, if_true]
        refine h.goto ?_
        cases after with
        | retry =>
            obtain ⟨q, lock, hissued, hlock, hpassed⟩ := hknows
            obtain ⟨-, rfl⟩ := h.ownerIds hissued hcurrent (hlock.trans hid.symm)
            refine ⟨h.inode_lt hpath, fun file hfile _ ↦ ?_⟩
            obtain rfl := Option.some.inj (hpath.symm.trans hfile)
            simpa [LockFile.lockCreatedAtMs, hcontent] using hpassed
        | exit =>
            obtain ⟨lock, hissued, hlock⟩ := hknows
            obtain ⟨hcreator, -⟩ := h.ownerIds hcurrent hissued (hid.trans hlock.symm)
            refine ⟨h.inode_lt hpath, fun file hfile _ ↦ ?_⟩
            obtain rfl := Option.some.inj (hpath.symm.trans hfile)
            exact hcreator
      · simp only [howner, if_false]
        exact h.goto knows_afterRelease

/-- The next step of a process keeps the invariant, when its removals are undisturbed. -/
theorem Invariant.advance (h : s.Invariant lockStaleAfterMs)
    (hundisturbed : s.Undisturbed (.advance p))
    (hstep : s.advance lockStaleAfterMs p = some s') : s'.Invariant lockStaleAfterMs := by
  have hknows := h.knows p
  unfold State.advance at hstep
  cases hcontrol : s.control p with
  | opening lock =>
      rw [hcontrol] at hknows
      simp only [hcontrol, Option.some.injEq] at hstep
      exact hstep ▸ h.openExclusive hknows
  | writing lock inode =>
      rw [hcontrol] at hknows
      simp only [hcontrol, Option.some.injEq] at hstep
      exact hstep ▸ h.writeLock hknows
  | staleRead =>
      simp only [hcontrol, Option.some.injEq] at hstep
      refine hstep ▸ h.goto fun l hl ↦ ?_
      obtain ⟨file, hfile, hcontent⟩ := Option.bind_eq_some_iff.mp hl
      exact ⟨file.creator, (h.issued hfile hcontent).1⟩
  | staleStat lock =>
      rw [hcontrol] at hknows
      simp only [hcontrol] at hstep
      cases hpath : s.lockFile with
      | none =>
          simp only [hpath, Option.some.injEq] at hstep
          exact hstep ▸ h.goto trivial
      | some file =>
          simp only [hpath, Option.some.injEq] at hstep
          refine hstep ▸ h.goto ⟨hknows, h.inode_lt hpath, fun other hother _ ↦ ?_⟩
          obtain rfl := Option.some.inj (hpath.symm.trans hother)
          exact h.lockCreatedAtMs_le hpath
  | staleCheck lock stats =>
      rw [hcontrol] at hknows
      simp only [hcontrol, Option.some.injEq] at hstep
      exact hstep ▸ h.checkStale hknows
  | staleRemove seen =>
      have hseen : s.removing p = some seen := by simp [State.removing, hcontrol]
      simp only [hcontrol, Option.some.injEq] at hstep
      -- what is removed is what was seen, as nothing has come in between
      exact hstep ▸ h.rm (fun file ↦ h.removing hseen (hundisturbed seen hseen)) trivial
  | releaseRead ownerId after =>
      rw [hcontrol] at hknows
      simp only [hcontrol, Option.some.injEq] at hstep
      exact hstep ▸ h.checkOwner hknows
  | releaseRemove seen after =>
      have hseen : s.removing p = some seen := by simp [State.removing, hcontrol]
      simp only [hcontrol, Option.some.injEq] at hstep
      exact hstep ▸ h.rm (fun file ↦ h.removing hseen (hundisturbed seen hseen)) knows_afterRelease
  | waiting | operating | done | crashed => simp [hcontrol] at hstep

/-- Every step whose removals are undisturbed keeps the invariant. -/
theorem Invariant.step (h : s.Invariant lockStaleAfterMs) {a : Action P}
    (hundisturbed : s.Undisturbed a) (hstep : s.step lockStaleAfterMs a = some s') :
    s'.Invariant lockStaleAfterMs := by
  cases a with
  | tick nowMs =>
      obtain ⟨hle, hnext⟩ := Option.ite_none_right_eq_some.mp hstep
      obtain rfl := Option.some.inj hnext
      exact h.tick hle
  | begin p pid uuid =>
      obtain ⟨⟨-, hfresh⟩, hnext⟩ := Option.ite_none_right_eq_some.mp hstep
      obtain rfl := Option.some.inj hnext
      exact h.begin hfresh le_rfl
  | timeOut p =>
      obtain ⟨-, hnext⟩ := Option.ite_none_right_eq_some.mp hstep
      obtain rfl := Option.some.inj hnext
      exact h.goto trivial
  | advance p => exact h.advance hundisturbed hstep
  | finish p =>
      have hknows := h.knows p
      simp only [State.step] at hstep
      cases hcontrol : s.control p with
      | operating lock =>
          rw [hcontrol] at hknows
          simp only [hcontrol, Option.some.injEq] at hstep
          exact hstep ▸ h.goto ⟨lock, hknows.1, rfl⟩
      | _ => simp [hcontrol] at hstep
  | crash p =>
      obtain ⟨-, hnext⟩ := Option.ite_none_left_eq_some.mp hstep
      obtain rfl := Option.some.inj hnext
      exact h.goto trivial

end State

end CoreUtils.Toolkit
