import MinBFT.System.Threads

/-!
# Readers–writer locks

A readers–writer lock as Go's `sync.RWMutex` is used: any number of readers, or one writer.
`rLock` and `lock` return `none` where the call would block, so a thread's step that takes the
lock is not enabled until the lock is free for it. Go's lock also holds back new readers while a
writer waits; that only removes interleavings, so what holds here holds of those too.

The threads of a program each hold the lock for reading, for writing, or not at all, as their
local states say (`reading`, `writing`). `Accounts` says that the lock's counters are those of
the threads; every lock operation by one thread keeps it, and from it a thread that takes the
lock for writing finds no other thread holding it (`Accounts.free_of_lock`) and one that takes
it for reading finds no writer (`Accounts.not_writing_of_rLock`).

Nothing here is about a particular program.
-/

namespace MinBFT.System

/-- A readers–writer lock: the number of readers holding it and whether a writer does. -/
structure RWLock where
  readers : Nat := 0
  writer : Bool := false
  deriving DecidableEq, Repr

namespace RWLock

/-- `RLock()`: blocks while a writer holds the lock. -/
def rLock (m : RWLock) : Option RWLock :=
  if m.writer then none else some { m with readers := m.readers + 1 }

/-- `RUnlock()`. -/
def rUnlock (m : RWLock) : RWLock := { m with readers := m.readers - 1 }

/-- `Lock()`: blocks while a reader or a writer holds the lock. -/
def lock (m : RWLock) : Option RWLock :=
  if m.writer ∨ m.readers ≠ 0 then none else some { m with writer := true }

/-- `Unlock()`. -/
def unlock (m : RWLock) : RWLock := { m with writer := false }

theorem rLock_eq_some {m m' : RWLock} (h : m.rLock = some m') :
    m.writer = false ∧ m' = { m with readers := m.readers + 1 } := by
  unfold rLock at h
  by_cases hw : m.writer = true
  · rw [if_pos hw] at h
    cases h
  · rw [if_neg hw] at h
    exact ⟨by simpa using hw, (Option.some.inj h).symm⟩

theorem lock_eq_some {m m' : RWLock} (h : m.lock = some m') :
    m.writer = false ∧ m.readers = 0 ∧ m' = { m with writer := true } := by
  unfold lock at h
  by_cases hb : m.writer = true ∨ m.readers ≠ 0
  · rw [if_pos hb] at h
    cases h
  · rw [if_neg hb] at h
    simp only [not_or, Bool.not_eq_true, ne_eq, Decidable.not_not] at hb
    exact ⟨hb.1, hb.2, (Option.some.inj h).symm⟩

/-- `Lock()` then `Unlock()` leaves the lock as it was. -/
theorem unlock_of_lock {m m' : RWLock} (h : m.lock = some m') : m'.unlock = m := by
  obtain ⟨hw, -, rfl⟩ := lock_eq_some h
  cases m
  simp_all [unlock]

section Accounts

variable {τ : Type} (reading writing : τ → Bool)

/-- The lock's counters are those of the threads: `readers` threads hold it for reading, one
thread holds it for writing exactly when `writer` is set, and then no thread reads. -/
structure Accounts (m : RWLock) (ts : List τ) : Prop where
  readers_eq : ts.countP reading = m.readers
  writers_eq : ts.countP writing = if m.writer then 1 else 0
  exclusive : m.writer = true → m.readers = 0

variable {reading writing} {m m' : RWLock} {ts : List τ} {i : Nat} {t t' : τ}

theorem accounts_nil : Accounts reading writing ({} : RWLock) ([] : List τ) where
  readers_eq := rfl
  writers_eq := rfl
  exclusive := fun h => by cases h

/-- A thread moving from `t` to `t'`: a phase's count changes by what the two states add. -/
theorem countP_set_eq {p : τ → Bool} (hi : ts[i]? = some t) (t' : τ) :
    (ts.set i t').countP p = ts.countP p + (if p t' then 1 else 0) - (if p t then 1 else 0) := by
  have := countP_set_of_getElem? (p := p) t' hi
  omega

/-- A new thread that does not hold the lock. -/
theorem Accounts.spawn (h : Accounts reading writing m ts) (hr : reading t = false)
    (hw : writing t = false) : Accounts reading writing m (ts ++ [t]) where
  readers_eq := by simp [List.countP_append, hr, h.readers_eq]
  writers_eq := by simp [List.countP_append, hw, h.writers_eq]
  exclusive := h.exclusive

/-- A thread moves without taking or releasing the lock. -/
theorem Accounts.set (h : Accounts reading writing m ts) (hi : ts[i]? = some t)
    (hr : reading t' = reading t) (hw : writing t' = writing t) :
    Accounts reading writing m (ts.set i t') where
  readers_eq := by
    rw [countP_set_eq hi, hr, h.readers_eq, Nat.add_sub_cancel]
  writers_eq := by
    rw [countP_set_eq hi, hw, h.writers_eq, Nat.add_sub_cancel]
  exclusive := h.exclusive

/-- While a thread reads, no thread writes. -/
theorem Accounts.not_writing_of_reading (h : Accounts reading writing m ts) (ht : t ∈ ts)
    (hr : reading t = true) : ∀ u ∈ ts, writing u = false := by
  have hpos : 0 < m.readers := h.readers_eq ▸ List.countP_pos_iff.mpr ⟨t, ht, hr⟩
  have hw : m.writer = false := by
    cases hm : m.writer
    · rfl
    · exact absurd (h.exclusive hm) (Nat.pos_iff_ne_zero.mp hpos)
  have hzero : ts.countP writing = 0 := by rw [h.writers_eq, hw]; rfl
  intro u hu
  simpa using List.countP_eq_zero.mp hzero u hu

/-- `RLock` finds no thread writing. -/
theorem Accounts.not_writing_of_rLock (h : Accounts reading writing m ts)
    (hl : m.rLock = some m') : ∀ u ∈ ts, writing u = false := by
  have hzero : ts.countP writing = 0 := by rw [h.writers_eq, (rLock_eq_some hl).1]; rfl
  intro u hu
  simpa using List.countP_eq_zero.mp hzero u hu

/-- `Lock` finds no thread holding the lock. -/
theorem Accounts.free_of_lock (h : Accounts reading writing m ts) (hl : m.lock = some m') :
    ∀ u ∈ ts, reading u = false ∧ writing u = false := by
  obtain ⟨hw, hr, -⟩ := lock_eq_some hl
  have hreaders : ts.countP reading = 0 := by rw [h.readers_eq, hr]
  have hwriters : ts.countP writing = 0 := by rw [h.writers_eq, hw]; rfl
  intro u hu
  exact ⟨by simpa using List.countP_eq_zero.mp hreaders u hu,
    by simpa using List.countP_eq_zero.mp hwriters u hu⟩

/-- A thread that holds nothing takes the lock for reading. -/
theorem Accounts.rLock (h : Accounts reading writing m ts) (hl : m.rLock = some m')
    (hi : ts[i]? = some t) (hr : reading t = false) (hw : writing t = false)
    (hr' : reading t' = true) (hw' : writing t' = false) :
    Accounts reading writing m' (ts.set i t') := by
  obtain ⟨hmw, rfl⟩ := rLock_eq_some hl
  refine ⟨?_, ?_, fun hm => by simp [hmw] at hm⟩
  · rw [countP_set_eq hi, hr, hr', h.readers_eq]
    simp
  · rw [countP_set_eq hi, hw, hw', h.writers_eq]
    simp

/-- A thread that holds nothing takes the lock for writing. -/
theorem Accounts.lock (h : Accounts reading writing m ts) (hl : m.lock = some m')
    (hi : ts[i]? = some t) (hr : reading t = false) (hw : writing t = false)
    (hr' : reading t' = false) (hw' : writing t' = true) :
    Accounts reading writing m' (ts.set i t') := by
  obtain ⟨hmw, hmr, rfl⟩ := lock_eq_some hl
  refine ⟨?_, ?_, fun _ => hmr⟩
  · rw [countP_set_eq hi, hr, hr', h.readers_eq]
    simp
  · rw [countP_set_eq hi, hw, hw', h.writers_eq, hmw]
    simp

/-- A reader releases the lock. -/
theorem Accounts.rUnlock (h : Accounts reading writing m ts) (hi : ts[i]? = some t)
    (hr : reading t = true) (hw : writing t = false) (hr' : reading t' = false)
    (hw' : writing t' = false) : Accounts reading writing m.rUnlock (ts.set i t') := by
  refine ⟨?_, ?_, fun hm => ?_⟩
  · rw [countP_set_eq hi, hr, hr', h.readers_eq]
    simp [RWLock.rUnlock]
  · rw [countP_set_eq hi, hw, hw', h.writers_eq]
    rfl
  · simp only [RWLock.rUnlock] at hm ⊢
    rw [h.exclusive hm]

/-- The writer releases the lock. -/
theorem Accounts.unlock (h : Accounts reading writing m ts) (hi : ts[i]? = some t)
    (hr : reading t = false) (hw : writing t = true) (hr' : reading t' = false)
    (hw' : writing t' = false) : Accounts reading writing m.unlock (ts.set i t') := by
  refine ⟨?_, ?_, fun hm => by simp [RWLock.unlock] at hm⟩
  · rw [countP_set_eq hi, hr, hr', h.readers_eq]
    simp [RWLock.unlock]
  · -- the count was at most one and drops by one
    rw [countP_set_eq hi, hw, hw', h.writers_eq]
    show _ = 0
    cases m.writer <;> rfl

end Accounts

end RWLock

end MinBFT.System
