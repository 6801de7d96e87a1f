import MinBFT.System.RWLock

/-!
# The view state under concurrent callers

Model of `viewState` (`core/internal/viewstate/view-state.go`) under every interleaving of its
callers, as a program of `System/Threads`: the shared state is the `viewState` with its
`RWMutex` (`System/RWLock`), and each thread is a caller making one call at a time.

* A call takes the lock as its first statement and runs to its return in one atomic step,
  which is not enabled while the lock is not free for it (`holdView`, `advanceExpectedView`,
  `advanceCurrentView` return `none` then).
* `HoldView` returns with the read lock held. `AdvanceExpectedView` and `AdvanceCurrentView`
  return with the write lock held when they return `ok`, and release it before returning
  otherwise. A caller that holds the lock releases it in a later step of its own (`Caller`).
* The history records what each call returned (`ViewEvent`).
* View numbers are `uint64` in the code; they are only compared and assigned, so they are
  `Nat` here.

The caller discipline of the last result is a property of the history (`AfterExpected`): each
`AdvanceCurrentView(v)` that has run came after some `AdvanceExpectedView(v')`, `v ≤ v'`, had
returned.

## Results

* `ViewOk`: the lock's counters are the callers', the views a caller holds the lock with are the
  state's, every `AdvanceExpectedView(v)` that returned left `expectedView ≥ v`, and under the
  discipline `currentView ≤ expectedView`; every step keeps it (`viewOk_inductive`).
* `viewState_interleavings`: in every reachable configuration, what `HoldView` returned (and what
  an Advance that succeeded left) is the state until the release; the views never decrease;
  each Advance returns `ok` exactly when the view given is larger, and then sets it, with
  `active` exactly when the new current view is the expected one; and under the discipline
  `currentView ≤ expectedView`.
-/

namespace MinBFT.Core

open MinBFT.System

/-- `viewState`: its `RWMutex` and the two view numbers. -/
structure ViewState where
  mutex : RWLock := {}
  currentView : Nat := 0
  expectedView : Nat := 0
  deriving DecidableEq, Repr

namespace ViewState

/-- `HoldView()`: `none` while `RLock` blocks; otherwise the two views and the state, with the
read lock held. -/
def holdView (s : ViewState) : Option (Nat × Nat × ViewState) :=
  match s.mutex.rLock with
  | none => none
  | some m =>
    let s := { s with mutex := m }
    some (s.currentView, s.expectedView, s)

/-- `AdvanceExpectedView(view)`: `none` while `Lock` blocks; otherwise `ok` and the state, with
the lock held if `ok` and released if not. -/
def advanceExpectedView (s : ViewState) (view : Nat) : Option (Bool × ViewState) :=
  match s.mutex.lock with
  | none => none
  | some m =>
    let s := { s with mutex := m }
    if s.expectedView < view then some (true, { s with expectedView := view })
    else some (false, { s with mutex := s.mutex.unlock })

/-- `AdvanceCurrentView(view)`: `none` while `Lock` blocks; otherwise `ok`, `active` and the
state, with the lock held if `ok` and released if not. -/
def advanceCurrentView (s : ViewState) (view : Nat) : Option (Bool × Bool × ViewState) :=
  match s.mutex.lock with
  | none => none
  | some m =>
    let s := { s with mutex := m }
    if s.currentView < view then
      let s := { s with currentView := view }
      some (true, s.currentView == s.expectedView, s)
    else some (false, false, { s with mutex := s.mutex.unlock })

/-- The `release` `HoldView` returns: `RUnlock`. -/
def releaseRead (s : ViewState) : ViewState := { s with mutex := s.mutex.rUnlock }

/-- The `release` an Advance returns with `ok`: `Unlock`. -/
def releaseWrite (s : ViewState) : ViewState := { s with mutex := s.mutex.unlock }

variable {s s' : ViewState}

theorem holdView_eq_some {current expected : Nat} (h : s.holdView = some (current, expected, s')) :
    s.mutex.rLock = some s'.mutex ∧ current = s.currentView ∧ expected = s.expectedView ∧
      s'.currentView = s.currentView ∧ s'.expectedView = s.expectedView := by
  unfold holdView at h
  split at h
  · cases h
  · next m hm =>
    cases h
    exact ⟨hm, rfl, rfl, rfl, rfl⟩

/-- `AdvanceExpectedView(view)` takes the lock, returns `ok` exactly when `view` is above the
expected view, and then sets it; otherwise it leaves the state as it was. -/
theorem advanceExpectedView_eq_some {view : Nat} {ok : Bool}
    (h : s.advanceExpectedView view = some (ok, s')) :
    ∃ m, s.mutex.lock = some m ∧ (ok = true ↔ s.expectedView < view) ∧
      s' = if ok then { s with mutex := m, expectedView := view } else s := by
  unfold advanceExpectedView at h
  split at h
  · cases h
  · next m hm =>
    refine ⟨m, hm, ?_⟩
    dsimp only at h
    split_ifs at h with hlt
    · cases h
      exact ⟨iff_of_true rfl hlt, rfl⟩
    · cases h
      refine ⟨iff_of_false Bool.false_ne_true hlt, ?_⟩
      -- the lock taken is released: the state is as before
      rw [if_neg Bool.false_ne_true, RWLock.unlock_of_lock hm]

/-- `AdvanceCurrentView(view)` takes the lock, returns `ok` exactly when `view` is above the
current view, and then sets it, with `active` when it is the expected view; otherwise it leaves
the state as it was. -/
theorem advanceCurrentView_eq_some {view : Nat} {ok active : Bool}
    (h : s.advanceCurrentView view = some (ok, active, s')) :
    ∃ m, s.mutex.lock = some m ∧ (ok = true ↔ s.currentView < view) ∧
      (active = true ↔ ok = true ∧ view = s.expectedView) ∧
      s' = if ok then { s with mutex := m, currentView := view } else s := by
  unfold advanceCurrentView at h
  split at h
  · cases h
  · next m hm =>
    refine ⟨m, hm, ?_⟩
    dsimp only at h
    split_ifs at h with hlt
    · cases h
      exact ⟨iff_of_true rfl hlt, by simp, rfl⟩
    · cases h
      refine ⟨iff_of_false Bool.false_ne_true hlt, by simp, ?_⟩
      rw [if_neg Bool.false_ne_true, RWLock.unlock_of_lock hm]

end ViewState

/-- A caller, making one call at a time: idle, holding the read lock with what `HoldView`
returned, or holding the write lock after an Advance returned `ok`, with the views it left. -/
inductive Caller where
  | idle
  | holding (current expected : Nat)
  | advanced (current expected : Nat)
  deriving DecidableEq, Repr

namespace Caller

/-- The caller holds the read lock. -/
def reading : Caller → Bool
  | .idle => false
  | .holding _ _ => true
  | .advanced _ _ => false

/-- The caller holds the write lock. -/
def writing : Caller → Bool
  | .idle => false
  | .holding _ _ => false
  | .advanced _ _ => true

/-- The views the caller holds the lock with. -/
def views : Caller → Option (Nat × Nat)
  | .idle => none
  | .holding current expected => some (current, expected)
  | .advanced current expected => some (current, expected)

/-- A caller that holds no lock holds no views. -/
theorem views_eq_none {t : Caller} (hr : t.reading = false) (hw : t.writing = false) :
    t.views = none := by
  cases t <;> simp_all [reading, writing, views]

end Caller

/-- What a call returned. -/
inductive ViewEvent where
  | held (current expected : Nat)
  | expectedAdvanced (view : Nat) (ok : Bool)
  | currentAdvanced (view : Nat) (ok active : Bool)
  deriving DecidableEq, Repr

/-- One atomic step of a caller: a call, from taking the lock to its return, or a release. -/
inductive ViewCall : ViewState → Caller → ViewState → Caller → List ViewEvent → Prop
  | holdView {s s' : ViewState} {current expected : Nat} :
      s.holdView = some (current, expected, s') →
      ViewCall s .idle s' (.holding current expected) [.held current expected]
  | advanceExpectedView {s s' : ViewState} {view : Nat} {ok : Bool} :
      s.advanceExpectedView view = some (ok, s') →
      ViewCall s .idle s' (if ok then .advanced s'.currentView s'.expectedView else .idle)
        [.expectedAdvanced view ok]
  | advanceCurrentView {s s' : ViewState} {view : Nat} {ok active : Bool} :
      s.advanceCurrentView view = some (ok, active, s') →
      ViewCall s .idle s' (if ok then .advanced s'.currentView s'.expectedView else .idle)
        [.currentAdvanced view ok active]
  | releaseRead {s : ViewState} {current expected : Nat} :
      ViewCall s (.holding current expected) s.releaseRead .idle []
  | releaseWrite {s : ViewState} {current expected : Nat} :
      ViewCall s (.advanced current expected) s.releaseWrite .idle []

/-- The callers of one view state: any number, each starting idle. -/
def viewProgram : Program ViewState Caller ViewEvent where
  start t := t = .idle
  step _ s t s' t' es := ViewCall s t s' t' es

/-- The caller discipline: an `AdvanceCurrentView(view)` runs only after some
`AdvanceExpectedView(view')`, `view ≤ view'`, has returned. -/
def AfterExpected (before : List ViewEvent) : ViewEvent → Prop
  | .currentAdvanced view _ _ =>
    ∃ view' ok, view ≤ view' ∧ .expectedAdvanced view' ok ∈ before
  | .held _ _ => True
  | .expectedAdvanced _ _ => True

/-! ## The views never decrease -/

theorem ViewCall.views_le {s s' : ViewState} {t t' : Caller} {es : List ViewEvent}
    (h : ViewCall s t s' t' es) :
    s.currentView ≤ s'.currentView ∧ s.expectedView ≤ s'.expectedView := by
  cases h with
  | holdView h =>
    obtain ⟨-, -, -, hc, he⟩ := ViewState.holdView_eq_some h
    exact ⟨hc.ge, he.ge⟩
  | advanceExpectedView h =>
    obtain ⟨m, -, hok, rfl⟩ := ViewState.advanceExpectedView_eq_some h
    split_ifs with hb
    · exact ⟨le_rfl, Nat.le_of_lt (hok.mp hb)⟩
    · exact ⟨le_rfl, le_rfl⟩
  | advanceCurrentView h =>
    obtain ⟨m, -, hok, -, rfl⟩ := ViewState.advanceCurrentView_eq_some h
    split_ifs with hb
    · exact ⟨Nat.le_of_lt (hok.mp hb), le_rfl⟩
    · exact ⟨le_rfl, le_rfl⟩
  | releaseRead => exact ⟨le_rfl, le_rfl⟩
  | releaseWrite => exact ⟨le_rfl, le_rfl⟩

theorem views_le_of_run {c c' : Config ViewState Caller ViewEvent}
    (h : Relation.ReflTransGen viewProgram.Step c c') :
    c.shared.currentView ≤ c'.shared.currentView ∧
      c.shared.expectedView ≤ c'.shared.expectedView := by
  induction h with
  | refl => exact ⟨le_rfl, le_rfl⟩
  | tail _ hs ih =>
    cases hs with
    | spawn => exact ih
    | move _ hcall =>
      have := ViewCall.views_le hcall
      exact ⟨ih.1.trans this.1, ih.2.trans this.2⟩

/-- A step that returns a call's result is that call. -/
theorem viewCall_of_event {c c' : Config ViewState Caller ViewEvent}
    (h : viewProgram.Step c c') {e : ViewEvent} (he : c'.trace = c.trace ++ [e]) :
    ∃ t t', ViewCall c.shared t c'.shared t' [e] := by
  cases h with
  | spawn =>
    have := congrArg List.length he
    simp at this
  | move _ hcall =>
    exact ⟨_, _, List.append_cancel_left he ▸ hcall⟩

theorem ViewCall.advanceExpectedView_of_event {s s' : ViewState} {t t' : Caller} {view : Nat}
    {ok : Bool} (h : ViewCall s t s' t' [.expectedAdvanced view ok]) :
    s.advanceExpectedView view = some (ok, s') := by
  cases h with
  | advanceExpectedView ha => exact ha

theorem ViewCall.advanceCurrentView_of_event {s s' : ViewState} {t t' : Caller} {view : Nat}
    {ok active : Bool} (h : ViewCall s t s' t' [.currentAdvanced view ok active]) :
    s.advanceCurrentView view = some (ok, active, s') := by
  cases h with
  | advanceCurrentView ha => exact ha

/-! ## The invariant -/

/-- The lock's counters are the callers', the views a caller holds the lock with are the
state's, each `AdvanceExpectedView(view)` that returned left the expected view at least `view`,
and under the discipline the current view is at most the expected one. -/
structure ViewOk (c : Config ViewState Caller ViewEvent) : Prop where
  accounts : c.shared.mutex.Accounts Caller.reading Caller.writing c.threads
  held : ∀ t ∈ c.threads, ∀ v, t.views = some v →
    (c.shared.currentView, c.shared.expectedView) = v
  returned_le : ∀ view ok, ViewEvent.expectedAdvanced view ok ∈ c.trace →
    view ≤ c.shared.expectedView
  disciplined : EachEvent AfterExpected c.trace →
    c.shared.currentView ≤ c.shared.expectedView

theorem viewOk_initial : ViewOk (Config.initial ({} : ViewState)) where
  accounts := RWLock.accounts_nil
  held := fun _ h => by cases h
  returned_le := fun _ _ h => by cases h
  disciplined := fun _ => le_rfl

namespace ViewOk

variable {c : Config ViewState Caller ViewEvent}

theorem spawn (h : ViewOk c) : ViewOk ⟨c.shared, c.threads ++ [.idle], c.trace⟩ where
  accounts := h.accounts.spawn rfl rfl
  held := forall_mem_append_singleton h.held fun _ hv => by cases hv
  returned_le := h.returned_le
  disciplined := h.disciplined

/-- A caller's step that leaves the views as they are: the views a caller holds the lock with,
if any, are still the state's. -/
theorem of_views_eq (h : ViewOk c) {i : Nat} {s' : ViewState} {t' : Caller} {es : List ViewEvent}
    (haccounts : s'.mutex.Accounts Caller.reading Caller.writing (c.threads.set i t'))
    (hcur : s'.currentView = c.shared.currentView) (hexp : s'.expectedView = c.shared.expectedView)
    (ht' : ∀ v, t'.views = some v → (c.shared.currentView, c.shared.expectedView) = v)
    (hes : ∀ view ok, .expectedAdvanced view ok ∈ es → view ≤ c.shared.expectedView) :
    ViewOk ⟨s', c.threads.set i t', c.trace ++ es⟩ where
  accounts := haccounts
  held := by
    rw [hcur, hexp]
    exact forall_mem_set h.held ht'
  returned_le := fun view ok hmem => by
    rw [hexp]
    rcases List.mem_append.mp hmem with hmem | hmem
    · exact h.returned_le view ok hmem
    · exact hes view ok hmem
  disciplined := fun hev => by
    rw [hcur, hexp]
    exact h.disciplined hev.of_append

/-- A caller takes the write lock and returns with it: no other caller holds the lock, so the
views it leaves are the only ones held. -/
theorem of_lock (h : ViewOk c) {i : Nat} (hi : c.threads[i]? = some .idle) {m : RWLock}
    (hm : c.shared.mutex.lock = some m) {s' : ViewState} (hs' : s'.mutex = m)
    {es : List ViewEvent} (hexp : c.shared.expectedView ≤ s'.expectedView)
    (hes : ∀ view ok, .expectedAdvanced view ok ∈ es → view ≤ s'.expectedView)
    (hdis : EachEvent AfterExpected (c.trace ++ es) → s'.currentView ≤ s'.expectedView) :
    ViewOk ⟨s', c.threads.set i (.advanced s'.currentView s'.expectedView), c.trace ++ es⟩ where
  accounts := hs' ▸ h.accounts.lock hm hi rfl rfl rfl rfl
  held := by
    refine forall_mem_set (fun u hu v hv => ?_) (fun v hv => by cases hv; rfl)
    obtain ⟨hr, hw⟩ := h.accounts.free_of_lock hm u hu
    rw [Caller.views_eq_none hr hw] at hv
    cases hv
  returned_le := fun view ok hmem => by
    rcases List.mem_append.mp hmem with hmem | hmem
    · exact (h.returned_le view ok hmem).trans hexp
    · exact hes view ok hmem
  disciplined := hdis

/-- One step of a caller keeps the invariant. -/
theorem call (h : ViewOk c) {i : Nat} {t t' : Caller} {s' : ViewState} {es : List ViewEvent}
    (hi : c.threads[i]? = some t) (hcall : ViewCall c.shared t s' t' es) :
    ViewOk ⟨s', c.threads.set i t', c.trace ++ es⟩ := by
  have hnone : ∀ v, Caller.idle.views = some v →
      (c.shared.currentView, c.shared.expectedView) = v := fun _ hv => by cases hv
  cases hcall with
  | holdView hh =>
    obtain ⟨hm, rfl, rfl, hc, he⟩ := ViewState.holdView_eq_some hh
    exact h.of_views_eq (h.accounts.rLock hm hi rfl rfl rfl rfl) hc he
      (fun v hv => by cases hv; rfl) (fun _ _ hmem => by simp at hmem)
  | @advanceExpectedView _ view ok ha =>
    obtain ⟨m, hm, hok, rfl⟩ := ViewState.advanceExpectedView_eq_some ha
    cases ok with
    | false =>
      -- not above the expected view: nothing changes
      have hle : view ≤ c.shared.expectedView := by
        have := mt hok.mpr Bool.false_ne_true
        omega
      exact h.of_views_eq (h.accounts.set hi rfl rfl) rfl rfl hnone
        fun _ _ hmem => by
          simp only [List.mem_singleton, ViewEvent.expectedAdvanced.injEq] at hmem
          omega
    | true =>
      have hlt := hok.mp rfl
      simp only [if_true]
      refine h.of_lock hi hm rfl (Nat.le_of_lt hlt) (fun _ _ hmem => ?_) fun hev => ?_
      · obtain ⟨rfl, -⟩ := ViewEvent.expectedAdvanced.inj (List.mem_singleton.mp hmem)
        exact Nat.le_refl _
      · -- the current view is unchanged and the expected one grows
        exact (h.disciplined hev.of_append).trans (Nat.le_of_lt hlt)
  | @advanceCurrentView _ view ok active ha =>
    obtain ⟨m, hm, hok, -, rfl⟩ := ViewState.advanceCurrentView_eq_some ha
    cases ok with
    | false =>
      exact h.of_views_eq (h.accounts.set hi rfl rfl) rfl rfl hnone
        (fun _ _ hmem => by simp at hmem)
    | true =>
      simp only [if_true]
      refine h.of_lock hi hm rfl le_rfl (fun _ _ hmem => by simp at hmem) fun hev => ?_
      -- the discipline: an `AdvanceExpectedView(view')`, `view ≤ view'`, returned before
      obtain ⟨view', ok', hle, hmem⟩ := hev.last
      exact hle.trans (h.returned_le view' ok' hmem)
  | releaseRead =>
    exact h.of_views_eq (h.accounts.rUnlock hi rfl rfl rfl rfl) rfl rfl hnone
      (fun _ _ hmem => by simp at hmem)
  | releaseWrite =>
    exact h.of_views_eq (h.accounts.unlock hi rfl rfl rfl rfl) rfl rfl hnone
      (fun _ _ hmem => by simp at hmem)

end ViewOk

theorem viewOk_inductive : Inductive viewProgram.Step (Config.initial {}) ViewOk where
  init := viewOk_initial
  step := fun _ _ h hs => by
    cases hs with
    | spawn ht =>
      rw [show _ = Caller.idle from ht]
      exact h.spawn
    | move hi hcall => exact h.call hi hcall

/-! ## Main result -/

/-- **The view state under any interleaving of its callers.** In every reachable configuration:
the views `HoldView` returned, and those an Advance that returned `ok` left, are the state's
until the caller releases the lock; from there the views never decrease; an
`AdvanceExpectedView(view)` returns `ok` exactly when `view` is above the expected view and
then sets it, and an `AdvanceCurrentView(view)` likewise with the current view, returning
`active` exactly when it set the current view to the expected one; and if every
`AdvanceCurrentView(view)` so far came after an `AdvanceExpectedView(view')` with
`view ≤ view'` had returned, the current view is at most the expected one. -/
theorem viewState_interleavings {c : Config ViewState Caller ViewEvent}
    (hc : viewProgram.Reachable {} c) :
    (∀ (i current expected : Nat), (c.threads[i]? = some (.holding current expected) ∨
        c.threads[i]? = some (.advanced current expected)) →
      c.shared.currentView = current ∧ c.shared.expectedView = expected) ∧
    (∀ c', Relation.ReflTransGen viewProgram.Step c c' →
      c.shared.currentView ≤ c'.shared.currentView ∧
        c.shared.expectedView ≤ c'.shared.expectedView) ∧
    (∀ c' view ok, viewProgram.Step c c' → c'.trace = c.trace ++ [.expectedAdvanced view ok] →
      (ok = true ↔ c.shared.expectedView < view) ∧
      c'.shared.expectedView = (if ok then view else c.shared.expectedView) ∧
      c'.shared.currentView = c.shared.currentView) ∧
    (∀ c' view ok active, viewProgram.Step c c' →
      c'.trace = c.trace ++ [.currentAdvanced view ok active] →
      (ok = true ↔ c.shared.currentView < view) ∧
      (active = true ↔ ok = true ∧ view = c.shared.expectedView) ∧
      c'.shared.currentView = (if ok then view else c.shared.currentView) ∧
      c'.shared.expectedView = c.shared.expectedView) ∧
    (EachEvent AfterExpected c.trace → c.shared.currentView ≤ c.shared.expectedView) := by
  have h := viewOk_inductive.reachable hc
  refine ⟨fun i current expected hi => ?_, fun _ hrun => views_le_of_run hrun,
    fun c' view ok hs he => ?_, fun c' view ok active hs he => ?_, h.disciplined⟩
  · -- the caller holds these views, which are the state's
    obtain ⟨t, ht, hv⟩ : ∃ t ∈ c.threads, t.views = some (current, expected) := by
      rcases hi with hi | hi
      · exact ⟨.holding current expected, List.mem_of_getElem? hi, rfl⟩
      · exact ⟨.advanced current expected, List.mem_of_getElem? hi, rfl⟩
    exact Prod.mk.inj (h.held t ht _ hv)
  · -- the step is the call that returned this
    obtain ⟨t, t', hcall⟩ := viewCall_of_event hs he
    obtain ⟨m, -, hok, hs'⟩ :=
      ViewState.advanceExpectedView_eq_some hcall.advanceExpectedView_of_event
    refine ⟨hok, ?_, ?_⟩ <;> rw [hs'] <;> split_ifs <;> rfl
  · obtain ⟨t, t', hcall⟩ := viewCall_of_event hs he
    obtain ⟨m, -, hok, hactive, hs'⟩ :=
      ViewState.advanceCurrentView_eq_some hcall.advanceCurrentView_of_event
    refine ⟨hok, hactive, ?_, ?_⟩ <;> rw [hs'] <;> split_ifs <;> rfl

/-- Two callers: the first advances the expected view to 1 and releases the lock, then the
second advances the current view to 1, which is active. -/
def viewRun : Config ViewState Caller ViewEvent where
  shared := { mutex := { writer := true }, currentView := 1, expectedView := 1 }
  threads := [.idle, .advanced 1 1]
  trace := [.expectedAdvanced 1 true, .currentAdvanced 1 true true]

theorem viewRun_reachable : viewProgram.Reachable {} viewRun := by
  have hspawned : viewProgram.Reachable {} ⟨{}, [.idle, .idle], []⟩ :=
    (Reachable.refl.tail (.spawn rfl)).tail (.spawn rfl)
  have hexpected : viewProgram.Reachable {} _ :=
    hspawned.tail (.move (i := 0) rfl (@ViewCall.advanceExpectedView _ _ 1 true rfl))
  have hreleased : viewProgram.Reachable {} _ :=
    hexpected.tail (.move (i := 0) rfl ViewCall.releaseWrite)
  exact hreleased.tail (.move (i := 1) rfl (@ViewCall.advanceCurrentView _ _ 1 true true rfl))

theorem viewState_interleavings_viewRun :
    viewProgram.Reachable {} viewRun ∧
    (∀ (i current expected : Nat), (viewRun.threads[i]? = some (.holding current expected) ∨
        viewRun.threads[i]? = some (.advanced current expected)) →
      viewRun.shared.currentView = current ∧ viewRun.shared.expectedView = expected) ∧
    (∀ c', Relation.ReflTransGen viewProgram.Step viewRun c' →
      viewRun.shared.currentView ≤ c'.shared.currentView ∧
        viewRun.shared.expectedView ≤ c'.shared.expectedView) ∧
    (∀ c' view ok, viewProgram.Step viewRun c' →
      c'.trace = viewRun.trace ++ [.expectedAdvanced view ok] →
      (ok = true ↔ viewRun.shared.expectedView < view) ∧
      c'.shared.expectedView = (if ok then view else viewRun.shared.expectedView) ∧
      c'.shared.currentView = viewRun.shared.currentView) ∧
    (∀ c' view ok active, viewProgram.Step viewRun c' →
      c'.trace = viewRun.trace ++ [.currentAdvanced view ok active] →
      (ok = true ↔ viewRun.shared.currentView < view) ∧
      (active = true ↔ ok = true ∧ view = viewRun.shared.expectedView) ∧
      c'.shared.currentView = (if ok then view else viewRun.shared.currentView) ∧
      c'.shared.expectedView = viewRun.shared.expectedView) ∧
    (EachEvent AfterExpected viewRun.trace →
      viewRun.shared.currentView ≤ viewRun.shared.expectedView) :=
  ⟨viewRun_reachable, viewState_interleavings viewRun_reachable⟩

end MinBFT.Core
