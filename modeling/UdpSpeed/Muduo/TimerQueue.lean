/-
  UdpSpeed.Muduo.TimerQueue

  `TimerQueue` (muduo/net/TimerQueue.cc, Timer.cc): the timers by expiration, the
  same timers by address and sequence number for `cancel`, and the round of
  callbacks, which may add and cancel timers themselves.

  Time is in microseconds.  The timerfd is left out: `handleRead` may come at any
  time.
-/

import UdpSpeed.Lib.EventSystem

namespace UdpSpeed
namespace Muduo

open EventSystem

/-! ## State -/

/-- A `Timer*`. -/
abbrev TimerPtr := Nat

/-- `class Timer`; `interval` is what `addTime` makes of `interval_`. -/
structure Timer where
  expiration : Nat
  interval : Nat
  repeats : Bool
  sequence : Nat
deriving DecidableEq, Repr

/-- `TimerQueue::Entry`. -/
abbrev Entry := Nat × TimerPtr

/-- `TimerQueue::ActiveTimer`, which is also what a `TimerId` holds. -/
abbrev ActiveTimer := TimerPtr × Nat

/-- `std::less` on entries. -/
def Entry.le (a b : Entry) : Prop := a.1 < b.1 ∨ a.1 = b.1 ∧ a.2 ≤ b.2

instance : DecidableRel Entry.le := fun a b =>
  inferInstanceAs (Decidable (a.1 < b.1 ∨ a.1 = b.1 ∧ a.2 ≤ b.2))

/-- `class TimerQueue`; `timers` is its ordered set as a list. -/
structure TimerQueue where
  /-- the timer objects on the heap -/
  heap : TimerPtr → Option Timer
  timers : List Entry
  activeTimers : Finset ActiveTimer
  callingExpiredTimers : Bool
  cancelingTimers : Finset ActiveTimer
  /-- `Timer::s_numCreated_` -/
  numCreated : Nat
  /-- the timers run so far, each with the time of its round; nothing reads it -/
  fired : List (Timer × Nat)

/-- An assert of the queue that failed, or a pointer to a deleted timer. -/
inductive TimerFailed where
  | assertSize
  | assertErased
  | assertInserted
  | dangling
deriving DecidableEq, Repr

/-- A call on the queue; `add` comes with the address `new` returns. -/
inductive TimerCall where
  | add (p : TimerPtr) (expiration interval : Nat) (repeats : Bool)
  | cancel (id : ActiveTimer)
deriving DecidableEq, Repr

namespace TimerQueue

def create : TimerQueue where
  heap := fun _ => none
  timers := []
  activeTimers := ∅
  callingExpiredTimers := false
  cancelingTimers := ∅
  numCreated := 0
  fired := []

/-- `assert(timers_.size() == activeTimers_.size())`. -/
def checked (q : TimerQueue) : Except TimerFailed TimerQueue :=
  if q.timers.length = q.activeTimers.card then .ok q else .error .assertSize

/-- `insert`, for the timer at `p`. -/
def insert (q : TimerQueue) (p : TimerPtr) (timer : Timer) : Except TimerFailed TimerQueue :=
  match q.checked with
  | .error e => .error e
  | .ok q =>
      if (timer.expiration, p) ∈ q.timers ∨ (p, timer.sequence) ∈ q.activeTimers then
        .error .assertInserted
      else
        { q with
          timers := q.timers.orderedInsert Entry.le (timer.expiration, p)
          activeTimers := Insert.insert (p, timer.sequence) q.activeTimers }.checked

/-- `addTimer`, in the loop's thread.  `new` returns no address that is in use. -/
def addTimer (q : TimerQueue) (p : TimerPtr) (expiration interval : Nat) (repeats : Bool) :
    Except TimerFailed TimerQueue :=
  match q.heap p with
  | some _ => .ok q
  | none =>
      let timer : Timer :=
        { expiration := expiration, interval := interval, repeats := repeats,
          sequence := q.numCreated + 1 }
      { q with
        heap := Function.update q.heap p (some timer)
        numCreated := q.numCreated + 1 }.insert p timer

/-- `cancelInLoop`. -/
def cancelInLoop (q : TimerQueue) (id : ActiveTimer) : Except TimerFailed TimerQueue :=
  match q.checked with
  | .error e => .error e
  | .ok q =>
      if id ∈ q.activeTimers then
        match q.heap id.1 with
        | none => .error .dangling
        | some timer =>
            if (timer.expiration, id.1) ∈ q.timers then
              { q with
                heap := Function.update q.heap id.1 none
                timers := q.timers.erase (timer.expiration, id.1)
                activeTimers := q.activeTimers.erase id }.checked
            else .error .assertErased
      -- the timer is being run, or has gone
      else if q.callingExpiredTimers then
        { q with cancelingTimers := Insert.insert id q.cancelingTimers }.checked
      else q.checked

/-- A call. -/
def call (q : TimerQueue) : TimerCall → Except TimerFailed TimerQueue
  | .add p expiration interval repeats => q.addTimer p expiration interval repeats
  | .cancel id => q.cancelInLoop id

/-- The calls inside a callback. -/
def calls (q : TimerQueue) : List TimerCall → Except TimerFailed TimerQueue
  | [] => .ok q
  | cl :: rest =>
      match q.call cl with
      | .error e => .error e
      | .ok q => q.calls rest

/-- The loop of `getExpired`. -/
def eraseActive (q : TimerQueue) : List Entry → Except TimerFailed TimerQueue
  | [] => .ok q
  | it :: rest =>
      match q.heap it.2 with
      | none => .error .dangling
      | some timer =>
          if (it.2, timer.sequence) ∈ q.activeTimers then
            { q with activeTimers := q.activeTimers.erase (it.2, timer.sequence) }.eraseActive rest
          else .error .assertErased

/-- The entries in front of the sentry. -/
def expired (q : TimerQueue) (now : Nat) : List Entry := q.timers.filter (fun it => it.1 ≤ now)

/-- `getExpired`, up to its result `expired`. -/
def getExpired (q : TimerQueue) (now : Nat) : Except TimerFailed TimerQueue :=
  match q.checked with
  | .error e => .error e
  | .ok q =>
      match { q with timers := q.timers.filter (fun it => now < it.1) }.eraseActive
          (q.expired now) with
      | .error e => .error e
      | .ok q => q.checked

/-- The loop that runs the expired timers, with the calls inside each callback. -/
def runExpired (q : TimerQueue) (now : Nat) :
    List Entry → List (List TimerCall) → Except TimerFailed TimerQueue
  | [], _ => .ok q
  | it :: rest, css =>
      match q.heap it.2 with
      | none => .error .dangling
      | some timer =>
          match { q with fired := q.fired ++ [(timer, now)] }.calls (css.headD []) with
          | .error e => .error e
          | .ok q => q.runExpired now rest css.tail

/-- The loop of `reset`. -/
def reset (q : TimerQueue) (now : Nat) : List Entry → Except TimerFailed TimerQueue
  | [] => .ok q
  | it :: rest =>
      match q.heap it.2 with
      | none => .error .dangling
      | some timer =>
          if timer.repeats ∧ (it.2, timer.sequence) ∉ q.cancelingTimers then
            -- `restart`
            let timer := { timer with expiration := now + timer.interval }
            match { q with heap := Function.update q.heap it.2 (some timer) }.insert it.2 timer with
            | .error e => .error e
            | .ok q => q.reset now rest
          else { q with heap := Function.update q.heap it.2 none }.reset now rest

/-- `handleRead`. -/
def handleRead (q : TimerQueue) (now : Nat) (css : List (List TimerCall)) :
    Except TimerFailed TimerQueue :=
  let expired := q.expired now
  match q.getExpired now with
  | .error e => .error e
  | .ok q =>
      match { q with callingExpiredTimers := true, cancelingTimers := ∅ }.runExpired now expired
          css with
      | .error e => .error e
      | .ok q => { q with callingExpiredTimers := false }.reset now expired

end TimerQueue

/-- What happens to the queue: a call from outside, or the timerfd is readable. -/
inductive TimerEvent where
  | call (cl : TimerCall)
  | handleRead (now : Nat) (css : List (List TimerCall))
deriving DecidableEq, Repr

namespace TimerQueue

/-- Run the handler of an event. -/
def handle (q : TimerQueue) : TimerEvent → Except TimerFailed TimerQueue
  | .call cl => q.call cl
  | .handleRead now css => q.handleRead now css

/-- The step function. -/
def step (q : TimerQueue) (e : TimerEvent) : Option TimerQueue := (q.handle e).toOption

/-! ## The invariant -/

/-- The timer at `p` is in neither set. -/
def Unset (q : TimerQueue) (p : TimerPtr) : Prop :=
  (∀ t, (t, p) ∉ q.timers) ∧ ∀ n, (p, n) ∉ q.activeTimers

/-- The timer at `p` is in both sets, with its own expiration and sequence number. -/
def Armed (q : TimerQueue) (p : TimerPtr) (timer : Timer) : Prop :=
  (∀ t, (t, p) ∈ q.timers ↔ t = timer.expiration) ∧
    ∀ n, (p, n) ∈ q.activeTimers ↔ n = timer.sequence

/-- What can be at an address; `batch` are the expired timers not yet reset. -/
inductive Phase (q : TimerQueue) (batch : List TimerPtr) (p : TimerPtr) : Prop
  | absent (hheap : q.heap p = none) (hbatch : p ∉ batch) (hunset : q.Unset p)
  | armed (timer : Timer) (hheap : q.heap p = some timer) (hbatch : p ∉ batch)
      (harmed : q.Armed p timer)
  | expired (timer : Timer) (hheap : q.heap p = some timer) (hbatch : p ∈ batch)
      (hunset : q.Unset p)

/-- The invariant. -/
structure Inv (q : TimerQueue) (batch : List TimerPtr) : Prop where
  phase : ∀ p, q.Phase batch p
  size : q.timers.length = q.activeTimers.card
  nodup : q.timers.Nodup
  batch_nodup : batch.Nodup
  created : ∀ p timer, q.heap p = some timer → timer.sequence ≤ q.numCreated
  unique : ∀ p p' timer timer', q.heap p = some timer → q.heap p' = some timer' →
    timer.sequence = timer'.sequence → p = p'

theorem inv_create : create.Inv [] where
  phase := fun _ => .absent rfl List.not_mem_nil ⟨fun _ => List.not_mem_nil, fun _ =>
    Finset.notMem_empty _⟩
  size := rfl
  nodup := List.nodup_nil
  batch_nodup := List.nodup_nil
  created := fun _ _ h => by cases h
  unique := fun _ _ _ _ h => by cases h

variable {q q' : TimerQueue} {batch : List TimerPtr} {p : TimerPtr} {timer : Timer}

theorem Inv.checked (h : q.Inv batch) : q.checked = .ok q := if_pos h.size

/-- What is at another address stays. -/
theorem Phase.other (h : q.Phase batch p) {batch' : List TimerPtr}
    (hheap : q'.heap p = q.heap p) (hbatch : p ∈ batch' ↔ p ∈ batch)
    (htimers : ∀ t, (t, p) ∈ q'.timers ↔ (t, p) ∈ q.timers)
    (hactive : ∀ n, (p, n) ∈ q'.activeTimers ↔ (p, n) ∈ q.activeTimers) :
    q'.Phase batch' p := by
  have hset : q.Unset p → q'.Unset p := fun hu =>
    ⟨fun t => (htimers t).not.mpr (hu.1 t), fun n => (hactive n).not.mpr (hu.2 n)⟩
  cases h with
  | absent h₁ h₂ h₃ => exact .absent (hheap.trans h₁) (hbatch.not.mpr h₂) (hset h₃)
  | armed timer h₁ h₂ h₃ =>
      exact .armed timer (hheap.trans h₁) (hbatch.not.mpr h₂)
        ⟨fun t => (htimers t).trans (h₃.1 t), fun n => (hactive n).trans (h₃.2 n)⟩
  | expired timer h₁ h₂ h₃ => exact .expired timer (hheap.trans h₁) (hbatch.mpr h₂) (hset h₃)

/-- The invariant is about the heap and the two sets. -/
theorem Inv.same (h : q.Inv batch) (hheap : q'.heap = q.heap) (htimers : q'.timers = q.timers)
    (hactive : q'.activeTimers = q.activeTimers) (hcreated : q'.numCreated = q.numCreated) :
    q'.Inv batch where
  phase := fun p => by
    apply (h.phase p).other
    · rw [hheap]
    · exact Iff.rfl
    · exact fun _ => by rw [htimers]
    · exact fun _ => by rw [hactive]
  size := by
    rw [htimers, hactive]
    exact h.size
  nodup := htimers ▸ h.nodup
  batch_nodup := h.batch_nodup
  created := by
    rw [hheap, hcreated]
    exact h.created
  unique := by
    rw [hheap]
    exact h.unique

/-- A timer on the heap after one is written at `p`. -/
theorem heap_set {p' : TimerPtr} {timer' : Timer}
    (h : Function.update q.heap p (some timer) p' = some timer') :
    p' = p ∧ timer' = timer ∨ p' ≠ p ∧ q.heap p' = some timer' := by
  by_cases hp : p' = p
  · subst hp
    rw [Function.update_self] at h
    exact Or.inl ⟨rfl, (Option.some.inj h).symm⟩
  · rw [Function.update_of_ne hp] at h
    exact Or.inr ⟨hp, h⟩

/-- What an operation on the sets leaves alone. -/
structure Frame (q q' : TimerQueue) : Prop where
  calling : q'.callingExpiredTimers = q.callingExpiredTimers
  fired : q'.fired = q.fired
  created : q.numCreated ≤ q'.numCreated

/-- **`insert` keeps its asserts** for a timer that is in neither set. -/
theorem Inv.arm (h : q.Inv batch) (hunset : q.Unset p) {m : Nat} (hm : q.numCreated ≤ m)
    (hcreated : timer.sequence ≤ m)
    (hunique : ∀ p' timer', p' ≠ p → q.heap p' = some timer' →
      timer'.sequence ≠ timer.sequence) :
    ∃ q', { q with
        heap := Function.update q.heap p (some timer)
        numCreated := m }.insert p timer = .ok q' ∧
      q'.Inv (batch.erase p) ∧ Frame q q' ∧
      q'.heap = Function.update q.heap p (some timer) ∧ q'.numCreated = m ∧
      q'.cancelingTimers = q.cancelingTimers := by
  have hsize : (q.timers.orderedInsert Entry.le (timer.expiration, p)).length =
      (Insert.insert (p, timer.sequence) q.activeTimers).card := by
    rw [List.orderedInsert_length, Finset.card_insert_of_notMem (hunset.2 _), h.size]
  refine ⟨{ q with
    heap := Function.update q.heap p (some timer)
    numCreated := m
    timers := q.timers.orderedInsert Entry.le (timer.expiration, p)
    activeTimers := Insert.insert (p, timer.sequence) q.activeTimers }, ?_, ?_, ⟨rfl, rfl, hm⟩, rfl,
    rfl, rfl⟩
  · have hchecked : { q with
        heap := Function.update q.heap p (some timer)
        numCreated := m }.checked = .ok { q with
        heap := Function.update q.heap p (some timer)
        numCreated := m } := if_pos h.size
    unfold TimerQueue.insert
    rw [hchecked]
    dsimp only
    rw [if_neg (not_or.mpr ⟨hunset.1 _, hunset.2 _⟩)]
    exact if_pos hsize
  · refine ⟨fun p' => ?_, hsize, ?_, h.batch_nodup.erase p, ?_, ?_⟩
    · by_cases hp : p' = p
      · subst hp
        refine .armed timer (Function.update_self _ _ _) h.batch_nodup.not_mem_erase
          ⟨fun t => ?_, fun n => ?_⟩
        · rw [List.mem_orderedInsert]
          simp [hunset.1 t]
        · rw [Finset.mem_insert]
          simp [hunset.2 n]
      · apply (h.phase p').other
        · exact Function.update_of_ne hp _ _
        · exact List.mem_erase_of_ne hp
        · intro t
          rw [List.mem_orderedInsert]
          simp [hp]
        · intro n
          rw [Finset.mem_insert]
          simp [hp]
    · have hperm := List.perm_orderedInsert Entry.le (timer.expiration, p) q.timers
      exact hperm.nodup_iff.mpr (List.nodup_cons.mpr ⟨hunset.1 _, h.nodup⟩)
    · intro p' timer' hheap
      rcases heap_set hheap with ⟨-, rfl⟩ | ⟨-, hold⟩
      · exact hcreated
      · exact (h.created p' timer' hold).trans hm
    · intro p₁ p₂ t₁ t₂ h₁ h₂ hseq
      rcases heap_set h₁ with ⟨rfl, rfl⟩ | ⟨hp₁, hold₁⟩
      · rcases heap_set h₂ with ⟨rfl, -⟩ | ⟨hp₂, hold₂⟩
        · rfl
        · exact absurd hseq.symm (hunique p₂ t₂ hp₂ hold₂)
      · rcases heap_set h₂ with ⟨rfl, rfl⟩ | ⟨hp₂, hold₂⟩
        · exact absurd hseq (hunique p₁ t₁ hp₁ hold₁)
        · exact h.unique p₁ p₂ t₁ t₂ hold₁ hold₂ hseq

/-- What is left on the heap was there. -/
theorem heap_delete {p' : TimerPtr} (h : Function.update q.heap p none p' = some timer) :
    q.heap p' = some timer := by
  by_cases hp : p' = p
  · subst hp
    rw [Function.update_self] at h
    cases h
  · rw [Function.update_of_ne hp] at h
    exact h

/-- A timer that is in neither set is deleted. -/
theorem Inv.delete (h : q.Inv batch) (hunset : q.Unset p) :
    { q with heap := Function.update q.heap p none }.Inv (batch.erase p) where
  phase := fun p' => by
    by_cases hp : p' = p
    · subst hp
      exact .absent (Function.update_self _ _ _) h.batch_nodup.not_mem_erase hunset
    · apply (h.phase p').other
      · exact Function.update_of_ne hp _ _
      · exact List.mem_erase_of_ne hp
      · exact fun _ => Iff.rfl
      · exact fun _ => Iff.rfl
  size := h.size
  nodup := h.nodup
  batch_nodup := h.batch_nodup.erase p
  created := fun p' timer' hheap => h.created p' timer' (heap_delete hheap)
  unique := fun p₁ p₂ t₁ t₂ h₁ h₂ hseq =>
    h.unique p₁ p₂ t₁ t₂ (heap_delete h₁) (heap_delete h₂) hseq

/-- A timer is taken out of both sets; its object stays. -/
theorem Inv.disarm (h : q.Inv batch) (hheap : q.heap p = some timer) (harmed : q.Armed p timer) :
    { q with
      timers := q.timers.erase (timer.expiration, p)
      activeTimers := q.activeTimers.erase (p, timer.sequence) }.Inv (p :: batch) ∧
    { q with
      timers := q.timers.erase (timer.expiration, p)
      activeTimers := q.activeTimers.erase (p, timer.sequence) }.Unset p := by
  have hunset : { q with
      timers := q.timers.erase (timer.expiration, p)
      activeTimers := q.activeTimers.erase (p, timer.sequence) }.Unset p := by
    refine ⟨fun t hin => ?_, fun n hin => ?_⟩
    · obtain ⟨hne, hmem⟩ := h.nodup.mem_erase_iff.mp hin
      exact hne (by rw [(harmed.1 t).mp hmem])
    · obtain ⟨hne, hmem⟩ := Finset.mem_erase.mp hin
      exact hne (by rw [(harmed.2 n).mp hmem])
  refine ⟨⟨fun p' => ?_, ?_, h.nodup.erase _, ?_, h.created, h.unique⟩, hunset⟩
  · by_cases hp : p' = p
    · subst hp
      exact .expired timer hheap List.mem_cons_self hunset
    · apply (h.phase p').other
      · rfl
      · rw [List.mem_cons]
        exact or_iff_right hp
      · intro t
        rw [h.nodup.mem_erase_iff]
        simp [hp]
      · intro n
        rw [Finset.mem_erase]
        simp [hp]
  · rw [List.length_erase_of_mem ((harmed.1 _).mpr rfl),
      Finset.card_erase_of_mem ((harmed.2 _).mpr rfl), h.size]
  · refine List.nodup_cons.mpr ⟨fun hin => ?_, h.batch_nodup⟩
    cases h.phase p with
    | absent h₁ => cases hheap.symm.trans h₁
    | armed _ _ h₂ => exact h₂ hin
    | expired _ _ _ h₃ => exact h₃.1 _ ((harmed.1 _).mpr rfl)

/-! ## Calls -/

/-- The timers of `q'` are those of `q` or are newer. -/
structure Later (q q' : TimerQueue) : Prop where
  created : q.numCreated ≤ q'.numCreated
  heap : ∀ p timer, q'.heap p = some timer →
    q.heap p = some timer ∨ q.numCreated < timer.sequence
  calling : q'.callingExpiredTimers = q.callingExpiredTimers
  canceling : q.cancelingTimers ⊆ q'.cancelingTimers

theorem Later.refl (q : TimerQueue) : Later q q :=
  ⟨Nat.le_refl _, fun _ _ h => Or.inl h, rfl, Finset.Subset.refl _⟩

theorem Later.trans {q₁ q₂ q₃ : TimerQueue} (h : Later q₁ q₂) (h' : Later q₂ q₃) :
    Later q₁ q₃ := by
  refine ⟨h.created.trans h'.created, fun p timer h₃ => ?_, h'.calling.trans h.calling,
    h.canceling.trans h'.canceling⟩
  rcases h'.heap p timer h₃ with h₂ | hnew
  · exact h.heap p timer h₂
  · exact Or.inr (Nat.lt_of_le_of_lt h.created hnew)

/-- A call that ends well: no assert failed, the invariant holds, and what was
    being run is still there. -/
def CallOk (q : TimerQueue) (batch : List TimerPtr) (r : Except TimerFailed TimerQueue) : Prop :=
  ∃ q', r = .ok q' ∧ q'.Inv batch ∧ Later q q' ∧ q'.fired = q.fired ∧
    ∀ p ∈ batch, q'.heap p = q.heap p

theorem Inv.addTimer (h : q.Inv batch) (p : TimerPtr) (expiration interval : Nat)
    (repeats : Bool) : CallOk q batch (q.addTimer p expiration interval repeats) := by
  unfold TimerQueue.addTimer
  cases hheap : q.heap p with
  | some timer => exact ⟨q, rfl, h, .refl q, rfl, fun _ _ => rfl⟩
  | none =>
      dsimp only
      have hfree : p ∉ batch ∧ q.Unset p := by
        cases h.phase p with
        | absent _ h₂ h₃ => exact ⟨h₂, h₃⟩
        | armed _ h₁ => cases hheap.symm.trans h₁
        | expired _ h₁ => cases hheap.symm.trans h₁
      obtain ⟨q', hok, hinv, hframe, hheap', hcreated, hcanceling⟩ := @Inv.arm q batch p
        { expiration := expiration, interval := interval, repeats := repeats,
          sequence := q.numCreated + 1 } h hfree.2 (q.numCreated + 1) (Nat.le_succ _)
        (Nat.le_refl _) (fun p' timer' _ hp' => by
          have hle := h.created p' timer' hp'
          show timer'.sequence ≠ q.numCreated + 1
          omega)
      rw [List.erase_of_not_mem hfree.1] at hinv
      refine ⟨q', hok, hinv, ⟨hframe.created, fun p' timer' hp' => ?_, hframe.calling,
        hcanceling.symm.subset⟩, hframe.fired, fun p' hin => ?_⟩
      · rw [hheap'] at hp'
        rcases heap_set hp' with ⟨-, rfl⟩ | ⟨-, hold⟩
        · exact Or.inr (Nat.lt_succ_self _)
        · exact Or.inl hold
      · have hp : p' ≠ p := by
          rintro rfl
          exact hfree.1 hin
        rw [hheap', Function.update_of_ne hp]

/-- An active id is the timer at its address. -/
theorem Inv.active (h : q.Inv batch) {id : ActiveTimer} (hin : id ∈ q.activeTimers) :
    ∃ timer, q.heap id.1 = some timer ∧ id.1 ∉ batch ∧ q.Armed id.1 timer ∧
      id.2 = timer.sequence := by
  cases h.phase id.1 with
  | absent _ _ h₃ => exact absurd hin (h₃.2 id.2)
  | armed timer h₁ h₂ h₃ => exact ⟨timer, h₁, h₂, h₃, (h₃.2 id.2).mp hin⟩
  | expired _ _ _ h₃ => exact absurd hin (h₃.2 id.2)

/-- `cancel` of an active id takes the timer out of both sets and deletes it. -/
theorem Inv.cancelActive (h : q.Inv batch) {id : ActiveTimer} (hin : id ∈ q.activeTimers)
    {timer : Timer} (hheap : q.heap id.1 = some timer) :
    q.cancelInLoop id = .ok { q with
      heap := Function.update q.heap id.1 none
      timers := q.timers.erase (timer.expiration, id.1)
      activeTimers := q.activeTimers.erase id } ∧
    { q with
      heap := Function.update q.heap id.1 none
      timers := q.timers.erase (timer.expiration, id.1)
      activeTimers := q.activeTimers.erase id }.Inv batch := by
  obtain ⟨timer', hheap', hbatch, harmed, hseq⟩ := h.active hin
  obtain rfl := Option.some.inj (hheap.symm.trans hheap')
  obtain ⟨p, n⟩ := id
  change n = timer.sequence at hseq
  subst hseq
  obtain ⟨hdisarm, hunset⟩ := h.disarm hheap harmed
  have hinv := hdisarm.delete hunset
  rw [List.erase_cons_head] at hinv
  refine ⟨?_, hinv⟩
  unfold TimerQueue.cancelInLoop
  rw [h.checked]
  dsimp only
  rw [if_pos hin, hheap]
  dsimp only
  rw [if_pos ((harmed.1 _).mpr rfl)]
  exact hinv.checked

theorem Inv.cancelInLoop (h : q.Inv batch) (id : ActiveTimer) :
    CallOk q batch (q.cancelInLoop id) := by
  by_cases hin : id ∈ q.activeTimers
  · obtain ⟨timer, hheap, hbatch, -, -⟩ := h.active hin
    obtain ⟨hok, hinv⟩ := h.cancelActive hin hheap
    refine ⟨_, hok, hinv, ⟨Nat.le_refl _, fun p' timer' hp' => ?_, rfl, Finset.Subset.refl _⟩, rfl,
      fun p' hp' => ?_⟩
    · exact Or.inl (heap_delete hp')
    · have hne : p' ≠ id.1 := by
        rintro rfl
        exact hbatch hp'
      exact Function.update_of_ne hne _ _
  · have hinsert : { q with cancelingTimers := Insert.insert id q.cancelingTimers }.Inv batch :=
      h.same rfl rfl rfl rfl
    unfold TimerQueue.cancelInLoop
    rw [h.checked]
    dsimp only
    rw [if_neg hin]
    split_ifs
    · rw [hinsert.checked]
      exact ⟨_, rfl, hinsert, ⟨Nat.le_refl _, fun _ _ hp' => Or.inl hp', rfl,
        Finset.subset_insert _ _⟩,
        rfl, fun _ _ => rfl⟩
    · exact ⟨q, h.checked, h, .refl q, rfl, fun _ _ => rfl⟩

theorem Inv.call (h : q.Inv batch) (cl : TimerCall) : CallOk q batch (q.call cl) := by
  cases cl with
  | add p expiration interval repeats => exact h.addTimer p expiration interval repeats
  | cancel id => exact h.cancelInLoop id

theorem Inv.calls (h : q.Inv batch) (cs : List TimerCall) : CallOk q batch (q.calls cs) := by
  induction cs generalizing q with
  | nil => exact ⟨q, rfl, h, .refl q, rfl, fun _ _ => rfl⟩
  | cons cl rest ih =>
      obtain ⟨q₁, hok, hinv, hlater, hfired, hkept⟩ := h.call cl
      obtain ⟨q₂, hok', hinv', hlater', hfired', hkept'⟩ := ih hinv
      refine ⟨q₂, ?_, hinv', hlater.trans hlater', hfired'.trans hfired,
        fun p hp => (hkept' p hp).trans (hkept p hp)⟩
      rw [TimerQueue.calls, hok]
      exact hok'

/-- A timer that is being run is canceled: `reset` will find it so. -/
theorem Inv.cancelRunning (h : q.Inv batch) (hin : p ∈ batch)
    (hcalling : q.callingExpiredTimers = true) {n : Nat} (hok : q.cancelInLoop (p, n) = .ok q') :
    (p, n) ∈ q'.cancelingTimers := by
  have hinactive : (p, n) ∉ q.activeTimers := by
    cases h.phase p with
    | absent _ hout => exact absurd hin hout
    | armed _ _ hout => exact absurd hin hout
    | expired _ _ _ hunset => exact hunset.2 n
  have hinsert : { q with cancelingTimers := Insert.insert (p, n) q.cancelingTimers }.Inv batch :=
    h.same rfl rfl rfl rfl
  unfold TimerQueue.cancelInLoop at hok
  rw [h.checked] at hok
  dsimp only at hok
  rw [if_neg hinactive, if_pos hcalling, hinsert.checked] at hok
  obtain rfl := Except.ok.inj hok
  exact Finset.mem_insert_self _ _

theorem Inv.calls_cancel (h : q.Inv batch) (hin : p ∈ batch)
    (hcalling : q.callingExpiredTimers = true) {n : Nat} {cs : List TimerCall}
    (hcancel : .cancel (p, n) ∈ cs) (hok : q.calls cs = .ok q') :
    (p, n) ∈ q'.cancelingTimers := by
  induction cs generalizing q with
  | nil => cases hcancel
  | cons cl rest ih =>
      obtain ⟨q₁, hok₁, hinv₁, hlater₁, -⟩ := h.call cl
      rw [TimerQueue.calls, hok₁] at hok
      change q₁.calls rest = .ok q' at hok
      rcases List.mem_cons.mp hcancel with rfl | hcancel
      · obtain ⟨q₂, hok₂, -, hlater₂, -⟩ := hinv₁.calls rest
        obtain rfl := Except.ok.inj (hok₂.symm.trans hok)
        exact hlater₂.canceling (h.cancelRunning hin hcalling hok₁)
      · exact ih hinv₁ (hlater₁.calling.trans hcalling) hcancel hok

end TimerQueue
end Muduo
end UdpSpeed
