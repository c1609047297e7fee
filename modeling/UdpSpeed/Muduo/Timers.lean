/-
  UdpSpeed.Muduo.Timers

  Whole runs of a `TimerQueue`: which timers a round runs, how far apart the runs
  of one timer are, and what `cancel` promises.
-/

import UdpSpeed.Muduo.TimerQueue

namespace UdpSpeed
namespace Muduo

open EventSystem

namespace TimerQueue

variable {q q' : TimerQueue} {batch : List TimerPtr} {p : TimerPtr} {timer : Timer}

/-! ## A round -/

/-- The loop of `getExpired` finds each of its timers active. -/
theorem eraseActive_spec {l : List Entry} (hnodup : (l.map Prod.snd).Nodup)
    (hactive : ∀ it ∈ l, ∃ timer, q.heap it.2 = some timer ∧
      (it.2, timer.sequence) ∈ q.activeTimers) :
    ∃ active, q.eraseActive l = .ok { q with activeTimers := active } ∧
      active.card + l.length = q.activeTimers.card ∧
      ∀ p n, (p, n) ∈ active ↔ (p, n) ∈ q.activeTimers ∧
        ¬ (p ∈ l.map Prod.snd ∧ ∃ timer, q.heap p = some timer ∧ n = timer.sequence) := by
  induction l generalizing q with
  | nil => exact ⟨q.activeTimers, rfl, rfl, fun p n => by simp⟩
  | cons it rest ih =>
      obtain ⟨timer, hheap, hin⟩ := hactive it List.mem_cons_self
      rw [List.map_cons, List.nodup_cons] at hnodup
      obtain ⟨hnew, hrest⟩ := hnodup
      obtain ⟨active, hok, hcard, hmem⟩ := @ih
        { q with activeTimers := q.activeTimers.erase (it.2, timer.sequence) } hrest
        (fun it' hit' => by
          obtain ⟨timer', hheap', hin'⟩ := hactive it' (List.mem_cons_of_mem _ hit')
          refine ⟨timer', hheap', Finset.mem_erase.mpr ⟨fun heq => ?_, hin'⟩⟩
          exact hnew (List.mem_map.mpr ⟨it', hit', (Prod.mk.inj heq).1⟩))
      refine ⟨active, ?_, ?_, fun p n => ?_⟩
      · rw [eraseActive, hheap]
        dsimp only
        rw [if_pos hin]
        exact hok
      · have hpos := Finset.card_pos.mpr ⟨_, hin⟩
        change active.card + rest.length =
          (q.activeTimers.erase (it.2, timer.sequence)).card at hcard
        rw [Finset.card_erase_of_mem hin] at hcard
        rw [List.length_cons]
        omega
      · rw [hmem p n]
        show (p, n) ∈ q.activeTimers.erase (it.2, timer.sequence) ∧ _ ↔ _
        rw [Finset.mem_erase, List.map_cons, List.mem_cons]
        constructor
        · rintro ⟨⟨hne, hpn⟩, hout⟩
          refine ⟨hpn, ?_⟩
          rintro ⟨rfl | hp, timer', hheap', rfl⟩
          · obtain rfl := Option.some.inj (hheap.symm.trans hheap')
            exact hne rfl
          · exact hout ⟨hp, timer', hheap', rfl⟩
        · rintro ⟨hpn, hout⟩
          refine ⟨⟨fun heq => ?_, hpn⟩, fun hp => hout ⟨Or.inr hp.1, hp.2⟩⟩
          obtain ⟨rfl, rfl⟩ := Prod.mk.inj heq
          exact hout ⟨Or.inl rfl, timer, hheap, rfl⟩

/-- An entry is that of an armed timer. -/
theorem Inv.entry (h : q.Inv batch) {it : Entry} (hin : it ∈ q.timers) :
    ∃ timer, q.heap it.2 = some timer ∧ it.2 ∉ batch ∧ q.Armed it.2 timer ∧
      it.1 = timer.expiration := by
  cases h.phase it.2 with
  | absent _ _ h₃ => exact absurd hin (h₃.1 it.1)
  | armed timer h₁ h₂ h₃ => exact ⟨timer, h₁, h₂, h₃, (h₃.1 it.1).mp hin⟩
  | expired _ _ _ h₃ => exact absurd hin (h₃.1 it.1)

/-- **`getExpired` keeps its asserts** and takes out exactly the timers that are
    due. -/
theorem Inv.getExpired (h : q.Inv []) (now : Nat) :
    ∃ q', q.getExpired now = .ok q' ∧ q'.Inv ((q.expired now).map Prod.snd) ∧
      q'.heap = q.heap ∧ q'.fired = q.fired ∧ q'.numCreated = q.numCreated := by
  have hdue : ∀ it ∈ q.expired now, it ∈ q.timers ∧ it.1 ≤ now := by
    intro it hin
    obtain ⟨hmem, hle⟩ := List.mem_filter.mp hin
    exact ⟨hmem, of_decide_eq_true hle⟩
  have hnodup : ((q.expired now).map Prod.snd).Nodup := by
    apply List.Nodup.map_on _ (h.nodup.filter _)
    intro a ha b hb hab
    obtain ⟨timer, hheap, -, harmed, hexp⟩ := h.entry (hdue a ha).1
    have hb' := (hdue b hb).1
    have hbt : b.1 = timer.expiration := (harmed.1 b.1).mp (by rw [hab]; exact hb')
    exact Prod.ext (hexp.trans hbt.symm) hab
  obtain ⟨active, hok, hcard, hmem⟩ := @eraseActive_spec
    { q with timers := q.timers.filter (fun it => now < it.1) } _ hnodup (fun it hin => by
      obtain ⟨timer, hheap, -, harmed, -⟩ := h.entry (hdue it hin).1
      exact ⟨timer, hheap, (harmed.2 _).mpr rfl⟩)
  have hsplit : (q.timers.filter (fun it => now < it.1)).length + (q.expired now).length =
      q.timers.length := by
    have hcount := List.length_eq_countP_add_countP (fun it : Entry => decide (it.1 ≤ now))
      (l := q.timers)
    rw [List.countP_eq_length_filter, List.countP_eq_length_filter] at hcount
    have hnot : q.timers.filter (fun it => decide (¬ decide (it.1 ≤ now) = true)) =
        q.timers.filter (fun it => now < it.1) := by
      congr 1
      funext it
      simp
    rw [hnot] at hcount
    unfold TimerQueue.expired
    omega
  have hinv : { q with
      timers := q.timers.filter (fun it => now < it.1)
      activeTimers := active }.Inv ((q.expired now).map Prod.snd) := by
    refine ⟨fun p => ?_, ?_, h.nodup.filter _, hnodup, h.created, h.unique⟩
    · have hbatch : p ∈ (q.expired now).map Prod.snd ↔ ∃ t, (t, p) ∈ q.timers ∧ t ≤ now := by
        constructor
        · intro hin
          obtain ⟨it, hit, rfl⟩ := List.mem_map.mp hin
          exact ⟨it.1, (hdue it hit).1, (hdue it hit).2⟩
        · rintro ⟨t, ht, hle⟩
          exact List.mem_map.mpr ⟨(t, p), List.mem_filter.mpr ⟨ht, decide_eq_true hle⟩, rfl⟩
      cases h.phase p with
      | absent h₁ _ h₃ =>
          refine .absent h₁ (fun hin => ?_) ⟨fun t hin => ?_, fun n hin => ?_⟩
          · obtain ⟨t, ht, -⟩ := hbatch.mp hin
            exact h₃.1 t ht
          · exact h₃.1 t (List.mem_filter.mp hin).1
          · exact h₃.2 n ((hmem p n).mp hin).1
      | armed timer h₁ _ h₃ =>
          by_cases hexp : timer.expiration ≤ now
          · have hin : p ∈ (q.expired now).map Prod.snd :=
              hbatch.mpr ⟨_, (h₃.1 _).mpr rfl, hexp⟩
            refine .expired timer h₁ hin ⟨fun t ht => ?_, fun n hn => ?_⟩
            · obtain ⟨ht, hlt⟩ := List.mem_filter.mp ht
              have hlt' := of_decide_eq_true hlt
              rw [(h₃.1 t).mp ht] at hlt'
              exact absurd hexp (Nat.not_le.mpr hlt')
            · obtain ⟨hn, hout⟩ := (hmem p n).mp hn
              exact hout ⟨hin, timer, h₁, (h₃.2 n).mp hn⟩
          · have hout : p ∉ (q.expired now).map Prod.snd := by
              intro hin
              obtain ⟨t, ht, hle⟩ := hbatch.mp hin
              rw [(h₃.1 t).mp ht] at hle
              exact hexp hle
            refine .armed timer h₁ hout ⟨fun t => ?_, fun n => ?_⟩
            · rw [← h₃.1 t, List.mem_filter]
              refine ⟨fun hin => hin.1, fun hin => ⟨hin, decide_eq_true ?_⟩⟩
              rw [(h₃.1 t).mp hin]
              exact Nat.lt_of_not_le hexp
            · rw [← h₃.2 n, hmem p n]
              exact ⟨fun hin => hin.1, fun hin => ⟨hin, fun hp => hout hp.1⟩⟩
      | expired _ _ h₂ => cases h₂
    · show (q.timers.filter (fun it => now < it.1)).length = active.card
      change active.card + (q.expired now).length = q.activeTimers.card at hcard
      have hsize := h.size
      omega
  refine ⟨_, ?_, hinv, rfl, rfl, rfl⟩
  unfold TimerQueue.getExpired
  rw [h.checked]
  dsimp only
  rw [hok]
  exact hinv.checked

/-- What the timers of a batch leave in `fired`. -/
def ran (q : TimerQueue) (l : List Entry) : List Timer := l.filterMap (fun it => q.heap it.2)

theorem ran_cons {it : Entry} {l : List Entry} (hheap : q.heap it.2 = some timer) :
    q.ran (it :: l) = timer :: q.ran l :=
  List.filterMap_cons_some hheap

/-- The callbacks of a batch: each of its timers is run, whatever the callbacks call. -/
theorem Inv.runExpired (h : q.Inv batch) (now : Nat) {l : List Entry}
    (hl : ∀ it ∈ l, it.2 ∈ batch) (css : List (List TimerCall)) :
    ∃ q', q.runExpired now l css = .ok q' ∧ q'.Inv batch ∧ Later q q' ∧
      (∀ p ∈ batch, q'.heap p = q.heap p) ∧
      q'.fired = q.fired ++ (q.ran l).map (fun timer => (timer, now)) ∧
      (q.callingExpiredTimers = true → ∀ p ∈ batch, ∀ n,
        .cancel (p, n) ∈ (css.take l.length).flatten → (p, n) ∈ q'.cancelingTimers) := by
  induction l generalizing q css with
  | nil =>
      exact ⟨q, rfl, h, .refl q, fun _ _ => rfl, (List.append_nil _).symm,
        fun _ _ _ _ hcancel => absurd hcancel List.not_mem_nil⟩
  | cons it rest ih =>
      have hin := hl it List.mem_cons_self
      obtain ⟨timer, hheap⟩ : ∃ timer, q.heap it.2 = some timer := by
        cases h.phase it.2 with
        | absent _ hout => exact absurd hin hout
        | armed timer hheap => exact ⟨timer, hheap⟩
        | expired timer hheap => exact ⟨timer, hheap⟩
      have hrun : { q with fired := q.fired ++ [(timer, now)] }.Inv batch :=
        h.same rfl rfl rfl rfl
      obtain ⟨q₁, hok, hinv, hlater, hfired, hkept⟩ := hrun.calls (css.headD [])
      obtain ⟨q₂, hok', hinv', hlater', hkept', hfired', hcancel'⟩ :=
        ih hinv (fun it' hit' => hl it' (List.mem_cons_of_mem _ hit')) css.tail
      have hran : q₁.ran rest = q.ran rest := by
        apply List.filterMap_congr
        exact fun it' hit' => hkept it'.2 (hl it' (List.mem_cons_of_mem _ hit'))
      have hboth := hlater.trans hlater'
      refine ⟨q₂, ?_, hinv', ⟨hboth.created, hboth.heap, hboth.calling, hboth.canceling⟩,
        fun p hp => (hkept' p hp).trans (hkept p hp), ?_, fun hcalling p hp n hcancel => ?_⟩
      · rw [TimerQueue.runExpired, hheap]
        dsimp only
        rw [hok]
        exact hok'
      · rw [hfired', hfired, hran, ran_cons hheap, List.map_cons, List.append_assoc,
          List.singleton_append]
      · cases css with
        | nil => exact absurd hcancel List.not_mem_nil
        | cons cs css =>
            rw [List.length_cons, List.take_succ_cons, List.flatten_cons,
              List.mem_append] at hcancel
            rcases hcancel with hcancel | hcancel
            · exact hlater'.canceling (hrun.calls_cancel hp hcalling hcancel hok)
            · exact hcancel' (hlater.calling.trans hcalling) p hp n hcancel

/-- The timer at `p` is started again by `reset`. -/
def Restarts (q : TimerQueue) (p : TimerPtr) (timer : Timer) : Prop :=
  timer.repeats ∧ (p, timer.sequence) ∉ q.cancelingTimers

instance (q : TimerQueue) (p : TimerPtr) (timer : Timer) : Decidable (q.Restarts p timer) :=
  inferInstanceAs (Decidable (_ ∧ _))

/-- `restart`. -/
theorem Inv.restart (h : q.Inv batch) (hheap : q.heap p = some timer) (hunset : q.Unset p)
    (now : Nat) :
    ∃ q', { q with
        heap := Function.update q.heap p
          (some { timer with expiration := now + timer.interval }) }.insert p
          { timer with expiration := now + timer.interval } = .ok q' ∧
      q'.Inv (batch.erase p) ∧ Frame q q' ∧
      q'.heap = Function.update q.heap p
        (some { timer with expiration := now + timer.interval }) ∧
      q'.numCreated = q.numCreated ∧ q'.cancelingTimers = q.cancelingTimers :=
  h.arm hunset (Nat.le_refl _) (h.created p timer hheap)
    (fun p' timer' hne hp' hseq => hne (h.unique p' p timer' timer hp' hheap hseq))

/-- What `reset` leaves of the timer at `p`. -/
def afterReset (q : TimerQueue) (now : Nat) (p : TimerPtr) (timer : Timer) : Option Timer :=
  if q.Restarts p timer then some { timer with expiration := now + timer.interval } else none

theorem afterReset_congr (h : q'.cancelingTimers = q.cancelingTimers) {now : Nat} :
    q'.afterReset now p timer = q.afterReset now p timer := by
  have hrestarts : q'.Restarts p timer ↔ q.Restarts p timer := by
    unfold Restarts
    rw [h]
  unfold afterReset
  exact if_congr hrestarts rfl rfl

/-- **`reset` keeps its asserts**; it starts again the timers that repeat and were
    not canceled, and deletes the others. -/
theorem Inv.reset (now : Nat) {l : List Entry} (h : q.Inv (l.map Prod.snd)) :
    ∃ q', q.reset now l = .ok q' ∧ q'.Inv [] ∧ q'.fired = q.fired ∧
      q'.numCreated = q.numCreated ∧ (∀ p, p ∉ l.map Prod.snd → q'.heap p = q.heap p) ∧
      ∀ p ∈ l.map Prod.snd, ∀ timer, q.heap p = some timer →
        q'.heap p = q.afterReset now p timer := by
  induction l generalizing q with
  | nil => exact ⟨q, rfl, h, rfl, rfl, fun _ _ => rfl, fun _ hp => absurd hp List.not_mem_nil⟩
  | cons it rest ih =>
      rw [List.map_cons] at h
      have hnew : it.2 ∉ rest.map Prod.snd := (List.nodup_cons.mp h.batch_nodup).1
      obtain ⟨timer, hheap, hunset⟩ : ∃ timer, q.heap it.2 = some timer ∧ q.Unset it.2 := by
        cases h.phase it.2 with
        | absent _ hout => exact absurd List.mem_cons_self hout
        | armed _ _ hout => exact absurd List.mem_cons_self hout
        | expired timer hheap _ hunset => exact ⟨timer, hheap, hunset⟩
      -- the state after the first timer of the batch, whichever branch it takes
      obtain ⟨q₁, hstep, hinv, hfired, hcreated, hheap₁, hcanceling⟩ :
          ∃ q₁ : TimerQueue, q.reset now (it :: rest) = q₁.reset now rest ∧
            q₁.Inv (rest.map Prod.snd) ∧ q₁.fired = q.fired ∧ q₁.numCreated = q.numCreated ∧
            q₁.heap = Function.update q.heap it.2 (q.afterReset now it.2 timer) ∧
            q₁.cancelingTimers = q.cancelingTimers := by
        unfold afterReset
        by_cases hrestart : q.Restarts it.2 timer
        · obtain ⟨q₁, hok, hinv, hframe, hheap₁, hcreated, hcanceling⟩ :=
            h.restart hheap hunset now
          rw [List.erase_cons_head] at hinv
          rw [if_pos hrestart]
          refine ⟨q₁, ?_, hinv, hframe.fired, hcreated, hheap₁, hcanceling⟩
          rw [TimerQueue.reset, hheap]
          dsimp only
          refine (if_pos hrestart).trans ?_
          rw [hok]
        · have hinv := h.delete hunset
          rw [List.erase_cons_head] at hinv
          rw [if_neg hrestart]
          refine ⟨_, ?_, hinv, rfl, rfl, rfl, rfl⟩
          rw [TimerQueue.reset, hheap]
          dsimp only
          exact if_neg hrestart
      obtain ⟨q', hok, hinv', hfired', hcreated', hkept, hleft⟩ := ih hinv
      refine ⟨q', hstep.trans hok, hinv', hfired'.trans hfired, hcreated'.trans hcreated,
        fun p hp => ?_, fun p hp timer' hheap' => ?_⟩
      · obtain ⟨hne, hp⟩ := not_or.mp (List.mem_cons.not.mp hp)
        rw [hkept p hp, hheap₁, Function.update_of_ne hne]
      · rcases List.mem_cons.mp hp with rfl | hp
        · obtain rfl := Option.some.inj (hheap.symm.trans hheap')
          rw [hkept _ hnew, hheap₁, Function.update_self]
        · have hne : p ≠ it.2 := fun heq => hnew (heq ▸ hp)
          rw [hleft p hp timer' (by rw [hheap₁, Function.update_of_ne hne, hheap']),
            afterReset_congr hcanceling]

/-- What a round at `now` leaves of a timer, if anything. -/
def Rounds (now : Nat) (timer timer' : Timer) : Prop :=
  if timer.expiration ≤ now then
    timer.repeats = true ∧ timer' = { timer with expiration := now + timer.interval }
  else timer' = timer

theorem Rounds.sequence {now : Nat} {timer' : Timer} (h : Rounds now timer timer') :
    timer'.sequence = timer.sequence := by
  unfold Rounds at h
  split_ifs at h
  · rw [h.2]
  · rw [h]

/-- The timers at the addresses of `expired` are those that are due. -/
theorem Inv.mem_expired (h : q.Inv batch) (hheap : q.heap p = some timer) (hout : p ∉ batch)
    (now : Nat) : p ∈ (q.expired now).map Prod.snd ↔ timer.expiration ≤ now := by
  have harmed : q.Armed p timer := by
    cases h.phase p with
    | absent h₁ => cases hheap.symm.trans h₁
    | armed timer' h₁ _ h₃ =>
        obtain rfl := Option.some.inj (hheap.symm.trans h₁)
        exact h₃
    | expired _ _ h₂ => exact absurd h₂ hout
  constructor
  · intro hin
    obtain ⟨it, hit, rfl⟩ := List.mem_map.mp hin
    obtain ⟨hmem, hle⟩ := List.mem_filter.mp hit
    rw [← (harmed.1 it.1).mp hmem]
    exact of_decide_eq_true hle
  · intro hle
    exact List.mem_map.mpr ⟨(timer.expiration, p),
      List.mem_filter.mpr ⟨(harmed.1 _).mpr rfl, decide_eq_true hle⟩, rfl⟩

/-- **A round**: no assert fails, the timers that are due are run, and of those
    only the ones that repeat are left. -/
theorem Inv.handleRead (h : q.Inv []) (now : Nat) (css : List (List TimerCall)) :
    ∃ q', q.handleRead now css = .ok q' ∧ q'.Inv [] ∧ q.numCreated ≤ q'.numCreated ∧
      q'.fired = q.fired ++ (q.ran (q.expired now)).map (fun timer => (timer, now)) ∧
      ∀ p timer', q'.heap p = some timer' →
        (∃ timer, q.heap p = some timer ∧ Rounds now timer timer' ∧
          (timer.expiration ≤ now →
            .cancel (p, timer.sequence) ∉ (css.take (q.expired now).length).flatten)) ∨
          q.numCreated < timer'.sequence := by
  obtain ⟨q₁, hok₁, hinv₁, hheap₁, hfired₁, hcreated₁⟩ := h.getExpired now
  have hcalling : { q₁ with callingExpiredTimers := true, cancelingTimers := ∅ }.Inv
      ((q.expired now).map Prod.snd) :=
    hinv₁.same rfl rfl rfl rfl
  obtain ⟨q₂, hok₂, hinv₂, hlater, hkept₂, hfired₂, hcancel₂⟩ :=
    hcalling.runExpired now (fun it hit => List.mem_map_of_mem hit) css
  have hdone : { q₂ with callingExpiredTimers := false }.Inv ((q.expired now).map Prod.snd) :=
    hinv₂.same rfl rfl rfl rfl
  obtain ⟨q₃, hok₃, hinv₃, hfired₃, hcreated₃, hkept₃, hleft₃⟩ := hdone.reset now
  have hcreated : q.numCreated ≤ q₂.numCreated := hcreated₁ ▸ hlater.created
  refine ⟨q₃, ?_, hinv₃, hcreated.trans_eq hcreated₃.symm, ?_, fun p timer' hp => ?_⟩
  · unfold TimerQueue.handleRead
    dsimp only
    rw [hok₁]
    dsimp only
    rw [hok₂]
    exact hok₃
  · refine hfired₃.trans (hfired₂.trans ?_)
    show q₁.fired ++ ((q.expired now).filterMap (fun it => q₁.heap it.2)).map _ = _
    rw [hfired₁, hheap₁]
    rfl
  · by_cases hin : p ∈ (q.expired now).map Prod.snd
    · -- a timer of the batch is still what it was when `reset` comes to it
      have hsame : q₂.heap p = q.heap p := (hkept₂ p hin).trans (congrFun hheap₁ p)
      obtain ⟨timer, hheap⟩ : ∃ timer, q.heap p = some timer := by
        obtain ⟨it, hit, rfl⟩ := List.mem_map.mp hin
        obtain ⟨timer, hheap, -⟩ := h.entry (List.mem_filter.mp hit).1
        exact ⟨timer, hheap⟩
      have hafter := (hleft₃ p hin timer (hsame.trans hheap)).symm.trans hp
      unfold afterReset at hafter
      split_ifs at hafter with hrestart
      · refine Or.inl ⟨timer, hheap, ?_, fun _ hcancel => ?_⟩
        · rw [Rounds, if_pos ((h.mem_expired hheap List.not_mem_nil now).mp hin)]
          exact ⟨hrestart.1, (Option.some.inj hafter).symm⟩
        · exact hrestart.2 (hcancel₂ rfl p hin timer.sequence hcancel)
    · have hp₂ : q₂.heap p = some timer' := (hkept₃ p hin).symm.trans hp
      rcases hlater.heap p timer' hp₂ with hold | hnew
      · have hheap : q.heap p = some timer' := (congrFun hheap₁ p).symm.trans hold
        have hwaits := (h.mem_expired hheap List.not_mem_nil now).not.mp hin
        refine Or.inl ⟨timer', hheap, ?_, fun hexp => absurd hexp hwaits⟩
        rw [Rounds, if_neg hwaits]
      · exact Or.inr (hcreated₁ ▸ hnew)

/-! ## Runs -/

/-- A state some run leads to. -/
def Reachable (q : TimerQueue) : Prop := EventSystem.Reachable step (fun q₀ => q₀ = create) q

theorem step_eq_some {e : TimerEvent} : q.step e = some q' ↔ q.handle e = .ok q' := by
  unfold step
  cases q.handle e with
  | error => simp [Except.toOption]
  | ok => simp [Except.toOption]

/-- What an event does to the timers and to what has been run. -/
inductive Happens (q q' : TimerQueue) : Prop
  | call (hlater : Later q q') (hfired : q'.fired = q.fired)
  | round (now : Nat) (hcreated : q.numCreated ≤ q'.numCreated)
      (hfired : q'.fired = q.fired ++ (q.ran (q.expired now)).map (fun timer => (timer, now)))
      (hheap : ∀ p timer', q'.heap p = some timer' →
        (∃ timer, q.heap p = some timer ∧ Rounds now timer timer') ∨
          q.numCreated < timer'.sequence)

theorem Inv.handle (h : q.Inv []) (e : TimerEvent) :
    ∃ q', q.handle e = .ok q' ∧ q'.Inv [] ∧ Happens q q' := by
  cases e with
  | call cl =>
      obtain ⟨q', hok, hinv, hlater, hfired, -⟩ := h.call cl
      exact ⟨q', hok, hinv, .call hlater hfired⟩
  | handleRead now css =>
      obtain ⟨q', hok, hinv, hcreated, hfired, hheap⟩ := h.handleRead now css
      refine ⟨q', hok, hinv, .round now hcreated hfired fun p timer' hp => ?_⟩
      exact (hheap p timer' hp).imp_left fun ⟨timer, htimer, hround, _⟩ => ⟨timer, htimer, hround⟩

theorem Inv.step (h : q.Inv []) {e : TimerEvent} (hs : q.step e = some q') :
    q'.Inv [] ∧ Happens q q' := by
  obtain ⟨q₁, hok, hinv, hhappens⟩ := h.handle e
  obtain rfl := Except.ok.inj (hok.symm.trans (step_eq_some.mp hs))
  exact ⟨hinv, hhappens⟩

theorem Reachable.inv (h : q.Reachable) : q.Inv [] := by
  refine EventSystem.Reachable.invariant (I := fun q => q.Inv []) ?_ ?_ h
  · rintro q₀ rfl
    exact inv_create
  · exact fun q₀ e q₁ hinv hs => (hinv.step hs).1

/-- The timers a round runs are those that are due, each once. -/
theorem Inv.mem_ran (h : q.Inv []) (now : Nat) :
    timer ∈ q.ran (q.expired now) ↔ ∃ p, q.heap p = some timer ∧ timer.expiration ≤ now := by
  constructor
  · intro hin
    obtain ⟨it, hit, hheap⟩ := List.mem_filterMap.mp hin
    have hexp := (h.mem_expired hheap List.not_mem_nil now).mp (List.mem_map_of_mem hit)
    exact ⟨it.2, hheap, hexp⟩
  · rintro ⟨p, hheap, hexp⟩
    obtain ⟨it, hit, rfl⟩ :=
      List.mem_map.mp ((h.mem_expired hheap List.not_mem_nil now).mpr hexp)
    exact List.mem_filterMap.mpr ⟨it, hit, hheap⟩

theorem Inv.nodup_ran (h : q.Inv []) (now : Nat) : (q.ran (q.expired now)).Nodup := by
  obtain ⟨q', -, hinv, -⟩ := h.getExpired now
  have hmap : q.ran (q.expired now) = ((q.expired now).map Prod.snd).filterMap q.heap := by
    rw [List.filterMap_map]
    rfl
  rw [hmap]
  apply hinv.batch_nodup.filterMap
  intro p p' timer hp hp'
  exact h.unique p p' timer timer hp hp' rfl

/-- No two timers of a round have one sequence number. -/
theorem Inv.ran_sequence (h : q.Inv []) {now : Nat} {timer' : Timer}
    (hin : timer ∈ q.ran (q.expired now)) (hin' : timer' ∈ q.ran (q.expired now))
    (hseq : timer.sequence = timer'.sequence) : timer = timer' := by
  obtain ⟨p, hheap, -⟩ := (h.mem_ran now).mp hin
  obtain ⟨p', hheap', -⟩ := (h.mem_ran now).mp hin'
  obtain rfl := h.unique p p' timer timer' hheap hheap' hseq
  exact Option.some.inj (hheap.symm.trans hheap')

/-- **A round runs the timers that are due**, each once and no other, whatever is
    added and canceled in the callbacks; no assert of the queue fails. -/
theorem due_timers_run (h : q.Reachable) :
    (∀ cl, ∃ q', q.handle (.call cl) = .ok q' ∧ q'.fired = q.fired) ∧
      ∀ now css, ∃ (q' : TimerQueue) (ran : List Timer), q.handle (.handleRead now css) = .ok q' ∧
        q'.fired = q.fired ++ ran.map (fun timer => (timer, now)) ∧ ran.Nodup ∧
        ∀ timer, timer ∈ ran ↔ ∃ p, q.heap p = some timer ∧ timer.expiration ≤ now := by
  refine ⟨fun cl => ?_, fun now css => ?_⟩
  · obtain ⟨q', hok, -, -, hfired, -⟩ := h.inv.call cl
    exact ⟨q', hok, hfired⟩
  · obtain ⟨q', hok, -, -, hfired, -⟩ := h.inv.handleRead now css
    exact ⟨q', q.ran (q.expired now), hok, hfired, h.inv.nodup_ran now,
      fun timer => h.inv.mem_ran now⟩

/-- One run of a timer and a later one. -/
def Apart (x y : Timer × Nat) : Prop :=
  x.1.sequence = y.1.sequence → x.1.repeats = true ∧ x.2 + x.1.interval ≤ y.2

/-- What the runs so far say of the timers that are left. -/
structure Spaced (q : TimerQueue) : Prop where
  apart : q.fired.Pairwise Apart
  created : ∀ x ∈ q.fired, x.1.sequence ≤ q.numCreated
  next : ∀ x ∈ q.fired, ∀ p timer, q.heap p = some timer → x.1.sequence = timer.sequence →
    x.1.repeats = true ∧ x.2 + x.1.interval ≤ timer.expiration

theorem Spaced.call (h : q.Spaced) (hlater : Later q q') (hfired : q'.fired = q.fired) :
    q'.Spaced where
  apart := hfired ▸ h.apart
  created := fun x hx => (h.created x (hfired ▸ hx)).trans hlater.created
  next := fun x hx p timer hheap hseq => by
    rw [hfired] at hx
    rcases hlater.heap p timer hheap with hold | hnew
    · exact h.next x hx p timer hold hseq
    · have hle := h.created x hx
      omega

theorem Spaced.round (hinv : q.Inv []) (h : q.Spaced) {now : Nat}
    (hcreated : q.numCreated ≤ q'.numCreated)
    (hfired : q'.fired = q.fired ++ (q.ran (q.expired now)).map (fun timer => (timer, now)))
    (hheap : ∀ p timer', q'.heap p = some timer' →
      (∃ timer, q.heap p = some timer ∧ Rounds now timer timer') ∨
        q.numCreated < timer'.sequence) : q'.Spaced := by
  -- a run of this round is of a timer on the heap that was due
  have hdue : ∀ x ∈ (q.ran (q.expired now)).map (fun timer => (timer, now)),
      x.1 ∈ q.ran (q.expired now) ∧ x.2 = now ∧ ∃ p, q.heap p = some x.1 ∧
        x.1.expiration ≤ now := by
    intro x hx
    obtain ⟨timer, hin, rfl⟩ := List.mem_map.mp hx
    exact ⟨hin, rfl, (hinv.mem_ran now).mp hin⟩
  have hold : ∀ x ∈ q'.fired, x.1.sequence ≤ q.numCreated := by
    intro x hx
    rw [hfired, List.mem_append] at hx
    rcases hx with hx | hx
    · exact h.created x hx
    · obtain ⟨-, -, p, hp, -⟩ := hdue x hx
      exact hinv.created p x.1 hp
  refine ⟨?_, fun x hx => (hold x hx).trans hcreated, fun x hx p timer' hp hseq => ?_⟩
  · rw [hfired, List.pairwise_append]
    refine ⟨h.apart, ?_, fun x hx y hy hseq => ?_⟩
    · rw [List.pairwise_map]
      apply (hinv.nodup_ran now).pairwise_of_forall_ne
      intro timer hin timer' hin' hne hseq
      exact absurd (hinv.ran_sequence hin hin' hseq) hne
    · obtain ⟨-, htime, p, hp, hexp⟩ := hdue y hy
      obtain ⟨hrepeats, hle⟩ := h.next x hx p y.1 hp hseq
      exact ⟨hrepeats, by omega⟩
  · rcases hheap p timer' hp with ⟨timer, htimer, hround⟩ | hnew
    · have hsame := hseq.trans hround.sequence
      rw [hfired, List.mem_append] at hx
      unfold Rounds at hround
      rcases hx with hx | hx
      · obtain ⟨hrepeats, hle⟩ := h.next x hx p timer htimer hsame
        refine ⟨hrepeats, ?_⟩
        split_ifs at hround with hexp
        · rw [hround.2]
          show x.2 + x.1.interval ≤ now + timer.interval
          omega
        · rw [hround]
          exact hle
      · obtain ⟨-, htime, p', hp', hexp⟩ := hdue x hx
        obtain rfl := hinv.unique p' p x.1 timer hp' htimer hsame
        obtain rfl := Option.some.inj (hp'.symm.trans htimer)
        rw [if_pos hexp] at hround
        refine ⟨hround.1, ?_⟩
        rw [hround.2, htime]
    · have hle := hold x hx
      omega

theorem Reachable.spaced (h : q.Reachable) : q.Spaced := by
  refine (EventSystem.Reachable.invariant (I := fun q => q.Inv [] ∧ q.Spaced) ?_ ?_ h).2
  · rintro q₀ rfl
    exact ⟨inv_create, List.Pairwise.nil, fun _ hx => absurd hx List.not_mem_nil,
      fun _ hx => absurd hx List.not_mem_nil⟩
  · rintro q₀ e q₁ ⟨hinv, hspaced⟩ hs
    obtain ⟨hinv', hhappens⟩ := hinv.step hs
    refine ⟨hinv', ?_⟩
    cases hhappens with
    | call hlater hfired => exact hspaced.call hlater hfired
    | round now hcreated hfired hheap => exact Spaced.round hinv hspaced hcreated hfired hheap

/-- **The runs of a timer are apart**: one that does not repeat is run once at the
    most, and from one run of a timer to any later one its interval passes. -/
theorem runs_apart (h : q.Reachable) :
    q.fired.Pairwise (fun x y => x.1.sequence = y.1.sequence →
      x.1.repeats = true ∧ x.2 + x.1.interval ≤ y.2) :=
  h.spaced.apart

/-- The timer of sequence number `n` has gone, and was not run since `done`. -/
structure Gone (n : Nat) (done : List (Timer × Nat)) (q : TimerQueue) : Prop where
  created : n ≤ q.numCreated
  heap : ∀ p timer, q.heap p = some timer → timer.sequence ≠ n
  fired : ∃ more, q.fired = done ++ more ∧ ∀ x ∈ more, x.1.sequence ≠ n

theorem Gone.step (hinv : q.Inv []) {n : Nat} {done : List (Timer × Nat)} (h : Gone n done q)
    (hhappens : Happens q q') : Gone n done q' := by
  cases hhappens with
  | call hlater hfired =>
      refine ⟨h.created.trans hlater.created, fun p timer hp => ?_, hfired ▸ h.fired⟩
      rcases hlater.heap p timer hp with hold | hnew
      · exact h.heap p timer hold
      · exact Nat.ne_of_gt (Nat.lt_of_le_of_lt h.created hnew)
  | round now hcreated hfired hheap =>
      refine ⟨h.created.trans hcreated, fun p timer' hp => ?_, ?_⟩
      · rcases hheap p timer' hp with ⟨timer, htimer, hround⟩ | hnew
        · rw [hround.sequence]
          exact h.heap p timer htimer
        · exact Nat.ne_of_gt (Nat.lt_of_le_of_lt h.created hnew)
      · obtain ⟨more, hmore, hnone⟩ := h.fired
        refine ⟨more ++ (q.ran (q.expired now)).map (fun timer => (timer, now)), ?_, fun x hx => ?_⟩
        · rw [hfired, hmore, List.append_assoc]
        · rcases List.mem_append.mp hx with hx | hx
          · exact hnone x hx
          · obtain ⟨timer, hin, rfl⟩ := List.mem_map.mp hx
            obtain ⟨p, hp, -⟩ := (hinv.mem_ran now).mp hin
            exact h.heap p timer hp

theorem Gone.run (hinv : q.Inv []) {n : Nat} {done : List (Timer × Nat)} (h : Gone n done q)
    {es : List TimerEvent} (hrun : EventSystem.run TimerQueue.step q es = some q') :
    Gone n done q' := by
  refine (run_invariant (I := fun q => q.Inv [] ∧ Gone n done q) ?_ ⟨hinv, h⟩ hrun).2
  rintro q₁ e q₂ ⟨hinv₁, hgone₁⟩ hs
  obtain ⟨hinv₂, hhappens⟩ := hinv₁.step hs
  exact ⟨hinv₂, hgone₁.step hinv₁ hhappens⟩

/-- **`cancel` is final**: in no run from there is the timer run again, also when
    its address is used for another. -/
theorem cancel_is_final (h : q.Reachable) {id : ActiveTimer} (hin : id ∈ q.activeTimers)
    {es : List TimerEvent} (hrun : run step q (.call (.cancel id) :: es) = some q') :
    ∃ more, q'.fired = q.fired ++ more ∧ ∀ x ∈ more, x.1.sequence ≠ id.2 := by
  obtain ⟨timer, hheap, -, -, hseq⟩ := h.inv.active hin
  obtain ⟨hok, hinv⟩ := h.inv.cancelActive hin hheap
  rw [run, Option.bind_eq_some_iff] at hrun
  obtain ⟨q₁, hs, hrest⟩ := hrun
  obtain rfl := Except.ok.inj (hok.symm.trans (step_eq_some.mp hs))
  have hgone : Gone id.2 q.fired { q with
      heap := Function.update q.heap id.1 none
      timers := q.timers.erase (timer.expiration, id.1)
      activeTimers := q.activeTimers.erase id } := by
    refine ⟨?_, fun p timer' hp heq => ?_, [], (List.append_nil _).symm,
      fun _ hx => absurd hx List.not_mem_nil⟩
    · rw [hseq]
      exact h.inv.created id.1 timer hheap
    · obtain rfl := h.inv.unique p id.1 timer' timer (heap_delete hp) hheap (heq.trans hseq)
      change Function.update q.heap id.1 none id.1 = some timer' at hp
      rw [Function.update_self] at hp
      cases hp
  exact (hgone.run hinv hrest).fired

/-- **`cancel` in a callback is final**: a timer that a callback of its own round
    cancels, its own callback or another, is run in no run from there. -/
theorem cancel_in_round_final (h : q.Reachable) (hheap : q.heap p = some timer) {now : Nat}
    (hexp : timer.expiration ≤ now) {css : List (List TimerCall)}
    (hcancel : .cancel (p, timer.sequence) ∈ (css.take (q.expired now).length).flatten)
    {q₁ : TimerQueue} (hs : q.step (.handleRead now css) = some q₁) {es : List TimerEvent}
    (hrun : run step q₁ es = some q') :
    ∃ more, q'.fired = q₁.fired ++ more ∧ ∀ x ∈ more, x.1.sequence ≠ timer.sequence := by
  obtain ⟨q₂, hok, hinv, hcreated, -, hleft⟩ := h.inv.handleRead now css
  obtain rfl := Except.ok.inj (hok.symm.trans (step_eq_some.mp hs))
  have hgone : Gone timer.sequence q₂.fired q₂ := by
    refine ⟨(h.inv.created p timer hheap).trans hcreated, fun p' timer' hp' heq => ?_, [],
      (List.append_nil _).symm, fun _ hx => absurd hx List.not_mem_nil⟩
    rcases hleft p' timer' hp' with ⟨timer₀, htimer₀, hround, hkept⟩ | hnew
    · have hseq : timer₀.sequence = timer.sequence := hround.sequence.symm.trans heq
      obtain rfl := h.inv.unique p' p timer₀ timer htimer₀ hheap hseq
      obtain rfl := Option.some.inj (htimer₀.symm.trans hheap)
      exact hkept hexp hcancel
    · have hle := h.inv.created p timer hheap
      omega
  exact (hgone.run hinv hrun).fired

/-! ## A run -/

/-- A timer that repeats and one that does not fall due together; the callback of
    the first cancels the second, too late, and adds a third. -/
def session : List TimerEvent :=
  [.call (.add 7 10 5 true),
    .call (.add 3 12 0 false),
    .handleRead 20 [[.cancel (3, 2), .add 9 24 0 false]],
    .handleRead 25 []]

/-- The queue after the first `k` events of the session. -/
def sessionAt (k : Nat) : TimerQueue := (run step create (session.take k)).getD create

theorem sessionAt_reachable {k : Nat} (h : (run step create (session.take k)).isSome) :
    (sessionAt k).Reachable := by
  refine ⟨create, session.take k, rfl, ?_⟩
  obtain ⟨q, hq⟩ := Option.isSome_iff_exists.mp h
  rw [sessionAt, hq]
  rfl

theorem due_timers_run_session :
    ∃ q', (sessionAt 2).handle (.handleRead 20 [[.cancel (3, 2), .add 9 24 0 false]]) = .ok q' ∧
      ∃ x ∈ q'.fired, x.1.sequence = 2 ∧ x.2 = 20 := by
  have hround := (due_timers_run (sessionAt_reachable (k := 2) (by decide +kernel))).2 20
    [[.cancel (3, 2), .add 9 24 0 false]]
  obtain ⟨q', ran, hok, hfired, -, hdue⟩ := hround
  have hin := (hdue { expiration := 12, interval := 0, repeats := false, sequence := 2 }).mpr
    ⟨3, by decide +kernel, by decide⟩
  refine ⟨q', hok, ({ expiration := 12, interval := 0, repeats := false, sequence := 2 }, 20), ?_,
    rfl, rfl⟩
  rw [hfired]
  exact List.mem_append_right _ (List.mem_map_of_mem hin)

theorem runs_apart_session :
    (sessionAt 4).fired.length = 4 ∧
      (sessionAt 4).fired.Pairwise (fun x y => x.1.sequence = y.1.sequence →
        x.1.repeats = true ∧ x.2 + x.1.interval ≤ y.2) :=
  ⟨by decide +kernel, runs_apart (sessionAt_reachable (by decide +kernel))⟩

/-- The address of the canceled timer is used again. -/
theorem cancel_is_final_session :
    ∃ q' more, run step (sessionAt 3)
        [.call (.cancel (7, 1)), .call (.add 7 30 0 false), .handleRead 40 []] = some q' ∧
      q'.fired = (sessionAt 3).fired ++ more ∧ ∀ x ∈ more, x.1.sequence ≠ 1 := by
  have hsome : (run step (sessionAt 3)
      [.call (.cancel (7, 1)), .call (.add 7 30 0 false), .handleRead 40 []]).isSome := by
    decide +kernel
  obtain ⟨q', hq'⟩ := Option.isSome_iff_exists.mp hsome
  have hactive : ((7, 1) : ActiveTimer) ∈ (sessionAt 3).activeTimers := by decide +kernel
  obtain ⟨more, hmore, hnone⟩ :=
    cancel_is_final (sessionAt_reachable (by decide +kernel)) hactive hq'
  exact ⟨q', more, hq', hmore, hnone⟩

/-- The first timer cancels itself in its own callback. -/
theorem cancel_in_round_final_session :
    ∃ q₁ q' more, (sessionAt 2).step (.handleRead 20 [[.cancel (7, 1)]]) = some q₁ ∧
      run step q₁ [.handleRead 40 []] = some q' ∧
      q'.fired = q₁.fired ++ more ∧ ∀ x ∈ more, x.1.sequence ≠ 1 := by
  have hsome : (((sessionAt 2).step (.handleRead 20 [[.cancel (7, 1)]])).bind
      (fun q₁ => run step q₁ [.handleRead 40 []])).isSome := by
    decide +kernel
  obtain ⟨q', hq'⟩ := Option.isSome_iff_exists.mp hsome
  obtain ⟨q₁, hs, hrun⟩ := Option.bind_eq_some_iff.mp hq'
  have hheap : (sessionAt 2).heap 7 =
      some { expiration := 10, interval := 5, repeats := true, sequence := 1 } := by
    decide +kernel
  obtain ⟨more, hmore, hnone⟩ := cancel_in_round_final (sessionAt_reachable (by decide +kernel))
    hheap (by decide) (by decide +kernel) hs hrun
  exact ⟨q₁, q', more, hs, hrun, hmore, hnone⟩

end TimerQueue
end Muduo
end UdpSpeed
