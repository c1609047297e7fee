/-
  UdpSpeed.Server.FreshIds

  The ids a server issues: the numbers of a 32-bit counter without `0`, in a
  cycle of `2 ^ 32 - 1`.  Within one run an id comes back while its session may
  still be in the map; after a restart the new run starts somewhere on the same
  cycle.
-/

import UdpSpeed.Lib.FreshCounter
import UdpSpeed.Server.Routing

namespace UdpSpeed

open Kcp Control Muduo Std FreshCounter

namespace Server
namespace KcpServer

theorem newId_eq_next (counter : IUINT32) : newId counter = next counter := rfl

/-! ## The account of ids -/

/-- References count the CREATEs, and the `n`-th CREATE has the `n`-th id of the
    cycle.  No entry of the map is older than one cycle: its key has come round
    by then, and the entry has been overwritten. -/
structure IdInv (start : IUINT32) (s : KcpServer) : Prop where
  heap : HeapInv s
  nextRef : s.nextRef = s.hist.issued.length + 1
  counter : s.id = after start s.hist.issued.length
  issued : s.hist.issued = (List.range s.hist.issued.length).map (nth start)
  entry : ∀ (id : IUINT32) (ref : Nat), s.sessionMap[id]? = some ref →
    ∃ m : Nat, ref = m + 1 ∧ m < s.hist.issued.length ∧ id = nth start m ∧
      s.hist.issued.length < m + 2 ^ 32

theorem IdInv.create (start : IUINT32) : IdInv start (KcpServer.create start) := by
  refine ⟨.create start, rfl, rfl, rfl, ?_⟩
  intro id ref h
  simp [KcpServer.create] at h

/-- Anything but a CREATE issues nothing and puts nothing into the map. -/
theorem Effect.map_subset {s s' : KcpServer} {e : Event} (heff : Effect s e s')
    (hnew : ∀ msg remote now, e = .control msg remote now → readCmd msg ≠ cmdCreateSession) :
    s'.nextRef = s.nextRef ∧ s'.id = s.id ∧ s'.hist.issued = s.hist.issued ∧
      ∀ (id : IUINT32) (ref : SessRef), s'.sessionMap[id]? = some ref →
        s.sessionMap[id]? = some ref := by
  cases heff with
  | create hcmd => exact absurd hcmd (hnew _ _ _ rfl)
  | destroy hcmd =>
      obtain ⟨hmap, hnext, hhist, hid⟩ := handleDestroy_frame s (readId _)
      refine ⟨hnext, hid, by rw [hhist], ?_⟩
      intro id ref h
      rwa [hmap] at h
  | updateTimer ht =>
      refine ⟨ht.nextRef, ht.id, by rw [ht.hist], ?_⟩
      intro id ref h
      rwa [ht.sessionMap] at h
  | deadSessionTimer =>
      refine ⟨rfl, rfl, rfl, ?_⟩
      intro id ref h
      exact ((sessionMap_deadSessionTimer s _ id ref).mp h).1
  | _ => exact ⟨rfl, rfl, rfl, fun _ _ h => h⟩

/-- The id of the next CREATE. -/
theorem IdInv.newId_eq {start : IUINT32} {s : KcpServer} (h : IdInv start s) :
    (newId s.id).1 = nth start s.hist.issued.length := by
  rw [newId_eq_next, h.counter]
  rfl

theorem IdInv.handleCreate {start : IUINT32} {s : KcpServer} (h : IdInv start s)
    (remote : SockAddr) (now : Int) : IdInv start (s.handleCreate remote now) := by
  have hissued : (s.handleCreate remote now).hist.issued = s.hist.issued ++ [(newId s.id).1] := rfl
  have hlength : (s.handleCreate remote now).hist.issued.length = s.hist.issued.length + 1 := by
    rw [hissued, List.length_append, List.length_singleton]
  refine ⟨h.heap.handleCreate remote now, ?_, ?_, ?_, ?_⟩
  · rw [hlength, ← h.nextRef]
    rfl
  · rw [hlength]
    change (newId s.id).2 = (next (after start s.hist.issued.length)).2
    rw [newId_eq_next, h.counter]
  · rw [hlength, hissued, List.range_succ, List.map_append, ← h.issued, h.newId_eq]
    rfl
  · intro id ref hmap
    rw [sessionMap_handleCreate] at hmap
    rw [hlength]
    split_ifs at hmap with hid
    · -- the new entry
      refine ⟨s.hist.issued.length, ?_, by omega, ?_, by omega⟩
      · rw [← h.nextRef]
        exact (Option.some.inj hmap).symm
      · rw [← hid, h.newId_eq]
    · obtain ⟨m, href, hlt, hkey, hage⟩ := h.entry id ref hmap
      refine ⟨m, href, by omega, hkey, ?_⟩
      -- an entry a whole cycle old has the key that is being overwritten
      by_contra hold
      have hround : s.hist.issued.length = m + (2 ^ 32 - 1) := by omega
      apply hid
      rw [h.newId_eq, hround, nth_add_cycle (by decide), hkey]

theorem IdInv.step {start : IUINT32} {s s' : KcpServer} {e : Event} (h : IdInv start s)
    (hstep : s.step e = some s') : IdInv start s' := by
  obtain ⟨hen, hok⟩ := step_eq_some.mp hstep
  have heff := h.heap.handle_effect hen hok
  by_cases hcreate : ∃ msg remote now,
      e = .control msg remote now ∧ readCmd msg = cmdCreateSession
  · obtain ⟨msg, remote, now, rfl, hcmd⟩ := hcreate
    cases heff with
    | create _ => exact h.handleCreate remote now
    | destroy hdestroy => exact absurd (hcmd.symm.trans hdestroy) (by decide)
  · obtain ⟨hnext, hid, hissued, hmap⟩ := heff.map_subset
      (fun msg remote now he hcmd => hcreate ⟨msg, remote, now, he, hcmd⟩)
    refine ⟨h.heap.step hstep, ?_, ?_, ?_, ?_⟩
    · rw [hissued, hnext]
      exact h.nextRef
    · rw [hid, hissued]
      exact h.counter
    · rw [hissued]
      exact h.issued
    · intro id ref hin
      rw [hissued]
      exact h.entry id ref (hmap id ref hin)

/-! ## Fresh ids within a run -/

/-- The id of a CREATE is not `0` and not a key of the map. -/
def FreshCreate (s : KcpServer) : Event → Prop
  | .control msg _ _ => readCmd msg = cmdCreateSession →
      (newId s.id).1 ≠ 0 ∧ s.sessionMap[(newId s.id).1]? = none
  | _ => True

/-- At a CREATE, every session in the map was created by one of the last
    `2 ^ 32 - 2` CREATEs (its reference is the number of its own). -/
def YoungSessions (s : KcpServer) : Event → Prop
  | .control msg _ _ => readCmd msg = cmdCreateSession →
      ∀ (id : IUINT32) (ref : Nat), s.sessionMap[id]? = some ref →
        s.hist.issued.length < ref + (2 ^ 32 - 2)
  | _ => True

/-- Each key is the conv of its session's KCP object. -/
def KeyIsConv (s : KcpServer) : Prop :=
  ∀ (id : IUINT32) (ref : SessRef), s.sessionMap[id]? = some ref →
    ∃ sess : KcpServerSession, s.sessions[ref]? = some sess ∧ sess.conv = id

theorem IdInv.fresh_iff {start : IUINT32} {s : KcpServer} (h : IdInv start s) :
    s.sessionMap[(newId s.id).1]? = none ↔
      ∀ (id : IUINT32) (ref : Nat), s.sessionMap[id]? = some ref →
        s.hist.issued.length < ref + (2 ^ 32 - 2) := by
  constructor
  · intro hnone id ref hmap
    obtain ⟨m, href, hlt, hkey, hage⟩ := h.entry id ref hmap
    by_contra hold
    -- exactly one cycle old: its key comes up now
    have hround : s.hist.issued.length = m + (2 ^ 32 - 1) := by omega
    have hsame : (newId s.id).1 = id := by
      rw [h.newId_eq, hround, nth_add_cycle (by decide), hkey]
    rw [hsame, hmap] at hnone
    cases hnone
  · intro hyoung
    by_contra hsome
    obtain ⟨ref, hmap⟩ := Option.ne_none_iff_exists'.mp hsome
    obtain ⟨m, href, hlt, hkey, -⟩ := h.entry _ ref hmap
    have hnear := hyoung _ ref hmap
    have hnear' : s.hist.issued.length < m + 1 + (2 ^ 32 - 2) := href ▸ hnear
    rw [h.newId_eq] at hkey
    have hne : nth start m ≠ nth start s.hist.issued.length :=
      nth_ne (by decide) start hlt (by omega)
    exact hne hkey.symm

theorem IdInv.freshCreate_iff {start : IUINT32} {s : KcpServer} (h : IdInv start s) (e : Event) :
    FreshCreate s e ↔ YoungSessions s e := by
  cases e with
  | control msg remote now =>
      have hne : (newId s.id).1 ≠ 0 := next_ne_zero (by decide) s.id
      refine forall_congr' fun _ => ?_
      rw [← h.fresh_iff]
      exact ⟨fun hboth => hboth.2, fun hnone => ⟨hne, hnone⟩⟩
  | _ => exact Iff.rfl

/-- **Ids are fresh, and exactly when.**  Along any run from any start value,
    every CREATE gets an id that is not `0` and not in the map, and the keys are
    the convs of their sessions, if and only if at every CREATE each session in
    the map is one of the last `2 ^ 32 - 2` created. -/
theorem freshIds_iff (start : IUINT32) (es : List Event) :
    (EventSystem.EachEvent step FreshCreate (create start) es ∧
        EventSystem.Always step KeyIsConv (create start) es) ↔
      EventSystem.EachEvent step YoungSessions (create start) es := by
  have hfresh : EventSystem.EachEvent step FreshCreate (create start) es ↔
      EventSystem.EachEvent step YoungSessions (create start) es := by
    refine EventSystem.eachEvent_congr (I := IdInv start) ?_ ?_ (.create start) es
    · exact fun s e s' h hstep => h.step hstep
    · exact fun s e h => h.freshCreate_iff e
  have hkeys : EventSystem.Always step KeyIsConv (create start) es := by
    intro k s hrun
    have hinv : IdInv start s :=
      EventSystem.run_invariant (fun _ _ _ h hstep => h.step hstep) (.create start) hrun
    exact hinv.heap.stored
  rw [hfresh]
  exact ⟨fun h => h.1, fun h => ⟨h, hkeys⟩⟩

/-- A CREATE from some proxy. -/
def createCommand : Event := .control createMsg ⟨0x7f000001, 40000⟩ 0

theorem step_createCommand (s : KcpServer) :
    s.step createCommand = some (s.handleCreate ⟨0x7f000001, 40000⟩ 0) := by
  rw [step_eq_some]
  exact ⟨rfl, rfl⟩

/-- During one cycle of CREATEs the first session keeps its entry. -/
theorem run_createCommands {n : Nat} (hn : n ≤ 2 ^ 32 - 1) (start : IUINT32) :
    ∃ s, EventSystem.run step (create start) (List.replicate n createCommand) = some s ∧
      IdInv start s ∧ s.hist.issued.length = n ∧
      (1 ≤ n → s.sessionMap[nth start 0]? = some 1) := by
  induction n with
  | zero => exact ⟨create start, rfl, .create start, rfl, fun h => absurd h (by decide)⟩
  | succ n ih =>
      obtain ⟨s, hrun, hinv, hlength, hkeep⟩ := ih (by omega)
      refine ⟨s.handleCreate ⟨0x7f000001, 40000⟩ 0, ?_, hinv.handleCreate _ _, ?_, ?_⟩
      · rw [List.replicate_succ', EventSystem.run_append, hrun]
        simp only [Option.bind_some, EventSystem.run, step_createCommand]
      · change (s.hist.issued ++ [(newId s.id).1]).length = n + 1
        rw [List.length_append, hlength, List.length_singleton]
      · intro _
        rw [sessionMap_handleCreate, hinv.newId_eq, hlength]
        rcases Nat.eq_zero_or_pos n with rfl | hpos
        · rw [if_pos rfl, hinv.nextRef, hlength]
        · rw [if_neg (nth_ne (by decide) start hpos (by omega)).symm]
          exact hkeep hpos

/-- After a whole cycle of CREATEs the first id comes up again, with its session
    still in the map. -/
theorem freshIds_wrap :
    ∃ s, EventSystem.run step (create 1) (List.replicate (2 ^ 32 - 1) createCommand) = some s ∧
      s.sessionMap[(newId s.id).1]? = some 1 ∧ ¬ FreshCreate s createCommand := by
  obtain ⟨s, hrun, hinv, hlength, hkeep⟩ := run_createCommands le_rfl 1
  have hid : (newId s.id).1 = nth (1 : IUINT32) 0 := by
    rw [hinv.newId_eq, hlength, ← nth_add_cycle (by decide) (1 : IUINT32) 0, Nat.zero_add]
  have hmap : s.sessionMap[(newId s.id).1]? = some 1 := by
    rw [hid]
    exact hkeep (by decide)
  refine ⟨s, hrun, hmap, ?_⟩
  intro hfresh
  have hnone := (hfresh readCmd_createMsg).2
  rw [hmap] at hnone
  cases hnone

/-! ## After a restart -/

/-- `(uint32_t)time(NULL) + 24 * 3600`. -/
def startId (time : Nat) : IUINT32 := BitVec.ofNat 32 time + 24 * 3600

/-- No id of the first server is one of the second's, and a datagram with one is
    dropped there. -/
def IdsDiffer (s₁ s₂ : KcpServer) : Prop :=
  ∀ id ∈ s₁.hist.issued, id ∉ s₂.hist.issued ∧
    ∀ packet, ikcpGetconv packet = id → s₂.route packet = .dropped

theorem IdInv.mem_issued_iff {start : IUINT32} {s : KcpServer} (h : IdInv start s)
    (id : IUINT32) : id ∈ s.hist.issued ↔ ∃ n < s.hist.issued.length, nth start n = id := by
  have hmem : id ∈ s.hist.issued ↔
      id ∈ (List.range s.hist.issued.length).map (nth start) := by rw [← h.issued]
  rw [hmem, List.mem_map]
  simp only [List.mem_range]

/-- Only ids the server has issued reach a session. -/
theorem IdInv.route_dropped {start : IUINT32} {s : KcpServer} (h : IdInv start s)
    {packet : List Byte} (hzero : ikcpGetconv packet ≠ 0)
    (hnew : ikcpGetconv packet ∉ s.hist.issued) : s.route packet = .dropped := by
  apply route_none hzero
  by_contra hsome
  obtain ⟨ref, hmap⟩ := Option.ne_none_iff_exists'.mp hsome
  obtain ⟨m, -, hlt, hkey, -⟩ := h.entry _ ref hmap
  exact hnew ((h.mem_issued_iff _).mpr ⟨m, hlt, hkey.symm⟩)

theorem IdInv.idsDiffer_iff {start₁ start₂ : IUINT32} {s₁ s₂ : KcpServer} (h₁ : IdInv start₁ s₁)
    (h₂ : IdInv start₂ s₂) :
    IdsDiffer s₁ s₂ ↔ ∀ i < s₁.hist.issued.length, ∀ j < s₂.hist.issued.length,
      nth start₁ i ≠ nth start₂ j := by
  constructor
  · intro hdiffer i hi j hj heq
    have hin := (h₁.mem_issued_iff (nth start₁ i)).mpr ⟨i, hi, rfl⟩
    exact (hdiffer _ hin).1 ((h₂.mem_issued_iff _).mpr ⟨j, hj, heq.symm⟩)
  · intro hne id hin
    obtain ⟨i, hi, rfl⟩ := (h₁.mem_issued_iff id).mp hin
    have hnew : nth start₁ i ∉ s₂.hist.issued := by
      intro hin₂
      obtain ⟨j, hj, heq⟩ := (h₂.mem_issued_iff _).mp hin₂
      exact hne i hi j hj heq.symm
    refine ⟨hnew, ?_⟩
    intro packet hconv
    apply h₂.route_dropped
    · rw [hconv]
      exact next_ne_zero (by decide) (after start₁ i)
    · rw [hconv]
      exact hnew

theorem toNat_startId {time : Nat} (h : time + 86400 < 2 ^ 32) :
    (startId time).toNat = time + 86400 := by
  have hday : (24 * 3600 : IUINT32).toNat = 86400 := by decide
  rw [startId, BitVec.toNat_add, hday, BitVec.toNat_ofNat, Nat.mod_add_mod, Nat.mod_eq_of_lt h]

theorem place_startId {time : Nat} (h : time + 86400 < 2 ^ 32) :
    place (nth (startId time) 0) = time + 86399 := by
  have hnat := toNat_startId h
  have hne : startId time ≠ 0 := by
    intro h0
    have hzero : (startId time).toNat = 0 := by rw [h0]; rfl
    omega
  rw [nth_zero_of_ne hne, place, hnat]
  omega

/-- Until the clock reaches the end of 32 bits, two starts are as many ids apart
    as seconds. -/
theorem gap_startId {t₁ t₂ : Nat} (ht : t₁ < t₂) (h : t₂ + 86400 < 2 ^ 32) :
    gap (startId t₁) (startId t₂) = t₂ - t₁ := by
  rw [gap, place_startId h, place_startId (show t₁ + 86400 < 2 ^ 32 by omega)]
  have hsum : t₂ + 86399 + (2 ^ 32 - 1) - (t₁ + 86399) = t₂ - t₁ + (2 ^ 32 - 1) := by omega
  rw [hsum, Nat.add_mod_right, Nat.mod_eq_of_lt (by omega)]

/-- **Ids do not recur across a restart, and exactly when.**  For any run of a
    server started at `t₁` and any run of one started at `t₂`: unless one of
    them issued nothing, the first must not have got as far as the second's
    first id, nor the second all the way round to the first's.  Before the
    clock reaches the end of 32 bits the first bound is one session for each
    second between the starts. -/
theorem restart_ids_iff (t₁ t₂ : Nat) {es₁ es₂ : List Event} {s₁ s₂ : KcpServer}
    (h₁ : EventSystem.run step (create (startId t₁)) es₁ = some s₁)
    (h₂ : EventSystem.run step (create (startId t₂)) es₂ = some s₂) :
    (IdsDiffer s₁ s₂ ↔ s₁.hist.issued.length = 0 ∨ s₂.hist.issued.length = 0 ∨
      (s₁.hist.issued.length ≤ gap (startId t₁) (startId t₂) ∧
        s₂.hist.issued.length + gap (startId t₁) (startId t₂) ≤ 2 ^ 32 - 1)) ∧
      (t₁ < t₂ → t₂ + 86400 < 2 ^ 32 → gap (startId t₁) (startId t₂) = t₂ - t₁) := by
  have hinv₁ : IdInv (startId t₁) s₁ :=
    EventSystem.run_invariant (fun _ _ _ h hstep => h.step hstep) (.create _) h₁
  have hinv₂ : IdInv (startId t₂) s₂ :=
    EventSystem.run_invariant (fun _ _ _ h hstep => h.step hstep) (.create _) h₂
  refine ⟨?_, gap_startId⟩
  rw [hinv₁.idsDiffer_iff hinv₂]
  exact disjoint_iff (by decide) _ _ _ _

/-- Two sessions before the restart, one after it. -/
theorem restartRuns_state :
    ∃ s₁ s₂, EventSystem.run step (create (startId 1000)) [createCommand, createCommand] = some s₁ ∧
      EventSystem.run step (create (startId 1001)) [createCommand] = some s₂ ∧
      s₁.hist.issued = [87400, 87401] ∧ s₂.hist.issued = [87401] := by
  have hrun₁ : (EventSystem.run step (create (startId 1000)) [createCommand, createCommand]).map
      (fun s => s.hist.issued) = some [87400, 87401] := by
    decide +kernel
  have hrun₂ : (EventSystem.run step (create (startId 1001)) [createCommand]).map
      (fun s => s.hist.issued) = some [87401] := by
    decide +kernel
  obtain ⟨s₁, hs₁, hissued₁⟩ := Option.map_eq_some_iff.mp hrun₁
  obtain ⟨s₂, hs₂, hissued₂⟩ := Option.map_eq_some_iff.mp hrun₂
  exact ⟨s₁, s₂, hs₁, hs₂, hissued₁, hissued₂⟩

theorem restart_ids_iff_second :
    ∃ s₁ s₂, EventSystem.run step (create (startId 1000)) [createCommand, createCommand] = some s₁ ∧
      EventSystem.run step (create (startId 1001)) [createCommand] = some s₂ ∧
      (IdsDiffer s₁ s₂ ↔ 2 ≤ gap (startId 1000) (startId 1001) ∧
        1 + gap (startId 1000) (startId 1001) ≤ 2 ^ 32 - 1) := by
  obtain ⟨s₁, s₂, hs₁, hs₂, hissued₁, hissued₂⟩ := restartRuns_state
  have h := (restart_ids_iff 1000 1001 hs₁ hs₂).1
  rw [hissued₁, hissued₂] at h
  refine ⟨s₁, s₂, hs₁, hs₂, h.trans ?_⟩
  simp only [List.length_cons, List.length_nil, Nat.add_eq_zero_iff, one_ne_zero, and_false,
    false_or]

/-- The server is restarted after one second, and the first id it issues is the
    second one of before. -/
theorem restart_ids_recur :
    ∃ s₁ s₂, EventSystem.run step (create (startId 1000)) [createCommand, createCommand] = some s₁ ∧
      EventSystem.run step (create (startId 1001)) [createCommand] = some s₂ ∧
      (87401 : IUINT32) ∈ s₁.hist.issued ∧ (87401 : IUINT32) ∈ s₂.hist.issued ∧
      ¬ IdsDiffer s₁ s₂ := by
  obtain ⟨s₁, s₂, hs₁, hs₂, hissued₁, hissued₂⟩ := restartRuns_state
  have hin₁ : (87401 : IUINT32) ∈ s₁.hist.issued := by
    rw [hissued₁]
    decide
  have hin₂ : (87401 : IUINT32) ∈ s₂.hist.issued := by
    rw [hissued₂]
    decide
  exact ⟨s₁, s₂, hs₁, hs₂, hin₁, hin₂, fun hdiffer => (hdiffer _ hin₁).1 hin₂⟩

end KcpServer
end Server
end UdpSpeed
