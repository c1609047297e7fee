/-
  UdpSpeed.Kcp.Filing

  The segments a KCP object has received as a table from sequence numbers to
  fragment numbers.  Filing a segment adds an entry if its number is new and
  less than 128 past the run of numbers from the read position; near the read
  position this is the same as putting the segment at the end of the table.
-/

import UdpSpeed.Kcp.Reassembly

namespace UdpSpeed
namespace Kcp

open SerialNumber

/-! ## Entries -/

/-- A number that is present has an entry. -/
theorem lookup_isSome_of_mem {segs : List IKCPSEG} {seg : IKCPSEG} (hin : seg ∈ segs) :
    ((segs.map IKCPSEG.key).lookup seg.sn).isSome := by
  rw [List.lookup_isSome_iff]
  exact ⟨seg.key, List.mem_map_of_mem hin, by simp [IKCPSEG.key]⟩

theorem lookup_eq_none_of_forall_ne {segs : List IKCPSEG} {sn : IUINT32}
    (h : ∀ seg ∈ segs, seg.sn ≠ sn) : (segs.map IKCPSEG.key).lookup sn = none := by
  rw [List.lookup_eq_none_iff]
  intro entry hin
  obtain ⟨seg, hseg, rfl⟩ := List.mem_map.mp hin
  simpa [IKCPSEG.key] using (h seg hseg).symm

/-- An entry for a number that is taken changes nothing. -/
theorem lookup_append_taken {segs : List (IUINT32 × Byte)} {sn k : IUINT32} {frg : Byte}
    (h : k = sn → (segs.lookup k).isSome) : (segs ++ [(sn, frg)]).lookup k = segs.lookup k := by
  rw [List.lookup_append]
  by_cases hk : k = sn
  · obtain ⟨x, hx⟩ := Option.isSome_iff_exists.mp (h hk)
    rw [hx]
    rfl
  · have hne : (k == sn) = false := beq_eq_false_iff_ne.mpr hk
    simp [List.lookup_cons, hne]

/-- The number of the `i`-th segment in the queue. -/
theorem RcvInv.lookup_queue {kcp : IKCPCB} (h : RcvInv kcp) {i : Nat}
    (hi : i < kcp.rcvQueue.length) :
    (kcp.held.lookup (kcp.readPos + BitVec.ofNat 32 i)).isSome := by
  rw [IKCPCB.readPos, ← h.shape.queue i _ (List.getElem?_eq_getElem hi)]
  exact lookup_isSome_of_mem (List.mem_append_left _ (List.getElem_mem hi))

/-- The number behind the queue is missing as long as the queue has room. -/
theorem RcvInv.lookup_next {kcp : IKCPCB} (h : RcvInv kcp) (hroom : kcp.rcvQueue.length < 128) :
    kcp.held.lookup (kcp.readPos + BitVec.ofNat 32 kcp.rcvQueue.length) = none := by
  refine lookup_eq_none_of_forall_ne ?_
  intro seg hin
  rw [IKCPCB.readPos, sub_add_cancel]
  rcases List.mem_append.mp hin with hq | hb
  · -- the queue holds the numbers before `rcv_nxt`
    obtain ⟨i, hi, rfl⟩ := List.getElem_of_mem hq
    rw [h.shape.queue i _ (List.getElem?_eq_getElem hi)]
    intro heq
    have hadd : kcp.rcvNxt - BitVec.ofNat 32 kcp.rcvQueue.length + BitVec.ofNat 32 i =
        kcp.rcvNxt - BitVec.ofNat 32 kcp.rcvQueue.length +
          BitVec.ofNat 32 kcp.rcvQueue.length := by rw [heq, sub_add_cancel]
    have hnat := congrArg BitVec.toNat (add_left_cancel hadd)
    rw [BitVec.toNat_ofNat, BitVec.toNat_ofNat, Nat.mod_eq_of_lt (by omega),
      Nat.mod_eq_of_lt (by omega)] at hnat
    omega
  · exact h.settled hroom seg hb

/-! ## Filing -/

/-- How many numbers from `pos` on are in the table, counting up to `fuel`. -/
def runLength (segs : List (IUINT32 × Byte)) : Nat → IUINT32 → Nat
  | 0, _ => 0
  | fuel + 1, pos => if (segs.lookup pos).isSome then runLength segs fuel (pos + 1) + 1 else 0

/-- File one segment: it is taken if its number is less than 128 past the run of
    numbers already there, and new. -/
def fileOne (pos : IUINT32) (segs : List (IUINT32 × Byte)) (seg : IUINT32 × Byte) :
    List (IUINT32 × Byte) :=
  if offset (pos + BitVec.ofNat 32 (runLength segs 128 pos)) seg.1 < 128 ∧
      segs.lookup seg.1 = none then
    segs ++ [seg]
  else segs

/-- File segments one after the other. -/
def fileAll (pos : IUINT32) (segs new : List (IUINT32 × Byte)) : List (IUINT32 × Byte) :=
  new.foldl (fileOne pos) segs

/-- Two tables with the same entries. -/
def SameTable (segs segs' : List (IUINT32 × Byte)) : Prop :=
  ∀ sn : IUINT32, segs'.lookup sn = segs.lookup sn

theorem SameTable.runLength {segs segs' : List (IUINT32 × Byte)} (h : SameTable segs segs')
    (fuel : Nat) (pos : IUINT32) : Kcp.runLength segs' fuel pos = Kcp.runLength segs fuel pos := by
  induction fuel generalizing pos with
  | zero => rfl
  | succ fuel ih => rw [Kcp.runLength, Kcp.runLength, h pos, ih]

theorem SameTable.completes_iff {segs segs' : List (IUINT32 × Byte)} (h : SameTable segs segs')
    (pos : IUINT32) : Completes pos segs' ↔ Completes pos segs :=
  completes_congr (fun _ _ => h _)

theorem SameTable.fileOne {segs segs' : List (IUINT32 × Byte)} (h : SameTable segs segs')
    (pos : IUINT32) (seg : IUINT32 × Byte) :
    SameTable (Kcp.fileOne pos segs seg) (Kcp.fileOne pos segs' seg) := by
  intro sn
  unfold Kcp.fileOne
  rw [h.runLength, h seg.1]
  split_ifs
  · rw [List.lookup_append, List.lookup_append, h sn]
  · exact h sn

theorem SameTable.fileAll {segs segs' : List (IUINT32 × Byte)} (h : SameTable segs segs')
    (pos : IUINT32) (new : List (IUINT32 × Byte)) :
    SameTable (Kcp.fileAll pos segs new) (Kcp.fileAll pos segs' new) := by
  induction new generalizing segs segs' with
  | nil => exact h
  | cons seg rest ih => exact ih (h.fileOne pos seg)

theorem add_ofNat_succ (pos : IUINT32) (i : Nat) :
    pos + BitVec.ofNat 32 (i + 1) = pos + 1 + BitVec.ofNat 32 i := by
  rw [add_assoc, Nat.add_comm i 1, BitVec.ofNat_add]
  rfl

/-- A run that is as long as the table allows. -/
theorem runLength_eq {segs : List (IUINT32 × Byte)} {n fuel : Nat} {pos : IUINT32}
    (hall : ∀ i < n, (segs.lookup (pos + BitVec.ofNat 32 i)).isSome) (hle : n ≤ fuel)
    (hend : n < fuel → segs.lookup (pos + BitVec.ofNat 32 n) = none) :
    runLength segs fuel pos = n := by
  induction n generalizing fuel pos with
  | zero =>
      cases fuel with
      | zero => rfl
      | succ fuel =>
          have hnone := hend (Nat.succ_pos fuel)
          rw [BitVec.add_zero] at hnone
          rw [runLength, hnone]
          rfl
  | succ n ih =>
      cases fuel with
      | zero => omega
      | succ fuel =>
          have hhead := hall 0 (Nat.succ_pos n)
          rw [BitVec.add_zero] at hhead
          rw [runLength, if_pos hhead, ih]
          · intro i hi
            rw [← add_ofNat_succ]
            exact hall (i + 1) (by omega)
          · omega
          · intro hlt
            rw [← add_ofNat_succ]
            exact hend (by omega)

/-- The numbers of a run are in the table. -/
theorem isSome_of_lt_runLength {segs : List (IUINT32 × Byte)} {i fuel : Nat} {pos : IUINT32}
    (hi : i < runLength segs fuel pos) : (segs.lookup (pos + BitVec.ofNat 32 i)).isSome := by
  induction fuel generalizing i pos with
  | zero => exact absurd hi (Nat.not_lt_zero i)
  | succ fuel ih =>
      unfold runLength at hi
      split_ifs at hi with hhead
      · cases i with
        | zero =>
            rw [BitVec.add_zero]
            exact hhead
        | succ i =>
            rw [add_ofNat_succ]
            exact ih (by omega)
      · exact absurd hi (Nat.not_lt_zero i)

theorem runLength_le (segs : List (IUINT32 × Byte)) (fuel : Nat) (pos : IUINT32) :
    runLength segs fuel pos ≤ fuel := by
  induction fuel generalizing pos with
  | zero => exact le_rfl
  | succ fuel ih =>
      unfold runLength
      split_ifs
      · exact Nat.succ_le_succ (ih (pos + 1))
      · exact Nat.zero_le _

/-- Near the read position, filing is appending: a segment is only dropped there
    if its number is taken. -/
theorem fileAll_lookup_near {pos : IUINT32} (segs new : List (IUINT32 × Byte)) {i : Nat}
    (hi : i < 128) :
    (fileAll pos segs new).lookup (pos + BitVec.ofNat 32 i) =
      (segs ++ new).lookup (pos + BitVec.ofNat 32 i) := by
  induction new generalizing segs with
  | nil =>
      rw [List.append_nil]
      rfl
  | cons seg rest ih =>
      have hone : (fileOne pos segs seg).lookup (pos + BitVec.ofNat 32 i) =
          (segs ++ [seg]).lookup (pos + BitVec.ofNat 32 i) := by
        unfold fileOne
        split_ifs with hadm
        · rfl
        · refine (lookup_append_taken ?_).symm
          intro heq
          by_contra hnone
          rw [Option.not_isSome_iff_eq_none] at hnone
          apply hadm
          rw [← heq]
          refine ⟨?_, hnone⟩
          -- a missing number is behind the run, and then less than 128 past its end
          have hrun := runLength_le segs 128 pos
          have hge : runLength segs 128 pos ≤ i := by
            by_contra hlt
            have hsome := isSome_of_lt_runLength (Nat.not_le.mp hlt)
            rw [hnone] at hsome
            cases hsome
          have hpast : pos + BitVec.ofNat 32 i = pos + BitVec.ofNat 32 (runLength segs 128 pos) +
              BitVec.ofNat 32 (i - runLength segs 128 pos) := by
            rw [add_assoc, ← BitVec.ofNat_add, Nat.add_sub_cancel' hge]
          rw [hpast, offset_add _ (by omega)]
          omega
      change (fileAll pos (fileOne pos segs seg) rest).lookup _ = _
      rw [ih, List.lookup_append, hone, ← List.lookup_append, List.append_assoc,
        List.singleton_append]

/-! ## The receive side files -/

/-- The run from the read position is the receive queue. -/
theorem RcvInv.runLength_held {kcp : IKCPCB} (h : RcvInv kcp) :
    runLength kcp.held 128 kcp.readPos = kcp.rcvQueue.length :=
  runLength_eq (fun _ hi => h.lookup_queue hi) h.shape.room h.lookup_next

theorem RcvInv.rcvNxt_eq {kcp : IKCPCB} (h : RcvInv kcp) :
    kcp.readPos + BitVec.ofNat 32 (runLength kcp.held 128 kcp.readPos) = kcp.rcvNxt := by
  rw [h.runLength_held, IKCPCB.readPos, sub_add_cancel]

/-- An entry put somewhere in the table counts like one put at its end, as long
    as its number is new. -/
theorem lookup_insert {before after : List IKCPSEG} {newseg : IKCPSEG}
    (hfresh : ∀ seg ∈ before ++ after, seg.sn ≠ newseg.sn) (sn : IUINT32) :
    ((before ++ newseg :: after).map IKCPSEG.key).lookup sn =
      ((before ++ after).map IKCPSEG.key ++ [newseg.key]).lookup sn := by
  simp only [List.map_append, List.map_cons, List.append_assoc, List.lookup_append]
  -- the new entry may come before those of larger numbers
  by_cases hk : sn = newseg.sn
  · have hnot : (after.map IKCPSEG.key).lookup newseg.sn = none :=
      lookup_eq_none_of_forall_ne (fun seg hin => hfresh seg (List.mem_append_right _ hin))
    rw [hk, hnot]
    simp [IKCPSEG.key]
  · have hne : (sn == newseg.sn) = false := beq_eq_false_iff_ne.mpr hk
    simp [List.lookup_cons, IKCPSEG.key, hne]

/-- The table after `ikcp_parse_data`. -/
theorem ikcpParseData_lookup {kcp : IKCPCB} (h : RcvInv kcp) (newseg : IKCPSEG) (sn : IUINT32) :
    (kcp.Admits newseg.sn → (ikcpParseData kcp newseg).held.lookup sn =
        (kcp.held ++ [newseg.key]).lookup sn) ∧
      (¬ kcp.Admits newseg.sn → (ikcpParseData kcp newseg).held.lookup sn =
        kcp.held.lookup sn) := by
  obtain ⟨-, -, ⟨hadm, before, after, hold, hnew⟩ | ⟨hnot, hsame⟩⟩ := ikcpParseData_spec h newseg
  · refine ⟨fun _ => ?_, fun hcontra => absurd hadm hcontra⟩
    have hfresh := hadm.fresh h
    rw [hold] at hfresh
    rw [IKCPCB.held, IKCPCB.held, hnew, hold, lookup_insert hfresh]
  · refine ⟨fun hcontra => absurd hcontra hnot, fun _ => ?_⟩
    rw [IKCPCB.held, IKCPCB.held, hsame]

theorem RcvInv.admits_iff {kcp : IKCPCB} (h : RcvInv kcp) (sn : IUINT32) :
    kcp.Admits sn ↔ offset kcp.rcvNxt sn < 128 ∧ kcp.held.lookup sn = none := by
  constructor
  · intro hadm
    exact ⟨hadm.1, lookup_eq_none_of_forall_ne (hadm.fresh h)⟩
  · rintro ⟨hnear, hnone⟩
    refine ⟨hnear, ?_⟩
    intro seg hin heq
    have hsome := lookup_isSome_of_mem (List.mem_append_right kcp.rcvQueue hin)
    rw [heq] at hsome
    change (kcp.held.lookup sn).isSome = true at hsome
    rw [hnone] at hsome
    cases hsome

/-- `kcp'` is `kcp` after exactly `new` has been filed. -/
structure FiledAs (kcp kcp' : IKCPCB) (new : List (IUINT32 × Byte)) : Prop where
  inv : RcvInv kcp'
  pos : kcp'.readPos = kcp.readPos
  table : SameTable (fileAll kcp.readPos kcp.held new) kcp'.held

theorem FiledAs.of_same {kcp kcp' : IKCPCB} (h : RcvInv kcp) (hsame : SameRcv kcp kcp') :
    FiledAs kcp kcp' [] := by
  obtain ⟨hcfg, hqueue, hbuf, hnxt⟩ := hsame
  refine ⟨h.congr ⟨hcfg, hqueue, hbuf, hnxt⟩, ?_, ?_⟩
  · rw [IKCPCB.readPos, IKCPCB.readPos, hqueue, hnxt]
  · intro sn
    rw [IKCPCB.held, hqueue, hbuf]
    rfl

theorem FiledAs.trans {kcp kcp₁ kcp₂ : IKCPCB} {new new' : List (IUINT32 × Byte)}
    (h : FiledAs kcp kcp₁ new) (h' : FiledAs kcp₁ kcp₂ new') :
    FiledAs kcp kcp₂ (new ++ new') := by
  refine ⟨h'.inv, h'.pos.trans h.pos, ?_⟩
  intro sn
  have htable := h.table.fileAll kcp.readPos new' sn
  rw [h'.table sn, h.pos, htable, fileAll, fileAll, fileAll, List.foldl_append]

/-- A segment outside the window changes nothing. -/
theorem RcvInv.filedAs_outside {kcp : IKCPCB} (h : RcvInv kcp) {sn : IUINT32}
    (hout : 128 ≤ offset kcp.rcvNxt sn) (frg : Byte) : FiledAs kcp kcp [(sn, frg)] := by
  refine ⟨h, rfl, ?_⟩
  intro k
  change kcp.held.lookup k = (fileOne kcp.readPos kcp.held (sn, frg)).lookup k
  rw [fileOne, h.rcvNxt_eq, if_neg]
  rintro ⟨hnear, -⟩
  exact absurd hnear (Nat.not_lt.mpr hout)

theorem ikcpParseData_filedAs {kcp : IKCPCB} (h : RcvInv kcp) (newseg : IKCPSEG) :
    FiledAs kcp (ikcpParseData kcp newseg) [newseg.key] := by
  obtain ⟨hinv, hpos, -⟩ := ikcpParseData_spec h newseg
  refine ⟨hinv, hpos, ?_⟩
  intro k
  obtain ⟨htaken, hdropped⟩ := ikcpParseData_lookup h newseg k
  change (ikcpParseData kcp newseg).held.lookup k =
    (fileOne kcp.readPos kcp.held (newseg.sn, newseg.frg)).lookup k
  have hiff := h.admits_iff newseg.sn
  rw [fileOne, h.rcvNxt_eq]
  by_cases hadm : kcp.Admits newseg.sn
  · rw [if_pos (hiff.mp hadm), htaken hadm]
    rfl
  · rw [if_neg (fun hc => hadm (hiff.mpr hc)), hdropped hadm]

/-- `kcp'` is `kcp` after `segs` were filed: the same read position, and in the
    window each number has the first segment that came with it. -/
structure Filed (kcp kcp' : IKCPCB) (segs : List (IUINT32 × Byte)) : Prop where
  inv : RcvInv kcp'
  pos : kcp'.readPos = kcp.readPos
  lookup : ∀ i < 128, kcp'.held.lookup (kcp.readPos + BitVec.ofNat 32 i) =
    (kcp.held ++ segs).lookup (kcp.readPos + BitVec.ofNat 32 i)

theorem FiledAs.filed {kcp kcp' : IKCPCB} {new : List (IUINT32 × Byte)} (h : FiledAs kcp kcp' new) :
    Filed kcp kcp' new := by
  refine ⟨h.inv, h.pos, ?_⟩
  intro i hi
  rw [h.table, fileAll_lookup_near _ _ hi]

/-- Filing decides whether the message at the read position is complete. -/
theorem Filed.completes_iff {kcp kcp' : IKCPCB} {segs : List (IUINT32 × Byte)}
    (h : Filed kcp kcp' segs) :
    Completes kcp'.readPos kcp'.held ↔ Completes kcp.readPos (kcp.held ++ segs) := by
  rw [h.pos]
  exact completes_congr h.lookup

end Kcp
end UdpSpeed
