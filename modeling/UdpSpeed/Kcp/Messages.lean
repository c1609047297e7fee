/-
  UdpSpeed.Kcp.Messages

  Messages and fragments.  The fragments of a message joined are the message;
  `ikcp_peeksize` and `ikcp_recv` find the next message at the front of a queue
  that holds the fragments of the accepted messages in order, once all of it is
  there, and never a part of two.
-/

import UdpSpeed.Kcp.Transmit

namespace UdpSpeed
namespace Kcp

/-! ## Cutting and joining -/

/-- What the receiver of a fragment looks at. -/
def IKCPSEG.content (seg : IKCPSEG) : Byte × List Byte := (seg.frg, seg.data)

theorem fragment_length (cfg : IKCPCFG) (n : Nat) (buffer : List Byte) :
    (fragment cfg n buffer).length = n := by
  induction n generalizing buffer with
  | zero => rfl
  | succ n ih => rw [fragment, List.length_cons, ih]

/-- Joined, the fragments are the message again. -/
theorem segBytes_fragment (cfg : IKCPCFG) {n : Nat} {buffer : List Byte}
    (hlen : buffer.length ≤ n * cfg.mss) : segBytes (fragment cfg n buffer) = buffer := by
  induction n generalizing buffer with
  | zero =>
      rw [Nat.zero_mul, Nat.le_zero] at hlen
      rw [List.eq_nil_of_length_eq_zero hlen]
      rfl
  | succ n ih =>
      rw [Nat.succ_mul] at hlen
      have hrest := @ih (buffer.drop cfg.mss) (by rw [List.length_drop]; omega)
      rw [fragment, segBytes, List.flatMap_cons]
      change buffer.take cfg.mss ++ segBytes (fragment cfg n (buffer.drop cfg.mss)) = buffer
      rw [hrest, List.take_append_drop]

/-- The fragments of a session count down to `0`. -/
theorem headMessage_fragment {cfg : IKCPCFG} (hstream : cfg.stream = false) {n : Nat}
    (hn : n < 256) (buffer : List Byte) (rest : List IKCPSEG) :
    headMessage (fragment cfg (n + 1) buffer ++ rest) = fragment cfg (n + 1) buffer := by
  induction n generalizing buffer with
  | zero =>
      have hzero : (if cfg.stream then 0 else BitVec.ofNat 8 0) = (0 : Byte) := by
        rw [hstream]
        rfl
      rw [fragment, hzero]
      rfl
  | succ n ih =>
      have hfrg : (if cfg.stream then 0 else BitVec.ofNat 8 (n + 1)) ≠ (0 : Byte) := by
        rw [hstream, if_neg (by decide)]
        intro heq
        have hnat := congrArg BitVec.toNat heq
        rw [BitVec.toNat_ofNat] at hnat
        change (n + 1) % 2 ^ 8 = 0 at hnat
        omega
      rw [fragment, List.cons_append, headMessage, if_neg hfrg, ih (by omega)]

/-- The number of fragments is enough for the message, and not zero. -/
theorem fragmentCount_spec (conv : IUINT32) (len : Nat) :
    1 ≤ fragmentCount (tunnelCfg conv) len ∧
      len ≤ fragmentCount (tunnelCfg conv) len * (tunnelCfg conv).mss := by
  change 1 ≤ (if len ≤ 1376 then 1 else (len + 1376 - 1) / 1376) ∧
    len ≤ (if len ≤ 1376 then 1 else (len + 1376 - 1) / 1376) * 1376
  split_ifs <;> omega

/-- The fragments of a message. -/
def fragmentsOfMsg (conv : IUINT32) (msg : List Byte) : List IKCPSEG :=
  fragment (tunnelCfg conv) (fragmentCount (tunnelCfg conv) msg.length) msg

theorem fragmentsOf_cons (conv : IUINT32) (msg : List Byte) (rest : List (List Byte)) :
    fragmentsOf conv (msg :: rest) = fragmentsOfMsg conv msg ++ fragmentsOf conv rest :=
  List.flatMap_cons

theorem fragmentsOf_concat (conv : IUINT32) (accepted : List (List Byte)) (msg : List Byte) :
    fragmentsOf conv (accepted ++ [msg]) = fragmentsOf conv accepted ++ fragmentsOfMsg conv msg := by
  rw [fragmentsOf_append, fragmentsOf_cons]
  exact congrArg _ (List.append_nil _)

/-- A message that `ikcp_send` does not refuse. -/
def Sendable (msg : List Byte) : Prop := fragmentCount (tunnelCfg 0) msg.length < 128

theorem ikcpSend_ok_iff {kcp : IKCPCB} {conv : IUINT32} (hcfg : kcp.cfg = tunnelCfg conv)
    (msg : List Byte) : (ikcpSend kcp msg).1 = 0 ↔ Sendable msg := by
  have hs : kcp.cfg.stream = false := by
    rw [hcfg]
    rfl
  have hcount : fragmentCount kcp.cfg msg.length = fragmentCount (tunnelCfg 0) msg.length := by
    rw [hcfg]
    rfl
  have hwnd : ikcpWndRcv.toNat = 128 := rfl
  rw [ikcpSend_eq hs, hcount, Sendable, hwnd]
  split_ifs with hbig
  · exact iff_of_false (show ¬ (-2 : Int) = 0 by decide) (by omega)
  · exact iff_of_true rfl (by omega)

/-! ## The message at the front of a queue -/

/-- `ikcp_recv` and `ikcp_peeksize` look at the content only. -/
theorem headMessage_content {queue queue' : List IKCPSEG}
    (h : queue'.map IKCPSEG.content = queue.map IKCPSEG.content) :
    (headMessage queue').map IKCPSEG.content = (headMessage queue).map IKCPSEG.content := by
  induction queue generalizing queue' with
  | nil =>
      rw [List.map_nil, List.map_eq_nil_iff] at h
      rw [h]
  | cons seg rest ih =>
      cases queue' with
      | nil => cases h
      | cons seg' rest' =>
          rw [List.map_cons, List.map_cons, List.cons.injEq] at h
          have hfrg : seg'.frg = seg.frg := congrArg Prod.fst h.1
          rw [headMessage, headMessage, hfrg]
          split_ifs
          · rw [List.map_singleton, List.map_singleton, h.1]
          · rw [List.map_cons, List.map_cons, h.1, ih h.2]

theorem segBytes_content (segs : List IKCPSEG) :
    segBytes segs = (segs.map IKCPSEG.content).flatMap Prod.snd := by
  rw [segBytes, List.flatMap_map]
  rfl

/-- A message is announced if the count of its first fragment is in the queue. -/
theorem ikcpPeeksize_nonneg {kcp : IKCPCB} :
    0 ≤ ikcpPeeksize kcp ↔
      ∃ seg, kcp.rcvQueue.head? = some seg ∧ seg.frg.toNat < kcp.rcvQueue.length := by
  unfold ikcpPeeksize IKCPCB.nrcvQue
  cases kcp.rcvQueue with
  | nil => simp
  | cons seg rest =>
      simp only [List.head?_cons, Option.some.injEq, exists_eq_left', List.length_cons]
      split_ifs with hzero hfew
      · rw [hzero]
        exact iff_of_true (Int.natCast_nonneg _) (Nat.succ_pos _)
      · exact iff_of_false (by decide) (by omega)
      · exact iff_of_true (Int.natCast_nonneg _) (by omega)

/-- **The next message is found once all of it is there**, and it is the message
    that was sent. -/
theorem headMessage_next {conv : IUINT32} {msg : List Byte} (hsend : Sendable msg)
    {queue : List IKCPSEG} {rest : List IKCPSEG} (hne : queue ≠ [])
    (hq : queue.map IKCPSEG.content <+:
      (fragmentsOfMsg conv msg ++ rest).map IKCPSEG.content) :
    ((∃ seg, queue.head? = some seg ∧ seg.frg.toNat < queue.length) ↔
      (fragmentsOfMsg conv msg).length ≤ queue.length) ∧
    ((fragmentsOfMsg conv msg).length ≤ queue.length →
      (headMessage queue).length = (fragmentsOfMsg conv msg).length ∧
        segBytes (headMessage queue) = msg) := by
  obtain ⟨hpos, henough⟩ := fragmentCount_spec conv msg.length
  obtain ⟨n, hn⟩ := Nat.exists_eq_add_of_le' hpos
  have hlt : n < 127 := by
    have hcount : fragmentCount (tunnelCfg conv) msg.length < 128 := hsend
    omega
  have hlen : (fragmentsOfMsg conv msg).length = n + 1 := by
    rw [fragmentsOfMsg, fragment_length, hn]
  obtain ⟨seg, queue', rfl⟩ := List.exists_cons_of_ne_nil hne
  refine ⟨?_, ?_⟩
  · -- the first fragment says how many follow it
    have hfrg : seg.frg = BitVec.ofNat 8 n := by
      rw [fragmentsOfMsg, hn, fragment, List.cons_append, List.map_cons, List.map_cons,
        List.cons_prefix_cons] at hq
      exact congrArg Prod.fst hq.1
    have hnat : seg.frg.toNat = n := by
      rw [hfrg, BitVec.toNat_ofNat]
      omega
    simp only [List.head?_cons, Option.some.injEq, exists_eq_left', hnat, hlen]
    omega
  · intro hall
    obtain ⟨more, hmore⟩ := hq
    -- the queue begins with all the fragments of the message
    have hfront : ((seg :: queue').take (n + 1)).map IKCPSEG.content =
        (fragmentsOfMsg conv msg).map IKCPSEG.content := by
      have hleft : (((seg :: queue').map IKCPSEG.content) ++ more).take (n + 1) =
          ((seg :: queue').map IKCPSEG.content).take (n + 1) :=
        List.take_append_of_le_length (by rw [List.length_map]; omega)
      rw [List.map_take, ← hleft, hmore, ← List.map_take, List.take_append_of_le_length (by omega),
        List.take_of_length_le (by omega)]
    have hsplit : (seg :: queue').map IKCPSEG.content =
        (fragmentsOfMsg conv msg ++ (seg :: queue').drop (n + 1)).map IKCPSEG.content := by
      rw [List.map_append, ← hfront, ← List.map_append, List.take_append_drop]
    have hhead : (headMessage (seg :: queue')).map IKCPSEG.content =
        (fragmentsOfMsg conv msg).map IKCPSEG.content := by
      rw [headMessage_content hsplit, fragmentsOfMsg, hn,
        @headMessage_fragment (tunnelCfg conv) rfl n (by omega)]
    refine ⟨?_, ?_⟩
    · have hcount := congrArg List.length hhead
      rwa [List.length_map, List.length_map] at hcount
    · rw [segBytes_content, hhead, ← segBytes_content]
      exact segBytes_fragment _ henough

end Kcp
end UdpSpeed
