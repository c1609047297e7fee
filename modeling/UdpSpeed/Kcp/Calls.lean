/-
  UdpSpeed.Kcp.Calls

  The KCP objects of a process, one for each conv.  A process shows its objects,
  the messages accepted and returned under each conv, and its datagrams; behind
  them stand endpoints that its handlers call.  What two processes do with the
  objects of a conv is then a run of one connection.
-/

import Mathlib.Logic.Relation
import UdpSpeed.Kcp.Delivery

namespace UdpSpeed
namespace Kcp

/-! ## Calls -/

/-- A call of the KCP interface on one object. -/
inductive Call where
  | send (msg : List Byte)
  | recv (len : Nat)
  | update (clock : IUINT32)
  | flush
  | input (datagram : List Byte)
deriving DecidableEq, Repr

namespace Endpoint

def call (e : Endpoint) : Call → Endpoint
  | .send msg => e.send msg
  | .recv len => e.recv len
  | .update clock => e.update clock
  | .flush => e.flush
  | .input datagram => e.input datagram

def calls (e : Endpoint) (cs : List Call) : Endpoint := cs.foldl call e

/-- What an endpoint of conv `id` keeps whatever is put into it: its account,
    and that its datagrams fit the MTU and carry its conv. -/
structure Sound (e : Endpoint) (id : IUINT32) : Prop where
  conv : e.kcp.conv = id
  account : SendInv e.kcp e.accepted e.output
  wire : ∀ datagram ∈ e.output, datagram.length ≤ 1400 ∧ ikcpGetconv datagram = id

theorem sound_create (id : IUINT32) : (create id).Sound id where
  conv := rfl
  account := sendInv_freshKcp id []
  wire := fun _ hin => absurd hin List.not_mem_nil

theorem flush_wire {kcp : IKCPCB} {accepted datagrams : List (List Byte)}
    (h : SendInv kcp accepted datagrams) (hupd : kcp.updated = true) {datagram : List Byte}
    (hin : datagram ∈ (ikcpFlush kcp).2) :
    datagram.length ≤ 1400 ∧ ikcpGetconv datagram = kcp.conv := by
  obtain ⟨hlen, group, hwire, hsegs⟩ := h.flush_contents hin
  refine ⟨hlen, ?_⟩
  obtain ⟨groups, hsent, -, hne⟩ := ikcpFlush_segments hupd
  rw [hsent] at hin
  obtain ⟨group', hgroup', hwire'⟩ := List.mem_map.mp hin
  cases group with
  | nil => exact absurd (hwire'.trans hwire) (wireAll_ne_nil (hne group' hgroup'))
  | cons seg rest =>
      rw [hwire, wireAll_cons, ikcpGetconv_encodeSeg]
      rcases hsegs seg (List.mem_cons_self ..) with hsignal | ⟨i, frag, -, hconv, -⟩
      · exact hsignal.1
      · exact hconv

variable {e : Endpoint} {id : IUINT32}

/-- A change of the object that puts out nothing. -/
theorem Sound.withKcp (h : e.Sound id) {kcp' : IKCPCB} (hcfg : kcp'.cfg = e.kcp.cfg)
    (haccount : SendInv kcp' e.accepted e.output) : { e with kcp := kcp' }.Sound id where
  conv := (congrArg IKCPCFG.conv hcfg).trans h.conv
  account := haccount
  wire := h.wire

theorem Sound.flush (h : e.Sound id) : e.flush.Sound id := by
  have hcfg := ikcpFlush_cfg e.kcp
  cases hupd : e.kcp.updated with
  | false =>
      have hsame : e.flush = e := by
        rw [Endpoint.flush, ikcpFlush, hupd]
        exact congrArg (fun out => { e with output := out }) (List.append_nil _)
      rw [hsame]
      exact h
  | true =>
      refine ⟨(congrArg IKCPCFG.conv hcfg).trans h.conv, h.account.ikcpFlush hupd, ?_⟩
      intro datagram hin
      rcases List.mem_append.mp hin with hold | hnew
      · exact h.wire datagram hold
      · rw [← h.conv]
        exact flush_wire h.account hupd hnew

theorem Sound.update (h : e.Sound id) (clock : IUINT32) : (e.update clock).Sound id := by
  rw [update_eq]
  split_ifs
  · exact h.withKcp rfl (h.account.start clock _)
  · apply Sound.flush
    exact h.withKcp rfl (h.account.start clock _)

theorem Sound.recv (h : e.Sound id) (len : Nat) : (e.recv len).Sound id := by
  by_cases hcan : 0 ≤ ikcpPeeksize e.kcp ∧ ikcpPeeksize e.kcp ≤ len
  · rw [recv_of_can hcan]
    have hframe := sndFrame_ikcpRecv hcan.1
    exact ⟨(congrArg IKCPCFG.conv hframe.cfg).trans h.conv, h.account.frame hframe, h.wire⟩
  · rw [recv_of_not hcan]
    exact h

theorem Sound.call (h : e.Sound id) (c : Call) : (e.call c).Sound id := by
  cases c with
  | send msg =>
      refine ⟨?_, h.account.ikcpSend msg, h.wire⟩
      exact (congrArg IKCPCFG.conv (ikcpSend_cfg e.kcp msg)).trans h.conv
  | recv len => exact h.recv len
  | update clock => exact h.update clock
  | flush => exact h.flush
  | input datagram =>
      have hframe := sndFrame_ikcpInput e.kcp datagram
      exact h.withKcp hframe.cfg (h.account.frame hframe)

/-- By induction on the calls. -/
theorem Sound.calls (h : e.Sound id) (cs : List Call) : (e.calls cs).Sound id := by
  induction cs generalizing e with
  | nil => exact h
  | cons c rest ih => exact ih (h.call c)

end Endpoint

/-- The message `receiveOnce` reads, if any. -/
def readOnce (kcp : IKCPCB) (data : List Byte) : List (List Byte) :=
  let input := ikcpInput kcp data
  if input.1 < 0 then []
  else if ikcpPeeksize input.2 ≤ 0 then []
  else [(ikcpRecv input.2 (ikcpPeeksize input.2)).2.1]

theorem readOnce_cases (kcp : IKCPCB) (data : List Byte) :
    readOnce kcp data = [] ∨ ∃ msg, readOnce kcp data = [msg] := by
  unfold readOnce
  dsimp only
  split_ifs
  · exact Or.inl rfl
  · exact Or.inl rfl
  · exact Or.inr ⟨_, rfl⟩

/-- What both `recvFromTunnel` functions do is an input and at most one read. -/
theorem Endpoint.calls_receiveOnce (e : Endpoint) (data : List Byte) :
    ∃ cs, (∀ datagram, .input datagram ∈ cs → datagram = data) ∧
      e.calls cs = { e with
        kcp := receiveOnce e.kcp data, received := e.received ++ readOnce e.kcp data } := by
  have hone : ∀ datagram, Call.input datagram ∈ [Call.input data] → datagram = data := by
    intro datagram hin
    exact Call.input.inj (List.mem_singleton.mp hin)
  unfold receiveOnce readOnce
  dsimp only
  by_cases hbad : (ikcpInput e.kcp data).1 < 0
  · refine ⟨[.input data], hone, ?_⟩
    rw [if_pos hbad, if_pos hbad, List.append_nil]
    rfl
  rw [if_neg hbad, if_neg hbad]
  by_cases hnone : ikcpPeeksize (ikcpInput e.kcp data).2 ≤ 0
  · refine ⟨[.input data], hone, ?_⟩
    rw [if_pos hnone, if_pos hnone, List.append_nil]
    rfl
  rw [if_neg hnone, if_neg hnone]
  have hsome : 0 ≤ ikcpPeeksize (ikcpInput e.kcp data).2 := (not_le.mp hnone).le
  refine ⟨[.input data, .recv (ikcpPeeksize (ikcpInput e.kcp data).2).toNat], ?_, ?_⟩
  · intro datagram hin
    rcases List.mem_cons.mp hin with hself | htail
    · exact Call.input.inj hself
    · exact absurd (List.mem_singleton.mp htail) (by rintro ⟨⟩)
  · change (e.input data).recv _ = _
    have hcan : 0 ≤ ikcpPeeksize (e.input data).kcp ∧ ikcpPeeksize (e.input data).kcp ≤
        ((ikcpPeeksize (ikcpInput e.kcp data).2).toNat : Int) :=
      ⟨hsome, Int.self_le_toNat _⟩
    rw [Endpoint.recv_of_can hcan, (ikcpRecv_peeksize hsome).2]
    rfl

open Endpoint

/-! ## All endpoints of a process -/

/-- One call on the endpoint of some conv other than 0; `net` says what may be
    put in. -/
def Serve (net : IUINT32 → List Byte → Prop) (E E' : IUINT32 → Endpoint) : Prop :=
  ∃ id c, id ≠ 0 ∧ (∀ datagram, c = .input datagram → net id datagram) ∧
    E' = Function.update E id ((E id).call c)

/-- Some calls. -/
abbrev Serves (net : IUINT32 → List Byte → Prop) :
    (IUINT32 → Endpoint) → (IUINT32 → Endpoint) → Prop :=
  Relation.ReflTransGen (Serve net)

theorem serves_calls {net : IUINT32 → List Byte → Prop} {id : IUINT32} (hid : id ≠ 0)
    (cs : List Call) (hin : ∀ datagram, .input datagram ∈ cs → net id datagram)
    (E : IUINT32 → Endpoint) : Serves net E (Function.update E id ((E id).calls cs)) := by
  induction cs generalizing E with
  | nil =>
      rw [Endpoint.calls, List.foldl_nil, Function.update_eq_self]
  | cons c rest ih =>
      have hfirst : Serve net E (Function.update E id ((E id).call c)) := by
        refine ⟨id, c, hid, ?_, rfl⟩
        rintro datagram rfl
        exact hin datagram (List.mem_cons_self ..)
      have hrest := ih (fun d hd => hin d (List.mem_cons_of_mem _ hd))
        (Function.update E id ((E id).call c))
      rw [Function.update_self, Function.update_idem] at hrest
      exact .head hfirst hrest

/-- What a process shows of its KCP objects. -/
structure KcpView where
  /-- there is an object for the conv -/
  holds : IUINT32 → IKCPCB → Prop
  /-- there is or was one -/
  used : IUINT32 → Prop
  accepted : IUINT32 → List (List Byte)
  received : IUINT32 → List (List Byte)
  datagrams : List (List Byte)

/-- The endpoints behind a view. -/
structure Hosts (v : KcpView) (E : IUINT32 → Endpoint) : Prop where
  held : ∀ id kcp, id ≠ 0 → v.holds id kcp → kcp = (E id).kcp
  unused : ∀ id, id ≠ 0 → ¬ v.used id → E id = create id
  accepted : ∀ id, id ≠ 0 → v.accepted id = (E id).accepted
  received : ∀ id, id ≠ 0 → v.received id = (E id).received
  output : ∀ datagram ∈ v.datagrams, ikcpGetconv datagram ≠ 0 →
    datagram ∈ (E (ikcpGetconv datagram)).output
  sound : ∀ id, id ≠ 0 → (E id).Sound id

/-- Only the object of `id` was called; its endpoint was `e` and is `e'`. -/
structure Change (v v' : KcpView) (id : IUINT32) (e e' : Endpoint) : Prop where
  used : v'.used id
  keeps : ∀ i, v.used i → v'.used i
  held : ∀ kcp, v'.holds id kcp → kcp = e'.kcp
  accepted : v'.accepted id = e'.accepted
  received : v'.received id = e'.received
  others : ∀ i, i ≠ id → (∀ kcp, v'.holds i kcp → v.holds i kcp) ∧
    v'.accepted i = v.accepted i ∧ v'.received i = v.received i
  sent : ∃ out, e'.output = e.output ++ out ∧ v'.datagrams = v.datagrams ++ out

/-- No object was called; some may be gone. -/
structure NoCall (v v' : KcpView) : Prop where
  held : ∀ i kcp, i ≠ 0 → v'.holds i kcp → v.holds i kcp
  keeps : ∀ i, v.used i → v'.used i
  accepted : v'.accepted = v.accepted
  received : v'.received = v.received
  datagrams : v'.datagrams = v.datagrams

theorem Hosts.noCall {v v' : KcpView} {E : IUINT32 → Endpoint} (h : Hosts v E) (hq : NoCall v v') :
    Hosts v' E where
  held := fun id kcp hid hkcp => h.held id kcp hid (hq.held id kcp hid hkcp)
  unused := fun id hid hnot => h.unused id hid (fun hu => hnot (hq.keeps id hu))
  accepted := by
    rw [hq.accepted]
    exact h.accepted
  received := by
    rw [hq.received]
    exact h.received
  output := by
    rw [hq.datagrams]
    exact h.output
  sound := h.sound

/-- **Calls on one object leave all other endpoints as they are.** -/
theorem Hosts.serve {net : IUINT32 → List Byte → Prop} {v v' : KcpView}
    {E : IUINT32 → Endpoint} (h : Hosts v E) {id : IUINT32} (hid : id ≠ 0) (cs : List Call)
    (hin : ∀ datagram, .input datagram ∈ cs → net id datagram)
    (hch : Change v v' id (E id) ((E id).calls cs)) :
    ∃ E', Serves net E E' ∧ Hosts v' E' := by
  refine ⟨_, serves_calls hid cs hin E, ?_⟩
  have hself : Function.update E id ((E id).calls cs) id = (E id).calls cs :=
    Function.update_self ..
  have hother : ∀ i, i ≠ id → Function.update E id ((E id).calls cs) i = E i :=
    fun i hi => Function.update_of_ne hi ..
  have hsound := (h.sound id hid).calls cs
  refine ⟨?_, ?_, ?_, ?_, ?_, ?_⟩
  · intro i kcp hi hkcp
    by_cases hii : i = id
    · subst hii
      rw [hself]
      exact hch.held kcp hkcp
    · rw [hother i hii]
      exact h.held i kcp hi ((hch.others i hii).1 kcp hkcp)
  · intro i hi hnot
    have hii : i ≠ id := by
      rintro rfl
      exact hnot hch.used
    rw [hother i hii]
    exact h.unused i hi (fun hu => hnot (hch.keeps i hu))
  · intro i hi
    by_cases hii : i = id
    · subst hii
      rw [hself, hch.accepted]
    · rw [hother i hii, (hch.others i hii).2.1]
      exact h.accepted i hi
  · intro i hi
    by_cases hii : i = id
    · subst hii
      rw [hself, hch.received]
    · rw [hother i hii, (hch.others i hii).2.2]
      exact h.received i hi
  · -- a datagram carries the conv of the endpoint that put it out
    obtain ⟨out, hout, hsent⟩ := hch.sent
    intro datagram hmem hne
    rw [hsent] at hmem
    rcases List.mem_append.mp hmem with hold | hnew
    · by_cases hii : ikcpGetconv datagram = id
      · have hwas := h.output datagram hold hne
        rw [hii] at hwas ⊢
        rw [hself, hout]
        exact List.mem_append_left _ hwas
      · rw [hother _ hii]
        exact h.output datagram hold hne
    · have hnow : datagram ∈ ((E id).calls cs).output := by
        rw [hout]
        exact List.mem_append_right _ hnew
      rw [(hsound.wire datagram hnow).2, hself]
      exact hnow
  · intro i hi
    by_cases hii : i = id
    · subst hii
      rw [hself]
      exact hsound
    · rw [hother i hii]
      exact h.sound i hi

theorem ikcpGetconv_take {n : Nat} (hn : 4 ≤ n) (bytes : List Byte) :
    ikcpGetconv (bytes.take n) = ikcpGetconv bytes := by
  have hbyte : ∀ k < 4, byteAt (bytes.take n) k = byteAt bytes k := by
    intro k hk
    rw [byteAt, byteAt, List.getD_eq_getElem?_getD, List.getD_eq_getElem?_getD,
      List.getElem?_take_of_lt (hk.trans_le hn)]
  rw [ikcpGetconv, ikcpGetconv, ikcpDecode32u, ikcpDecode32u, hbyte 0 (by decide),
    hbyte 1 (by decide), hbyte 2 (by decide), hbyte 3 (by decide)]

/-- A datagram of a process fits the read buffer of the other: the endpoint of
    its conv put out just what is read. -/
theorem Hosts.arrives {v : KcpView} {E : IUINT32 → Endpoint} (h : Hosts v E) {bytes : List Byte}
    (hin : bytes ∈ v.datagrams) (hne : ikcpGetconv (bytes.take 4096) ≠ 0) :
    bytes.take 4096 ∈ (E (ikcpGetconv (bytes.take 4096))).output := by
  rw [ikcpGetconv_take (by decide)] at hne ⊢
  have hout := h.output bytes hin hne
  have hlen := ((h.sound _ hne).wire bytes hout).1
  rw [List.take_of_length_le (by omega)]
  exact hout

/-! ## Both ends -/

namespace Link

/-- A call at one side as an event of the connection. -/
theorem step_call {l : Link} {side : Side} {c : Call}
    (hin : ∀ datagram, c = .input datagram → datagram ∈ (l side.other).output) :
    ∃ ev, l.step ev = some (Function.update l side ((l side).call c)) := by
  cases c with
  | send msg => exact ⟨.send side msg, rfl⟩
  | recv len => exact ⟨.recv side len, rfl⟩
  | update clock => exact ⟨.update side clock, rfl⟩
  | flush => exact ⟨.flush side, rfl⟩
  | input datagram =>
      obtain ⟨k, hk⟩ := List.mem_iff_getElem?.mp (hin datagram rfl)
      refine ⟨.deliver side k, ?_⟩
      rw [step, hk]
      rfl

/-- `l` is a state of a connection of conv `id`. -/
def Reached (id : IUINT32) (l : Link) : Prop :=
  EventSystem.Reachable step (fun l₀ => l₀ = create id) l

theorem Reached.step {id : IUINT32} {l l' : Link} {ev : LinkEvent} (h : Reached id l)
    (hstep : l.step ev = some l') : Reached id l' := by
  obtain ⟨l₀, es, h₀, hrun⟩ := h
  refine ⟨l₀, es ++ [ev], h₀, ?_⟩
  rw [EventSystem.run_append, hrun, Option.bind_some, EventSystem.run, hstep]
  rfl

end Link

/-- **Calls of one process are steps of the connections**: what it puts in is
    on its way to it, and the other ends stay where they are. -/
theorem Serves.links {net : IUINT32 → List Byte → Prop} {L : IUINT32 → Link} {side : Side}
    {E : IUINT32 → Endpoint} (h : Serves net (fun id => L id side) E)
    (hnet : ∀ id datagram, id ≠ 0 → net id datagram → datagram ∈ (L id side.other).output)
    (hreach : ∀ id, id ≠ 0 → Link.Reached id (L id)) :
    ∃ L' : IUINT32 → Link, (∀ id, L' id side = E id ∧ L' id side.other = L id side.other) ∧
      ∀ id, id ≠ 0 → Link.Reached id (L' id) := by
  induction h with
  | refl => exact ⟨L, fun _ => ⟨rfl, rfl⟩, hreach⟩
  | @tail E₁ E₂ _ hserve ih =>
      obtain ⟨L₁, hends, hreach₁⟩ := ih
      obtain ⟨id, c, hid, hin, rfl⟩ := hserve
      obtain ⟨ev, hstep⟩ := @Link.step_call (L₁ id) side c (by
        intro datagram hc
        rw [(hends id).2]
        exact hnet id datagram hid (hin datagram hc))
      refine ⟨Function.update L₁ id (Function.update (L₁ id) side ((L₁ id side).call c)), ?_, ?_⟩
      · intro i
        by_cases hi : i = id
        · subst hi
          rw [Function.update_self, Function.update_self, Function.update_self,
            Function.update_of_ne (Side.other_ne side), (hends i).1]
          exact ⟨rfl, (hends i).2⟩
        · rw [Function.update_of_ne hi, Function.update_of_ne hi]
          exact hends i
      · intro i hne
        by_cases hi : i = id
        · subst hi
          rw [Function.update_self]
          exact (hreach₁ i hid).step hstep
        · rw [Function.update_of_ne hi]
          exact hreach₁ i hne

end Kcp
end UdpSpeed
