/-
  UdpSpeed.Kcp.Completion

  Whatever has happened to a connection, it can be completed: with nothing but
  updates, datagrams let through and messages read, each side gets all that the
  other has accepted.
-/

import UdpSpeed.Kcp.Progress

namespace UdpSpeed
namespace Kcp

open Endpoint SerialNumber

namespace Link

/-! ## Going on without the applications -/

/-- The timers and the network go on, and messages are read. -/
def Quiet (l : Link) : LinkEvent → Prop
  | .update side clock => 0 ≤ itimediff clock (l side).kcp.current
  | .recv .. => True
  | .deliver .. => True
  | _ => False

def Continues (l l' : Link) : Prop := ∃ ev, l.Quiet ev ∧ l.step ev = some l'

def Alive (l : Link) : Prop := ∀ side, Live (l side) (l side.other)

theorem alive_update {l : Link} {side : Side} {e : Endpoint} (h : Live e (l side.other)) :
    Alive (Function.update l side e) := by
  intro x
  rcases Side.eq_or_other side x with rfl | rfl
  · rw [Function.update_self, Function.update_of_ne (Side.other_ne x)]
    exact h
  · rw [Side.other_other, Function.update_self, Function.update_of_ne (Side.other_ne side)]
    exact h.symm

/-- `l'` comes after `l`, and meanwhile no message is accepted or read. -/
structure Advance (l l' : Link) : Prop where
  runs : Relation.ReflTransGen Continues l l'
  alive : Alive l'
  later : ∀ side, Later (l side) (l' side)
  accepted : ∀ side, (l' side).accepted = (l side).accepted
  received : ∀ side, (l' side).received = (l side).received

theorem Advance.trans {l l₁ l₂ : Link} (h : Advance l l₁) (h' : Advance l₁ l₂) :
    Advance l l₂ where
  runs := h.runs.trans h'.runs
  alive := h'.alive
  later := fun side => (h.later side).trans (h'.later side)
  accepted := fun side => (h'.accepted side).trans (h.accepted side)
  received := fun side => (h'.received side).trans (h.received side)

theorem drive (l : Link) (side : Side) {e : Endpoint}
    (h : Relation.ReflTransGen Driven (l side) e) :
    Relation.ReflTransGen Continues l (Function.update l side e) := by
  induction h with
  | refl => rw [Function.update_eq_self]
  | tail _ hdriven ih =>
      obtain ⟨clock, hforward, rfl⟩ := hdriven
      refine ih.tail ⟨.update side clock, ?_, ?_⟩
      · rw [Quiet, Function.update_self]
        exact hforward
      · rw [step, Function.update_self, Function.update_idem]

variable {l : Link} {side : Side} {e : Endpoint}

/-- One end is driven until it puts out a datagram, and the other gets it. -/
theorem handed (hruns : Relation.ReflTransGen Driven (l side) e)
    (hall : Live e (l side.other) ∧ Later (l side) e ∧ Stays (l side) e)
    {group : List IKCPSEG} (hne : group ≠ []) (hsent : wireAll group ∈ e.output)
    (hg : ∀ x ∈ group, e.Genuine x) :
    ∃ l', Advance l l' ∧ l' side = e ∧
      l' side.other = (l side.other).input (wireAll group) := by
  obtain ⟨hlive, hlater, hstays⟩ := hall
  obtain ⟨hlive', hlater'⟩ := hlive.symm.input hne hg
  obtain ⟨k, hk⟩ := List.mem_iff_getElem?.mp hsent
  have hother : Function.update l side e side.other = l side.other :=
    Function.update_of_ne (Side.other_ne side) ..
  have hself : Function.update l side e side.other.other = e := by
    rw [Side.other_other, Function.update_self]
  have hstep : step (Function.update l side e) (.deliver side.other k) =
      some (Function.update (Function.update l side e) side.other
        ((l side.other).input (wireAll group))) := by
    rw [step, hself, hk, hother]
    rfl
  have hfirst : Function.update (Function.update l side e) side.other
      ((l side.other).input (wireAll group)) side = e := by
    rw [Function.update_of_ne (Ne.symm (Side.other_ne side)), Function.update_self]
  refine ⟨_, ⟨(drive l side hruns).tail ⟨.deliver side.other k, trivial, hstep⟩, ?_, ?_, ?_, ?_⟩,
    hfirst, Function.update_self ..⟩
  · apply alive_update
    rw [hself]
    exact hlive'
  · intro x
    rcases Side.eq_or_other side x with rfl | rfl
    · rw [hfirst]
      exact hlater
    · rw [Function.update_self]
      exact hlater'
  · intro x
    rcases Side.eq_or_other side x with rfl | rfl
    · rw [hfirst]
      exact hstays.accepted
    · rw [Function.update_self]
      rfl
  · intro x
    rcases Side.eq_or_other side x with rfl | rfl
    · rw [hfirst]
      exact hstays.received
    · rw [Function.update_self]
      rfl

/-- A fragment that is shown, and not ahead of what the other end expects,
    arrives there and is acknowledged. -/
theorem arrives (hruns : Relation.ReflTransGen Driven (l side) e)
    (hall : Live e (l side.other) ∧ Later (l side) e ∧ Stays (l side) e) {i : Nat}
    (hshows : e.Shows (fun x => x.cmd = ikcpCmdPush ∧ x.sn.toNat = i))
    (hle : i ≤ (l side.other).kcp.rcvNxt.toNat) :
    ∃ l', Advance l l' ∧ l' side = e ∧ (l' side.other).kcp.Has i ∧
      (l' side.other).kcp.acklist ≠ [] := by
  obtain ⟨group, hsent, hg, seg, hin, hpush, rfl⟩ := hshows
  obtain ⟨l', hadv, hself, hother⟩ := handed hruns hall (List.ne_nil_of_mem hin) hsent hg
  refine ⟨l', hadv, hself, ?_, ?_⟩
  · rw [hother]
    exact hall.1.symm.has_of_input hin hg hpush hle
  · rw [hother]
    exact hall.1.symm.acklist_of_input hin hg hpush hle

/-! ## A missing fragment -/

/-- While the fragment is missing the receiver waits for it. -/
theorem Alive.waits_later {l l' : Link} (h : Alive l) (hw : Waits (l side) (l side.other))
    (hadv : Advance l l')
    (hmissing : ¬ (l' side.other).kcp.Has (l side.other).kcp.rcvNxt.toNat) :
    Waits (l' side) (l' side.other) ∧
      (l' side.other).kcp.rcvNxt.toNat = (l side.other).kcp.rcvNxt.toNat := by
  have hlive := h side
  have hlive' := hadv.alive side
  have hnxt := hlive.symm.pair.rcvNxt_eq hlive.short
  have hnxt' := hlive'.symm.pair.rcvNxt_eq hlive'.short
  rw [(hadv.later side).conv, hadv.received] at hnxt'
  have hroom := hw.room
  have hle : (l' side.other).kcp.rcvNxt.toNat ≤ (l side.other).kcp.rcvNxt.toNat := by
    by_contra hlt
    exact hmissing (hlive'.symm.pair.here.rcv.has_of_lt hlive'.symm.early (not_le.mp hlt))
  have hge : (l side.other).kcp.rcvNxt.toNat ≤ (l' side.other).kcp.rcvNxt.toNat := by
    by_contra hlt
    have hhas := (hadv.later side.other).has _
      (hlive.symm.pair.here.rcv.has_of_lt hlive.symm.early (not_le.mp hlt))
    exact hlive'.symm.pair.here.rcv.not_has_rcvNxt hlive'.symm.early (by omega) hhas
  have hfrags : (l' side).fragments = (l side).fragments := by
    rw [fragments, fragments, (hadv.later side).conv, hadv.accepted]
  refine ⟨⟨by omega, ?_⟩, by omega⟩
  rw [hfrags]
  have hmore := hw.more
  omega

/-- The fragment is in the buffer of the other end, or the next of its queue. -/
theorem Alive.source (h : Alive l) (hw : Waits (l side) (l side.other)) :
    (l side.other).kcp.rcvNxt.toNat ∈ (l side).kcp.unacked ∨
      (l side.other).kcp.rcvNxt.toNat = (l side).kcp.sndNxt.toNat ∧ (l side).kcp.sndQueue ≠ [] := by
  have hlive := h side
  have hbehind := (hlive.pair.bounded hlive.short).behind
  have hadd := hlive.pair.here.sndNxt_add hlive.short
  have hmore := hw.more
  rcases Nat.lt_or_ge (l side.other).kcp.rcvNxt.toNat (l side).kcp.sndNxt.toNat with hlt | hge
  · left
    rcases hlive.pair.out.kept _ hlt with hhas | hin
    · exact absurd hhas (hlive.symm.pair.here.rcv.not_has_rcvNxt hlive.symm.early hw.room)
    · exact hin
  · right
    refine ⟨by omega, ?_⟩
    intro hnil
    rw [hnil, List.length_nil] at hadd
    omega

theorem Alive.fetch_open (h : Alive l) (hw : Waits (l side) (l side.other))
    (hopen : (l side.other).kcp.rcvNxt.toNat ∈ (l side).kcp.unacked ∨
      ¬ (l side).kcp.WindowFull) :
    ∃ l', Advance l l' ∧ (l' side.other).kcp.Has (l side.other).kcp.rcvNxt.toNat := by
  by_cases hin : (l side.other).kcp.rcvNxt.toNat ∈ (l side).kcp.unacked
  · obtain ⟨e, hruns, hall, hshows⟩ := (h side).resend hin
    obtain ⟨l', hadv, -, hhas, -⟩ := arrives hruns hall hshows le_rfl
    exact ⟨l', hadv, hhas⟩
  · obtain ⟨hnxt, hmore⟩ := (h.source hw).resolve_left hin
    obtain ⟨e, hruns, hall, hshows⟩ := (h side).sendNext hmore (hopen.resolve_left hin)
    rw [← hnxt] at hshows
    obtain ⟨l', hadv, -, hhas, -⟩ := arrives hruns hall hshows le_rfl
    exact ⟨l', hadv, hhas⟩

/-- With everything acknowledged and room at the other end the window is open. -/
theorem not_windowFull {e o : Endpoint} (h : Live e o) (hnone : e.kcp.unacked = [])
    (hwnd : e.kcp.rmtWnd ≠ 0) : ¬ e.kcp.WindowFull := by
  have hidle : e.kcp.sndUna = e.kcp.sndNxt := by
    apply BitVec.eq_of_toNat_eq
    rw [h.pair.here.order.una, hnone]
    rfl
  rw [windowFull_idle_iff h.cfg hidle]
  exact hwnd

/-- The free room of a queue that is not full survives the sixteen bits of the
    header. -/
theorem advertised_ne_zero {n : Nat} (hn : n < 128) :
    ((128 - BitVec.ofNat 32 n : IUINT32).setWidth 16).setWidth 32 ≠ 0 := by
  have hwnd : (128 : IUINT32).toNat = 128 := rfl
  have hzero : (0 : IUINT32).toNat = 0 := rfl
  intro hnone
  have hnat := congrArg BitVec.toNat hnone
  rw [BitVec.toNat_setWidth, BitVec.toNat_setWidth, BitVec.toNat_sub, BitVec.toNat_ofNat, hwnd,
    hzero] at hnat
  omega

/-- **The answer opens the window.** -/
theorem Alive.opened (h : Alive l) (hroom : (l side.other).kcp.rcvQueue.length < 128)
    (hask : (l side.other).kcp.acklist ≠ [] ∨ (l side.other).kcp.probe &&& ikcpAskTell ≠ 0)
    (hend : (l side).kcp.sndNxt.toNat ≤ (l side.other).kcp.rcvNxt.toNat) :
    ∃ l', Advance l l' ∧ ¬ (l' side).kcp.WindowFull := by
  obtain ⟨e, hruns, hall, group, hne, hsent, hg, hhead⟩ := (h side).symm.answer hask
  have hall' : Live e (l side.other.other) ∧ Later (l side.other) e ∧ Stays (l side.other) e := by
    rw [Side.other_other]
    exact hall
  obtain ⟨l', hadv, -, hother⟩ := handed hruns hall' hne hsent hg
  rw [Side.other_other] at hother
  have hback := hall.1.symm
  obtain ⟨hwnd, hleft⟩ := hback.window_of_input hne hg hhead
  have hlive := (hback.input hne hg).1
  refine ⟨l', hadv, ?_⟩
  rw [hother]
  refine not_windowFull hlive ?_ ?_
  · -- what is left is below `snd_nxt`, and not below the `una` of the answer
    have hnxt : ((l side).input (wireAll group)).kcp.sndNxt = (l side).kcp.sndNxt :=
      (sndFrame_ikcpInput (l side).kcp (wireAll group)).sndNxt
    rw [List.eq_nil_iff_forall_not_mem]
    intro i hi
    have hlow := hleft i hi
    have hhigh := hlive.pair.here.order.below i hi
    rw [hnxt] at hhigh
    omega
  · have hfree : ikcpWndUnused (l side.other).kcp =
        128 - BitVec.ofNat 32 (l side.other).kcp.rcvQueue.length := by
      rw [ikcpWndUnused, (h side).symm.pair.here.rcv.wnd, if_pos]
      · rfl
      · exact hroom
    rw [hwnd, hfree]
    exact advertised_ne_zero hroom

/-- A window that is full is asked about: an old fragment is sent once more, or
    the window is probed. -/
theorem Alive.asked (h : Alive l) (hfull : (l side).kcp.WindowFull)
    (hnxt : (l side.other).kcp.rcvNxt.toNat = (l side).kcp.sndNxt.toNat) :
    ∃ l', Advance l l' ∧ (l' side).kcp.sndNxt = (l side).kcp.sndNxt ∧
      ((l' side.other).kcp.acklist ≠ [] ∨ (l' side.other).kcp.probe &&& ikcpAskTell ≠ 0) := by
  have hlive := h side
  by_cases hnone : (l side).kcp.unacked = []
  · -- nothing is in flight, so the other end has closed its window
    have hzero : (l side).kcp.rmtWnd = 0 := by
      by_contra hwnd
      exact not_windowFull hlive hnone hwnd hfull
    obtain ⟨e, hruns, hall, group, hsent, hg, seg, hin, hwask⟩ := hlive.probe hzero
    obtain ⟨l', hadv, hself, hother⟩ := handed hruns hall (List.ne_nil_of_mem hin) hsent hg
    refine ⟨l', hadv, ?_, Or.inr ?_⟩
    · rw [hself]
      exact hall.2.2.full hfull
    · rw [hother]
      exact hall.1.symm.probe_of_input hin hg hwask
  · obtain ⟨i, rest, hlist⟩ := List.exists_cons_of_ne_nil hnone
    have hi : i ∈ (l side).kcp.unacked := by
      rw [hlist]
      exact List.mem_cons_self ..
    have hbelow := hlive.pair.here.order.below i hi
    obtain ⟨e, hruns, hall, hshows⟩ := hlive.resend hi
    obtain ⟨l', hadv, hself, -, hacks⟩ := arrives hruns hall hshows (by omega)
    refine ⟨l', hadv, ?_, Or.inl hacks⟩
    rw [hself]
    exact hall.2.2.full hfull

/-- **A fragment the receiver waits for can be brought there.** -/
theorem Alive.fetch (h : Alive l) (hw : Waits (l side) (l side.other)) :
    ∃ l', Advance l l' ∧ (l' side.other).kcp.Has (l side.other).kcp.rcvNxt.toNat := by
  by_cases hopen : (l side.other).kcp.rcvNxt.toNat ∈ (l side).kcp.unacked ∨
      ¬ (l side).kcp.WindowFull
  · exact h.fetch_open hw hopen
  rw [not_or, not_not] at hopen
  obtain ⟨hnxt, -⟩ := (h.source hw).resolve_left hopen.1
  obtain ⟨l₁, hadv₁, hsame, hask⟩ := h.asked hopen.2 hnxt
  by_cases hhas₁ : (l₁ side.other).kcp.Has (l side.other).kcp.rcvNxt.toNat
  · exact ⟨l₁, hadv₁, hhas₁⟩
  obtain ⟨hw₁, hrcv₁⟩ := h.waits_later hw hadv₁ hhas₁
  obtain ⟨l₂, hadv₂, hopened⟩ := hadv₁.alive.opened hw₁.room hask
    (show (l₁ side).kcp.sndNxt.toNat ≤ _ by rw [hsame]; omega)
  have hadv := hadv₁.trans hadv₂
  by_cases hhas₂ : (l₂ side.other).kcp.Has (l side.other).kcp.rcvNxt.toNat
  · exact ⟨l₂, hadv, hhas₂⟩
  obtain ⟨hw₂, hrcv₂⟩ := h.waits_later hw hadv hhas₂
  obtain ⟨l₃, hadv₃, hhas₃⟩ := hadv₂.alive.fetch_open hw₂ (Or.inr hopened)
  rw [hrcv₂] at hhas₃
  exact ⟨l₃, hadv.trans hadv₃, hhas₃⟩

end Link

/-! ## Everything arrives -/

/-- The fragments that have not arrived, and the messages not yet read. -/
def outstanding (s r : Endpoint) : Nat :=
  ((Finset.range s.fragments.length).filter (fun i => ¬ r.kcp.Has i)).card +
    (s.accepted.length - r.received.length)

section Outstanding

variable {s s' r r' : Endpoint} (hconv : s'.kcp.conv = s.kcp.conv)
  (hacc : s'.accepted = s.accepted) (hhas : ∀ i, r.kcp.Has i → r'.kcp.Has i)
include hconv hacc hhas

theorem missing_subset :
    (Finset.range s'.fragments.length).filter (fun i => ¬ r'.kcp.Has i) ⊆
      (Finset.range s.fragments.length).filter (fun i => ¬ r.kcp.Has i) := by
  intro i hi
  rw [Finset.mem_filter, fragments, hconv, hacc] at hi
  exact Finset.mem_filter.mpr ⟨hi.1, fun hold => hi.2 (hhas i hold)⟩

theorem outstanding_lt_of_has (hrec : r'.received = r.received) {m : Nat}
    (hm : m < s.fragments.length) (hold : ¬ r.kcp.Has m) (hnew : r'.kcp.Has m) :
    outstanding s' r' < outstanding s r := by
  have hsub := missing_subset hconv hacc hhas
  have hlt := Finset.card_lt_card (hsub.ssubset_of_mem_notMem
    (Finset.mem_filter.mpr ⟨Finset.mem_range.mpr hm, hold⟩)
    (fun hin => (Finset.mem_filter.mp hin).2 hnew))
  rw [outstanding, outstanding, hacc, hrec]
  omega

theorem outstanding_lt_of_read (hrec : r.received.length < r'.received.length)
    (hle : r'.received.length ≤ s.accepted.length) : outstanding s' r' < outstanding s r := by
  have hcard := Finset.card_le_card (missing_subset hconv hacc hhas)
  rw [outstanding, outstanding, hacc]
  omega

end Outstanding

theorem Live.recv {e o : Endpoint} (h : Live e o) (len : Nat) : Live (e.recv len) o := by
  refine ⟨h.pair.recv h.short' len, ?_, h.short'⟩
  have hs := h.short
  unfold Endpoint.Short fragments at hs ⊢
  rw [Endpoint.recv]
  dsimp only
  rw [IKCPCB.conv, ikcpRecv_cfg]
  exact hs

namespace Link

/-- A message that is complete is read. -/
theorem Alive.read {l : Link} {side : Side} (h : Alive l)
    (hsome : 0 ≤ ikcpPeeksize (l side.other).kcp) :
    ∃ l', Continues l l' ∧ Alive l' ∧ (∀ x, (l' x).accepted = (l x).accepted) ∧
      l' side = l side ∧
      outstanding (l' side) (l' side.other) < outstanding (l side) (l side.other) := by
  have hlive := (h side).symm
  have hself : Function.update l side.other
      ((l side.other).recv (ikcpPeeksize (l side.other).kcp).toNat) side = l side :=
    Function.update_of_ne (Ne.symm (Side.other_ne side)) ..
  refine ⟨_, ⟨.recv side.other (ikcpPeeksize (l side.other).kcp).toNat, trivial, rfl⟩, ?_, ?_,
    hself, ?_⟩
  · apply alive_update
    rw [Side.other_other]
    exact hlive.recv _
  · intro x
    rcases Side.eq_or_other side x with rfl | rfl
    · rw [hself]
    · rw [Function.update_self]
      rfl
  · rw [hself, Function.update_self]
    have hcan : 0 ≤ ikcpPeeksize (l side.other).kcp ∧ ikcpPeeksize (l side.other).kcp ≤
        ((ikcpPeeksize (l side.other).kcp).toNat : Int) := ⟨hsome, Int.self_le_toNat _⟩
    obtain ⟨rest, hacc, hlen⟩ := hlive.pair.head_length hlive.short' hsome
    obtain ⟨-, hlater⟩ := hlive.pair.here.recv hlive.early (fun _ => by
      rw [hlen])
    refine outstanding_lt_of_read rfl rfl hlater.has ?_ ?_
    · rw [recv_of_can hcan, List.length_append, List.length_singleton]
      omega
    · rw [recv_of_can hcan, hacc, List.length_append, List.length_append, List.length_singleton,
        List.length_cons]
      omega

/-- One direction: everything that side has accepted comes to be read, and the
    other direction stays where it is. -/
theorem read_all (side : Side) (accepted : Side → List (List Byte))
    (received : List (List Byte)) :
    LeadsTo Continues
      (fun l => Alive l ∧ (∀ x, (l x).accepted = accepted x) ∧ (l side).received = received)
      (fun l => (Alive l ∧ (∀ x, (l x).accepted = accepted x) ∧ (l side).received = received) ∧
        (l side.other).received = accepted side) := by
  apply LeadsTo.of_measure (fun l => outstanding (l side) (l side.other))
  rintro n l ⟨⟨h, hacc, hrec⟩, rfl⟩
  by_cases hall : (l side.other).received = accepted side
  · exact ⟨l, .refl, Or.inl ⟨⟨h, hacc, hrec⟩, hall⟩⟩
  by_cases hsome : 0 ≤ ikcpPeeksize (l side.other).kcp
  · obtain ⟨l', hcont, halive, hsame, hself, hlt⟩ := h.read hsome
    refine ⟨l', .single hcont, Or.inr ⟨⟨halive, ?_, ?_⟩, hlt⟩⟩
    · exact fun x => (hsame x).trans (hacc x)
    · rw [hself]
      exact hrec
  · -- nothing to read: the fragment that is missing is fetched
    have hlive := h side
    rw [← hacc side] at hall
    have hw := hlive.pair.waits hlive.short (not_le.mp hsome) hall
    obtain ⟨l', hadv, hhas⟩ := h.fetch hw
    refine ⟨l', hadv.runs, Or.inr ⟨⟨hadv.alive, ?_, ?_⟩, ?_⟩⟩
    · exact fun x => (hadv.accepted x).trans (hacc x)
    · exact (hadv.received side).trans hrec
    · exact outstanding_lt_of_has (hadv.later side).conv (hadv.accepted side)
        (hadv.later side.other).has (hadv.received side.other) hw.more
        (hlive.symm.pair.here.rcv.not_has_rcvNxt hlive.symm.early hw.room) hhas

/-- **A KCP connection never gets stuck.**  From every state that any run leads
    to, with segments lost, acknowledgements lost, windows closed and probes not
    answered, the two ends can go on, with updates, deliveries and reads alone
    and with clocks that do not run backwards, until each has read all that the
    other has accepted. -/
theorem can_complete {conv : IUINT32} {es : List LinkEvent} {l : Link}
    (hrun : EventSystem.run step (create conv) es = some l) (hs : l.Short) :
    ∃ l', Relation.ReflTransGen Continues l l' ∧
      (∀ side, (l' side).accepted = (l side).accepted) ∧
      ∀ side : Side, (l' side.other).received = (l side).accepted := by
  have hinv := inv_of_run hrun hs
  have halive : Alive l := fun side => ⟨hinv side, hs side, hs side.other⟩
  obtain ⟨l₁, hruns₁, ⟨halive₁, hacc₁, -⟩, hall₁⟩ := read_all .left (fun x => (l x).accepted)
    (l .left).received l ⟨halive, fun _ => rfl, rfl⟩
  obtain ⟨l₂, hruns₂, ⟨-, hacc₂, hrec₂⟩, hall₂⟩ := read_all .right (fun x => (l x).accepted)
    (l .left).accepted l₁ ⟨halive₁, hacc₁, hall₁⟩
  refine ⟨l₂, hruns₁.trans hruns₂, hacc₂, ?_⟩
  intro side
  cases side with
  | left => exact hrec₂
  | right => exact hall₂

theorem can_complete_reordered :
    ∃ l l', EventSystem.run step (create 7) reordered = some l ∧
      Relation.ReflTransGen Continues l l' ∧ (l .right).received = [[1, 2]] ∧
      (l' .right).received = [[1, 2], [3], [4]] := by
  obtain ⟨l, hl, hs, hrec, htransit⟩ := reordered_run
  obtain ⟨l', hruns, -, hall⟩ := can_complete hl hs
  refine ⟨l, l', hl, hruns, hrec, ?_⟩
  obtain ⟨more, hmore⟩ := (inv_of_run hl hs .left).out.received
  have hdrop : (l .left).accepted.drop (l .right).received.length = [[3], [4]] := htransit
  have hright : (l .right).received ++ more = (l .left).accepted := hmore
  rw [← hright, List.drop_left] at hdrop
  have hend : (l' .right).received = (l .left).accepted := hall .left
  rw [hend, ← hright, hrec, hdrop]
  rfl

end Link

end Kcp
end UdpSpeed
