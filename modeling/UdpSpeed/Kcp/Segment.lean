/-
  UdpSpeed.Kcp.Segment

  Wire format of KCP (kcp/ikcp.c, "encode / decode" and `ikcp_encode_seg`):
  the integer types, the constants, the little-endian field codecs, the
  24-byte segment header and the two header readers the dispatchers use
  (`ikcp_getconv`, `ikcp_getsn`).

  Bytes are `BitVec 8`, `IUINT32` is `BitVec 32` with the C wrap-around; a
  buffer and its length are one `List Byte`.
-/

import Mathlib.Data.List.Basic
import Mathlib.Tactic

namespace UdpSpeed

abbrev Byte := BitVec 8
abbrev IUINT32 := BitVec 32

namespace Kcp

/-! ## Constants (ikcp.c, "KCP BASIC") -/

def ikcpRtoNdl : IUINT32 := 30
def ikcpRtoMin : IUINT32 := 100
def ikcpRtoDef : IUINT32 := 200
def ikcpRtoMax : IUINT32 := 60000
def ikcpCmdPush : Byte := 81
def ikcpCmdAck : Byte := 82
def ikcpCmdWask : Byte := 83
def ikcpCmdWins : Byte := 84
def ikcpAskSend : IUINT32 := 1
def ikcpAskTell : IUINT32 := 2
def ikcpWndSnd : IUINT32 := 32
def ikcpWndRcv : IUINT32 := 128
def ikcpMtuDef : Nat := 1400
def ikcpInterval : IUINT32 := 100
def ikcpOverhead : Nat := 24
def ikcpDeadlink : IUINT32 := 20
def ikcpThreshInit : IUINT32 := 2
def ikcpThreshMin : IUINT32 := 2
def ikcpProbeInit : IUINT32 := 7000
def ikcpProbeLimit : IUINT32 := 120000

/-! ## Unsigned helpers -/

/-- `_itimediff`: the 32-bit difference read as a signed number. -/
def itimediff (later earlier : IUINT32) : Int := (later - earlier).toInt

def imin (a b : IUINT32) : IUINT32 := if a ≤ b then a else b

def imax (a b : IUINT32) : IUINT32 := if b ≤ a then a else b

def ibound (lower middle upper : IUINT32) : IUINT32 := imin (imax lower middle) upper

/-! ## Little-endian fields -/

/-- Byte `k` of a buffer; the receive buffers of both programs are zeroed, so
    a read past the datagram sees `0`. -/
def byteAt (p : List Byte) (k : Nat) : Byte := p.getD k 0

def ikcpEncode16u (w : BitVec 16) : List Byte :=
  [BitVec.ofNat 8 w.toNat, BitVec.ofNat 8 (w.toNat / 256)]

def ikcpDecode16u (p : List Byte) : BitVec 16 :=
  BitVec.ofNat 16 ((byteAt p 0).toNat + 256 * (byteAt p 1).toNat)

def ikcpEncode32u (l : IUINT32) : List Byte :=
  [BitVec.ofNat 8 l.toNat, BitVec.ofNat 8 (l.toNat / 2 ^ 8),
    BitVec.ofNat 8 (l.toNat / 2 ^ 16), BitVec.ofNat 8 (l.toNat / 2 ^ 24)]

def ikcpDecode32u (p : List Byte) : IUINT32 :=
  BitVec.ofNat 32 ((byteAt p 0).toNat + 2 ^ 8 * (byteAt p 1).toNat
    + 2 ^ 16 * (byteAt p 2).toNat + 2 ^ 24 * (byteAt p 3).toNat)

@[simp] theorem ikcpEncode32u_length (l : IUINT32) : (ikcpEncode32u l).length = 4 := rfl

@[simp] theorem ikcpEncode16u_length (w : BitVec 16) : (ikcpEncode16u w).length = 2 := rfl

/-- A 32-bit field is read back from the front of any buffer it was written to. -/
@[simp] theorem ikcpDecode32u_encode (l : IUINT32) (rest : List Byte) :
    ikcpDecode32u (ikcpEncode32u l ++ rest) = l := by
  apply BitVec.eq_of_toNat_eq
  have hl := l.isLt
  simp only [ikcpDecode32u, ikcpEncode32u, byteAt, List.cons_append, List.getD_cons_zero,
    List.getD_cons_succ, BitVec.toNat_ofNat]
  omega

/-- The 16-bit window field is read back likewise. -/
@[simp] theorem ikcpDecode16u_encode (w : BitVec 16) (rest : List Byte) :
    ikcpDecode16u (ikcpEncode16u w ++ rest) = w := by
  apply BitVec.eq_of_toNat_eq
  have hw := w.isLt
  simp only [ikcpDecode16u, ikcpEncode16u, byteAt, List.cons_append, List.getD_cons_zero,
    List.getD_cons_succ, BitVec.toNat_ofNat]
  omega

/-! ## Segments -/

/-- `struct IKCPSEG`. `len` is the length of `data`; the list node is the
    segment's place in the queue that holds it. -/
structure IKCPSEG where
  conv : IUINT32 := 0
  cmd : Byte := 0
  frg : Byte := 0
  wnd : IUINT32 := 0
  ts : IUINT32 := 0
  sn : IUINT32 := 0
  una : IUINT32 := 0
  resendts : IUINT32 := 0
  rto : IUINT32 := 0
  fastack : IUINT32 := 0
  xmit : IUINT32 := 0
  data : List Byte := []
deriving DecidableEq, Repr, Inhabited

namespace IKCPSEG

def len (seg : IKCPSEG) : Nat := seg.data.length

end IKCPSEG

/-- `ikcp_encode_seg`: the 24 header bytes of a segment, without its data. -/
def ikcpEncodeSeg (seg : IKCPSEG) : List Byte :=
  ikcpEncode32u seg.conv ++ ([seg.cmd] ++ ([seg.frg] ++ (ikcpEncode16u (seg.wnd.setWidth 16)
    ++ (ikcpEncode32u seg.ts ++ (ikcpEncode32u seg.sn ++ (ikcpEncode32u seg.una
    ++ ikcpEncode32u (BitVec.ofNat 32 seg.len)))))))

@[simp] theorem ikcpEncodeSeg_length (seg : IKCPSEG) :
    (ikcpEncodeSeg seg).length = ikcpOverhead := rfl

/-- The header fields `ikcp_input` decodes at the start of each segment. -/
structure SegHeader where
  conv : IUINT32
  cmd : Byte
  frg : Byte
  wnd : BitVec 16
  ts : IUINT32
  sn : IUINT32
  una : IUINT32
  len : IUINT32
deriving DecidableEq, Repr, Inhabited

/-- The chain of `ikcp_decode*` calls in `ikcp_input`. -/
def decodeHeader (data : List Byte) : SegHeader where
  conv := ikcpDecode32u data
  cmd := byteAt data 4
  frg := byteAt data 5
  wnd := ikcpDecode16u (data.drop 6)
  ts := ikcpDecode32u (data.drop 8)
  sn := ikcpDecode32u (data.drop 12)
  una := ikcpDecode32u (data.drop 16)
  len := ikcpDecode32u (data.drop 20)

/-- The header `ikcp_input` reads is the one `ikcp_encode_seg` wrote. -/
theorem decodeHeader_encodeSeg (seg : IKCPSEG) (rest : List Byte) :
    decodeHeader (ikcpEncodeSeg seg ++ rest) =
      { conv := seg.conv, cmd := seg.cmd, frg := seg.frg, wnd := seg.wnd.setWidth 16,
        ts := seg.ts, sn := seg.sn, una := seg.una, len := BitVec.ofNat 32 seg.len } := by
  -- each field starts where the one before it ends
  have hwnd : (ikcpEncodeSeg seg ++ rest).drop 6
      = ikcpEncode16u (seg.wnd.setWidth 16) ++ ((ikcpEncodeSeg seg ++ rest).drop 8) := rfl
  have hts : (ikcpEncodeSeg seg ++ rest).drop 8
      = ikcpEncode32u seg.ts ++ ((ikcpEncodeSeg seg ++ rest).drop 12) := rfl
  have hsn : (ikcpEncodeSeg seg ++ rest).drop 12
      = ikcpEncode32u seg.sn ++ ((ikcpEncodeSeg seg ++ rest).drop 16) := rfl
  have huna : (ikcpEncodeSeg seg ++ rest).drop 16
      = ikcpEncode32u seg.una ++ ((ikcpEncodeSeg seg ++ rest).drop 20) := rfl
  have hlen : (ikcpEncodeSeg seg ++ rest).drop 20
      = ikcpEncode32u (BitVec.ofNat 32 seg.len) ++ rest := rfl
  have hconv : ikcpEncodeSeg seg ++ rest
      = ikcpEncode32u seg.conv ++ ((ikcpEncodeSeg seg ++ rest).drop 4) := rfl
  simp only [decodeHeader, SegHeader.mk.injEq]
  refine ⟨?_, rfl, rfl, ?_, ?_, ?_, ?_, ?_⟩
  · rw [hconv, ikcpDecode32u_encode]
  · rw [hwnd, ikcpDecode16u_encode]
  · rw [hts, ikcpDecode32u_encode]
  · rw [hsn, ikcpDecode32u_encode]
  · rw [huna, ikcpDecode32u_encode]
  · rw [hlen, ikcpDecode32u_encode]

/-! ## Header readers of the dispatchers -/

/-- `ikcp_getconv`: no length argument, it reads the zeroed buffer. -/
def ikcpGetconv (ptr : List Byte) : IUINT32 := ikcpDecode32u ptr

/-- `ikcp_getsn`: `-1` (as an unsigned number) stands for "too short". -/
def ikcpGetsn (ptr : List Byte) : IUINT32 :=
  if ptr.length < ikcpOverhead then -1 else ikcpDecode32u (ptr.drop 12)

end Kcp
end UdpSpeed
