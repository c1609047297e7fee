/-
  UdpSpeed.Control.Message

  The control commands (kcp/ControlSession.h), the three encoders spread over
  `KcpProxy::onConnection`, `KcpProxy::notifyDeadSessionId` and
  `KcpServer::handleControlMessage`, and the two field reads the receiving
  `handleControlMessage` functions make.
-/

import UdpSpeed.Kcp.Segment

namespace UdpSpeed

open Kcp

/-- How a C++ handler can end other than by returning: a failed `assert`, an
    exception nobody catches, a null dereference, a read of freed memory.  Each
    brings the process down. -/
inductive Abort where
  | assertSess
  | assertConnPtr
  | assertNoKcp
  | assertRet
  | assertCmdLength
  | assertNonempty
  | assertUnknownCmd
  | assertSendRet
  | lengthError
  | badFunctionCall
  | badAnyCast
  | nullKcp
  | freedRead
deriving DecidableEq, Repr

namespace Control

/-! ## Commands -/

def cmdCreateSession : Byte := 1
def cmdDestroySession : Byte := 2
def rspCreateSession : Byte := 3

/-- `getMsgLength`: `0` stands for an invalid command. -/
def getMsgLength (cmd : Byte) : Nat :=
  if cmd = cmdCreateSession then 1
  else if cmd = cmdDestroySession then 5
  else if cmd = rspCreateSession then 5
  else 0

/-! ## Encoders and field reads -/

/-- `htonl` followed by `memcpy`: the id in network order. -/
def htonlBytes (id : IUINT32) : List Byte :=
  [BitVec.ofNat 8 (id.toNat / 2 ^ 24), BitVec.ofNat 8 (id.toNat / 2 ^ 16),
    BitVec.ofNat 8 (id.toNat / 2 ^ 8), BitVec.ofNat 8 id.toNat]

/-- `createSessionCmd` of `KcpProxy::onConnection`. -/
def createMsg : List Byte := [cmdCreateSession]

/-- The `cmd` array of `KcpProxy::notifyDeadSessionId`. -/
def destroyMsg (id : IUINT32) : List Byte := cmdDestroySession :: htonlBytes id

/-- The `msg` array of `KcpServer::handleControlMessage`. -/
def rspMsg (id : IUINT32) : List Byte := rspCreateSession :: htonlBytes id

/-- `cmd = controlMsg[0]` of both `handleControlMessage` functions. -/
def readCmd (controlMsg : List Byte) : Byte := byteAt controlMsg 0

/-- `memcpy(&id, controlMsg.c_str() + 1, 4); id = ntohl(id)`.  The messages that
    carry an id have five bytes; behind the end of a shorter one this reads `0`. -/
def readId (controlMsg : List Byte) : IUINT32 :=
  BitVec.ofNat 32 (2 ^ 24 * (byteAt controlMsg 1).toNat + 2 ^ 16 * (byteAt controlMsg 2).toNat
    + 2 ^ 8 * (byteAt controlMsg 3).toNat + (byteAt controlMsg 4).toNat)

@[simp] theorem readCmd_createMsg : readCmd createMsg = cmdCreateSession := rfl

@[simp] theorem readCmd_destroyMsg (id : IUINT32) :
    readCmd (destroyMsg id) = cmdDestroySession := rfl

@[simp] theorem readCmd_rspMsg (id : IUINT32) : readCmd (rspMsg id) = rspCreateSession := rfl

/-- Whatever the command byte, the id written in network order is read back. -/
theorem readId_htonlBytes (cmd : Byte) (id : IUINT32) : readId (cmd :: htonlBytes id) = id := by
  apply BitVec.eq_of_toNat_eq
  have hid := id.isLt
  simp only [readId, htonlBytes, byteAt, List.getD_cons_zero, List.getD_cons_succ,
    BitVec.toNat_ofNat]
  omega

@[simp] theorem readId_destroyMsg (id : IUINT32) : readId (destroyMsg id) = id :=
  readId_htonlBytes _ id

@[simp] theorem readId_rspMsg (id : IUINT32) : readId (rspMsg id) = id :=
  readId_htonlBytes _ id

theorem rspMsg_injective : Function.Injective rspMsg := by
  intro a b h
  rw [← readId_rspMsg a, h, readId_rspMsg]

theorem destroyMsg_injective : Function.Injective destroyMsg := by
  intro a b h
  rw [← readId_destroyMsg a, h, readId_destroyMsg]

@[simp] theorem createMsg_ne_destroyMsg (id : IUINT32) : createMsg ≠ destroyMsg id := by
  intro h
  have := congrArg List.length h
  simp [createMsg, destroyMsg, htonlBytes] at this

/-! ## Messages as the two ends mean them -/

/-- A control message. -/
inductive ControlMsg where
  | createSession
  | destroySession (id : IUINT32)
  | rspCreateSession (id : IUINT32)
deriving DecidableEq, Repr

namespace ControlMsg

def encode : ControlMsg → List Byte
  | createSession => createMsg
  | destroySession id => destroyMsg id
  | rspCreateSession id => rspMsg id

def cmd : ControlMsg → Byte
  | createSession => cmdCreateSession
  | destroySession _ => cmdDestroySession
  | rspCreateSession _ => Control.rspCreateSession

/-- The id a message carries, if it carries one. -/
def id? : ControlMsg → Option IUINT32
  | createSession => none
  | destroySession id => some id
  | rspCreateSession id => some id

/-- `bytes` reads back as `m` in `handleControlMessage`. -/
def ReadsBack (bytes : List Byte) (m : ControlMsg) : Prop :=
  readCmd bytes = m.cmd ∧ ∀ id ∈ m.id?, readId bytes = id

/-- The first byte of an encoded message announces its length. -/
theorem encode_length (m : ControlMsg) : m.encode.length = getMsgLength (readCmd m.encode) := by
  cases m <;> rfl

theorem encode_ne_nil (m : ControlMsg) : m.encode ≠ [] := by
  cases m <;> simp [encode, createMsg, destroyMsg, rspMsg]

end ControlMsg
end Control
end UdpSpeed
