import Plotnetcfg.Lib.AlignedRecords
import Plotnetcfg.Core.CString
import Mathlib.Data.List.Forall2

/-! Netlink messages as bytes (`netlink.c`, `linux/netlink.h`), on a little-endian host. -/

namespace Plotnetcfg.Netlink

open Bytes AlignedRecords

def NLMSG_HDRLEN : Nat := 16

def NLMSG_ERROR : Nat := 2
def NLMSG_DONE : Nat := 3

def NLM_F_DUMP_INTR : Nat := 0x10
def NLM_F_DUMP : Nat := 0x300

/-! The fields of `struct nlmsghdr`, read at the start of a message. -/

def nlmsgLen (n : List UInt8) : Nat := uint 0 4 n
def nlmsgType (n : List UInt8) : Nat := uint 4 2 n
def nlmsgFlags (n : List UInt8) : Nat := uint 6 2 n
def nlmsgSeq (n : List UInt8) : Nat := uint 8 4 n
def nlmsgPid (n : List UInt8) : Nat := uint 12 4 n

def nlmsgErrError (n : List UInt8) : Int := sint NLMSG_HDRLEN 4 n

/-- `struct nlmsg`: the bytes put so far and how many of them are consumed. A list of these
stands for a chain of `next` pointers. -/
structure NlMsg where
  buf : List UInt8
  start : Nat := 0
deriving DecidableEq

def zeros (n : Nat) : List UInt8 := List.replicate n 0

def nlmsgPutRaw (msg : NlMsg) (data : List UInt8) (padding : Nat) : NlMsg :=
  { msg with
    buf := msg.buf ++ zeros (align msg.buf.length - msg.buf.length) ++ data ++ zeros padding }

def nlmsgResetStart (msg : NlMsg) : NlMsg := { msg with start := align NLMSG_HDRLEN }

/-- A received message, copied out of the receive buffer. -/
def nlmsgCopy (n : List UInt8) : NlMsg :=
  nlmsgResetStart (nlmsgPutRaw ⟨[], 0⟩ (n.take (nlmsgLen n)) 0)

/-- The loop with `NLMSG_OK` and `NLMSG_NEXT` over a receive buffer: what starts at each
message it visits. -/
def nlmsgs (buf : List UInt8) : List (List UInt8) := records NLMSG_HDRLEN nlmsgLen buf

theorem nlmsgCopy_eq (n : List UInt8) : nlmsgCopy n = ⟨n.take (nlmsgLen n), 16⟩ := by
  simp [nlmsgCopy, nlmsgResetStart, nlmsgPutRaw, zeros, align, NLMSG_HDRLEN]

/-! ## Messages of the kernel -/

structure Msg where
  type : UInt16
  flags : UInt16
  seq : UInt32
  pid : UInt32
  payload : List UInt8
  pad : List UInt8
  fits : 16 + payload.length < 2 ^ 32
  aligned : 16 + payload.length + pad.length = align (16 + payload.length)

def Msg.bytes (m : Msg) : List UInt8 :=
  leBytes 4 (16 + m.payload.length) ++ leBytes 2 m.type.toNat ++ leBytes 2 m.flags.toNat ++
    leBytes 4 m.seq.toNat ++ leBytes 4 m.pid.toNat ++ m.payload

theorem Msg.length_bytes (m : Msg) : m.bytes.length = 16 + m.payload.length := by
  simp only [Msg.bytes, List.length_append, length_leBytes]

section
variable (m : Msg) (rest : List UInt8)

theorem Msg.nlmsgLen_bytes : nlmsgLen (m.bytes ++ rest) = 16 + m.payload.length := by
  have h := uint_prefix_leBytes [] (leBytes 2 m.type.toNat ++ leBytes 2 m.flags.toNat ++
    leBytes 4 m.seq.toNat ++ leBytes 4 m.pid.toNat ++ m.payload ++ rest) (k := 4) m.fits
  simpa [nlmsgLen, Msg.bytes] using h

theorem Msg.nlmsgType_bytes : nlmsgType (m.bytes ++ rest) = m.type.toNat := by
  have h := uint_prefix_leBytes (leBytes 4 (16 + m.payload.length))
    (leBytes 2 m.flags.toNat ++ leBytes 4 m.seq.toNat ++ leBytes 4 m.pid.toNat ++ m.payload ++ rest)
    (k := 2) m.type.toNat_lt
  simpa [nlmsgType, Msg.bytes] using h

theorem Msg.nlmsgSeq_bytes : nlmsgSeq (m.bytes ++ rest) = m.seq.toNat := by
  have h := uint_prefix_leBytes (leBytes 4 (16 + m.payload.length) ++ leBytes 2 m.type.toNat ++
    leBytes 2 m.flags.toNat) (leBytes 4 m.pid.toNat ++ m.payload ++ rest) (k := 4) m.seq.toNat_lt
  simpa [nlmsgSeq, Msg.bytes] using h

theorem Msg.nlmsgPid_bytes : nlmsgPid (m.bytes ++ rest) = m.pid.toNat := by
  have h := uint_prefix_leBytes (leBytes 4 (16 + m.payload.length) ++ leBytes 2 m.type.toNat ++
    leBytes 2 m.flags.toNat ++ leBytes 4 m.seq.toNat) (m.payload ++ rest) (k := 4) m.pid.toNat_lt
  simpa [nlmsgPid, Msg.bytes] using h

end

def Msg.padded (m : Msg) : Padded NLMSG_HDRLEN nlmsgLen where
  body := m.bytes
  pad := m.pad
  framed := ⟨by simp [m.length_bytes, NLMSG_HDRLEN],
    fun rest => by rw [m.nlmsgLen_bytes, m.length_bytes]⟩
  aligned := by rw [m.length_bytes, m.aligned]

def wire (ms : List Msg) : List UInt8 := encode (ms.map Msg.padded)

def StartsAt (n : List UInt8) (m : Msg) : Prop := ∃ rest, n = m.bytes ++ rest

/-- The receive loop visits the messages of a datagram, in order. -/
theorem nlmsgs_wire (ms : List Msg) : List.Forall₂ StartsAt (nlmsgs (wire ms)) ms := by
  have h := records_encode (by decide : 0 < NLMSG_HDRLEN) (ms.map Msg.padded)
  rw [List.forall₂_map_right_iff] at h
  exact h

theorem StartsAt.nlmsgCopy {n : List UInt8} {m : Msg} (h : StartsAt n m) :
    nlmsgCopy n = ⟨m.bytes, 16⟩ := by
  obtain ⟨rest, rfl⟩ := h
  rw [nlmsgCopy_eq, m.nlmsgLen_bytes, List.take_left' m.length_bytes]

end Plotnetcfg.Netlink
