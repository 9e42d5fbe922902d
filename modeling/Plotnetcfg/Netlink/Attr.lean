import Plotnetcfg.Netlink.Message

/-! Netlink attributes: reading them and walking over them (`netlink.h`, `netlink.c`). An
attribute is what starts at its header, up to the end of the buffer it lies in. -/

namespace Plotnetcfg.Netlink

open Bytes AlignedRecords

def NLA_HDRLEN : Nat := 4

def nlaNlaLen (a : List UInt8) : Nat := uint 0 2 a
def nlaType (a : List UInt8) : Nat := uint 2 2 a

def nlaLen (a : List UInt8) : Nat := nlaNlaLen a - NLA_HDRLEN

def nlaRead (a : List UInt8) : List UInt8 := a.drop NLA_HDRLEN

def nlaReadU8 (a : List UInt8) : UInt8 := UInt8.ofNat (uint NLA_HDRLEN 1 a)
def nlaReadU16 (a : List UInt8) : UInt16 := UInt16.ofNat (uint NLA_HDRLEN 2 a)
def nlaReadU32 (a : List UInt8) : UInt32 := UInt32.ofNat (uint NLA_HDRLEN 4 a)
def nlaReadS32 (a : List UInt8) : Int := sint NLA_HDRLEN 4 a
def nlaReadBe16 (a : List UInt8) : UInt16 := UInt16.ofNat (uintBe NLA_HDRLEN 2 a)
def nlaReadBe32 (a : List UInt8) : UInt32 := UInt32.ofNat (uintBe NLA_HDRLEN 4 a)
def nlaReadBe64 (a : List UInt8) : UInt64 := UInt64.ofNat (uintBe NLA_HDRLEN 8 a)
def nlaReadStr (a : List UInt8) : CStr := untilNul (nlaRead a)

/-- `for_each_nla_buf`: the attributes that lie in the first `len` bytes of the buffer. -/
def nlasOf (buf : List UInt8) (len : Nat) : List (List UInt8) :=
  (records NLA_HDRLEN nlaNlaLen (buf.take len)).map fun s =>
    buf.drop ((buf.take len).length - s.length)

/-- `for_each_nla`. -/
def nlas (msg : NlMsg) : List (List UInt8) :=
  nlasOf (msg.buf.drop msg.start) (msg.buf.length - msg.start)

/-- `for_each_nla_nested`. -/
def nestedNlas (a : List UInt8) : List (List UInt8) := nlasOf (nlaRead a) (nlaLen a)

/-- A table of attributes by type: the last attribute of each type up to `max`. -/
def attrTable (as : List (List UInt8)) (max type : Nat) : Option (List UInt8) :=
  if type ≤ max then as.reverse.find? (nlaType · == type) else none

def nlmsgAttrs (msg : NlMsg) (max : Nat) : Nat → Option (List UInt8) := attrTable (nlas msg) max

def nlaNestedAttrs (a : List UInt8) (max : Nat) : Nat → Option (List UInt8) :=
  attrTable (nestedNlas a) max

/-- `nlmsg_get`: the next `len` bytes and what follows them, which stays to be read. -/
def nlmsgGet (msg : NlMsg) (len : Nat) : Option (List UInt8 × NlMsg) :=
  if msg.buf.length - msg.start < len then none
  else some (msg.buf.drop msg.start, { msg with start := msg.start + align len })

/-- `nlmsg_unget`, which asserts that so much was read. -/
def nlmsgUnget (msg : NlMsg) (len : Nat) : Option NlMsg :=
  if align len ≤ msg.start then some { msg with start := msg.start - align len } else none

theorem nlmsgUnget_nlmsgGet {msg msg' : NlMsg} {len : Nat} {b : List UInt8}
    (h : nlmsgGet msg len = some (b, msg')) : nlmsgUnget msg' len = some msg := by
  unfold nlmsgGet at h
  split_ifs at h
  obtain ⟨-, rfl⟩ := Prod.mk.inj (Option.some.inj h)
  unfold nlmsgUnget
  rw [if_pos (Nat.le_add_left _ _), Nat.add_sub_cancel]

end Plotnetcfg.Netlink
