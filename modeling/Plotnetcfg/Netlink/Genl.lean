import Plotnetcfg.Netlink.Request

/-! Generic netlink (`genl_family_id` in `netlink.c`): the id of a family by its name, and the
bytes of a request. -/

namespace Plotnetcfg.Netlink

open Bytes AlignedRecords

def GENL_ID_CTRL : UInt16 := 16
def CTRL_CMD_GETFAMILY : UInt8 := 3
def CTRL_ATTR_FAMILY_ID : UInt16 := 1
def CTRL_ATTR_FAMILY_NAME : UInt16 := 2

def GENL_HDRLEN : Nat := 4

/-- The outcomes of the calls made for one question over generic netlink: of `genl_open`, of the
allocations and of the calls on the socket. -/
structure GenlEnv where
  genlOpen : Option NlHandle
  nlmsgNew : Bool := true
  realloc : Nat → Bool := fun _ => true
  sock : SockEnv := {}
  evs : List SockEvent

def GenlEnv.opened (env : GenlEnv) : Option Session :=
  env.genlOpen.map fun hnd => ⟨hnd, env.evs, []⟩

section
variable (env : GenlEnv)

def familyRequest (name : CStr) : Option OutMsg :=
  (genlmsgNew env.nlmsgNew env.realloc GENL_ID_CTRL CTRL_CMD_GETFAMILY 0).bind fun req =>
    nlaPutStr env.realloc req CTRL_ATTR_FAMILY_NAME name

/-- `genl_family_id`: 0 if the id is not known. Without a result the program is killed. -/
def genlFamilyId (name : CStr) (s : Session) : Option UInt16 × Session :=
  let (a, s) := askAttr env.sock (familyRequest env name) GENL_HDRLEN CTRL_ATTR_FAMILY_ID.toNat s
  (a.map fun a => (a.map nlaReadU16).getD 0, s)

end

/-! ## The bytes of a request -/

/-- A request of a type, with no other flag, and `body` behind its header. -/
structure RequestIs (type : UInt16) (body : List UInt8) (m : OutMsg) : Prop where
  bytes : m.msg.buf.drop 4 = leBytes 2 type.toNat ++ leBytes 2 1 ++ zeros 8 ++ body
  length : m.msg.buf.length = 16 + body.length

section
variable {realloc : Nat → Bool} {m m' : OutMsg} {type : UInt16} {body data : List UInt8}

theorem nlmsgNew_requestIs (type : UInt16) : RequestIs type [] (nlmsgNew type 0) where
  bytes := by
    rw [List.append_nil]
    rfl
  length := by simp [nlmsgNew, setNlmsgLen, zeros]

theorem RequestIs.gap (h : RequestIs type body m) (haligned : align body.length = body.length) :
    gap m.msg.buf.length = [] := by
  have hlength : align (16 + body.length) - (16 + body.length) = 0 := by
    unfold align at *
    omega
  rw [h.length, Netlink.gap, hlength]
  rfl

theorem RequestIs.nlmsgPut (h : RequestIs type body m) (haligned : align body.length = body.length)
    (hput : nlmsgPut realloc m data = some m') : RequestIs type (body ++ data) m' := by
  obtain ⟨hdrop, hlength, -⟩ := nlmsgPut_bytes hput
  have hsame : align m.msg.buf.length = m.msg.buf.length := by
    rw [← length_gap, h.gap haligned]
    rfl
  constructor
  · rw [hdrop, h.gap haligned, h.bytes, List.append_nil, List.append_assoc]
  · rw [hlength, hsame, h.length, List.length_append, Nat.add_assoc]

theorem RequestIs.nlaPut {attr : UInt16} (h : RequestIs type body m)
    (haligned : align body.length = body.length) (hput : nlaPut realloc m attr data = some m') :
    RequestIs type (body ++ attrBytes (attr, data)) m' := by
  obtain ⟨hdrop, hlength, -⟩ := nlaPut_bytes hput
  have hsame : align m.msg.buf.length = m.msg.buf.length := by
    rw [← length_gap, h.gap haligned]
    rfl
  constructor
  · rw [hdrop, h.gap haligned, h.bytes, List.nil_append, List.append_assoc]
  · rw [hlength, hsame, h.length, List.length_append, Nat.add_assoc]

theorem RequestIs.nlmsgType (h : RequestIs type body m) : nlmsgType m.msg.buf = type.toNat := by
  have hread := uint_prefix_leBytes [] (leBytes 2 1 ++ zeros 8 ++ body) (k := 2) type.toNat_lt
  have hdrop : Netlink.nlmsgType m.msg.buf = uint 0 2 (m.msg.buf.drop 4) := by
    rw [Netlink.nlmsgType, uint, uint, slice, slice, List.drop_drop]
  rw [hdrop, h.bytes]
  simpa using hread

theorem RequestIs.isDump (h : RequestIs type body m) : isDump m.msg = false := by
  have hread := uint_prefix_leBytes (leBytes 2 type.toNat) (zeros 8 ++ body) (k := 2) (v := 1)
    (by decide)
  have hflags : nlmsgFlags m.msg.buf = 1 := by
    rw [nlmsgFlags_drop, h.bytes]
    simpa using hread
  rw [Netlink.isDump, hflags]
  decide

theorem RequestIs.drop (h : RequestIs type body m) : m.msg.buf.drop 16 = body := by
  have hdrop : m.msg.buf.drop 16 = (m.msg.buf.drop 4).drop 12 := by rw [List.drop_drop]
  rw [hdrop, h.bytes, List.drop_left']
  rw [List.length_append, List.length_append, length_leBytes, length_leBytes, zeros,
    List.length_replicate]

theorem RequestIs.firstAttr {attr : UInt16} {hdr : List UInt8}
    (h : RequestIs type (hdr ++ attrBytes (attr, data)) m)
    (haligned : align hdr.length = hdr.length) (hdata : data.length ≤ 65531) :
    ∃ a, firstAttr { m.msg with start := 16 } hdr.length attr.toNat = some a ∧
      ∃ rest, nlaRead a = data ++ rest := by
  have hroom : ¬ m.msg.buf.length - 16 < hdr.length := by
    rw [h.length, List.length_append]
    omega
  have hdrop : m.msg.buf.drop (16 + hdr.length) = attrsBytes [(attr, data)] := by
    rw [← List.drop_drop, h.drop, List.drop_left, attrsBytes, attrsBytes, if_pos rfl,
      List.append_nil, List.append_nil]
  have hattrs : List.Forall₂ Encodes (nlas { m.msg with start := 16 + hdr.length })
      [(attr, data)] := by
    have hlength : (m.msg.buf.drop (16 + hdr.length)).length =
        m.msg.buf.length - (16 + hdr.length) := List.length_drop
    have hwhole := nlasOf_append (m.msg.buf.drop (16 + hdr.length)) []
    simp only [List.append_nil, List.map_id'] at hwhole
    rw [nlas, ← hlength, hwhole, hdrop]
    exact records_attrsBytes (by simpa using hdata)
  have hget : Netlink.firstAttr { m.msg with start := 16 } hdr.length attr.toNat =
      (nlas { m.msg with start := 16 + hdr.length }).find? (nlaType · == attr.toNat) := by
    simp only [Netlink.firstAttr, nlmsgGet, if_neg hroom, Option.bind_some, haligned]
  rw [hget]
  generalize nlas { m.msg with start := 16 + hdr.length } = as at hattrs ⊢
  cases hattrs with
  | cons hfirst hnil =>
    cases hnil
    obtain ⟨-, rest, rfl, -⟩ := hfirst
    refine ⟨_, List.find?_cons_of_pos (by simp [nlaType_attrBytes]), rest, ?_⟩
    exact nlaRead_attrBytes rest

theorem genlmsgNew_requestIs {alloc : Bool} {cmd : UInt8}
    (h : genlmsgNew alloc realloc type cmd 0 = some m) : RequestIs type [cmd, 1, 0, 0] m := by
  unfold genlmsgNew at h
  split at h
  · exact (nlmsgNew_requestIs type).nlmsgPut rfl h
  · cases h

end

theorem nlaReadStr_prefix {a rest : List UInt8} {str : CStr} (hnul : 0 ∉ str)
    (h : nlaRead a = str ++ [0] ++ rest) : nlaReadStr a = str := by
  have hkept : ∀ c ∈ str, (c != 0) = true := fun c hc => bne_iff_ne.mpr fun h0 => hnul (h0 ▸ hc)
  rw [nlaReadStr, h, List.append_assoc, untilNul, List.takeWhile_append_of_pos hkept]
  exact List.append_nil str

/-! ## The answer of the kernel -/

def familyValue (families : CStr → Option UInt16) (src : NlMsg) : Option (List UInt8) :=
  ((firstAttr { src with start := 16 } GENL_HDRLEN CTRL_ATTR_FAMILY_NAME.toNat).bind fun a =>
    families (nlaReadStr a)).map fun id => leBytes 2 id.toNat

section
variable {env : GenlEnv} {families : CStr → Option UInt16} {name : CStr}

/-- What arrives on the socket of the question are answers of the kernel. -/
def AsksFamily (env : GenlEnv) (families : CStr → Option UInt16) (name : CStr) : Prop :=
  ∀ s, env.opened = some s → ∃ net, Net.Run
    (Tells GENL_HDRLEN CTRL_ATTR_FAMILY_ID.toNat (familyValue families)) s.hnd.pid
    (genlFamilyId env name s).2.trace net

theorem familyRequest_spec {req : OutMsg} (hnul : 0 ∉ name) (hname : name.length ≤ 65530)
    (h : familyRequest env name = some req) :
    isDump req.msg = false ∧
      familyValue families req.msg = (families name).map fun id => leBytes 2 id.toNat := by
  obtain ⟨m, hm, hput⟩ := Option.bind_eq_some_iff.mp h
  have hreq := (genlmsgNew_requestIs hm).nlaPut rfl hput
  obtain ⟨a, ha, rest, hread⟩ := hreq.firstAttr rfl (by
    rw [List.length_append]
    exact Nat.succ_le_succ hname)
  refine ⟨hreq.isDump, ?_⟩
  have hfirst : firstAttr { req.msg with start := 16 } GENL_HDRLEN CTRL_ATTR_FAMILY_NAME.toNat =
      some a := ha
  rw [familyValue, hfirst, Option.bind_some, nlaReadStr_prefix hnul hread]

theorem nlaReadU16_leBytes {a rest : List UInt8} {v : UInt16}
    (h : nlaRead a = leBytes 2 v.toNat ++ rest) : nlaReadU16 a = v := by
  have hread := uint_prefix_leBytes [] rest (k := 2) v.toNat_lt
  have huint : uint NLA_HDRLEN 2 a = v.toNat := by
    rw [List.nil_append, ← h, nlaRead, uint, slice, List.length_nil, List.drop_zero] at hread
    rwa [uint, slice]
  rw [nlaReadU16, huint, UInt16.ofNat_toNat]

theorem genlFamilyId_told (hnul : 0 ∉ name) (hname : name.length ≤ 65530) {s : Session}
    (hs : env.opened = some s) (hkernel : AsksFamily env families name) :
    ∃ id, (genlFamilyId env name s).1 = some id ∧ (id ≠ 0 → families name = some id) := by
  obtain ⟨net, hrun⟩ := hkernel s hs
  obtain ⟨hnd, -, rfl⟩ := Option.map_eq_some_iff.mp hs
  unfold genlFamilyId at hrun ⊢
  cases hreq : familyRequest env name with
  | none => exact ⟨0, rfl, fun h => absurd rfl h⟩
  | some req =>
    obtain ⟨hdump, hvalue⟩ := familyRequest_spec hnul hname hreq
    rw [hreq] at hrun
    dsimp only at hrun
    rw [askAttr_session] at hrun
    have hopened : Session.Reached hnd env.evs ⟨hnd, env.evs, []⟩ := .opened
    have hreached := hopened.exchange env.sock req.msg
    have hfew : NL_RETRY_COUNT * 1 < 2 ^ 32 := by decide
    obtain ⟨a, hask, htold⟩ := askAttr_tells hreached hfew hrun (List.mem_singleton.mpr rfl) hdump
    dsimp only
    rw [hask]
    refine ⟨_, rfl, fun hid => ?_⟩
    rcases htold with ⟨-, rfl⟩ | htold
    · exact absurd rfl hid
    · rw [hvalue] at htold
      cases hfamily : families name with
      | none =>
        rw [hfamily] at htold
        cases htold
        exact absurd rfl hid
      | some id =>
        rw [hfamily] at htold
        cases htold with
        | some hread =>
          obtain ⟨rest, hread⟩ := hread
          exact congrArg some (nlaReadU16_leBytes hread).symm

end

end Plotnetcfg.Netlink
