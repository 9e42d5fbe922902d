import Plotnetcfg.Netlink.Genl
import Plotnetcfg.Netns.Scan

/-! Asking the kernel whether an interface is a vport (`ovs_global_init` and `check_vport` in
`handlers/openvswitch.c`). Whatever goes wrong, an interface that is none is not taken for one. -/

namespace Plotnetcfg.Openvswitch

open Netlink Netns Bytes

def OVS_VPORT_FAMILY : CStr := cstr "ovs_vport"
def OVS_VPORT_CMD_GET : UInt8 := 3
def OVS_VPORT_ATTR_NAME : UInt16 := 3

/-- `struct ovs_header` for all datapaths of the name space. -/
def anyDatapath : List UInt8 := zeros 4

/-- The id of the vport family, or 0. Without a result the program is killed. -/
def ovsGlobalInit (env : GenlEnv) : Option UInt16 :=
  match env.opened with
  | none => some 0
  | some s => (genlFamilyId env OVS_VPORT_FAMILY s).1

/-- The outcomes of the calls of `check_vport`; `setns` is that of `netns_switch`. -/
structure VportEnv extends GenlEnv where
  setns : SysResult := none

section
variable (vportGenlId : UInt16) (env : VportEnv) (name : CStr)

def vportRequest : Option OutMsg :=
  (genlmsgNew env.nlmsgNew env.realloc vportGenlId OVS_VPORT_CMD_GET 0).bind fun req =>
    (nlmsgPut env.realloc req anyDatapath).bind fun req =>
      nlaPutStr env.realloc req OVS_VPORT_ATTR_NAME name

def checkVport : Bool :=
  if vportGenlId = 0 then false
  else if env.setns.isSome then false
  else
    match env.opened with
    | none => false
    | some s =>
      match vportRequest vportGenlId env name with
      | none => false
      -- only whether the call succeeds matters, not the answer
      | some req => (nlExchange env.sock s.hnd req.msg s.evs).err == 0

end

/-! ## The answer of the kernel -/

def requestedVport (family : Option UInt16) (src : NlMsg) : Option CStr :=
  if family.map UInt16.toNat = some (nlmsgType src.buf) ∧
      slice 16 8 src.buf = [OVS_VPORT_CMD_GET, 1, 0, 0] ++ anyDatapath then
    (firstAttr { src with start := 16 } 8 OVS_VPORT_ATTR_NAME.toNat).map nlaReadStr
  else none

/-- The kernel answers the question about a vport with an error, if there is none. -/
def VportReply (family : Option UInt16) (vports : CStr → Prop) (src : NlMsg) (m : Msg) : Prop :=
  (m.isError = true ∧ m.errorCode ≠ 0) ∨
    m.isError = false ∧ ∀ name, requestedVport family src = some name → vports name

section
variable {vportGenlId : UInt16} {env : VportEnv} {name : CStr} {families : CStr → Option UInt16}
  {vports : CStr → Prop}

/-- What arrives on the socket of `check_vport` are answers of the kernel. -/
def AsksVport (vportGenlId : UInt16) (env : VportEnv) (name : CStr)
    (families : CStr → Option UInt16) (vports : CStr → Prop) : Prop :=
  ∀ s req, env.opened = some s → vportRequest vportGenlId env name = some req →
    ∃ net, Net.Run (VportReply (families OVS_VPORT_FAMILY) vports) s.hnd.pid
      (s.exchange env.sock req.msg).trace net

theorem ovsGlobalInit_told {init : GenlEnv}
    (hkernel : AsksFamily init families OVS_VPORT_FAMILY) :
    ∃ id, ovsGlobalInit init = some id ∧ (id ≠ 0 → families OVS_VPORT_FAMILY = some id) := by
  unfold ovsGlobalInit
  cases hopen : init.opened with
  | none => exact ⟨0, rfl, fun h => absurd rfl h⟩
  | some s => exact genlFamilyId_told (by decide) (by decide) hopen hkernel

theorem vportRequest_spec {req : OutMsg} (hnul : 0 ∉ name) (hname : name.length ≤ 65530)
    (hfamily : families OVS_VPORT_FAMILY = some vportGenlId)
    (h : vportRequest vportGenlId env name = some req) :
    isDump req.msg = false ∧
      requestedVport (families OVS_VPORT_FAMILY) req.msg = some name := by
  obtain ⟨m, hm, hput⟩ := Option.bind_eq_some_iff.mp h
  obtain ⟨m', hm', hput⟩ := Option.bind_eq_some_iff.mp hput
  have hreq := ((genlmsgNew_requestIs hm).nlmsgPut rfl hm').nlaPut rfl hput
  obtain ⟨a, ha, rest, hread⟩ := hreq.firstAttr rfl (by
    rw [List.length_append]
    exact Nat.succ_le_succ hname)
  have hfirst : firstAttr { req.msg with start := 16 } 8 OVS_VPORT_ATTR_NAME.toNat = some a := ha
  have hheader : slice 16 8 req.msg.buf = [OVS_VPORT_CMD_GET, 1, 0, 0] ++ anyDatapath := by
    rw [slice, hreq.drop]
    exact List.take_left' rfl
  have htype : (families OVS_VPORT_FAMILY).map UInt16.toNat =
      some (nlmsgType req.msg.buf) := by
    rw [hfamily, hreq.nlmsgType, Option.map_some]
  refine ⟨hreq.isDump, ?_⟩
  rw [requestedVport, if_pos ⟨htype, hheader⟩, hfirst, Option.map_some,
    nlaReadStr_prefix hnul hread]

/-- Answers that are late, get lost or belong to others change nothing: what `check_vport` takes
for a vport is one. -/
theorem checkVport_vouches (hnul : 0 ∉ name) (hname : name.length ≤ 65530)
    (hid : vportGenlId ≠ 0 → families OVS_VPORT_FAMILY = some vportGenlId)
    (hkernel : AsksVport vportGenlId env name families vports)
    (h : checkVport vportGenlId env name = true) : vports name := by
  unfold checkVport at h
  split_ifs at h with hzero hsetns
  cases hopen : env.opened with
  | none =>
    rw [hopen] at h
    cases h
  | some s =>
    cases hreq : vportRequest vportGenlId env name with
    | none =>
      rw [hopen, hreq] at h
      cases h
    | some req =>
      rw [hopen, hreq] at h
      obtain ⟨hdump, hvport⟩ := vportRequest_spec hnul hname (hid hzero) hreq
      obtain ⟨net, hrun⟩ := hkernel s req hopen hreq
      obtain ⟨hnd, -, rfl⟩ := Option.map_eq_some_iff.mp hopen
      have hopened : Session.Reached hnd env.evs ⟨hnd, env.evs, []⟩ := .opened
      have hreached := hopened.exchange env.sock req.msg
      have hfew : NL_RETRY_COUNT * 1 < 2 ^ 32 := by decide
      have hack : ∀ src m, VportReply (families OVS_VPORT_FAMILY) vports src m →
          m.isError = true → m.errorCode ≠ 0 := by
        intro src m hreply herr
        rcases hreply with ⟨-, hcode⟩ | ⟨hok, -⟩
        · exact hcode
        · rw [hok] at herr
          cases herr
      obtain ⟨m, hreply, hok, -⟩ := hreached.single_answer hfew hrun hack
        (List.mem_singleton.mpr rfl) hdump (beq_iff_eq.mp h)
      rcases hreply with ⟨herr, -⟩ | ⟨-, htold⟩
      · rw [hok] at herr
        cases herr
      · exact htold name hvport

end

end Plotnetcfg.Openvswitch
