import Plotnetcfg.Handlers.Openvswitch.LinkSteps
import Plotnetcfg.Handlers.Openvswitch.ReplySafety
import Plotnetcfg.Lib.TwoRuns

/-! The links that each part of the linking leaves alone: those of the interfaces of other
parts. -/

namespace Plotnetcfg.Openvswitch

abbrev linkOf (ptr : OvsIfPtr) (s : OvsState) : Option IfPtr := s.link ptr

section
variable {env : OvsEnv} {root : NsPtr}

theorem linkIface_spares (br : OvsBridge) (iface : OvsIf) (required : Bool) :
    Prog.Spares linkOf (· ≠ iface.ptr) (linkIface env root br iface required) := by
  intro s r s' hrun ptr hptr
  have hlooked := linkIface_looked env root br iface required s s rfl r s' hrun
  cases r with
  | error err => exact hlooked.link ptr hptr
  | ok u => exact hlooked.1.link ptr hptr

theorem linkPortIface_spares (br : OvsBridge) (port : OvsPort) (master : Option IfPtr)
    (iface : OvsIf) :
    Prog.Spares linkOf (· ≠ iface.ptr)
      (linkPortIface env root br port master iface) := by
  intro s r s' hrun ptr hptr
  have hturn := linkPortIface_turn env root br port master iface s s rfl r s' hrun
  cases r with
  | error err => exact hturn.link ptr hptr
  | ok u =>
    obtain ⟨s₁, s₂, e, hturn⟩ := hturn
    show s'.link ptr = s.link ptr
    rw [hturn.link, ← hturn.looked.link ptr hptr]
    cases hturn.obtains with
    | found _ heq => rw [heq]
    | created _ hcreate heq =>
      rw [heq, ← hcreate.link]
      exact Function.update_of_ne hptr _ _

theorem portMaster_spares (br : OvsBridge) (ovsMaster : OvsIf) (port : OvsPort) :
    Prog.Spares linkOf (fun _ => True) (portMaster root br ovsMaster port) := by
  intro s r s' hrun ptr _
  have hturn := portMaster_turn root br ovsMaster port s s rfl r s' hrun
  cases r with
  | error err => exact congrFun (congrArg OvsState.link hturn) ptr
  | ok master =>
    cases hturn with
    | sole _ heq => rw [heq]
    | several _ _ _ hlink => exact congrFun hlink ptr

theorem linkPort_spares (br : OvsBridge) (ovsMaster : OvsIf) (port : OvsPort) :
    Prog.Spares linkOf (fun ptr => ∀ iface ∈ port.ifaces, ptr ≠ iface.ptr)
      (linkPort env root br ovsMaster port) := by
  apply Prog.Spares.bind ((portMaster_spares br ovsMaster port).mono fun _ _ => trivial)
  intro master
  apply Prog.Spares.forEach
  exact fun iface hiface => (linkPortIface_spares br port master iface).mono fun _ h => h iface hiface

theorem linkPorts_spares (br : OvsBridge) (ovsMaster : OvsIf) (ports : List OvsPort) :
    Prog.Spares linkOf
      (fun ptr => ∀ port ∈ ports, ∀ iface ∈ port.ifaces, ptr ≠ iface.ptr)
      (Prog.forEach ports (linkPort env root br ovsMaster)) := by
  apply Prog.Spares.forEach
  exact fun port hport => (linkPort_spares br ovsMaster port).mono fun _ h => h port hport

theorem labelAdd_spares (ns : NsPtr) (text : CStr) :
    Prog.Spares linkOf (fun _ => True) (labelAdd ns text) := by
  intro s r s' hrun ptr _
  obtain ⟨-, rfl⟩ := Prod.mk.inj (Option.some.inj hrun)
  rfl

theorem linkBridge_spares (br : OvsBridge) :
    Prog.Spares linkOf (fun ptr => ∀ iface ∈ br.ifaces, ptr ≠ iface.ptr)
      (linkBridge env root br) := by
  by_cases hmain : ∃ ovsMaster, MainIface br ovsMaster
  · obtain ⟨ovsMaster, hmain⟩ := hmain
    rw [linkBridge_main env root hmain, hmain.ifaces]
    have hmainSpares : Prog.Spares linkOf (· ≠ ovsMaster.ptr)
        (linkIface env root br ovsMaster true) := linkIface_spares br ovsMaster true
    apply Prog.Spares.bind (hmainSpares.attempt.mono fun _ h => h ovsMaster List.mem_cons_self)
    intro r
    cases r with
    | error err =>
      dsimp only
      split_ifs
      · exact Prog.Spares.pure ()
      · exact Prog.Spares.throw err
    | ok u =>
      apply (linkPorts_spares br ovsMaster br.ports).mono
      intro ptr h port hport iface hiface
      exact h iface (List.mem_cons_of_mem _ (List.mem_flatMap.mpr ⟨port, hport, hiface⟩))
  · obtain ⟨text, hskipped⟩ := linkBridge_skipped env root (not_exists.mp hmain)
    rw [hskipped]
    exact (labelAdd_spares root text).mono fun _ _ => trivial

theorem linkIfaces_spares (brList : List OvsBridge) :
    Prog.Spares linkOf (fun ptr => ∀ iface ∈ allIfaces brList, ptr ≠ iface.ptr)
      (linkIfaces env root brList) := by
  apply Prog.Spares.forEach
  intro br hbr
  apply (linkBridge_spares br).mono
  exact fun ptr h iface hiface => h iface (List.mem_flatMap.mpr ⟨br, hbr, hiface⟩)

end

end Plotnetcfg.Openvswitch
