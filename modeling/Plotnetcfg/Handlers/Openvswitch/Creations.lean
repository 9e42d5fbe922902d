import Plotnetcfg.Handlers.Openvswitch.Linked

/-! The calls of `create_iface`, and what holds after the linking because each of them keeps it. -/

namespace Plotnetcfg.Openvswitch

section
variable (env : OvsEnv) (root : NsPtr)

/-- The calls of `create_iface` that the linking of a port gets to from `s`: that for the port
itself, and those for its interfaces. -/
inductive PortCreate (br : OvsBridge) (ovsMaster : OvsIf) (port : OvsPort) (s : OvsState) :
    CStr → OvsState → Prop where
  | own (hcount : 1 < port.ifaceCount) : PortCreate br ovsMaster port s port.name s
  | member {master : Option IfPtr} {ifaces ifaces' : List OvsIf} {iface : OvsIf}
      {t t' t'' : OvsState}
      (hmaster : portMaster root br ovsMaster port s = some (.ok master, t))
      (hifaces : port.ifaces = ifaces ++ iface :: ifaces')
      (hbefore : Prog.forEach ifaces (linkPortIface env root br port master) t =
        some (.ok (), t'))
      (hsearch : linkIface env root br iface false t' = some (.ok (), t''))
      (hnone : t''.link iface.ptr = none) : PortCreate br ovsMaster port s iface.name t''

inductive BridgeCreate (br : OvsBridge) (s : OvsState) : CStr → OvsState → Prop where
  | port {ovsMaster : OvsIf} {ports ports' : List OvsPort} {port : OvsPort} {s₁ s₂ t : OvsState}
      {name : CStr} (hmain : MainIface br ovsMaster)
      (hlinked : linkIface env root br ovsMaster true s = some (.ok (), s₁))
      (hports : br.ports = ports ++ port :: ports')
      (hbefore : Prog.forEach ports (linkPort env root br ovsMaster) s₁ = some (.ok (), s₂))
      (hcall : PortCreate env root br ovsMaster port s₂ name t) : BridgeCreate br s name t

def CreateCall (brList : List OvsBridge) (s₀ : OvsState) (br : OvsBridge) (name : CStr)
    (t : OvsState) : Prop :=
  ∃ done rest s, brList = done ++ br :: rest ∧
    linkIfaces env root done s₀ = some (.ok (), s) ∧ BridgeCreate env root br s name t

/-! ## The rule -/

variable {I : World → Prop} (hnamed : ∀ w w', Named w w' → I w → I w') (br : OvsBridge)
include hnamed

theorem linkPortIface_created (port : OvsPort) (master : Option IfPtr) (iface : OvsIf)
    {s : OvsState} (hI : I s.world)
    (hcreate : ∀ t t' e, linkIface env root br iface false s = some (.ok (), t) →
      t.link iface.ptr = none → I t.world → Creates root iface.name br.name t t' e → I t'.world) :
    Prog.Runs (· = s) (linkPortIface env root br port master iface) (fun _ s' => I s'.world)
      (fun s' => I s'.world) := by
  intro u hu r s' hrun
  rw [hu] at hrun
  have hturn := linkPortIface_turn env root br port master iface s s rfl r s' hrun
  cases r with
  | error err => exact hnamed _ _ hturn.world.toNamed hI
  | ok v =>
    obtain ⟨s₁, s₂, e, hturn⟩ := hturn
    have hI₁ : I s₁.world := hnamed _ _ hturn.looked.world.toNamed hI
    have hI₂ : I s₂.world := by
      cases hturn.obtains with
      | found hlink heq =>
        rw [heq]
        exact hI₁
      | created hlink hcreated heq =>
        have hcreate₂ := hcreate _ _ _ hturn.search hlink hI₁ hcreated
        rw [heq]
        exact hcreate₂
    exact hnamed _ _ hturn.enslaves.toNamed hI₂

theorem portMaster_created (ovsMaster : OvsIf) (port : OvsPort) {s : OvsState} (hI : I s.world)
    (hcreate : ∀ t' e, 1 < port.ifaceCount → Creates root port.name br.name s t' e →
      I t'.world) :
    Prog.Runs (· = s) (portMaster root br ovsMaster port) (fun _ s' => I s'.world)
      (fun s' => I s'.world) := by
  intro u hu r s' hrun
  rw [hu] at hrun
  have hturn := portMaster_turn root br ovsMaster port s s rfl r s' hrun
  cases r with
  | error err =>
    obtain rfl : s' = s := hturn
    exact hI
  | ok master =>
    cases hturn with
    | sole hcount heq =>
      rw [heq]
      exact hI
    | several hcount hcreated henslaves hlink =>
      exact hnamed _ _ henslaves.toNamed (hcreate _ _ hcount hcreated)

theorem linkPortIfaces_created (port : OvsPort) (master : Option IfPtr) (ifaces : List OvsIf)
    {s : OvsState} (hI : I s.world)
    (hcreate : ∀ pre iface post t t' t'' e, ifaces = pre ++ iface :: post →
      Prog.forEach pre (linkPortIface env root br port master) s = some (.ok (), t) →
      linkIface env root br iface false t = some (.ok (), t') → t'.link iface.ptr = none →
      I t'.world → Creates root iface.name br.name t' t'' e → I t''.world) :
    Prog.Runs (· = s) (Prog.forEach ifaces (linkPortIface env root br port master))
      (fun _ s' => I s'.world) (fun s' => I s'.world) :=
  Prog.Triple.forEachReached (I := fun _ s => I s.world)
    (fun pre iface post t hsplit hbefore ht =>
      linkPortIface_created env root hnamed br port master iface ht fun t' t'' e =>
        hcreate pre iface post t t' t'' e hsplit hbefore) hI

theorem linkPort_created (ovsMaster : OvsIf) (port : OvsPort) {s : OvsState} (hI : I s.world)
    (hcreate : ∀ name t t' e, PortCreate env root br ovsMaster port s name t → I t.world →
      Creates root name br.name t t' e → I t'.world) :
    Prog.Runs (· = s) (linkPort env root br ovsMaster port) (fun _ s' => I s'.world)
      (fun s' => I s'.world) := by
  have hmaster : Prog.Runs (· = s) (portMaster root br ovsMaster port)
      (fun master t => portMaster root br ovsMaster port s = some (.ok master, t) ∧ I t.world)
      (fun s' => I s'.world) := by
    intro u hu r t hrun
    rw [hu] at hrun
    have hkeep := portMaster_created root hnamed br ovsMaster port hI
      (fun t' e hcount => hcreate _ _ t' e (.own hcount) hI) s rfl r t hrun
    cases r with
    | error err => exact hkeep
    | ok master => exact ⟨hrun, hkeep⟩
  unfold linkPort
  apply Prog.Triple.bind hmaster
  rintro master t ⟨hrun, ht⟩
  have hifaces := linkPortIfaces_created env root hnamed br port master port.ifaces ht
    fun pre iface post t₁ t₂ t₃ e hsplit hbefore hsearch hnone =>
      hcreate _ _ _ e (.member hrun hsplit hbefore hsearch hnone)
  exact hifaces t rfl

theorem linkPorts_created (ovsMaster : OvsIf) (ports : List OvsPort) {s : OvsState}
    (hI : I s.world)
    (hcreate : ∀ pre port post t name t' t'' e, ports = pre ++ port :: post →
      Prog.forEach pre (linkPort env root br ovsMaster) s = some (.ok (), t) →
      PortCreate env root br ovsMaster port t name t' → I t'.world →
      Creates root name br.name t' t'' e → I t''.world) :
    Prog.Runs (· = s) (Prog.forEach ports (linkPort env root br ovsMaster))
      (fun _ s' => I s'.world) (fun s' => I s'.world) :=
  Prog.Triple.forEachReached (I := fun _ s => I s.world)
    (fun pre port post t hsplit hbefore ht =>
      linkPort_created env root hnamed br ovsMaster port ht fun name t' t'' e =>
        hcreate pre port post t name t' t'' e hsplit hbefore) hI

theorem linkBridge_created {s : OvsState} (hI : I s.world)
    (hcreate : ∀ name t t' e, BridgeCreate env root br s name t → I t.world →
      Creates root name br.name t t' e → I t'.world) :
    Prog.Runs (· = s) (linkBridge env root br) (fun _ s' => I s'.world)
      (fun s' => I s'.world) := by
  by_cases hmain : ∃ ovsMaster, MainIface br ovsMaster
  swap
  · obtain ⟨text, hskipped⟩ := linkBridge_skipped env root (not_exists.mp hmain)
    rw [hskipped]
    apply Prog.Triple.modify
    rintro _ rfl
    exact hnamed _ _ (labelAdd_steady _ _ _).toNamed hI
  obtain ⟨ovsMaster, hmain⟩ := hmain
  rw [linkBridge_main env root hmain]
  have hattempt : Prog.Runs (· = s) (Prog.attempt (linkIface env root br ovsMaster true))
      (fun r t => linkIface env root br ovsMaster true s = some (r, t) ∧ I t.world)
      fun s' => I s'.world := by
    apply Prog.Triple.attempt
    intro u hu r t hrun
    rw [hu] at hrun
    have hlooked := linkIface_looked env root br ovsMaster true s s rfl r t hrun
    cases r with
    | error err => exact ⟨hrun, hnamed _ _ hlooked.world.toNamed hI⟩
    | ok v => exact ⟨hrun, hnamed _ _ hlooked.1.world.toNamed hI⟩
  apply Prog.Triple.bind hattempt
  rintro r t ⟨hrun, ht⟩
  cases r with
  | error err =>
    have hend : Prog.Runs (· = t) (if err = ENOENT ∨ err = ERANGE then pure ()
        else Prog.throw err : OvsProg Unit) (fun _ s' => I s'.world) fun s' => I s'.world := by
      apply Prog.Triple.ite
      · intro _
        apply Prog.Triple.pure
        rintro _ rfl
        exact ht
      · intro _
        apply Prog.Triple.throw
        rintro _ rfl
        exact ht
    exact hend t rfl
  | ok v =>
    have hports := linkPorts_created env root hnamed br ovsMaster br.ports ht
      fun pre port post t₁ name t₂ t₃ e hsplit hbefore hcall =>
        hcreate name t₂ t₃ e (.port hmain hrun hsplit hbefore hcall)
    exact hports t rfl

omit br in
/-- What names alone decide, and every call of `create_iface` keeps, holds after the linking. -/
theorem linkIfaces_created (brList : List OvsBridge) {s : OvsState} (hI : I s.world)
    (hcreate : ∀ br name t t' e, CreateCall env root brList s br name t → I t.world →
      Creates root name br.name t t' e → I t'.world) :
    Prog.Runs (· = s) (linkIfaces env root brList) (fun _ s' => I s'.world)
      (fun s' => I s'.world) := by
  unfold linkIfaces
  exact Prog.Triple.forEachReached (I := fun _ s => I s.world)
    (fun done br rest t hsplit hbefore ht =>
      linkBridge_created env root hnamed br ht fun name t' t'' e hcall =>
        hcreate br name t' t'' e ⟨done, rest, t, hsplit, hbefore, hcall⟩) hI

end

end Plotnetcfg.Openvswitch
