import Plotnetcfg.Core.Tunnel
import Plotnetcfg.Handlers.Openvswitch.Parse

/-! Linking the interfaces of ovsdb to those of the kernel (`handlers/openvswitch.c`). -/

namespace Plotnetcfg.Openvswitch

/-- What the program asks the kernel and the C library: `checkVport ns entry` is the answer of
`check_vport`. -/
structure OvsEnv where
  checkVport : NsPtr → IfPtr → World → Bool
  inetPton : Int → CStr → Option (List UInt8)

instance : Inhabited OvsEnv := ⟨⟨fun _ _ _ => false, fun _ _ => none⟩⟩

def onWorld {α : Type} (p : Prog Int World α) : OvsProg α :=
  Prog.zoom OvsState.world (fun w s => { s with world := w }) p

def modifyWorld (f : World → World) : OvsProg Unit := onWorld (Prog.modify f)

def setLink (ptr : OvsIfPtr) (link : Option IfPtr) : OvsProg Unit :=
  Prog.modify fun s => { s with link := Function.update s.link ptr link }

/-! ## Finding the interface -/

/-- The weight of a match; `master` is the link of the bridge, if it is known already. -/
def linkWeight (master : Option IfPtr) (entry : IfPtr) (w : World) : Int :=
  match master with
  | some m => if (w.ifs m).ns = (w.ifs entry).ns then 2 else 1
  | none => if (w.nss (w.ifs entry).ns).name = none then 2 else 1

/-- The entry is enslaved to something else than the kernel datapath. -/
def masterElsewhere (dpType : OvsDpType) (master : Option IfPtr) (entry : IfPtr) (w : World) :
    Bool :=
  match master, dpType, (w.ifs entry).master with
  | some _, .system, some m => (w.ifs m).ifName ≠ cstr "ovs-system"
  | _, _, _ => false

/-- No kernel datapath has the entry: it has no master and is no vport. -/
def notVport (env : OvsEnv) (master : Option IfPtr) (entry : IfPtr) (w : World) : Bool :=
  match master with
  | some m => (w.ifs entry).master.isNone && !env.checkVport (w.ifs m).ns entry w
  | none => false

def linkIfaceSearch (env : OvsEnv) (dpType : OvsDpType) (master : Option IfPtr) (iface : OvsIf) :
    MatchCallback := fun entry => do
  let w ← Prog.get
  if masterElsewhere dpType master entry w then pure 0
  else if iface.name ≠ (w.ifs entry).ifName then pure 0
  else
    match dpType with
    | .system =>
      if iface.type = cstr "internal" then do
        let driver ← Prog.deref (w.ifs entry).driver
        if driver ≠ cstr "openvswitch" then pure 0
        else if notVport env master entry w then pure 0
        else pure (linkWeight master entry w)
      else if notVport env master entry w then pure 0
      else pure (linkWeight master entry w)
    | .netdev =>
      if iface.type = cstr "internal" then do
        let driver ← Prog.deref (w.ifs entry).driver
        if driver ≠ cstr "tun" ∨ (w.ifs entry).subDriver.isSome then pure 0
        else do
          Prog.modify fun w => w.modifyIf entry fun x =>
            { x with subDriver := some (cstr "openvswitch") }
          pure (linkWeight master entry w)
      else pure 0

section
variable (env : OvsEnv) (root : NsPtr)

def linkIface (br : OvsBridge) (iface : OvsIf) (required : Bool) : OvsProg Unit := do
  let s ← Prog.get
  if (s.link iface.ptr).isSome then pure ()
  else do
    let system ← Prog.deref br.system
    let master ← Prog.deref system.ifaces.head?
    let desc ← onWorld (matchIf { netnsList := some s.world.nsList }
      (linkIfaceSearch env br.dpType (s.link master.ptr) iface))
    setLink iface.ptr (matchFound desc)
    if matchAmbiguous desc then do
      labelAdd root (cstr "Failed to map openvswitch interface " ++ iface.name ++
        cstr " reliably")
      Prog.throw (ERANGE : Int)
    else if required && (matchFound desc).isNone then do
      labelAdd root (cstr "Failed to map openvswitch interface " ++ iface.name)
      Prog.throw (ENOENT : Int)
    else pure ()

/-! ## The interfaces the kernel does not have, and labels -/

def addIface (name brName : CStr) (entry : IfPtr) (w : World) : World :=
  let w := w.modifyIf entry fun x =>
    { x with
      internalNs := some (cstr "ovs:" ++ brName)
      ifName := name
      ns := root
      flags := { x.flags with internal := true } }
  w.modifyNs root fun ns => { ns with ifaces := ns.ifaces ++ [entry] }

def createIface (name brName : CStr) : OvsProg IfPtr := fun s =>
  match ifCreate s.world with
  | none => some (.error ENOMEM, s)
  | some (entry, w) => some (.ok entry, { s with world := addIface root name brName entry w })

def addConfig (key : CStr) (value : Option CStr) (x : IfEntry) : IfEntry :=
  match value with
  | some value => x.addProperty .config key value
  | none => x

def labelIface (iface : OvsIf) (x : IfEntry) : IfEntry :=
  let x := if iface.type ≠ [] then addConfig (cstr "type") (some iface.type) x else x
  let x := addConfig (cstr "from") iface.localIp x
  let x := addConfig (cstr "to") iface.remoteIp x
  let x := addConfig (cstr "key") iface.key x
  addConfig (cstr "hw") iface.hwDev x

def labelPortOrIface (port : OvsPort) (x : IfEntry) : IfEntry :=
  let x := if port.tag ≠ 0 then
      { x with edgeLabel := some (cstr "tag " ++ decimal port.tag.toNat) }
    else if port.trunksCount ≠ 0 then
      { x with edgeLabel := some (cstr "trunks " ++
          joinWith (cstr ", ") ((port.trunks.getD []).map fun vlan => decimal vlan.toNat)) }
    else x
  addConfig (cstr "bond mode") port.bondMode x

/-! ## Tunnels and patch ports -/

def linkTunnel (iface : OvsIf) (link : IfPtr) : OvsProg Unit :=
  match iface.localIp with
  | none => pure ()
  | some [] => pure ()
  | some localIp => do
    let s ← Prog.get
    let found ← onWorld (tunnelFindStr env.inetPton (s.world.ifs link).ns localIp)
    modifyWorld (linkSet found (some link))
    modifyWorld (·.modifyIf link fun x => { x with flags := { x.flags with linkWeak := true } })

def linkPatchSearch (iface : OvsIf) : MatchCallback := fun entry => do
  let w ← Prog.get
  if iface.peer ≠ some (w.ifs entry).ifName ∨ !(w.ifs entry).flags.internal then pure 0
  else pure 1

def linkPatch (iface : OvsIf) (link : IfPtr) : OvsProg Unit := do
  let s ← Prog.get
  let desc ← onWorld (matchIf { netnsList := some s.world.nsList } (linkPatchSearch iface))
  if matchAmbiguous desc then
    modifyWorld (ifAddWarning link (cstr "failed to find openvswitch patch port peer reliably"))
  else
    match matchFound desc with
    | some found => modifyWorld (peerSet (some link) (some found))
    | none => pure ()

/-! ## All interfaces -/

/-- The interface linked to `iface`, created when the kernel has none. -/
def linkedIface (br : OvsBridge) (iface : OvsIf) : OvsProg IfPtr := do
  let s ← Prog.get
  match s.link iface.ptr with
  | some link => pure link
  | none => do
    let link ← createIface root iface.name br.name
    setLink iface.ptr (some link)
    pure link

def linkPortIface (br : OvsBridge) (port : OvsPort) (master : Option IfPtr) (iface : OvsIf) :
    OvsProg Unit := do
  linkIface env root br iface false
  let link ← linkedIface root br iface
  modifyWorld (masterSet master link)
  modifyWorld (·.modifyIf link (labelIface iface))
  modifyWorld (·.modifyIf link fun x =>
    if port.ifaceCount = 1 then labelPortOrIface port x else x)
  if ifaceIsTunnel iface then linkTunnel env iface link
  else if iface.type = cstr "patch" then linkPatch iface link
  else pure ()

/-- The interface that the interfaces of a port are enslaved to: one created for the port when
it has several, otherwise that of the bridge. -/
def portMaster (br : OvsBridge) (ovsMaster : OvsIf) (port : OvsPort) :
    OvsProg (Option IfPtr) := do
  let s ← Prog.get
  let master := s.link ovsMaster.ptr
  if 1 < port.ifaceCount then do
    let link ← createIface root port.name br.name
    modifyWorld (masterSet master link)
    modifyWorld (·.modifyIf link (labelPortOrIface port))
    pure (some link)
  else pure master

def linkPort (br : OvsBridge) (ovsMaster : OvsIf) (port : OvsPort) : OvsProg Unit := do
  let master ← portMaster root br ovsMaster port
  Prog.forEach port.ifaces (linkPortIface env root br port master)

def linkBridge (br : OvsBridge) : OvsProg Unit :=
  match br.system with
  | none =>
    labelAdd root (cstr "Failed to find main interface for openvswitch bridge " ++ br.name)
  | some system =>
    if system.ifaceCount = 0 then
      labelAdd root (cstr "Failed to find main interface for openvswitch bridge " ++ br.name)
    else if 1 < system.ifaceCount then
      labelAdd root (cstr "Main port for openvswitch bridge " ++ br.name ++
        cstr " appears to have several interfaces")
    else do
      let ovsMaster ← Prog.deref system.ifaces.head?
      match ← Prog.attempt (linkIface env root br ovsMaster true) with
      | .error err =>
        -- the warning is already reported by link_iface
        if err = ENOENT ∨ err = ERANGE then pure () else Prog.throw err
      | .ok () => Prog.forEach br.ports (linkPort env root br ovsMaster)

def linkIfaces (brList : List OvsBridge) : OvsProg Unit :=
  Prog.forEach brList (linkBridge env root)

end

end Plotnetcfg.Openvswitch
