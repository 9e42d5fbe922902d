import Plotnetcfg.Core.Match
import Plotnetcfg.Handlers.Tunnels
import Plotnetcfg.Handlers.Veth

/-! The handlers of other devices (`handlers/bond.c`, `bridge.c`, `iov.c`, `macsec.c`, `team.c`,
`vlan.c`, `xfrm.c`). -/

namespace Plotnetcfg.Handlers

open Plotnetcfg.Netlink

def IFLA_BOND_MODE : Nat := 1
def IFLA_BOND_ACTIVE_SLAVE : Nat := 2
def IFLA_BOND_MAX : Nat := 23

def IFLA_MACSEC_SCI : Nat := 1
def IFLA_MACSEC_MAX : Nat := 15

def IFLA_VLAN_ID : Nat := 1
def IFLA_VLAN_MAX : Nat := 5

def IFLA_XFRM_IF_ID : Nat := 2
def IFLA_XFRM_MAX : Nat := 2

/-- What reading a file comes to: the bytes, and `errno` when there are none. -/
structure FileRead where
  bytes : List UInt8 := []
  errno : Nat := 0

/-- What the answer of `teamd` comes to: a warning, or a runner and its active port. -/
inductive TeamReply where
  | warning (text : CStr)
  | state (runnerName : CStr) (activePort : Option Json)

structure HandlerEnv where
  sysfsFile : CStr → FileRead
  sysfsLink : CStr → Except Errno CStr
  teamd : IfEntry → TeamReply
  ethtoolDriver : IfPtr → Option CStr
  ethtoolVethPeer : CStr → UInt32

section
variable (env : HandlerEnv)

/-- The length and the contents of a file, the last byte cut off. -/
def sysfsReadfile (path : CStr) : Int × Option CStr :=
  let file := env.sysfsFile path
  if file.bytes = [] then (-file.errno, none)
  else (file.bytes.length, some (untilNul file.bytes.dropLast))

/-! ## Bonding -/

def bondModeName : List CStr :=
  [[], cstr "balance-rr", cstr "active-backup", cstr "balance-xor", cstr "broadcast",
    cstr "802.3ad", cstr "balance-tlb", cstr "balance-alb"]

def bondPriv : Private → Option BondPrivate
  | .bond priv => some priv
  | _ => none

def knownBondMode (mode : UInt8) : UInt8 := if bondModeName.length ≤ mode.toNat then 0 else mode

def bondNetlink (entry : IfPtr) (linkinfo : Option Attrs) : HandlerProg Unit :=
  match infoData linkinfo with
  | none => fail ENOENT
  | some data => do
    allocate
    let bondinfo := nlaNestedAttrs data IFLA_BOND_MAX
    withSome (bondinfo IFLA_BOND_MODE) fun a => do
      let priv ← derefPrivate bondPriv entry
      writePrivate entry (.bond { priv with mode := knownBondMode (nlaReadU8 a + 1) })
    withSome (bondinfo IFLA_BOND_ACTIVE_SLAVE) fun a => do
      let priv ← derefPrivate bondPriv entry
      writePrivate entry (.bond { priv with activeSlaveIndex := nlaReadU32 a })

/-- The length and the contents of a property. An empty one kills the program: what is freed is
not the buffer but the variable that points to it. -/
def bondGetSysfs (entry : IfPtr) (prop : CStr) : HandlerProg (Int × Option CStr) := do
  if ← malloc then do
    let s ← Prog.get
    let (len, dest) := sysfsReadfile env
      (cstr "class/net/" ++ (s.world.ifs entry).ifName ++ cstr "/bonding/" ++ prop)
    if len < 0 then pure (if len = -ENOENT then 0 else len, dest)
    else if len = 0 then Prog.fault
    else pure (len, dest)
  else pure (-ENOMEM, none)

def bondModeOf (dest : CStr) : Option UInt8 :=
  match dest.dropWhile (· != 32) with
  | [] => none
  | _ :: mode => some (UInt8.ofInt (atoi mode + 1))

def bondScanMode (entry : IfPtr) : HandlerProg Unit := do
  let priv ← derefPrivate bondPriv entry
  if priv.mode = 0 then do
    let (len, dest) ← bondGetSysfs env entry (cstr "mode")
    let mode := if 0 < len then (dest.bind bondModeOf).getD priv.mode else priv.mode
    writePrivate entry (.bond { priv with mode := knownBondMode mode })
  else pure ()

def bondScanSlave (entry : IfPtr) : HandlerProg Unit := do
  let priv ← derefPrivate bondPriv entry
  if priv.activeSlaveIndex = 0 then do
    let (_, dest) ← bondGetSysfs env entry (cstr "active_slave")
    writePrivate entry (.bond { priv with activeSlaveName := dest })
  else pure ()

def bondScan (entry : IfPtr) : HandlerProg Unit := do
  bondScanMode env entry
  bondScanSlave env entry

def matchActiveSlave (priv : BondPrivate) (x : IfEntry) : Bool :=
  if priv.activeSlaveIndex ≠ 0 ∧ x.ifIndex ≠ priv.activeSlaveIndex then false
  else
    match priv.activeSlaveName with
    | some name => x.ifName = name
    | none => true

/-- One slave is the active one, or it is passive. -/
def markSlave (entry slave : IfPtr) (key : CStr) (active : Bool) (w : World) : World :=
  if active then
    ifAddState entry key (w.ifs slave).ifName
      (w.modifyIf entry fun x => { x with activeSlave := some slave })
  else w.modifyIf slave fun x => { x with flags := { x.flags with passiveSlave := true } }

def bondMarkSlaves (entry : IfPtr) (priv : BondPrivate) : HandlerProg Unit := do
  let s ← Prog.get
  Prog.forEach (s.world.ifs entry).revMaster fun slave => do
    let s ← Prog.get
    modifyWorld (markSlave entry slave (cstr "active slave")
      (matchActiveSlave priv (s.world.ifs slave)))

def bondModeLabel (priv : BondPrivate) : Option CStr :=
  let name := bondModeName.getD priv.mode.toNat []
  if priv.mode ≠ 0 ∧ name ≠ [] then some name else none

def bondPost (entry : IfPtr) : HandlerProg Unit := do
  let priv ← derefPrivate bondPriv entry
  withSome (bondModeLabel priv) (addConfig entry (cstr "mode"))
  if priv.activeSlaveIndex ≠ 0 ∨ priv.activeSlaveName.isSome then bondMarkSlaves entry priv
  else pure ()

def bondCleanup (entry : IfPtr) : HandlerProg Unit := do
  let _ ← derefPrivate bondPriv entry
  pure ()

def hBond : IfHandler where
  driver := some (cstr "bonding")
  privateSize := some (.bond {})
  netlink := some bondNetlink
  scan := some (bondScan env)
  post := some bondPost
  cleanup := some bondCleanup

/-! ## Team -/

def teamPriv : Private → Option (Option Json)
  | .team activePortName => some activePortName
  | _ => none

def teamScan (entry : IfPtr) : HandlerProg Unit := do
  let s ← Prog.get
  match env.teamd (s.world.ifs entry) with
  | .warning text => modifyWorld (ifAddWarning entry text)
  | .state runnerName activePort => do
    addConfig entry (cstr "runner") runnerName
    withSome activePort fun jport => writePrivate entry (.team (some jport))

def teamPost (entry : IfPtr) : HandlerProg Unit := do
  let s ← Prog.get
  if (s.world.ifs entry).activeSlave.isSome then pure ()
  else do
    let activePortName ← derefPrivate teamPriv entry
    withSome activePortName fun jport =>
      Prog.forEach (s.world.ifs entry).revMaster fun slave => do
        let s ← Prog.get
        let activeName ← Prog.deref (jsonStringValue (some jport))
        modifyWorld (markSlave entry slave (cstr "active port")
          ((s.world.ifs slave).ifName = activeName))

def teamCleanup (entry : IfPtr) : HandlerProg Unit := do
  let _ ← derefPrivate teamPriv entry
  pure ()

def hTeam : IfHandler where
  driver := some (cstr "team")
  privateSize := some (.team none)
  scan := some (teamScan env)
  post := some teamPost
  cleanup := some teamCleanup

/-! ## Handlers of all drivers -/

def bridgeScan (entry : IfPtr) : HandlerProg Unit := do
  let s ← Prog.get
  if (s.world.ifs entry).masterIndex ≠ 0 then pure ()
  else do
    let (len, ifindex) := sysfsReadfile env
      (cstr "/class/net/" ++ (s.world.ifs entry).ifName ++ cstr "/brport/bridge/ifindex")
    if len < 0 then (if len = -ENOENT then pure () else fail (-len))
    else do
      let ifindex ← Prog.deref ifindex
      modifyWorld (·.modifyIf entry fun x =>
        { x with masterIndex := UInt32.ofInt (atoi ifindex) })

def hBridge : IfHandler where
  scan := some (bridgeScan env)

def iovScan (entry : IfPtr) : HandlerProg Unit := do
  allocate
  let s ← Prog.get
  let device := cstr "class/net/" ++ (s.world.ifs entry).ifName ++ cstr "/device"
  match env.sysfsLink device with
  -- this is not a PCI device
  | .error errno => if errno = ENOENT then pure () else fail errno
  | .ok resolved => do
    modifyWorld (·.modifyIf entry fun x => { x with pciPath := some resolved })
    allocate
    match env.sysfsLink (device ++ cstr "/physfn") with
    -- this is not a VF
    | .error errno => if errno = ENOENT then pure () else fail errno
    | .ok resolved =>
      modifyWorld (·.modifyIf entry fun x => { x with pciPhysfnPath := some resolved })

def matchPhysfn (entry : IfPtr) : MatchCallback := fun physfn => do
  let w ← Prog.get
  if (w.ifs physfn).pciPath.isSome ∧ (w.ifs physfn).pciPath = (w.ifs entry).pciPhysfnPath
  then pure 1
  else pure 0

def iovPost (entry : IfPtr) : HandlerProg Unit := do
  let s ← Prog.get
  let x := s.world.ifs entry
  if x.physfn.isSome ∨ x.pciPhysfnPath = none then pure ()
  else do
    let desc ← onWorld (matchIf
      { mode := .first, netnsList := some s.world.nsList, exclude := some entry }
      (matchPhysfn entry))
    modifyWorld (·.modifyIf entry fun x => { x with physfn := matchFound desc })
    if (matchFound desc).isNone then
      modifyWorld (ifAddWarning entry (cstr "failed to find the iov physfn"))
    else pure ()

def iovCleanup (_ : IfPtr) : HandlerProg Unit := pure ()

def hIov : IfHandler where
  scan := some (iovScan env)
  post := some iovPost
  cleanup := some iovCleanup

/-! ## MACsec, VLAN, XFRM and the pairs of `veth.c` -/

/-- `%x` of 64 bits. -/
def sciLabel (a : List UInt8) : CStr := cstr "sci " ++ hex (nlaReadBe64 a).toNat

def setEdgeLabel (entry : IfPtr) (text : CStr) : HandlerProg Unit := do
  allocate
  modifyWorld (·.modifyIf entry fun x => { x with edgeLabel := some text })

def macsecNetlink (entry : IfPtr) (linkinfo : Option Attrs) : HandlerProg Unit :=
  match infoData linkinfo with
  | none => fail ENOENT
  | some data => do
    allocate
    match nlaNestedAttrs data IFLA_MACSEC_MAX IFLA_MACSEC_SCI with
    | none => fail ENOENT
    | some a => setEdgeLabel entry (sciLabel a)

def hMacsec : IfHandler where
  driver := some (cstr "macsec")
  netlink := some macsecNetlink

def vlanNetlink (entry : IfPtr) (linkinfo : Option Attrs) : HandlerProg Unit :=
  match infoData linkinfo with
  | none => fail ENOENT
  | some data => do
    allocate
    match nlaNestedAttrs data IFLA_VLAN_MAX IFLA_VLAN_ID with
    | none => fail ENOENT
    | some a => do
      writePrivate entry (.vlan (nlaReadU16 a).toUInt32)
      setEdgeLabel entry (cstr "tag " ++ decimal (nlaReadU16 a).toNat)

def hVlan : IfHandler where
  driver := some (cstr "802.1Q VLAN Support")
  privateSize := some (.vlan 0)
  netlink := some vlanNetlink

def xfrmNetlink (entry : IfPtr) (linkinfo : Option Attrs) : HandlerProg Unit :=
  match infoData linkinfo with
  | none => fail ENOENT
  | some data => do
    allocate
    attrConfig entry (cstr "if_id") (nlaNestedAttrs data IFLA_XFRM_MAX IFLA_XFRM_IF_ID) fun a =>
      cstr "0x" ++ hex (nlaReadU32 a).toNat

def hXfrm : IfHandler where
  driver := some (cstr "xfrm")
  netlink := some xfrmNetlink

def hVeth : IfHandler where
  driver := some (cstr "veth")
  scan := some fun entry => modifyWorld (vethScan env.ethtoolVethPeer entry)
  post := some fun entry => onWorld (vethPost entry)

def ifHandlers : List IfHandler :=
  [hBond env, hBridge env, hGeneve, hGre, hGretap, hErspan, hIp6gre, hIp6gretap, hIp6erspan,
    hIov env, hIpip, hSit, hIp6tnl, hMacsec, hTeam env, hVeth env, hVlan, hVti4, hVti6, hVxlan,
    hXfrm]

end

end Plotnetcfg.Handlers
