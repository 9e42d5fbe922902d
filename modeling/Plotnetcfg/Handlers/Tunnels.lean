import Plotnetcfg.Core.Handler
import Plotnetcfg.Core.Tunnel
import Plotnetcfg.Netlink.Attr

/-! The tunnel handlers (`handlers/geneve.c`, `gre.c`, `ipxipy.c`, `vti.c`, `vxlan.c`). -/

namespace Plotnetcfg.Handlers

open Plotnetcfg.Netlink

def IFLA_INFO_KIND : Nat := 1
def IFLA_INFO_DATA : Nat := 2
def IFLA_INFO_MAX : Nat := 5

def IFLA_VXLAN_ID : Nat := 1
def IFLA_VXLAN_GROUP : Nat := 2
def IFLA_VXLAN_LOCAL : Nat := 4
def IFLA_VXLAN_PORT : Nat := 15
def IFLA_VXLAN_GROUP6 : Nat := 16
def IFLA_VXLAN_LOCAL6 : Nat := 17
def IFLA_VXLAN_COLLECT_METADATA : Nat := 25
def IFLA_VXLAN_MAX : Nat := 25

def IFLA_GENEVE_ID : Nat := 1
def IFLA_GENEVE_REMOTE : Nat := 2
def IFLA_GENEVE_PORT : Nat := 5
def IFLA_GENEVE_COLLECT_METADATA : Nat := 6
def IFLA_GENEVE_REMOTE6 : Nat := 7
def IFLA_GENEVE_MAX : Nat := 14

def IFLA_GRE_LINK : Nat := 1
def IFLA_GRE_IKEY : Nat := 4
def IFLA_GRE_OKEY : Nat := 5
def IFLA_GRE_LOCAL : Nat := 6
def IFLA_GRE_REMOTE : Nat := 7
def IFLA_GRE_MAX : Nat := 23

def IFLA_IPTUN_LINK : Nat := 1
def IFLA_IPTUN_LOCAL : Nat := 2
def IFLA_IPTUN_REMOTE : Nat := 3
def IFLA_IPTUN_PROTO : Nat := 9
def IFLA_IPTUN_MAX : Nat := 20

def IFLA_VTI_IKEY : Nat := 2
def IFLA_VTI_OKEY : Nat := 3
def IFLA_VTI_LOCAL : Nat := 4
def IFLA_VTI_REMOTE : Nat := 5
def IFLA_VTI_MAX : Nat := 6

def VXLAN_DEFAULT_PORT : UInt16 := 4789
def GENEVE_DEFAULT_PORT : UInt16 := 6081

def IPPROTO_IPIP : UInt8 := 4
def IPPROTO_IPV6 : UInt8 := 41

def infoData (linkinfo : Option Attrs) : Option (List UInt8) :=
  linkinfo.bind fun tb => tb IFLA_INFO_DATA

/-- The second of two allocations, which is made if the first one succeeds. -/
def mallocNext (first : Bool) : HandlerProg Bool := if first then malloc else pure true

def initAddr (family prefixlen : Int) (raw : List UInt8) : HandlerProg Addr := do
  let mallocOk ← malloc
  let strdupOk ← mallocNext mallocOk
  let (err, addr) := addrInit family prefixlen raw mallocOk strdupOk
  if err = 0 then pure addr else fail err

def attrConfig (entry : IfPtr) (key : CStr) (attr : Option (List UInt8))
    (value : List UInt8 → CStr) : HandlerProg Unit :=
  withSome attr fun a => addConfig entry key (value a)

def remoteConfig (entry : IfPtr) (key : CStr) (family : Int) (attr : Option (List UInt8)) :
    HandlerProg Unit :=
  withSome attr fun a => do
    let addr ← initAddr family (-1) (nlaRead a)
    if addrIsZero addr then pure () else addConfig entry key (printStr addr.formatted)

/-! ## Tunnels with one local address -/

def tunnelPriv : Private → Option Addr
  | .tunnel localAddr => some localAddr
  | _ => none

/-- The local address of the block, whose family is -1 when there is none. -/
def localConfig (entry : IfPtr) (family : Int) (attr : Option (List UInt8)) :
    HandlerProg Unit := do
  writePrivate entry (.tunnel { family := -1 })
  withSome attr fun a => do
    let addr ← initAddr family (-1) (nlaRead a)
    writePrivate entry (.tunnel addr)
    if addrIsZero addr then pure () else addConfig entry (cstr "local") (printStr addr.formatted)

def keyConfig (entry : IfPtr) (key : CStr) (attr : Option (List UInt8)) : HandlerProg Unit :=
  withSome attr fun a =>
    if nlaReadBe32 a = 0 then pure () else addConfig entry key (decimal (nlaReadBe32 a).toNat)

/-- The lower device; its index is read as one byte. -/
def setLinkIndex (entry : IfPtr) (attr : Option (List UInt8)) : HandlerProg Unit :=
  withSome attr fun a =>
    modifyWorld (·.modifyIf entry fun x => { x with linkIndex := (nlaReadU8 a).toUInt32 })

/-- A netlink callback that reads nothing when there is no data, and otherwise allocates the
block, which it frees on its error exits. -/
def tunnelNetlink (entry : IfPtr) (linkinfo : Option Attrs) (max : Nat)
    (body : Attrs → HandlerProg Unit) : HandlerProg Unit :=
  match infoData linkinfo with
  | none => fail ENOENT
  | some data => do
    callocPrivate entry (.tunnel {})
    Prog.onError (do
      allocate
      body (nlaNestedAttrs data max)) (errPriv entry)

def greCommonNetlink (family : Int) (entry : IfPtr) (linkinfo : Option Attrs) :
    HandlerProg Unit :=
  tunnelNetlink entry linkinfo IFLA_GRE_MAX fun greinfo => do
    localConfig entry family (greinfo IFLA_GRE_LOCAL)
    remoteConfig entry (cstr "remote") family (greinfo IFLA_GRE_REMOTE)
    setLinkIndex entry (greinfo IFLA_GRE_LINK)
    keyConfig entry (cstr "ikey") (greinfo IFLA_GRE_IKEY)
    keyConfig entry (cstr "okey") (greinfo IFLA_GRE_OKEY)

def greNetlink : IfPtr → Option Attrs → HandlerProg Unit := greCommonNetlink AF_INET

def gre6Netlink : IfPtr → Option Attrs → HandlerProg Unit := greCommonNetlink AF_INET6

def protoConfig (entry : IfPtr) (a : List UInt8) : HandlerProg Unit :=
  if nlaReadU8 a = IPPROTO_IPIP then addConfig entry (cstr "proto") (cstr "ipip6")
  else if nlaReadU8 a = IPPROTO_IPV6 then addConfig entry (cstr "proto") (cstr "ip6ip6")
  else if nlaReadU8 a = 0 then addConfig entry (cstr "proto") (cstr "any")
  else pure ()

def ipxipyNetlink (family : Int) (entry : IfPtr) (linkinfo : Option Attrs) : HandlerProg Unit :=
  tunnelNetlink entry linkinfo IFLA_IPTUN_MAX fun info => do
    localConfig entry family (info IFLA_IPTUN_LOCAL)
    remoteConfig entry (cstr "remote") family (info IFLA_IPTUN_REMOTE)
    setLinkIndex entry (info IFLA_IPTUN_LINK)
    if family = AF_INET6 then withSome (info IFLA_IPTUN_PROTO) (protoConfig entry) else pure ()

def ipipNetlink : IfPtr → Option Attrs → HandlerProg Unit := ipxipyNetlink AF_INET

def sitNetlink : IfPtr → Option Attrs → HandlerProg Unit := ipxipyNetlink AF_INET

def ipxip6Netlink : IfPtr → Option Attrs → HandlerProg Unit := ipxipyNetlink AF_INET6

def vtiNetlink (family : Int) (entry : IfPtr) (linkinfo : Option Attrs) : HandlerProg Unit :=
  tunnelNetlink entry linkinfo IFLA_VTI_MAX fun vtiinfo => do
    remoteConfig entry (cstr "remote") family (vtiinfo IFLA_VTI_REMOTE)
    localConfig entry family (vtiinfo IFLA_VTI_LOCAL)
    keyConfig entry (cstr "ikey") (vtiinfo IFLA_VTI_IKEY)
    keyConfig entry (cstr "okey") (vtiinfo IFLA_VTI_OKEY)

def vti4Netlink : IfPtr → Option Attrs → HandlerProg Unit := vtiNetlink AF_INET

def vti6Netlink : IfPtr → Option Attrs → HandlerProg Unit := vtiNetlink AF_INET6

def linkLocal (entry : IfPtr) (localAddr : Addr) : HandlerProg Unit := do
  let s ← Prog.get
  let x := s.world.ifs entry
  let ife ← onWorld (tunnelFindAddr (x.linkNet.getD x.ns) localAddr)
  withSome ife fun ife => do
    modifyWorld (linkSet (some ife) (some entry))
    modifyWorld (·.modifyIf entry fun x => { x with flags := { x.flags with linkWeak := true } })

/-- The body that `gre_post`, `ipxipy_post` and `vti_post` have in common. -/
def tunnelPost (entry : IfPtr) : HandlerProg Unit := do
  let localAddr ← derefPrivate tunnelPriv entry
  if 0 ≤ localAddr.family then linkLocal entry localAddr else pure ()

def grePost : IfPtr → HandlerProg Unit := tunnelPost

def ipxipyPost : IfPtr → HandlerProg Unit := tunnelPost

def vtiPost : IfPtr → HandlerProg Unit := tunnelPost

/-! ## VXLAN and GENEVE -/

def vxlanPriv : Private → Option VxlanPriv
  | .vxlan priv => some priv
  | _ => none

def vxlanFillAddr (addr : Option Addr) (aiFamily : Int) (attr : Option (List UInt8)) :
    HandlerProg (Option Addr) :=
  match attr, addr with
  | some a, none => do
    allocate
    let addr ← initAddr aiFamily (addrMaxPrefixLen aiFamily) (nlaRead a)
    pure (some addr)
  | _, _ => pure addr

def portConfig (entry : IfPtr) (default : UInt16) (attr : Option (List UInt8)) :
    HandlerProg Unit :=
  withSome attr fun a =>
    if nlaReadBe16 a = default then pure ()
    else addConfig entry (cstr "port") (decimal (nlaReadBe16 a).toNat)

def vniConfig (entry : IfPtr) (attr : Option (List UInt8)) : HandlerProg Unit :=
  attrConfig entry (cstr "VNI") attr fun a => decimal (nlaReadU32 a).toNat

def collectsMetadata (attr : Option (List UInt8)) : Bool :=
  match attr with
  | some a => nlaReadU8 a ≠ 0
  | none => false

/-- Allocates a block, also when `if_handler_init` has done so. Every error exit frees it, and
`handler_private` still points to it. -/
def ownBlockNetlink (entry : IfPtr) (zeroed : Private) (linkinfo : Option Attrs) (max : Nat)
    (body : Attrs → HandlerProg Unit) : HandlerProg Unit := do
  callocPrivate entry zeroed
  Prog.onError (match infoData linkinfo with
    | none => fail ENOENT
    | some data => do
      allocate
      body (nlaNestedAttrs data max)) (errPriv entry)

def vxlanNetlink (entry : IfPtr) (linkinfo : Option Attrs) : HandlerProg Unit :=
  ownBlockNetlink entry (.vxlan {}) linkinfo IFLA_VXLAN_MAX fun vxlaninfo => do
    vniConfig entry (vxlaninfo IFLA_VXLAN_ID)
    portConfig entry VXLAN_DEFAULT_PORT (vxlaninfo IFLA_VXLAN_PORT)
    if collectsMetadata (vxlaninfo IFLA_VXLAN_COLLECT_METADATA) then do
      writePrivate entry (.vxlan { collectMetadata := true })
      addConfig entry (cstr "mode") (cstr "external")
    else do
      let group ← vxlanFillAddr none AF_INET (vxlaninfo IFLA_VXLAN_GROUP)
      let group ← vxlanFillAddr group AF_INET6 (vxlaninfo IFLA_VXLAN_GROUP6)
      let localAddr ← vxlanFillAddr none AF_INET (vxlaninfo IFLA_VXLAN_LOCAL)
      let localAddr ← vxlanFillAddr localAddr AF_INET6 (vxlaninfo IFLA_VXLAN_LOCAL6)
      writePrivate entry (.vxlan { localAddr := localAddr, group := group })

def vxlanPost (entry : IfPtr) : HandlerProg Unit := do
  let priv ← derefPrivate vxlanPriv entry
  withSome priv.localAddr fun localAddr => do
    addConfig entry (cstr "from") (printStr localAddr.formatted)
    linkLocal entry localAddr
  withSome priv.group fun group => addConfig entry (cstr "to") (printStr group.formatted)

def geneveNetlink (entry : IfPtr) (linkinfo : Option Attrs) : HandlerProg Unit :=
  ownBlockNetlink entry (.geneve 0) linkinfo IFLA_GENEVE_MAX fun geneveinfo => do
    vniConfig entry (geneveinfo IFLA_GENEVE_ID)
    portConfig entry GENEVE_DEFAULT_PORT (geneveinfo IFLA_GENEVE_PORT)
    remoteConfig entry (cstr "remote") AF_INET (geneveinfo IFLA_GENEVE_REMOTE)
    remoteConfig entry (cstr "remote6") AF_INET6 (geneveinfo IFLA_GENEVE_REMOTE6)
    attrConfig entry (cstr "mode") (geneveinfo IFLA_GENEVE_COLLECT_METADATA) fun _ =>
      cstr "external"

/-! ## The handlers -/

def hVxlan : IfHandler where
  driver := some (cstr "vxlan")
  privateSize := some (.vxlan {})
  netlink := some vxlanNetlink
  post := some vxlanPost

def hGeneve : IfHandler where
  driver := some (cstr "geneve")
  privateSize := some (.geneve 0)
  netlink := some geneveNetlink

def hVti4 : IfHandler where
  driver := some (cstr "vti")
  netlink := some vti4Netlink
  post := some vtiPost

def hVti6 : IfHandler where
  driver := some (cstr "vti6")
  netlink := some vti6Netlink
  post := some vtiPost

def greHandler (driver : String) (netlink : IfPtr → Option Attrs → HandlerProg Unit) :
    IfHandler where
  driver := some (cstr driver)
  privateSize := some (.tunnel {})
  netlink := some netlink
  post := some grePost

def hGre : IfHandler := greHandler "gre" greNetlink
def hGretap : IfHandler := greHandler "gretap" greNetlink
def hErspan : IfHandler := greHandler "erspan" greNetlink
def hIp6gre : IfHandler := greHandler "ip6gre" gre6Netlink
def hIp6gretap : IfHandler := greHandler "ip6gretap" gre6Netlink
def hIp6erspan : IfHandler := greHandler "ip6erspan" gre6Netlink

def ipxipyHandler (driver : String) (netlink : IfPtr → Option Attrs → HandlerProg Unit) :
    IfHandler where
  driver := some (cstr driver)
  privateSize := some (.tunnel {})
  netlink := some netlink
  post := some ipxipyPost

def hIpip : IfHandler := ipxipyHandler "ipip" ipipNetlink
def hSit : IfHandler := ipxipyHandler "sit" sitNetlink
def hIp6tnl : IfHandler := ipxipyHandler "ip6tnl" ipxip6Netlink

end Plotnetcfg.Handlers
