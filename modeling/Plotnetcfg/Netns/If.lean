import Plotnetcfg.Handlers.Devices

/-! Reading an interface from a message of the link dump (`if.c`). The copies of the driver's
name and the labels are made without running out of memory. -/

namespace Plotnetcfg.Handlers

open Plotnetcfg.Netlink Bytes

def RTM_NEWLINK : Nat := 16

def IFINFOMSG_LEN : Nat := 16

def IFF_UP : Nat := 0x1
def IFF_LOOPBACK : Nat := 0x8
def IFF_RUNNING : Nat := 0x40

def IFLA_ADDRESS : Nat := 1
def IFLA_IFNAME : Nat := 3
def IFLA_MTU : Nat := 4
def IFLA_LINK : Nat := 5
def IFLA_MASTER : Nat := 10
def IFLA_LINKINFO : Nat := 18
def IFLA_LINK_NETNSID : Nat := 37
def IFLA_XDP : Nat := 43
def IFLA_MAX : Nat := 66

def IFLA_XDP_ATTACHED : Nat := 2
def IFLA_XDP_PROG_ID : Nat := 4
def IFLA_XDP_DRV_PROG_ID : Nat := 5
def IFLA_XDP_SKB_PROG_ID : Nat := 6
def IFLA_XDP_HW_PROG_ID : Nat := 7
def IFLA_XDP_MAX : Nat := 7

def XDP_ATTACHED_NONE : Nat := 0
def XDP_ATTACHED_DRV : Nat := 1
def XDP_ATTACHED_SKB : Nat := 2
def XDP_ATTACHED_HW : Nat := 3
def XDP_ATTACHED_MULTI : Nat := 4

def xdpModeName : List CStr := [[], cstr "driver", cstr "generic", cstr "offloaded"]

def ifiIndex (ifi : List UInt8) : UInt32 := UInt32.ofNat (uint 4 4 ifi)

def ifiFlag (flag : Nat) (ifi : List UInt8) : Bool := uint 8 4 ifi &&& flag ≠ 0

def linkOf (msg : NlMsg) : Option (List UInt8 × Attrs) :=
  (nlmsgGet msg IFINFOMSG_LEN).map fun (ifi, msg) => (ifi, nlmsgAttrs msg IFLA_MAX)

def linkinfoOf (tb : Attrs) : Option Attrs :=
  (tb IFLA_LINKINFO).map fun a => nlaNestedAttrs a IFLA_INFO_MAX

/-- The text of a link-layer address: each byte is printed behind the ones before it, and what
does not fit is cut off. -/
def macFormat (data : List UInt8) : CStr :=
  (List.range data.length).foldl (fun buf i =>
    let digits := hex (data.getD i 0).toNat
    let text := (if digits.length < 2 then 48 :: digits else digits) ++ cstr ":"
    buf.take (i * 3) ++ fits (if i + 1 = data.length then 3 else 4) text) []

def macAddrFillNetlink (entry : IfPtr) (nla : List UInt8) : HandlerProg Unit := do
  let data := (nlaRead nla).take (nlaLen nla)
  let setMac (mac : MacAddr) := modifyWorld (·.modifyIf entry fun x => { x with macAddr := mac })
  setMac { len := nlaLen nla }
  allocate
  -- the check behind the second allocation is of the first one
  if ← malloc then
    setMac { len := nlaLen nla, raw := some data, formatted := some (macFormat data) }
  else if nlaLen nla = 0 then setMac { len := 0, raw := some [], formatted := none }
  else Prog.fault

section
variable (env : HandlerEnv) (entry : IfPtr)

def linkDriver (ifi : List UInt8) (tb : Attrs) : CStr :=
  if ifiFlag IFF_LOOPBACK ifi then cstr "loopback"
  else
    match env.ethtoolDriver entry with
    | some driver => driver
    | none =>
      -- no ethtool ops
      match (linkinfoOf tb).bind (· IFLA_INFO_KIND) with
      | some kind => nlaReadStr kind
      | none => cstr "unknown driver, please report a bug"

/-- The fields that are read before the rest is asked for. -/
def fillFields (ifi : List UInt8) (tb : Attrs) (ifname : List UInt8) (x : IfEntry) : IfEntry :=
  { x with
    ifIndex := ifiIndex ifi
    ifName := nlaReadStr ifname
    flags := { x.flags with
      up := x.flags.up || ifiFlag IFF_UP ifi
      hasLink := x.flags.hasLink || ifiFlag IFF_UP ifi && ifiFlag IFF_RUNNING ifi
      loopback := x.flags.loopback || ifiFlag IFF_LOOPBACK ifi }
    masterIndex := ((tb IFLA_MASTER).map nlaReadU32).getD x.masterIndex
    linkIndex := ((tb IFLA_LINK).map nlaReadU32).getD x.linkIndex
    linkNetnsid := ((tb IFLA_LINK_NETNSID).map nlaReadS32).getD x.linkNetnsid
    mtu := ((tb IFLA_MTU).map fun a => Int.bmod (nlaReadU32 a).toNat (2 ^ 32)).getD x.mtu }

def fillIfXdpProg (mode : Nat) (progIdNla : Option (List UInt8)) : HandlerProg Unit :=
  withSome progIdNla fun a =>
    if nlaReadU32 a = 0 then pure ()
    else do
      allocate
      let text := xdpModeName.getD mode (fits 16 (cstr "[" ++ decimal mode ++ cstr "]"))
      modifyWorld (·.modifyIf entry fun x => { x with xdp := x.xdp ++ [⟨text, nlaReadU32 a⟩] })

def fillIfXdp (xdpNla : Option (List UInt8)) : HandlerProg Unit :=
  withSome xdpNla fun a => do
    allocate
    let tb := nlaNestedAttrs a IFLA_XDP_MAX
    let mode := ((tb IFLA_XDP_ATTACHED).map fun a => (nlaReadU8 a).toNat).getD XDP_ATTACHED_NONE
    if mode = XDP_ATTACHED_NONE then pure ()
    else if mode = XDP_ATTACHED_MULTI then do
      fillIfXdpProg entry XDP_ATTACHED_DRV (tb IFLA_XDP_DRV_PROG_ID)
      fillIfXdpProg entry XDP_ATTACHED_SKB (tb IFLA_XDP_SKB_PROG_ID)
      fillIfXdpProg entry XDP_ATTACHED_HW (tb IFLA_XDP_HW_PROG_ID)
    else fillIfXdpProg entry mode (tb IFLA_XDP_PROG_ID)

/-- The handlers' turn; that a callback finds nothing is no error. -/
def fillIfHandlers (linkinfo : Option Attrs) : HandlerProg Unit := do
  ifHandlerInit entry (ifHandlers env)
  match ← Prog.attempt (ifHandlerNetlink (ifHandlers env) entry linkinfo) with
  | .ok () => pure ()
  | .error stop => if stop = .err ENOENT then pure () else Prog.throw stop

/-- The error exits drop the driver and the name. -/
def errDriver : Stop → HandlerProg Unit
  | .err _ => modifyWorld (·.modifyIf entry fun x => { x with driver := none, ifName := [] })
  | .crash => pure ()

def fillIfLink (msg : NlMsg) : HandlerProg Unit :=
  if nlmsgType msg.buf ≠ RTM_NEWLINK then fail ENOENT
  else
    match linkOf msg with
    | none => fail ENOENT
    | some (ifi, tb) => do
      allocate
      match tb IFLA_IFNAME with
      | none => fail ENOENT
      | some ifname =>
        Prog.onError (do
          allocate
          modifyWorld (·.modifyIf entry (fillFields ifi tb ifname))
          withSome (tb IFLA_LINKINFO) fun _ => allocate
          withSome (tb IFLA_ADDRESS) (macAddrFillNetlink entry)
          modifyWorld (·.modifyIf entry fun x =>
            { x with driver := some (linkDriver env entry ifi tb) })
          fillIfXdp entry (tb IFLA_XDP)
          fillIfHandlers env entry (linkinfoOf tb)) (errDriver entry)

end

end Plotnetcfg.Handlers
