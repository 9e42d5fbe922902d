import Plotnetcfg.Core.Jansson
import Plotnetcfg.Core.Topology
import Plotnetcfg.Lib.Prog

/-! The reply of ovsdb and its parser (`handlers/openvswitch.c`). Allocations succeed here. -/

namespace Plotnetcfg.Openvswitch

abbrev OvsIfPtr := Nat

structure OvsIf where
  ptr : OvsIfPtr
  name : CStr
  type : CStr
  localIp : Option CStr := none
  remoteIp : Option CStr := none
  key : Option CStr := none
  peer : Option CStr := none
  hwDev : Option CStr := none
deriving DecidableEq

theorem length_no_ifaces : 0 = ([] : List OvsIf).length := rfl

theorem length_one_iface (iface : OvsIf) : 1 = [iface].length := rfl

structure OvsPort where
  name : CStr
  ifaces : List OvsIf := []
  ifaceCount : Nat := 0
  tag : UInt32 := 0
  trunksCount : UInt32 := 0
  trunks : Option (List UInt32) := none
  bondMode : Option CStr := none
  counted : ifaceCount = ifaces.length := by
    first | exact length_no_ifaces | exact length_one_iface _ | rfl
deriving DecidableEq

inductive OvsDpType where
  | system
  | netdev
deriving DecidableEq

structure OvsBridge where
  name : CStr
  dpType : OvsDpType
  ports : List OvsPort := []
  system : Option OvsPort := none
deriving DecidableEq

/-- `link` is the field of that name of the interfaces of ovsdb, `next` the address of the one
to be allocated next. -/
structure OvsState where
  world : World
  link : OvsIfPtr → Option IfPtr
  next : OvsIfPtr

abbrev OvsProg := Prog Int OvsState

def labelAdd (ns : NsPtr) (text : CStr) : OvsProg Unit :=
  Prog.modify fun s => { s with world := s.world.modifyNs ns (·.labelAdd text) }

def ovsWarn (ns : NsPtr) (text : CStr) : OvsProg Unit :=
  labelAdd ns (cstr "Failed to handle openvswitch: " ++ text)

def reject {α : Type} (ns : NsPtr) (text : CStr) : OvsProg α := do
  ovsWarn ns text
  Prog.throw (EINVAL : Int)

def callocIf : OvsProg OvsIfPtr := fun s =>
  some (.ok s.next,
    { s with link := Function.update s.link s.next none, next := s.next + 1 })

def OvsPort.append (port : OvsPort) (iface : OvsIf) : OvsPort :=
  { port with
    ifaces := port.ifaces ++ [iface]
    ifaceCount := port.ifaceCount + 1
    counted := by simp [port.counted] }

/-! ## Shapes of a column -/

def tagIs (j : Option Json) (tag : CStr) : OvsProg Bool := do
  let s ← Prog.deref (jsonStringValue (jsonArrayGet j 0))
  pure (s == tag)

def isSet (j : Option Json) : OvsProg Bool := tagIs j (cstr "set")

def isMap (j : Option Json) : OvsProg Bool := tagIs j (cstr "map")

def isUuid (j : Option Json) : OvsProg Bool := tagIs j (cstr "uuid")

def isEmpty (j : Option Json) : OvsProg Bool := if jsonIsArray j then isSet j else pure false

def searchStrOption (searchName : CStr) : List Json → OvsProg (Option CStr)
  | [] => pure none
  | jkv :: rest => do
    let key ← Prog.deref (jsonStringValue (jsonArrayGet (some jkv) 0))
    if key = searchName then do
      let value ← Prog.deref (jsonStringValue (jsonArrayGet (some jkv) 1))
      pure (some value)
    else searchStrOption searchName rest

def ifaceIsTunnel (iface : OvsIf) : Bool :=
  iface.type = cstr "vxlan" || iface.type = cstr "geneve" || iface.type = cstr "gre"

/-- The row of a table that a UUID refers to, as it is after the update. -/
def rowNew (jresult : Option Json) (table : CStr) (uuid : Option Json) : Option Json :=
  let rows := jsonObjectGet jresult table
  let row := (jsonStringValue (jsonArrayGet uuid 1)).bind (jsonObjectGet rows)
  jsonObjectGet row (cstr "new")

/-! ## Destructors -/

/-- `port->trunks` is freed twice, which only a null pointer survives. -/
def destructPort (port : OvsPort) : OvsProg Unit :=
  if port.trunks.isSome then Prog.fault else pure ()

/-- Frees the ports of the list; the port of the bridge itself is not among them. -/
def destructBridge (br : OvsBridge) : OvsProg Unit := Prog.forEach br.ports destructPort

/-! ## The parser -/

section
variable (warnings : NsPtr) (jresult : Option Json)

def parseOptions (iface : OvsIf) (jif : Option Json) : OvsProg OvsIf := do
  let jarr := jsonObjectGet jif (cstr "options")
  if ← isMap jarr then do
    let options := jsonArrayElems (jsonArrayGet jarr 1)
    if ifaceIsTunnel iface then do
      let localIp ← searchStrOption (cstr "local_ip") options
      let remoteIp ← searchStrOption (cstr "remote_ip") options
      let key ← searchStrOption (cstr "key") options
      pure { iface with localIp := localIp, remoteIp := remoteIp, key := key }
    else if iface.type = cstr "patch" then do
      let peer ← searchStrOption (cstr "peer") options
      pure { iface with peer := peer }
    else if iface.type = cstr "dpdk" then do
      let hwDev ← searchStrOption (cstr "dpdk-devargs") options
      pure { iface with hwDev := hwDev }
    else pure iface
  else pure iface

/-- What `parse_iface`, `parse_port` and `parse_bridge` begin with: the row of the UUID and
its name. -/
def withRow {α : Type} (table what : CStr) (uuid : Option Json)
    (body : Json → CStr → OvsProg α) : OvsProg α := do
  if ← isUuid uuid then
    match rowNew jresult table uuid with
    | none => reject warnings (what ++ cstr " structure broken")
    | some row =>
      match jsonStringValue (jsonObjectGet (some row) (cstr "name")) with
      | none => reject warnings (cstr "expected " ++ what ++ cstr " name")
      | some name => body row name
  else reject warnings (cstr "expected " ++ what ++ cstr " uuid")

def parseIface (uuid : Option Json) (port : OvsPort) : OvsProg OvsPort :=
  withRow warnings jresult (cstr "Interface") (cstr "interface") uuid fun jif name =>
    match jsonStringValue (jsonObjectGet (some jif) (cstr "type")) with
    | none => reject warnings (cstr "expected interface type")
    | some type => do
      let ptr ← callocIf
      let iface ← parseOptions { ptr := ptr, name := name, type := type } (some jif)
      pure (port.append iface)

def parseTag (port : OvsPort) (jval : Option Json) : OvsProg OvsPort := do
  if ← isEmpty jval then pure port
  else pure { port with tag := UInt32.ofInt (jsonIntegerValue jval) }

def parseTrunks (port : OvsPort) (jarr : Option Json) : OvsPort :=
  let cnt := UInt32.ofNat (jsonArraySize jarr)
  if 0 < cnt then
    { port with
      trunks := some (((jsonArrayElems jarr).take cnt.toNat).map fun j =>
        UInt32.ofInt (jsonIntegerValue (some j)))
      trunksCount := cnt }
  else port

def parseBondMode (port : OvsPort) (jval : Option Json) : OvsProg OvsPort := do
  if ← isEmpty jval then pure port
  else do
    let bondMode ← Prog.deref (jsonStringValue jval)
    pure { port with bondMode := some bondMode }

def parsePortInfo (port : OvsPort) (jport : Option Json) : OvsProg OvsPort := do
  let port ← parseTag port (jsonObjectGet jport (cstr "tag"))
  let jarr := jsonObjectGet jport (cstr "trunks")
  let port := parseTrunks port (jsonArrayGet jarr 1)
  parseBondMode port (jsonObjectGet jport (cstr "bond_mode"))

def parseIfaces (uuids : List (Option Json)) (port : OvsPort) : OvsProg OvsPort :=
  Prog.foldM (fun port uuid => parseIface warnings jresult uuid port) uuids port

/-- The members of a column that is a set, or the one atom it is. -/
def members (jarr : Option Json) : OvsProg (List (Option Json)) := do
  if ← isSet jarr then pure ((jsonArrayElems (jsonArrayGet jarr 1)).map some)
  else pure [jarr]

def parsePort (uuid : Option Json) (br : OvsBridge) : OvsProg OvsBridge :=
  withRow warnings jresult (cstr "Port") (cstr "port") uuid fun jport name => do
    let port ← parsePortInfo { name := name } (some jport)
    let uuids ← members (jsonObjectGet (some jport) (cstr "interfaces"))
    -- the interfaces do not change what `destruct_port` frees twice
    let port ← (parseIfaces warnings jresult uuids port).onError fun _ => destructPort port
    if name = br.name then pure { br with system := some port }
    else pure { br with ports := br.ports ++ [port] }

def parsePorts (uuids : List (Option Json)) (br : OvsBridge) : OvsProg OvsBridge :=
  Prog.foldM (fun br uuid => (parsePort warnings jresult uuid br).onError fun _ => destructBridge br)
    uuids br

/-- An absent or empty `datapath_type` is the system datapath. -/
def dpTypeOf (jbridge : Option Json) : CStr :=
  match jsonStringValue (jsonObjectGet jbridge (cstr "datapath_type")) with
  | none => cstr "system"
  | some [] => cstr "system"
  | some dpType => dpType

def dpTypeNamed (dpType : CStr) : Option OvsDpType :=
  if dpType = cstr "system" then some .system
  else if dpType = cstr "netdev" then some .netdev
  else none

def parseBridge (uuid : Option Json) : OvsProg OvsBridge :=
  withRow warnings jresult (cstr "Bridge") (cstr "bridge") uuid fun jbridge name =>
    match dpTypeNamed (dpTypeOf (some jbridge)) with
    | none => reject warnings (cstr "unknown datapath type " ++ dpTypeOf (some jbridge))
    | some dpType => do
      let uuids ← members (jsonObjectGet (some jbridge) (cstr "ports"))
      parsePorts warnings jresult uuids { name := name, dpType := dpType }

def parseBridges (uuids : List (Option Json)) : OvsProg (List OvsBridge) :=
  Prog.foldM (fun brList uuid => do
    let br ← parseBridge warnings jresult uuid
    pure (brList ++ [br])) uuids []

end

/-- `parse` of what `json_loads` returned: the root, or the text of its error. The return
value starts as an error, which an empty set of bridges leaves in place. -/
def parse (warnings : NsPtr) (answer : Except CStr Json) : OvsProg (List OvsBridge) :=
  match answer with
  | .error text => reject warnings (cstr "cannot parse response: " ++ text)
  | .ok jroot =>
    let jerror := jsonObjectGet (some jroot) (cstr "error")
    if jerror.isSome && !jsonIsNull jerror then
      reject warnings (cstr "server reported an error: " ++
        printStr (jsonStringValue (jsonObjectGet jerror (cstr "error"))))
    else
      let jresult := jsonObjectGet (some jroot) (cstr "result")
      let jovs := jsonObjectGet jresult (cstr "Open_vSwitch")
      if jovs.isNone then reject warnings (cstr "unexpected structure of response")
      else if jsonObjectSize jovs ≠ 1 then
        reject warnings (cstr "unexpected number of rows in response")
      else
        let jarr := jsonObjectGet (jsonObjectGet (jsonObjectFirst jovs) (cstr "new"))
          (cstr "bridges")
        if jarr.isNone then reject warnings (cstr "unexpected structure of response")
        else do
          let uuids ← members jarr
          if uuids.isEmpty then Prog.throw (EINVAL : Int)
          else parseBridges warnings jresult uuids

end Plotnetcfg.Openvswitch
