import Plotnetcfg.Frontends.Json

/-! The whole document of the JSON frontend (`json_output`), with the names that `route.c` gives
to the numbers in a route. -/

namespace Plotnetcfg.Frontends

/-! ## Names in a route -/

/-- An `int` printed with `%u`. -/
def unsignedText (num : Int) : CStr := decimal (num % 2 ^ 32).toNat

def routeUnknown (num : Int) : CStr := fits 64 (cstr "unknown (" ++ unsignedText num ++ cstr ")")

def routeName (names : List (Int × String)) (num : Int) : CStr :=
  match names.lookup num with
  | some name => cstr name
  | none => routeUnknown num

def routeMetric : Int → CStr := routeName [(2, "mtu"), (3, "window"), (4, "rtt"), (5, "rttvar"),
  (6, "ssthresh"), (7, "cwnd"), (8, "advmss"), (9, "reordering"), (10, "hoplimit"),
  (11, "initcwnd"), (12, "features"), (13, "rto_min"), (14, "initrwnd"), (15, "quickack"),
  (16, "congctl")]

def routeProtocol : Int → CStr := routeName [(0, "unspec"), (1, "redirect"), (2, "kernel"),
  (3, "boot"), (4, "static"), (8, "gated"), (9, "ra"), (10, "mrt"), (11, "zebra"), (12, "bird"),
  (13, "dnrouted"), (14, "xorp"), (15, "ntk"), (16, "dhcp"), (17, "mrouted"), (42, "babel")]

def routeScope : Int → CStr :=
  routeName [(0, "universe"), (200, "site"), (253, "link"), (254, "host")]

def routeTable : Int → CStr :=
  routeName [(0, "unspec"), (252, "compat"), (253, "default"), (254, "main"), (255, "local")]

def routeType : Int → CStr := routeName [(0, "unspec"), (1, "unicast"), (2, "local"),
  (3, "broadcast"), (4, "anycast"), (5, "multicast"), (6, "blackhole"), (7, "unreachable"),
  (8, "prohibit"), (9, "throw"), (10, "nat")]

def rtid (rt : Rtable) : CStr := fits 32 (unsignedText rt.id)

/-! ## The document -/

def labelToArray (labels : List CStr) : Json :=
  .arr (labels.foldl (fun arr text => jsonArrayAppendNew arr (jsonString text)) [])

def addressText (addr : Addr) : Option Json :=
  if addr.family ≠ 0 then addr.formatted.bind jsonString else none

def metricsToObject (metrics : List RtMetric) : JsonObj :=
  metrics.foldl (fun o rtm => jsonObjectSetNew o (routeMetric rtm.type) (some (.int rtm.value))) []

section
variable (w : World)

def routeObj (rte : Route) : JsonObj :=
  objOf [
    (cstr "destination", addressText rte.dst),
    (cstr "family", addressFamily rte.family.toNat),
    (cstr "gateway", addressText rte.gw),
    (cstr "iif", rte.iif.bind fun e => jsonString (ifid w e)),
    (cstr "metrics", if rte.metrics.isEmpty then none else some (.obj (metricsToObject rte.metrics))),
    (cstr "oif", rte.oif.bind fun e => jsonString (ifid w e)),
    (cstr "priority", some (.int rte.priority.toNat)),
    (cstr "protocol", jsonString (routeProtocol rte.protocol.toNat)),
    (cstr "scope", jsonString (routeScope rte.scope.toNat)),
    (cstr "source", addressText rte.src),
    (cstr "preferred-source", addressText rte.prefsrc),
    (cstr "tos", some (.int rte.tos.toNat)),
    (cstr "type", jsonString (routeType rte.type.toNat))]

def routesToArray (routes : List Route) : Json :=
  .arr (routes.foldl (fun ifarr rte => jsonArrayAppendNew ifarr (some (.obj (routeObj w rte)))) [])

def rtablesToArray (tables : List Rtable) : JsonObj :=
  tables.foldl (fun ifarr rt => jsonObjectSetNew ifarr (rtid rt) (some (.obj (objOf [
    (cstr "name", jsonString (routeTable rt.id)),
    (cstr "routes", some (routesToArray w rt.routes))])))) []

def nsObj (mask : PropMask) (ns : NsPtr) : JsonObj :=
  let entry := w.nss ns
  objOf [
    (cstr "id", jsonString (nsid entry)),
    (cstr "name", jsonString (entry.name.getD [])),
    (cstr "interfaces", some (.obj (interfacesToArray w mask entry.ifaces))),
    (cstr "routes", some (.obj (rtablesToArray w entry.rtables))),
    (cstr "warnings", if entry.warnings.isEmpty then none else some (labelToArray entry.warnings))]

def namespacesToObject (mask : PropMask) : JsonObj :=
  w.nsList.foldl (fun o ns =>
    jsonObjectSetNew o (nsid (w.nss ns)) (some (.obj (nsObj w mask ns)))) []

/-- `version` is `VERSION`, `date` is what `ctime` gives; the root is the first name space. -/
def jsonOutput (version date : CStr) (mask : PropMask) : JsonObj :=
  objOf [
    (cstr "format", some (.int 2)),
    (cstr "version", jsonString version),
    (cstr "date", jsonString date),
    (cstr "root", w.nsList.head?.bind fun root => jsonString (nsid (w.nss root))),
    (cstr "namespaces", some (.obj (namespacesToObject w mask)))]

end

end Plotnetcfg.Frontends
