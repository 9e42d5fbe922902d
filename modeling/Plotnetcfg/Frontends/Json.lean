import Plotnetcfg.Core.Jansson
import Plotnetcfg.Core.Addr

/-! The JSON frontend (`frontends/json.c`): the objects of the interfaces, and how the
connections between two of them appear at either end. -/

namespace Plotnetcfg.Frontends

def labelPropertiesToObject (properties : List LabelProperty) (mask : PropMask) : JsonObj :=
  properties.foldl (fun jobj prop =>
    if labelPropMatchMask prop.type mask then
      jsonObjectSetNew jobj prop.key (jsonString prop.value)
    else jobj) []

def addressFamily (family : Int) : Option Json :=
  if family = AF_INET then jsonString (cstr "INET")
  else if family = AF_INET6 then jsonString (cstr "INET6")
  else jsonString (cstr "unknown")

def addressToObj (addr : Addr) : JsonObj :=
  objOf [(cstr "family", addressFamily addr.family),
    (cstr "address", addr.formatted.bind jsonString)]

def addressesToArray (addresses : List IfAddr) : Json :=
  .arr (addresses.foldl (fun arr entry =>
    let addr := addressToObj entry.addr
    let addr := if entry.peer.formatted.isSome then
        jsonObjectSetNew addr (cstr "peer") (some (.obj (addressToObj entry.peer)))
      else addr
    jsonArrayAppendNew arr (some (.obj addr))) [])

def xdpToArray (xdp : List IfXdp) : Json :=
  .arr (xdp.foldl (fun arr entry =>
    jsonArrayAppendNew arr (some (.obj (objOf [(cstr "mode", jsonString entry.mode),
      (cstr "prog_id", some (.int entry.progId.toNat))])))) [])

section
variable (w : World)

def edgeInfo (edgeLabel : Option CStr) : Json :=
  .arr (match edgeLabel with
    | some label => jsonArrayAppendNew [] (jsonString label)
    | none => [])

def connection (target : IfPtr) (edgeLabel : Option CStr) : Json :=
  .obj (objOf [(cstr "target", jsonString (ifid w target)), (cstr "info", some (edgeInfo edgeLabel))])

def linkNetns (target : NsPtr) : Json :=
  .obj (objOf [(cstr "target", jsonString (nsid (w.nss target))), (cstr "info", some (.arr []))])

def addConnection (o : JsonObj) (target : IfPtr) (edgeLabel : Option CStr) : JsonObj :=
  jsonObjectSetNew o (ifid w target) (some (connection w target edgeLabel))

def ifState (entry : IfEntry) : CStr :=
  if entry.flags.internal then cstr "none"
  else if !entry.flags.up then cstr "down"
  else if !entry.flags.hasLink then cstr "up_no_link"
  else cstr "up"

/-- An enslaved interface shows its master only, not the interfaces linked to it. -/
def ifParents (e : IfPtr) : JsonObj :=
  let entry := w.ifs e
  match entry.master with
  | some master =>
    addConnection w [] master (if entry.link.isSome then none else entry.edgeLabel)
  | none =>
    entry.revLink.foldl (fun parents link =>
      addConnection w parents link (w.ifs link).edgeLabel) []

/-- A linked interface shows its link only, not its slaves. -/
def ifChildren (e : IfPtr) : JsonObj :=
  let entry := w.ifs e
  match entry.link with
  | some link => addConnection w [] link entry.edgeLabel
  | none =>
    entry.revMaster.foldl (fun children slave =>
      addConnection w children slave
        (if (w.ifs slave).link.isSome then none else (w.ifs slave).edgeLabel)) []

def unlessEmpty (o : JsonObj) : Option Json := if o.isEmpty then none else some (.obj o)

def ifObj (mask : PropMask) (e : IfPtr) : JsonObj :=
  let entry := w.ifs e
  let config := labelPropMatchMask .config mask
  objOf [
    (cstr "id", jsonString (ifid w e)),
    (cstr "namespace", jsonString (nsid (w.nss entry.ns))),
    (cstr "name", jsonString entry.ifName),
    (cstr "driver", jsonString (ifdrv entry)),
    (cstr "info", some (.obj (labelPropertiesToObject entry.properties mask))),
    (cstr "addresses", if config then some (addressesToArray entry.addr) else none),
    (cstr "mtu", if config then some (.int entry.mtu) else none),
    (cstr "mac", if config && !entry.flags.loopback then entry.macAddr.formatted.bind jsonString
      else none),
    (cstr "link-netns", if entry.linkIndex = 0 then entry.linkNet.map (linkNetns w) else none),
    (cstr "type", jsonString (if entry.flags.internal then cstr "internal" else cstr "device")),
    (cstr "state", if labelPropMatchMask .state mask then jsonString (ifState entry) else none),
    (cstr "xdp", if entry.xdp.isEmpty then none else some (xdpToArray entry.xdp)),
    (cstr "warning", if entry.warnings ≠ 0 then some (.bool true) else none),
    (cstr "parents", unlessEmpty (ifParents w e)),
    (cstr "children", unlessEmpty (ifChildren w e)),
    (cstr "peer", entry.peer.map fun peer => connection w peer none)]

def interfacesToArray (mask : PropMask) (list : List IfPtr) : JsonObj :=
  list.foldl (fun ifarr e =>
    jsonObjectSetNew ifarr (ifid w e) (some (.obj (ifObj w mask e)))) []

end

/-! ## Connections -/

/-- The connection to `target` that the object of `id` lists under `field`. -/
def connectionTo (ifarr : JsonObj) (field id target : CStr) : Option Json :=
  jsonObjectGet (jsonObjectGet (jsonObjectGet (some (.obj ifarr)) id) field) target

def connectionInfo (conn : Option Json) : Option Json := jsonObjectGet conn (cstr "info")

/-- The interfaces of a name space list refer to each other only, the reverse lists mirror
masters and links, and the ids differ. -/
structure Mirrored (w : World) : Prop where
  master : ∀ e ∈ w.listed, ∀ m ∈ (w.ifs e).master, m ∈ w.listed
  link : ∀ e ∈ w.listed, ∀ m ∈ (w.ifs e).link, m ∈ w.listed
  revMaster : ∀ m ∈ w.listed, ∀ e ∈ w.listed,
    e ∈ (w.ifs m).revMaster ↔ (w.ifs e).master = some m
  revLink : ∀ m ∈ w.listed, ∀ e ∈ w.listed, e ∈ (w.ifs m).revLink ↔ (w.ifs e).link = some m
  revMaster_listed : ∀ m ∈ w.listed, ∀ e ∈ (w.ifs m).revMaster, e ∈ w.listed
  revLink_listed : ∀ m ∈ w.listed, ∀ e ∈ (w.ifs m).revLink, e ∈ w.listed
  ids : ∀ x ∈ w.listed, ∀ y ∈ w.listed, ifid w x = ifid w y → x = y

section
variable {w : World} {mask : PropMask}

theorem connectionInfo_connection (target : IfPtr) (edgeLabel : Option CStr) :
    connectionInfo (some (connection w target edgeLabel)) = some (edgeInfo edgeLabel) := by
  refine lookup_objOf ?_ (List.mem_cons_of_mem _ List.mem_cons_self) (by decide)
  simp only [List.map_cons, List.map_nil]
  decide

theorem lookup_addConnection (h : Mirrored w) (label : IfPtr → Option CStr)
    {targets : List IfPtr} (htargets : ∀ t ∈ targets, t ∈ w.listed) {y : IfPtr}
    (hy : y ∈ w.listed) :
    (targets.foldl (fun o t => addConnection w o t (label t)) []).lookup (ifid w y) =
      if y ∈ targets ∧ utf8 (ifid w y) then some (connection w y (label y)) else none := by
  have hinj : ∀ t ∈ targets, ifid w t = ifid w y → t = y := fun t ht =>
    h.ids t (htargets t ht) y hy
  have hfold : targets.foldl (fun o t => addConnection w o t (label t)) [] =
      Dict.collect (ifid w) (fun t => if utf8 (ifid w t) then some (connection w t (label t))
        else none) targets [] := rfl
  rw [hfold]
  by_cases hmem : y ∈ targets
  · rw [Dict.lookup_collect_of_mem _ _ hinj hmem]
    simp [hmem]
  · have hne : ∀ t ∈ targets, ifid w t ≠ ifid w y := fun t ht hid => hmem (hinj t ht hid ▸ ht)
    rw [Dict.lookup_collect_of_forall_ne _ _ hne, if_neg fun hand => hmem hand.1]
    rfl

theorem mem_listed_of_mem_ifaces {n : NsPtr} (hn : n ∈ w.nsList) {e : IfPtr}
    (he : e ∈ (w.nss n).ifaces) : e ∈ w.listed :=
  World.mem_listed.mpr ⟨n, hn, he⟩

theorem lookup_interfacesToArray (h : Mirrored w) {n : NsPtr} (hn : n ∈ w.nsList) {x : IfPtr}
    (hx : x ∈ (w.nss n).ifaces) :
    (interfacesToArray w mask (w.nss n).ifaces).lookup (ifid w x) =
      if utf8 (ifid w x) then some (.obj (ifObj w mask x)) else none := by
  have hinj : ∀ e ∈ (w.nss n).ifaces, ifid w e = ifid w x → e = x := fun e he =>
    h.ids e (mem_listed_of_mem_ifaces hn he) x (mem_listed_of_mem_ifaces hn hx)
  have hfold : interfacesToArray w mask (w.nss n).ifaces =
      Dict.collect (ifid w) (fun e => if utf8 (ifid w e) then some (.obj (ifObj w mask e))
        else none) (w.nss n).ifaces [] := rfl
  rw [hfold, Dict.lookup_collect_of_mem _ _ hinj hx]
  simp

theorem lookup_ifObj {mask : PropMask} {e : IfPtr} {field : CStr} {value : Option Json}
    (hmem : (field, value) ∈ [(cstr "parents", unlessEmpty (ifParents w e)),
      (cstr "children", unlessEmpty (ifChildren w e)),
      (cstr "peer", (w.ifs e).peer.map fun peer => connection w peer none)])
    (hutf8 : utf8 field = true) : (ifObj w mask e).lookup field = value := by
  refine lookup_objOf ?_ (List.mem_append_right
    (_ :: _ :: _ :: _ :: _ :: _ :: _ :: _ :: _ :: _ :: _ :: _ :: _ :: []) hmem) hutf8
  simp only [List.map_cons, List.map_nil]
  decide

theorem lookup_linkNetns {mask : PropMask} {e : IfPtr} :
    (ifObj w mask e).lookup (cstr "link-netns") =
      if (w.ifs e).linkIndex = 0 then (w.ifs e).linkNet.map (linkNetns w) else none := by
  refine lookup_objOf ?_ (List.mem_append_right
    (_ :: _ :: _ :: _ :: _ :: _ :: _ :: _ :: []) List.mem_cons_self) (by decide)
  simp only [List.map_cons, List.map_nil]
  decide

theorem jsonObjectGet_unlessEmpty (o : JsonObj) (key : CStr) :
    jsonObjectGet (unlessEmpty o) key = o.lookup key := by
  cases o <;> rfl

def slaveLabel (entry : IfEntry) : Option CStr :=
  if entry.link.isSome then none else entry.edgeLabel

theorem lookup_ifParents (h : Mirrored w) {x y : IfPtr} (hx : x ∈ w.listed) (hy : y ∈ w.listed) :
    (ifParents w y).lookup (ifid w x) = if utf8 (ifid w x) then
      (if (w.ifs y).master = some x then some (connection w x (slaveLabel (w.ifs y)))
      else if (w.ifs y).master = none ∧ (w.ifs x).link = some y then
        some (connection w x (w.ifs x).edgeLabel)
      else none)
    else none := by
  cases hm : (w.ifs y).master with
  | some m =>
    have hmem : ∀ t ∈ [m], t ∈ w.listed := by
      simpa using h.master y hy m hm
    have hlook := lookup_addConnection h (fun _ => slaveLabel (w.ifs y)) hmem hx
    simp only [List.foldl_cons, List.foldl_nil] at hlook
    simp only [ifParents, hm]
    rw [slaveLabel] at hlook ⊢
    rw [hlook]
    by_cases hmx : m = x
    · simp [hmx]
    · simp [hmx, Ne.symm hmx]
  | none =>
    have hlook := lookup_addConnection h (fun t => (w.ifs t).edgeLabel)
      (h.revLink_listed y hy) hx
    simp only [ifParents, hm]
    simp [hlook, h.revLink y hy x hx, and_comm, ite_and]

theorem lookup_ifChildren (h : Mirrored w) {x y : IfPtr} (hx : x ∈ w.listed) (hy : y ∈ w.listed) :
    (ifChildren w x).lookup (ifid w y) = if utf8 (ifid w y) then
      (if (w.ifs x).link = some y then some (connection w y (w.ifs x).edgeLabel)
      else if (w.ifs x).link = none ∧ (w.ifs y).master = some x then
        some (connection w y (slaveLabel (w.ifs y)))
      else none)
    else none := by
  cases hl : (w.ifs x).link with
  | some l =>
    have hmem : ∀ t ∈ [l], t ∈ w.listed := by
      simpa using h.link x hx l hl
    have hlook := lookup_addConnection h (fun _ => (w.ifs x).edgeLabel) hmem hy
    simp only [List.foldl_cons, List.foldl_nil] at hlook
    simp only [ifChildren, hl]
    rw [hlook]
    by_cases hlx : l = y
    · simp [hlx]
    · simp [hlx, Ne.symm hlx]
  | none =>
    have hlook := lookup_addConnection h (fun t => slaveLabel (w.ifs t))
      (h.revMaster_listed x hx) hy
    simp only [ifChildren, hl]
    simp only [slaveLabel] at hlook ⊢
    simp [hlook, h.revMaster x hx y hy, and_comm, ite_and]

theorem connectionTo_interfacesToArray (h : Mirrored w) {n : NsPtr} (hn : n ∈ w.nsList)
    {x : IfPtr} (hx : x ∈ (w.nss n).ifaces) {field : CStr} {conns : JsonObj}
    (hfield : (ifObj w mask x).lookup field = unlessEmpty conns) (target : CStr) :
    connectionTo (interfacesToArray w mask (w.nss n).ifaces) field (ifid w x) target =
      if utf8 (ifid w x) then conns.lookup target else none := by
  have hobj : jsonObjectGet (some (.obj (interfacesToArray w mask (w.nss n).ifaces))) (ifid w x) =
      if utf8 (ifid w x) then some (.obj (ifObj w mask x)) else none :=
    lookup_interfacesToArray h hn hx
  rw [connectionTo, hobj]
  split_ifs
  · have hget : jsonObjectGet (some (.obj (ifObj w mask x))) field = unlessEmpty conns := hfield
    rw [hget, jsonObjectGet_unlessEmpty]
  · rfl

end

/-! ## Symmetry -/

/-- The object of `x` lists `y` under `children` if and only if that of `y` lists `x` under
`parents`, and then both carry the same `info`. -/
def SymmetricConnection (childObjs parentObjs : JsonObj) (x y : CStr) : Prop :=
  let child := connectionTo childObjs (cstr "children") x y
  let parent := connectionTo parentObjs (cstr "parents") y x
  (child.isSome ↔ parent.isSome) ∧
    (child.isSome → connectionInfo child = connectionInfo parent)

/-- Neither end hides the connection: not the slave `y`, which shows its master only, when `x`
is linked to it, nor the linked `x`, which shows its link only, when it is the master of `y`.
An interface linked to its own slave labels both edges alike. -/
def EdgeAtBothEnds (w : World) (x y : IfPtr) : Prop :=
  let linked := (w.ifs x).link = some y
  let enslaved := (w.ifs y).master = some x
  (linked → ¬ enslaved → (w.ifs y).master = none) ∧
  (enslaved → ¬ linked → (w.ifs x).link = none) ∧
  (linked → enslaved → edgeInfo (w.ifs x).edgeLabel = edgeInfo (slaveLabel (w.ifs y)))

/-- The connection between two interfaces is symmetric exactly when neither end hides it;
an interface whose id is not UTF-8 has no object and is in no connection. -/
theorem symmetricConnection_iff {w : World} (h : Mirrored w) (mask : PropMask) {n m : NsPtr}
    (hn : n ∈ w.nsList) (hm : m ∈ w.nsList) {x y : IfPtr} (hx : x ∈ (w.nss n).ifaces)
    (hy : y ∈ (w.nss m).ifaces) :
    SymmetricConnection (interfacesToArray w mask (w.nss n).ifaces)
        (interfacesToArray w mask (w.nss m).ifaces) (ifid w x) (ifid w y) ↔
      (utf8 (ifid w x) = true → utf8 (ifid w y) = true → EdgeAtBothEnds w x y) := by
  have hxl := mem_listed_of_mem_ifaces hn hx
  have hyl := mem_listed_of_mem_ifaces hm hy
  have hchildren : (ifObj w mask x).lookup (cstr "children") = unlessEmpty (ifChildren w x) :=
    lookup_ifObj (by simp) (by decide)
  have hparents : (ifObj w mask y).lookup (cstr "parents") = unlessEmpty (ifParents w y) :=
    lookup_ifObj (by simp) (by decide)
  have hchild := connectionTo_interfacesToArray h hn hx hchildren (ifid w y)
  have hparent := connectionTo_interfacesToArray h hm hy hparents (ifid w x)
  rw [lookup_ifChildren h hxl hyl] at hchild
  rw [lookup_ifParents h hxl hyl] at hparent
  unfold SymmetricConnection EdgeAtBothEnds
  rw [hchild, hparent]
  by_cases hux : utf8 (ifid w x) = true
  · by_cases huy : utf8 (ifid w y) = true
    · simp only [hux, huy, if_true, forall_const]
      by_cases hlink : (w.ifs x).link = some y
      · by_cases hmaster : (w.ifs y).master = some x
        · simp [hlink, hmaster, connectionInfo_connection]
        · by_cases hnone : (w.ifs y).master = none <;>
            simp [hlink, hmaster, hnone, connectionInfo_connection]
      · by_cases hmaster : (w.ifs y).master = some x
        · by_cases hnone : (w.ifs x).link = none <;>
            simp [hlink, hmaster, hnone, connectionInfo_connection]
        · simp [hlink, hmaster]
    · simp [hux, huy]
  · simp [hux]

/-- `eth0` at address 1 is a slave of `bond0` at address 2; the VLAN interface at address 3
is on top of it. -/
def vlanOverSlave : World where
  ifs e := match e with
    | 1 => { ifName := cstr "eth0", master := some 2, revLink := [3] }
    | 2 => { ifName := cstr "bond0", revMaster := [1] }
    | 3 => { ifName := cstr "vlan0", link := some 1 }
    | _ => {}
  nss _ := { ifaces := [1, 2, 3] }
  nsList := [0]
  free := []

theorem vlanOverSlave_mirrored : Mirrored vlanOverSlave := by
  constructor <;> decide

theorem symmetricConnection_bond :
    SymmetricConnection (interfacesToArray vlanOverSlave {} [1, 2, 3])
        (interfacesToArray vlanOverSlave {} [1, 2, 3]) (cstr "//bond0") (cstr "//eth0") ↔
      (utf8 (cstr "//bond0") = true → utf8 (cstr "//eth0") = true →
        EdgeAtBothEnds vlanOverSlave 2 1) :=
  symmetricConnection_iff (x := 2) (y := 1) vlanOverSlave_mirrored {} (n := 0) (m := 0)
    (by decide) (by decide) (by decide) (by decide)

/-- The VLAN interface lists `eth0` as a child, but `eth0` lists its master only. -/
theorem symmetricConnection_vlanOverSlave :
    Mirrored vlanOverSlave ∧
    ¬ SymmetricConnection (interfacesToArray vlanOverSlave {} [1, 2, 3])
      (interfacesToArray vlanOverSlave {} [1, 2, 3]) (cstr "//vlan0") (cstr "//eth0") := by
  refine ⟨vlanOverSlave_mirrored, fun h => ?_⟩
  have hiff := h.1
  revert hiff
  decide

end Plotnetcfg.Frontends
