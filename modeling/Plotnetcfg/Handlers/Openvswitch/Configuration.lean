import Plotnetcfg.Handlers.Openvswitch.Parsed
import Plotnetcfg.Handlers.Openvswitch.PortInfo
import Mathlib.Data.List.Forall2

/-! A configuration of bridges across its OVSDB encoding. A reply gives the rows of each table
under their uuids; a row refers to others by sets of uuids. -/

namespace Plotnetcfg.Openvswitch

structure IfConfig where
  uuid : CStr
  name : CStr
  type : CStr
  options : List (CStr × CStr)

structure PortConfig where
  uuid : CStr
  name : CStr
  ifaces : List IfConfig
  settings : PortSettings

structure BridgeConfig where
  uuid : CStr
  name : CStr
  dpType : OvsDpType
  ports : List PortConfig

/-! ## Encoding -/

def uuidAtom (uuid : CStr) : Json := .arr [.str (cstr "uuid"), .str uuid]

def optionsMap (options : List (CStr × CStr)) : Json :=
  .arr [.str (cstr "map"), .arr (options.map fun o => .arr [.str o.1, .str o.2])]

def RefersTo (row : Json) (column : CStr) (uuids : List CStr) : Prop :=
  ∃ j, jsonObjectGet (some row) column = some j ∧ EncodesSet (uuids.map uuidAtom) j

section
variable (jresult : Json)

def HasRow (table uuid : CStr) (row : Json) : Prop :=
  jsonObjectGet (jsonObjectGet (jsonObjectGet (some jresult) table) uuid) (cstr "new") = some row

def EncodesIf (c : IfConfig) : Prop :=
  ∃ row, HasRow jresult (cstr "Interface") c.uuid row ∧
    jsonObjectGet (some row) (cstr "name") = some (.str c.name) ∧
    jsonObjectGet (some row) (cstr "type") = some (.str c.type) ∧
    jsonObjectGet (some row) (cstr "options") = some (optionsMap c.options)

def EncodesPortRow (c : PortConfig) : Prop :=
  ∃ row, HasRow jresult (cstr "Port") c.uuid row ∧
    jsonObjectGet (some row) (cstr "name") = some (.str c.name) ∧ EncodesPort c.settings row ∧
    RefersTo row (cstr "interfaces") (c.ifaces.map IfConfig.uuid) ∧
    ∀ iface ∈ c.ifaces, EncodesIf jresult iface

/-- The system datapath is the default, which is an empty string. -/
def EncodesDpType (dpType : OvsDpType) (j : Option Json) : Prop :=
  match dpType with
  | .system => j = none ∨ j = some (.str []) ∨ j = some (.str (cstr "system"))
  | .netdev => j = some (.str (cstr "netdev"))

def EncodesBridge (c : BridgeConfig) : Prop :=
  ∃ row, HasRow jresult (cstr "Bridge") c.uuid row ∧
    jsonObjectGet (some row) (cstr "name") = some (.str c.name) ∧
    EncodesDpType c.dpType (jsonObjectGet (some row) (cstr "datapath_type")) ∧
    RefersTo row (cstr "ports") (c.ports.map PortConfig.uuid) ∧
    ∀ port ∈ c.ports, EncodesPortRow jresult port

end

/-- A reply without an error, whose only row of the root table refers to the bridges. -/
def EncodesReply (config : List BridgeConfig) (jroot : Json) : Prop :=
  (jsonObjectGet (some jroot) (cstr "error") = none ∨
    jsonObjectGet (some jroot) (cstr "error") = some .null) ∧
  ∃ jresult, jsonObjectGet (some jroot) (cstr "result") = some jresult ∧
    (∃ uuid root row, jsonObjectGet (some jresult) (cstr "Open_vSwitch") = some (.obj [(uuid, root)]) ∧
      jsonObjectGet (some root) (cstr "new") = some row ∧
      RefersTo row (cstr "bridges") (config.map BridgeConfig.uuid)) ∧
    ∀ br ∈ config, EncodesBridge jresult br

/-! ## Decoding -/

/-- An option that belongs to the types for which `belongs` holds. -/
def IfConfig.option (c : IfConfig) (belongs : Prop) [Decidable belongs] (key : String) :
    Option CStr :=
  if belongs then c.options.lookup (cstr key) else none

def IfConfig.IsTunnel (c : IfConfig) : Prop :=
  c.type = cstr "vxlan" ∨ c.type = cstr "geneve" ∨ c.type = cstr "gre"

instance (c : IfConfig) : Decidable c.IsTunnel := inferInstanceAs (Decidable (_ ∨ _))

def IfConfig.decoded (c : IfConfig) (ptr : OvsIfPtr) : OvsIf where
  ptr := ptr
  name := c.name
  type := c.type
  localIp := c.option c.IsTunnel "local_ip"
  remoteIp := c.option c.IsTunnel "remote_ip"
  key := c.option c.IsTunnel "key"
  peer := c.option (c.type = cstr "patch") "peer"
  hwDev := c.option (c.type = cstr "dpdk") "dpdk-devargs"

def IfConfig.Is (c : IfConfig) (iface : OvsIf) : Prop := iface = c.decoded iface.ptr

structure PortConfig.Is (c : PortConfig) (port : OvsPort) : Prop where
  name : port.name = c.name
  ifaces : List.Forall₂ IfConfig.Is c.ifaces port.ifaces
  ifaceCount : port.ifaceCount = c.ifaces.length

/-- The port named like the bridge is not in its list. -/
structure BridgeConfig.Is (c : BridgeConfig) (br : OvsBridge) : Prop where
  name : br.name = c.name
  dpType : br.dpType = c.dpType
  ports : List.Forall₂ PortConfig.Is (c.ports.filter fun p => p.name ≠ c.name) br.ports
  system : List.Forall₂ PortConfig.Is (c.ports.filter fun p => p.name = c.name) br.system.toList

/-! ## Interfaces -/

section
variable {jresult : Json} {warnings : NsPtr}

theorem RefersTo.members {row : Json} {column : CStr} {uuids : List CStr}
    (h : RefersTo row column uuids) (s : OvsState) :
    Openvswitch.members (jsonObjectGet (some row) column) s =
      some (.ok (uuids.map fun uuid => some (uuidAtom uuid)), s) := by
  obtain ⟨j, hj, hset⟩ := h
  rw [hj]
  generalize hl : uuids.map uuidAtom = l at hset
  have hmap : uuids.map (fun uuid => some (uuidAtom uuid)) = l.map some := by
    rw [← hl, List.map_map]
    rfl
  rw [hmap]
  cases hset with
  | atom x =>
    obtain ⟨uuid, -, rfl⟩ := List.mem_map.mp (hl ▸ List.mem_singleton_self j : j ∈ uuids.map uuidAtom)
    rfl
  | set l => rfl

theorem HasRow.namedRow {table uuid name : CStr} {row : Json} (h : HasRow jresult table uuid row)
    (hname : jsonObjectGet (some row) (cstr "name") = some (.str name)) :
    Openvswitch.namedRow (some jresult) table (some (uuidAtom uuid)) = some (row, name) := by
  have hrow : rowNew (some jresult) table (some (uuidAtom uuid)) = some row := h
  have htag : tagOf (some (uuidAtom uuid)) = some (cstr "uuid") := rfl
  unfold Openvswitch.namedRow strMember
  rw [if_pos htag, hrow, Option.bind_some, hname]
  rfl

theorem searchStrOption_run (key : CStr) (options : List (CStr × CStr)) (s : OvsState) :
    searchStrOption key (options.map fun o => .arr [.str o.1, .str o.2]) s =
      some (.ok (options.lookup key), s) := by
  induction options with
  | nil => rfl
  | cons o options ih =>
    rw [List.map_cons, searchStrOption]
    have hkey : (Prog.deref (jsonStringValue (jsonArrayGet (some (.arr [.str o.1, .str o.2])) 0)) :
        OvsProg CStr) s = some (.ok o.1, s) := rfl
    rw [Prog.bind_ok s hkey]
    by_cases heq : o.1 = key
    · rw [if_pos heq, List.lookup_cons, heq, beq_self_eq_true]
      rfl
    · rw [if_neg heq, List.lookup_cons, beq_eq_false_iff_ne.mpr (Ne.symm heq)]
      exact ih

theorem parseOptions_run {c : IfConfig} {row : Json} (ptr : OvsIfPtr)
    (h : jsonObjectGet (some row) (cstr "options") = some (optionsMap c.options)) (s : OvsState) :
    parseOptions { ptr := ptr, name := c.name, type := c.type } (some row) s =
      some (.ok (c.decoded ptr), s) := by
  have hmap : isMap (jsonObjectGet (some row) (cstr "options")) s = some (.ok true, s) := by
    rw [h]
    rfl
  have hoptions : jsonArrayElems (jsonArrayGet (jsonObjectGet (some row) (cstr "options")) 1) =
      c.options.map fun o => .arr [.str o.1, .str o.2] := by
    rw [h]
    rfl
  have hsearch := fun key => searchStrOption_run key c.options s
  have htunnel := ifaceIsTunnel_iff { ptr := ptr, name := c.name, type := c.type }
  have hpatch : c.type = cstr "patch" → ¬ c.IsTunnel := by
    intro htype
    unfold IfConfig.IsTunnel
    rw [htype]
    decide
  have hdpdk : c.type = cstr "dpdk" → ¬ c.IsTunnel ∧ c.type ≠ cstr "patch" := by
    intro htype
    unfold IfConfig.IsTunnel
    rw [htype]
    decide
  unfold parseOptions
  rw [Prog.bind_ok s hmap, if_pos rfl]
  dsimp only
  rw [hoptions]
  unfold IfConfig.decoded IfConfig.option
  by_cases htype : c.IsTunnel
  · have hnopatch : c.type ≠ cstr "patch" := fun hp => hpatch hp htype
    have hnodpdk : c.type ≠ cstr "dpdk" := fun hd => (hdpdk hd).1 htype
    rw [if_pos (htunnel.mpr htype), Prog.bind_ok s (hsearch _), Prog.bind_ok s (hsearch _),
      Prog.bind_ok s (hsearch _), if_pos htype, if_pos htype, if_pos htype, if_neg hnopatch,
      if_neg hnodpdk]
    rfl
  · rw [if_neg fun ht => htype (htunnel.mp ht), if_neg htype, if_neg htype, if_neg htype]
    by_cases hp : c.type = cstr "patch"
    · have hnodpdk : c.type ≠ cstr "dpdk" := fun hd => (hdpdk hd).2 hp
      rw [if_pos hp, Prog.bind_ok s (hsearch _), if_pos hp, if_neg hnodpdk]
      rfl
    · rw [if_neg hp, if_neg hp]
      by_cases hd : c.type = cstr "dpdk"
      · rw [if_pos hd, Prog.bind_ok s (hsearch _), if_pos hd]
        rfl
      · rw [if_neg hd, if_neg hd]
        rfl

theorem parseIface_returns {c : IfConfig} (h : EncodesIf jresult c) (port : OvsPort)
    (s : OvsState) : Prog.Returns (parseIface warnings (some jresult) (some (uuidAtom c.uuid)) port) s
      fun port' s' => port' = port.append (c.decoded s.next) ∧ s'.world = s.world := by
  obtain ⟨row, hrow, hname, htype, hoptions⟩ := h
  refine ⟨_, { s with link := Function.update s.link s.next none, next := s.next + 1 }, ?_, rfl,
    rfl⟩
  unfold parseIface
  rw [withRow_some s warnings (some jresult) _ _ _ _ (hrow.namedRow hname), htype]
  have halloc : callocIf s = some (.ok s.next,
      { s with link := Function.update s.link s.next none, next := s.next + 1 }) := rfl
  show (callocIf >>= _) s = _
  rw [Prog.bind_ok s halloc, Prog.bind_ok _ (parseOptions_run s.next hoptions _)]
  rfl

/-! ## Ports -/

structure PortSoFar (c : PortConfig) (world : World) (before : List IfConfig) (port : OvsPort)
    (s : OvsState) : Prop where
  name : port.name = c.name
  ifaces : List.Forall₂ IfConfig.Is before port.ifaces
  world : s.world = world

variable (warnings) in
theorem parseIfaces_returns {c : PortConfig} (h : ∀ iface ∈ c.ifaces, EncodesIf jresult iface)
    {port : OvsPort} (hname : port.name = c.name) (hempty : port.ifaces = []) (s : OvsState) :
    Prog.Returns (parseIfaces warnings (some jresult)
      ((c.ifaces.map IfConfig.uuid).map fun uuid => some (uuidAtom uuid)) port) s
      (PortSoFar c s.world c.ifaces) := by
  unfold parseIfaces
  rw [List.map_map]
  apply Prog.Returns.foldM
  · intro pre iface post port' s' hsplit hpre
    have hiface := h iface (hsplit ▸ List.mem_append_right pre List.mem_cons_self)
    apply (parseIface_returns hiface port' s').weaken
    rintro _ s'' ⟨rfl, hworld⟩
    have hsingle : List.Forall₂ IfConfig.Is [iface] [iface.decoded s'.next] := .cons rfl .nil
    exact ⟨hpre.name, List.rel_append hpre.ifaces hsingle, hworld.trans hpre.world⟩
  · exact ⟨hname, hempty ▸ .nil, rfl⟩

def OvsBridge.addPort (br : OvsBridge) (port : OvsPort) : OvsBridge :=
  if port.name = br.name then { br with system := some port }
  else { br with ports := br.ports ++ [port] }

theorem parsePort_returns {c : PortConfig} (h : EncodesPortRow jresult c) (br : OvsBridge)
    (s : OvsState) : Prog.Returns (parsePort warnings (some jresult) (some (uuidAtom c.uuid)) br) s
      fun br' s' => (∃ port, c.Is port ∧ br' = br.addPort port) ∧ s'.world = s.world := by
  obtain ⟨row, hrow, hname, hsettings, hrefers, hifaces⟩ := h
  obtain ⟨tag, htag, -⟩ := hsettings.tag
  obtain ⟨trunks, htrunks, -⟩ := hsettings.trunks
  obtain ⟨bond, hbond, -⟩ := hsettings.bondMode
  obtain ⟨port₀, -, hinfo, -⟩ := parsePortInfo_run hsettings htag htrunks hbond c.name s
  obtain ⟨hname₀, hifaces₀⟩ := parsePortInfo_kept _ _ s trivial _ _ hinfo
  have hall := (parseIfaces_returns warnings hifaces hname₀ hifaces₀ s).onError
    fun _ => destructPort port₀
  obtain ⟨port, s', hrun, hport⟩ := hall
  refine ⟨br.addPort port, s', ?_, ⟨port, ⟨hport.name, hport.ifaces, ?_⟩, rfl⟩, hport.world⟩
  · unfold parsePort
    rw [withRow_some s warnings (some jresult) _ _ _ _ (hrow.namedRow hname), Prog.bind_ok s hinfo,
      Prog.bind_ok s (hrefers.members s), Prog.bind_ok s hrun]
    unfold OvsBridge.addPort
    rw [hport.name]
    split_ifs
    · rfl
    · rfl
  · rw [port.counted]
    exact hport.ifaces.length_eq.symm

/-! ## Bridges -/

structure BridgeSoFar (c : BridgeConfig) (world : World) (before : List PortConfig)
    (br : OvsBridge) (s : OvsState) : Prop where
  is : BridgeConfig.Is { c with ports := before } br
  world : s.world = world

theorem BridgeConfig.Is.addPort {c : BridgeConfig} {before : List PortConfig} {p : PortConfig}
    {br : OvsBridge} {port : OvsPort} (h : BridgeConfig.Is { c with ports := before } br)
    (hport : p.Is port) (hunique : ∀ q ∈ before, q.name ≠ p.name) :
    BridgeConfig.Is { c with ports := before ++ [p] } (br.addPort port) := by
  have hsingle : List.Forall₂ PortConfig.Is [p] [port] := .cons hport .nil
  have hbr : br.name = c.name := h.name
  unfold OvsBridge.addPort
  by_cases hname : p.name = c.name
  · rw [if_pos ((hport.name.trans hname).trans hbr.symm)]
    refine ⟨h.name, h.dpType, ?_, ?_⟩
    · have hports := h.ports
      simpa [List.filter_append, hname] using hports
    · have hnone : before.filter (fun q => q.name = c.name) = [] := by
        rw [List.filter_eq_nil_iff]
        intro q hq heq
        exact hunique q hq ((of_decide_eq_true heq).trans hname.symm)
      simpa [List.filter_append, hname, hnone] using hsingle
  · rw [if_neg fun heq => hname ((hport.name.symm.trans heq).trans hbr)]
    refine ⟨h.name, h.dpType, ?_, ?_⟩
    · have hports := List.rel_append h.ports hsingle
      simpa [List.filter_append, hname] using hports
    · have hsystem := h.system
      simpa [List.filter_append, hname] using hsystem

theorem dpTypeNamed_encoded {dpType : OvsDpType} {row : Json}
    (h : EncodesDpType dpType (jsonObjectGet (some row) (cstr "datapath_type"))) :
    dpTypeNamed (dpTypeOf (some row)) = some dpType := by
  unfold dpTypeOf
  cases dpType with
  | system =>
    rcases h with h | h | h
    · rw [h]
      rfl
    · rw [h]
      rfl
    · rw [h]
      rfl
  | netdev =>
    have hnetdev : jsonObjectGet (some row) (cstr "datapath_type") = some (.str (cstr "netdev")) := h
    rw [hnetdev]
    rfl

theorem parseBridge_returns {c : BridgeConfig} (h : EncodesBridge jresult c)
    (hunique : (c.ports.map PortConfig.name).Nodup) (s : OvsState) :
    Prog.Returns (parseBridge warnings (some jresult) (some (uuidAtom c.uuid))) s
      fun br s' => c.Is br ∧ s'.world = s.world := by
  obtain ⟨row, hrow, hname, hdp, hrefers, hports⟩ := h
  have hall : Prog.Returns (parsePorts warnings (some jresult)
      ((c.ports.map PortConfig.uuid).map fun uuid => some (uuidAtom uuid))
      { name := c.name, dpType := c.dpType }) s (BridgeSoFar c s.world c.ports) := by
    unfold parsePorts
    rw [List.map_map]
    apply Prog.Returns.foldM
    · intro pre p post br s' hsplit hpre
      have hport := hports p (hsplit ▸ List.mem_append_right pre List.mem_cons_self)
      apply ((parsePort_returns hport br s').onError fun _ => destructBridge br).weaken
      rintro _ s'' ⟨⟨port, hp, rfl⟩, hworld⟩
      refine ⟨hpre.is.addPort hp fun q hq heq => ?_, hworld.trans hpre.world⟩
      rw [hsplit, List.map_append, List.map_cons] at hunique
      exact (List.nodup_append.mp hunique).2.2 _ (List.mem_map_of_mem hq) _ List.mem_cons_self heq
    · exact ⟨⟨rfl, rfl, .nil, .nil⟩, rfl⟩
  obtain ⟨br, s', hrun, hbr⟩ := hall
  refine ⟨br, s', ?_, hbr.is, hbr.world⟩
  unfold parseBridge
  rw [withRow_some s warnings (some jresult) _ _ _ _ (hrow.namedRow hname), dpTypeNamed_encoded hdp]
  dsimp only
  rw [Prog.bind_ok s (hrefers.members s)]
  exact hrun

variable (warnings) in
theorem parseBridges_returns {config : List BridgeConfig}
    (h : ∀ br ∈ config, EncodesBridge jresult br)
    (hunique : ∀ br ∈ config, (br.ports.map PortConfig.name).Nodup) (s : OvsState) :
    Prog.Returns (parseBridges warnings (some jresult)
      ((config.map BridgeConfig.uuid).map fun uuid => some (uuidAtom uuid))) s
      fun brList s' => List.Forall₂ BridgeConfig.Is config brList ∧ s'.world = s.world := by
  unfold parseBridges
  rw [List.map_map]
  apply Prog.Returns.foldM (R := fun before brList (s' : OvsState) =>
    List.Forall₂ BridgeConfig.Is before brList ∧ s'.world = s.world)
  · intro pre c post brList s' hsplit ⟨hpre, hworld⟩
    have hmem : c ∈ config := hsplit ▸ List.mem_append_right pre List.mem_cons_self
    apply Prog.Returns.bind (parseBridge_returns (h c hmem) (hunique c hmem) s')
    rintro br s'' ⟨hbr, hworld'⟩
    exact Prog.Returns.pure ⟨List.rel_append hpre (.cons hbr .nil), hworld'.trans hworld⟩
  · exact ⟨.nil, rfl⟩

end

/-- The bridges that are read off a reply are those of the configuration it encodes. The value for
an empty configuration is that `parse` starts with, an error, and no bridge is added. -/
theorem parse_encoded {config : List BridgeConfig} {jroot : Json} (h : EncodesReply config jroot)
    (hunique : ∀ br ∈ config, (br.ports.map PortConfig.name).Nodup) (warnings : NsPtr)
    (s : OvsState) : ∃ brList s',
      parse warnings (.ok jroot) s =
        some (if config = [] then .error EINVAL else .ok brList, s') ∧
      List.Forall₂ BridgeConfig.Is config brList ∧ s'.world = s.world := by
  obtain ⟨herror, jresult, hresult, ⟨uuid, root, row, hovs, hnew, hrefers⟩, hbridges⟩ := h
  have hmembers := hrefers.members s
  obtain ⟨column, hcolumn, -⟩ := hrefers
  rw [hcolumn] at hmembers
  have hparse : parse warnings (.ok jroot) s = (if ((config.map BridgeConfig.uuid).map fun uuid =>
      some (uuidAtom uuid)).isEmpty then Prog.throw (EINVAL : Int)
      else parseBridges warnings (some jresult) ((config.map BridgeConfig.uuid).map fun uuid =>
        some (uuidAtom uuid)) : OvsProg (List OvsBridge)) s := by
    have hfirst : jsonObjectFirst (some (.obj [(uuid, root)])) = some root := rfl
    have hsize : jsonObjectSize (some (.obj [(uuid, root)])) = 1 := rfl
    unfold parse
    dsimp only
    rw [hresult, hovs, hfirst, hnew, hcolumn, hsize]
    rcases herror with herror | herror
    · rw [herror]
      exact Prog.bind_ok s hmembers _
    · rw [herror]
      exact Prog.bind_ok s hmembers _
  obtain ⟨brList, s', hrun, hbr, hworld⟩ :=
    parseBridges_returns warnings hbridges hunique s
  cases config with
  | nil => exact ⟨[], s, hparse, .nil, rfl⟩
  | cons c config =>
    refine ⟨brList, s', ?_, hbr, hworld⟩
    rw [hparse]
    exact hrun

def tunnelConfig : BridgeConfig where
  uuid := cstr "b"
  name := cstr "br0"
  dpType := .system
  ports := [
    ⟨cstr "p0", cstr "br0", [⟨cstr "i0", cstr "br0", cstr "internal", []⟩], ⟨none, [], none⟩⟩,
    ⟨cstr "p1", cstr "vx", [⟨cstr "i1", cstr "vx", cstr "vxlan",
      [(cstr "remote_ip", cstr "10.0.0.2")]⟩], ⟨none, [], none⟩⟩]

def tableOf (rows : List (String × JsonObj)) : Json :=
  .obj (rows.map fun row => (cstr row.1, .obj [(cstr "new", .obj row.2)]))

def tunnelPort (name uuid : String) : JsonObj :=
  [(cstr "name", .str (cstr name)), (cstr "interfaces", uuidAtom (cstr uuid)), (cstr "tag", setOf []),
    (cstr "trunks", setOf []), (cstr "bond_mode", setOf [])]

/-- The sets of one uuid are bare here. -/
def tunnelReply : Json := .obj [(cstr "id", .int 0), (cstr "error", .null), (cstr "result", .obj [
  (cstr "Open_vSwitch", tableOf [("r", [(cstr "bridges", uuidAtom (cstr "b"))])]),
  (cstr "Bridge", tableOf [("b", [(cstr "name", .str (cstr "br0")),
    (cstr "datapath_type", .str []),
    (cstr "ports", setOf [uuidAtom (cstr "p0"), uuidAtom (cstr "p1")])])]),
  (cstr "Port", tableOf [("p0", tunnelPort "br0" "i0"), ("p1", tunnelPort "vx" "i1")]),
  (cstr "Interface", tableOf [
    ("i0", [(cstr "name", .str (cstr "br0")), (cstr "type", .str (cstr "internal")),
      (cstr "options", optionsMap [])]),
    ("i1", [(cstr "name", .str (cstr "vx")), (cstr "type", .str (cstr "vxlan")),
      (cstr "options", optionsMap [(cstr "remote_ip", cstr "10.0.0.2")])])])])]

theorem parse_encoded_tunnel : ∃ brList s',
    parse 0 (.ok tunnelReply) startState = some (.ok brList, s') ∧
      List.Forall₂ BridgeConfig.Is [tunnelConfig] brList := by
  have hsettings : ∀ name uuid, EncodesPort ⟨none, [], none⟩ (.obj (tunnelPort name uuid)) :=
    fun _ _ => ⟨⟨_, rfl, .set []⟩, ⟨_, rfl, .set []⟩, ⟨_, rfl, .set []⟩⟩
  have hencodes : EncodesReply [tunnelConfig] tunnelReply := by
    refine ⟨.inr rfl, _, rfl, ⟨_, _, _, rfl, rfl, _, rfl, .atom _⟩, fun br hbr => ?_⟩
    obtain rfl := List.mem_singleton.mp hbr
    refine ⟨_, rfl, rfl, .inr (.inl rfl), ⟨_, rfl, .set _⟩, fun port hport => ?_⟩
    rcases List.mem_pair.mp hport with rfl | rfl
    · refine ⟨_, rfl, rfl, hsettings _ _, ⟨_, rfl, .atom _⟩, fun iface hiface => ?_⟩
      obtain rfl := List.mem_singleton.mp hiface
      exact ⟨_, rfl, rfl, rfl, rfl⟩
    · refine ⟨_, rfl, rfl, hsettings _ _, ⟨_, rfl, .atom _⟩, fun iface hiface => ?_⟩
      obtain rfl := List.mem_singleton.mp hiface
      exact ⟨_, rfl, rfl, rfl, rfl⟩
  have hunique : ∀ br ∈ [tunnelConfig], (br.ports.map PortConfig.name).Nodup := by
    intro br hbr
    obtain rfl := List.mem_singleton.mp hbr
    decide
  obtain ⟨brList, s', hparse, hbr, -⟩ := parse_encoded hencodes hunique 0 startState
  exact ⟨brList, s', hparse, hbr⟩

end Plotnetcfg.Openvswitch
