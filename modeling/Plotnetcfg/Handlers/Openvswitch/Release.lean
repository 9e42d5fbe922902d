import Plotnetcfg.Handlers.Openvswitch.ReplySafety
import Plotnetcfg.Lib.Ownership

/-! Which blocks the destructors of the tree of ovsdb free (`destruct_if`, `destruct_port`,
`destruct_bridge`), against those that the tree owns. A block is named by its place in the tree. -/

namespace Plotnetcfg.Openvswitch.Release

open Ownership (Once)

inductive IfBlock where
  | self
  | name
  | type
  | localIp
  | remoteIp
  | key
  | peer
  | hwDev
deriving DecidableEq

inductive PortBlock where
  | self
  | name
  | trunks
  | bondMode
  | iface (i : Nat) (block : IfBlock)
deriving DecidableEq

inductive BridgeBlock where
  | self
  | name
  | port (i : Nat) (block : PortBlock)
  | system (block : PortBlock)
deriving DecidableEq

def PortBlock.ofIface (block : Nat × IfBlock) : PortBlock := .iface block.1 block.2

def BridgeBlock.ofPort (block : Nat × PortBlock) : BridgeBlock := .port block.1 block.2

/-- The block behind a pointer, none behind a null pointer. -/
def behind {A T : Type} (x : Option A) (block : T) : List T := if x.isSome then [block] else []

@[simp] theorem behind_none {A T : Type} (block : T) : behind (none : Option A) block = [] := rfl

@[simp] theorem behind_some {A T : Type} (x : A) (block : T) : behind (some x) block = [block] :=
  rfl

/-! ## What the tree owns -/

def ifBlocks (iface : OvsIf) : List IfBlock :=
  [.self, .name, .type] ++ behind iface.localIp .localIp ++ behind iface.remoteIp .remoteIp ++
    behind iface.key .key ++ behind iface.peer .peer ++ behind iface.hwDev .hwDev

def portOwn (port : OvsPort) : List PortBlock :=
  [.self, .name] ++ behind port.trunks .trunks ++ behind port.bondMode .bondMode

def portBlocks (port : OvsPort) : List PortBlock :=
  portOwn port ++ (Ownership.indexed ifBlocks port.ifaces).map PortBlock.ofIface

def systemBlocks (br : OvsBridge) : List BridgeBlock :=
  (br.system.toList.flatMap portBlocks).map .system

def bridgeBlocks (br : OvsBridge) : List BridgeBlock :=
  [.self, .name] ++ (Ownership.indexed portBlocks br.ports).map BridgeBlock.ofPort ++
    systemBlocks br

def treeBlocks (brList : List OvsBridge) : List (Nat × BridgeBlock) :=
  Ownership.indexed bridgeBlocks brList

/-! ## What the destructors free, in their order -/

/-- `list_free`: the last node is taken off, destructed and freed. -/
def listFree {A T : Type} (destruct : A → List T) (self : T) (list : List A) : List (Nat × T) :=
  Ownership.fromTail (fun x => destruct x ++ [self]) list

def destructIf (iface : OvsIf) : List IfBlock :=
  [.name, .type] ++ behind iface.localIp .localIp ++ behind iface.remoteIp .remoteIp ++
    behind iface.key .key ++ behind iface.peer .peer

/-- The fields of a port; `trunks` is freed before and after `bond_mode`. -/
def freePort (port : OvsPort) : List PortBlock :=
  [.name] ++ behind port.trunks .trunks ++ behind port.bondMode .bondMode ++
    behind port.trunks .trunks

def destructPort (port : OvsPort) : List PortBlock :=
  freePort port ++ (listFree destructIf .self port.ifaces).map PortBlock.ofIface

def destructBridge (br : OvsBridge) : List BridgeBlock :=
  [.name] ++ (listFree destructPort .self br.ports).map BridgeBlock.ofPort

def ovsGlobalCleanup (brList : List OvsBridge) : List (Nat × BridgeBlock) :=
  listFree destructBridge .self brList

def errPort (port : OvsPort) : List PortBlock := destructPort port ++ [.self]

def errBr (br : OvsBridge) : List BridgeBlock := destructBridge br ++ [.self]

/-! ## Every block once -/

theorem ifBlocks_nodup (iface : OvsIf) : (ifBlocks iface).Nodup := by
  unfold ifBlocks behind
  split_ifs <;> decide

theorem once_if_iff (iface : OvsIf) :
    Once (ifBlocks iface) (destructIf iface ++ [.self]) ↔ iface.hwDev = none := by
  cases hhw : iface.hwDev with
  | none =>
    have hperm : (destructIf iface ++ [IfBlock.self]).Perm (ifBlocks iface) := by
      rw [ifBlocks, hhw, behind_none, List.append_nil]
      exact List.perm_append_singleton _ _
    apply iff_of_true _ rfl
    exact (Ownership.once_perm hperm).mpr (Once.of_nodup (ifBlocks_nodup iface))
  | some hwDev =>
    have howned : IfBlock.hwDev ∈ ifBlocks iface := by
      rw [ifBlocks, hhw]
      exact List.mem_append_right _ (List.mem_singleton_self _)
    have hkept : IfBlock.hwDev ∉ destructIf iface ++ [IfBlock.self] := by
      unfold destructIf behind
      split_ifs <;> decide
    apply iff_of_false _ (Option.some_ne_none hwDev)
    exact fun h => hkept (h.all _ howned)

theorem portOwn_nodup (port : OvsPort) : (portOwn port).Nodup := by
  unfold portOwn behind
  split_ifs <;> decide

theorem once_portOwn_iff (port : OvsPort) :
    Once (portOwn port) (freePort port ++ [.self]) ↔ port.trunks = none := by
  cases htrunks : port.trunks with
  | none =>
    have hperm : (freePort port ++ [PortBlock.self]).Perm (portOwn port) := by
      rw [portOwn, freePort, htrunks, behind_none]
      unfold behind
      split_ifs <;> decide
    apply iff_of_true _ rfl
    exact (Ownership.once_perm hperm).mpr (Once.of_nodup (portOwn_nodup port))
  | some trunks =>
    have htwice : ¬ (freePort port ++ [PortBlock.self]).Nodup := by
      rw [freePort, htrunks, behind_some]
      unfold behind
      split_ifs <;> decide
    apply iff_of_false _ (Option.some_ne_none trunks)
    exact fun h => htwice h.nodup

/-- The array of the trunks would be freed twice, and the device of an interface of DPDK not
at all. -/
structure PortReleased (port : OvsPort) : Prop where
  trunks : port.trunks = none
  hwDev : ∀ iface ∈ port.ifaces, iface.hwDev = none

theorem ofIface_injective : Function.Injective PortBlock.ofIface := by
  rintro ⟨i, block⟩ ⟨i', block'⟩ h
  obtain ⟨rfl, rfl⟩ := PortBlock.iface.inj h
  rfl

theorem last_perm {T : Type} (a b c : List T) : (a ++ b ++ c).Perm (a ++ c ++ b) := by
  rw [List.append_assoc, List.append_assoc]
  exact List.perm_append_comm.append_left a

theorem once_port_iff (port : OvsPort) :
    Once (portBlocks port) (errPort port) ↔ PortReleased port := by
  have hown : ∀ block ∈ portOwn port ++ (freePort port ++ [PortBlock.self]),
      block ∉ Set.range PortBlock.ofIface := by
    unfold portOwn freePort behind
    rintro block hblock ⟨⟨i, block'⟩, rfl⟩
    revert hblock
    split_ifs <;> simp [PortBlock.ofIface]
  have hmembers : ∀ block ∈
      (Ownership.indexed ifBlocks port.ifaces).map PortBlock.ofIface ++
        (listFree destructIf .self port.ifaces).map PortBlock.ofIface,
      ¬ block ∉ Set.range PortBlock.ofIface := by
    intro block hblock
    rw [← List.map_append] at hblock
    obtain ⟨block', -, rfl⟩ := List.mem_map.mp hblock
    exact not_not_intro ⟨block', rfl⟩
  calc Once (portBlocks port) (errPort port)
    _ ↔ Once (portOwn port ++ (Ownership.indexed ifBlocks port.ifaces).map PortBlock.ofIface)
          ((freePort port ++ [PortBlock.self]) ++
            (listFree destructIf .self port.ifaces).map PortBlock.ofIface) :=
        Ownership.once_perm (last_perm _ _ _)
    _ ↔ port.trunks = none ∧ ∀ iface ∈ port.ifaces, iface.hwDev = none := by
        rw [Ownership.once_append _ hown hmembers, once_portOwn_iff,
          Ownership.once_map ofIface_injective, listFree, Ownership.once_fromTail]
        simp only [once_if_iff]
    _ ↔ PortReleased port := ⟨fun h => ⟨h.1, h.2⟩, fun h => ⟨h.trunks, h.hwDev⟩⟩

/-- Neither the port of the bridge itself nor anything below it is freed. -/
structure BridgeReleased (br : OvsBridge) : Prop where
  system : br.system = none
  ports : ∀ port ∈ br.ports, PortReleased port

theorem ofPort_injective : Function.Injective BridgeBlock.ofPort := by
  rintro ⟨i, block⟩ ⟨i', block'⟩ h
  obtain ⟨rfl, rfl⟩ := BridgeBlock.port.inj h
  rfl

theorem once_system_iff (br : OvsBridge) : Once (systemBlocks br) [] ↔ br.system = none := by
  cases hsystem : br.system with
  | none =>
    apply iff_of_true _ rfl
    rw [systemBlocks, hsystem]
    exact Once.of_nodup List.nodup_nil
  | some port =>
    have howned : BridgeBlock.system .self ∈ systemBlocks br := by
      rw [systemBlocks, hsystem]
      simp [portBlocks, portOwn]
    apply iff_of_false _ (Option.some_ne_none port)
    exact fun h => List.not_mem_nil (h.all _ howned)

theorem once_bridge_iff (br : OvsBridge) :
    Once (bridgeBlocks br) (errBr br) ↔ BridgeReleased br := by
  let owned := (Ownership.indexed portBlocks br.ports).map BridgeBlock.ofPort
  let freed := (listFree destructPort .self br.ports).map BridgeBlock.ofPort
  have hown : ∀ block ∈ [BridgeBlock.self, .name] ++ ([BridgeBlock.name] ++ [BridgeBlock.self]),
      block ∉ Set.range BridgeBlock.ofPort := by
    rintro block hblock ⟨⟨i, block'⟩, rfl⟩
    revert hblock
    simp [BridgeBlock.ofPort]
  have hports : ∀ block ∈ owned ++ freed, ¬ block ∉ Set.range BridgeBlock.ofPort := by
    intro block hblock
    rw [← List.map_append] at hblock
    obtain ⟨block', -, rfl⟩ := List.mem_map.mp hblock
    exact not_not_intro ⟨block', rfl⟩
  have hrest : ∀ block ∈ ([BridgeBlock.self, .name] ++ owned) ++
      (([BridgeBlock.name] ++ [BridgeBlock.self]) ++ freed),
      block ∉ Set.range BridgeBlock.system := by
    rintro block hblock ⟨block', rfl⟩
    revert hblock
    simp [owned, freed, BridgeBlock.ofPort]
  have hsystem : ∀ block ∈ systemBlocks br ++ [], ¬ block ∉ Set.range BridgeBlock.system := by
    intro block hblock
    rw [List.append_nil, systemBlocks] at hblock
    obtain ⟨block', -, rfl⟩ := List.mem_map.mp hblock
    exact not_not_intro ⟨block', rfl⟩
  have hfields : Once [BridgeBlock.self, .name] ([BridgeBlock.name] ++ [BridgeBlock.self]) :=
    ⟨by decide, by decide⟩
  have hport : ∀ port, Once (portBlocks port) (destructPort port ++ [PortBlock.self]) ↔
      PortReleased port := once_port_iff
  calc Once (bridgeBlocks br) (errBr br)
    _ ↔ Once (([BridgeBlock.self, .name] ++ owned) ++ systemBlocks br)
          ((([BridgeBlock.name] ++ [BridgeBlock.self]) ++ freed) ++ []) := by
        rw [List.append_nil]
        exact Ownership.once_perm (last_perm _ _ _)
    _ ↔ (∀ port ∈ br.ports, PortReleased port) ∧ br.system = none := by
        rw [Ownership.once_append _ hrest hsystem, Ownership.once_append _ hown hports,
          Ownership.once_map ofPort_injective, listFree, Ownership.once_fromTail,
          once_system_iff, and_iff_right hfields]
        simp only [hport]
    _ ↔ BridgeReleased br := ⟨fun h => ⟨h.2, h.1⟩, fun h => ⟨h.ports, h.system⟩⟩

/-! ## Blocks that are named or freed twice -/

theorem nodup_ofIface {own : List PortBlock} {below : List (Nat × IfBlock)} (hown : own.Nodup)
    (hfields : ∀ block ∈ own, block ∉ Set.range PortBlock.ofIface) (hbelow : below.Nodup) :
    (own ++ below.map PortBlock.ofIface).Nodup := by
  apply hown.append (hbelow.map ofIface_injective)
  intro block hblock hblock'
  obtain ⟨block', -, rfl⟩ := List.mem_map.mp hblock'
  exact hfields _ hblock ⟨block', rfl⟩

theorem portBlocks_nodup (port : OvsPort) : (portBlocks port).Nodup := by
  apply nodup_ofIface (portOwn_nodup port)
  · unfold portOwn behind
    rintro block hblock ⟨⟨i, block'⟩, rfl⟩
    revert hblock
    split_ifs <;> simp [PortBlock.ofIface]
  · exact Ownership.nodup_indexed.mpr fun iface _ => ifBlocks_nodup iface

theorem treeBlocks_nodup (brList : List OvsBridge) : (treeBlocks brList).Nodup := by
  apply Ownership.nodup_indexed.mpr
  intro br _
  have hports : ((Ownership.indexed portBlocks br.ports).map BridgeBlock.ofPort).Nodup :=
    (Ownership.nodup_indexed.mpr fun port _ => portBlocks_nodup port).map ofPort_injective
  have hsystem : (systemBlocks br).Nodup := by
    apply List.Nodup.map fun _ _ => BridgeBlock.system.inj
    cases br.system with
    | none => exact List.nodup_nil
    | some port => simpa using portBlocks_nodup port
  rw [bridgeBlocks, List.append_assoc]
  apply List.Nodup.append (by decide) (hports.append hsystem _)
  · intro block hblock hblock'
    revert hblock
    simp only [systemBlocks, List.mem_append, List.mem_map] at hblock'
    rcases hblock' with ⟨_, -, rfl⟩ | ⟨_, -, rfl⟩ <;> simp [BridgeBlock.ofPort]
  · intro block hblock hblock'
    obtain ⟨_, -, rfl⟩ := List.mem_map.mp hblock
    obtain ⟨_, -, heq⟩ := List.mem_map.mp hblock'
    cases heq

theorem destructPort_nodup_iff (port : OvsPort) :
    (destructPort port).Nodup ↔ port.trunks = none := by
  have hif : ∀ iface, (destructIf iface ++ [IfBlock.self]).Nodup := by
    intro iface
    unfold destructIf behind
    split_ifs <;> decide
  have hbelow : (listFree destructIf .self port.ifaces).Nodup :=
    (Ownership.fromTail_perm _ _).nodup_iff.mpr (Ownership.nodup_indexed.mpr fun iface _ => hif iface)
  cases htrunks : port.trunks with
  | none =>
    apply iff_of_true _ rfl
    apply nodup_ofIface _ _ hbelow
    · rw [freePort, htrunks, behind_none]
      unfold behind
      split_ifs <;> decide
    · unfold freePort behind
      rintro block hblock ⟨⟨i, block'⟩, rfl⟩
      revert hblock
      split_ifs <;> simp [PortBlock.ofIface]
  | some trunks =>
    have htwice : ¬ (freePort port).Nodup := by
      rw [freePort, htrunks, behind_some]
      unfold behind
      split_ifs <;> decide
    apply iff_of_false _ (Option.some_ne_none trunks)
    exact fun h => htwice (List.Nodup.of_append_left h)

/-- To free a block twice is what the parser faults at when it refuses a port. -/
theorem destructPort_faults_iff (port : OvsPort) (s : OvsState) :
    Openvswitch.destructPort port s = none ↔ ¬ (destructPort port).Nodup := by
  rw [destructPort_nodup_iff, Openvswitch.destructPort]
  cases port.trunks with
  | none => simp
  | some trunks => simp

/-- The cleanup and the error exits of the parser free every block of the tree once just when
there is no array of trunks, no device of DPDK and no port of a bridge itself. -/
theorem released_once_iff (brList : List OvsBridge) (port : OvsPort) (br : OvsBridge) :
    (Once (treeBlocks brList) (ovsGlobalCleanup brList) ↔ ∀ br ∈ brList, BridgeReleased br) ∧
    (Once (portBlocks port) (errPort port) ↔ PortReleased port) ∧
    (Once (bridgeBlocks br) (errBr br) ↔ BridgeReleased br) := by
  refine ⟨?_, once_port_iff port, once_bridge_iff br⟩
  have hbr : ∀ br, Once (bridgeBlocks br) (destructBridge br ++ [BridgeBlock.self]) ↔
      BridgeReleased br := once_bridge_iff
  rw [treeBlocks, ovsGlobalCleanup, listFree, Ownership.once_fromTail]
  simp only [hbr]

def trunkedReply : Except CStr Json :=
  replyOf (uuidOf "b") [
    (cstr "Bridge", .obj [(cstr "b", newRow [(cstr "name", .str (cstr "br0")),
      (cstr "ports", uuidOf "port0")])]),
    (cstr "Port", .obj [(cstr "port0", newRow [(cstr "name", .str (cstr "port0")),
      (cstr "interfaces", uuidOf "if0"), (cstr "trunks", setOf [.int 10]),
      (cstr "bond_mode", setOf [])])]),
    (cstr "Interface", .obj [(cstr "if0", internalColumns "port0")])]

theorem trunkedReply_cleanup :
    ∃ brList s, parse 0 trunkedReply (postState tunWorld) = some (.ok brList, s) ∧
      ¬ Once (treeBlocks brList) (ovsGlobalCleanup brList) := by
  let iface : OvsIf := ⟨0, cstr "port0", cstr "internal", none, none, none, none, none⟩
  let port : OvsPort :=
    { name := cstr "port0", ifaces := [iface], ifaceCount := 1, trunksCount := 1,
      trunks := some [10] }
  let br : OvsBridge := { name := cstr "br0", dpType := .system, ports := [port] }
  have hparse : (parse 0 trunkedReply (postState tunWorld)).map Prod.fst = some (.ok [br]) := by
    decide +kernel
  obtain ⟨⟨r, s⟩, hrun, hr⟩ := Option.map_eq_some_iff.mp hparse
  obtain rfl : r = .ok [br] := hr
  refine ⟨[br], s, hrun, ?_⟩
  have htwice : ¬ (ovsGlobalCleanup [br]).Nodup := by decide
  exact fun h => htwice h.nodup

end Plotnetcfg.Openvswitch.Release
