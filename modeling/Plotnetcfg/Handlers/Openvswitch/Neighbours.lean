import Plotnetcfg.Handlers.Openvswitch.Creations
import Plotnetcfg.Handlers.Openvswitch.Rivals
import Plotnetcfg.Handlers.Openvswitch.Verdict

/-! The bridges without one of their ports, and the turns of the other ports. -/

namespace Plotnetcfg.Openvswitch

def allPorts (brList : List OvsBridge) : List OvsPort :=
  brList.flatMap fun br => br.system.toList ++ br.ports

def OvsBridge.without (port : OvsPort) (br : OvsBridge) : OvsBridge :=
  { br with
    ports := br.ports.filter (· ≠ port)
    system := br.system.filter (· ≠ port) }

def withoutPort (port : OvsPort) (brList : List OvsBridge) : List OvsBridge :=
  brList.map (·.without port)

section
variable (env : OvsEnv) (root : NsPtr)

/-- `create_iface` makes `e` in the turn of `port` among `ports`, which are linked from `s`. -/
def PortsMade (br : OvsBridge) (ovsMaster : OvsIf) (ports : List OvsPort) (s : OvsState)
    (port : OvsPort) (e : IfPtr) : Prop :=
  ∃ t, Prog.Reached (linkPort env root br ovsMaster) ports s port t ∧
    ∃ r t', linkPort env root br ovsMaster port t = some (r, t') ∧ e ∉ t.world.listed ∧
      e ∈ t'.world.listed

def BridgeMade (br : OvsBridge) (s : OvsState) (port : OvsPort) (e : IfPtr) : Prop :=
  ∃ ovsMaster s₁, MainIface br ovsMaster ∧
    linkIface env root br ovsMaster true s = some (.ok (), s₁) ∧
    PortsMade env root br ovsMaster br.ports s₁ port e

def Made (brList : List OvsBridge) (s₀ : OvsState) (port : OvsPort) (e : IfPtr) : Prop :=
  ∃ br s, Prog.Reached (linkBridge env root) brList s₀ br s ∧ BridgeMade env root br s port e

variable (brList : List OvsBridge) (s₀ : OvsState)

def Owns (s : OvsState) (port : OvsPort) (e : IfPtr) : Prop :=
  (∃ iface ∈ port.ifaces, s.link iface.ptr = some e) ∨ Made env root brList s₀ port e

/-- The linking gets to the bridge that `port` stands for. -/
structure MainTurn (port : OvsPort) where
  done : List OvsBridge
  br : OvsBridge
  rest : List OvsBridge
  iface : OvsIf
  start : OvsState
  split : brList = done ++ br :: rest
  system : br.system = some port
  sole : port.ifaces = [iface]
  run : linkIfaces env root done s₀ = some (.ok (), start)

/-- The linking gets to `port`. The ports `later` of its bridge come next, and then the bridges
`rest`. -/
structure PortTurn (port : OvsPort) where
  done : List OvsBridge
  br : OvsBridge
  rest : List OvsBridge
  ovsMaster : OvsIf
  earlier : List OvsPort
  later : List OvsPort
  before : OvsState
  linked : OvsState
  start : OvsState
  split : brList = done ++ br :: rest
  run : linkIfaces env root done s₀ = some (.ok (), before)
  main : MainIface br ovsMaster
  mainRun : linkIface env root br ovsMaster true before = some (.ok (), linked)
  ports : br.ports = earlier ++ port :: later
  earlierRun : Prog.forEach earlier (linkPort env root br ovsMaster) linked = some (.ok (), start)

structure MemberTurn {port : OvsPort} (turn : PortTurn env root brList s₀ port) (iface : OvsIf) where
  master : Option IfPtr
  linked : OvsState
  start : OvsState
  masterRun : portMaster root turn.br turn.ovsMaster port turn.start = some (.ok master, linked)
  reached : Prog.Reached (linkPortIface env root turn.br port master) port.ifaces linked iface start

/-- The search for an interface of the port finds several that are as good. -/
inductive Ambiguous (port : OvsPort) : Prop where
  | main (turn : MainTurn env root brList s₀ port) {s : OvsState}
      (hsearch : linkIface env root turn.br turn.iface true turn.start =
        some (.error (ERANGE : Int), s)) : Ambiguous port
  | member (turn : PortTurn env root brList s₀ port) {iface : OvsIf}
      (member : MemberTurn env root brList s₀ turn iface) {s : OvsState}
      (hsearch : linkIface env root turn.br iface false member.start =
        some (.error (ERANGE : Int), s)) : Ambiguous port

/-- The linking of `brList` ends in `s`, that without `port` in `s'`, and the port `q` has the same
links and masters in both, and the same interfaces made for it. -/
structure Unaffected (port : OvsPort) (s s' : OvsState) (q : OvsPort) : Prop where
  link : ∀ iface ∈ q.ifaces, s'.link iface.ptr = s.link iface.ptr
  made : ∀ e, Made env root brList s₀ q e ↔ Made env root (withoutPort port brList) s₀ q e
  master : ∀ e, Owns env root brList s₀ s q e → (s'.world.ifs e).master = (s.world.ifs e).master

/-- The other ports do not miss anything that comes after the search for an interface of `port`
that is ambiguous, and have lost nothing to the interfaces before it. -/
structure Spared (port : OvsPort) : Prop where
  /-- No later search is for the devices that the one for the main interface has marked. -/
  marks : ∀ turn : MainTurn env root brList s₀ port, Writes turn.br turn.iface → ∀ s,
    linkBridge env root turn.br turn.start = some (.ok (), s) →
    ∀ br iface v, LinkCall env root turn.rest s br iface v → ¬ Rival (some turn.iface.name) br iface v
  /-- The later ports of the bridge have no interfaces. -/
  ports : ∀ turn : PortTurn env root brList s₀ port, ∀ q ∈ turn.later, q.ifaces = []
  /-- There is no device for the main interface of a later bridge. -/
  bridges : ∀ turn : PortTurn env root brList s₀ port, ∀ br ∈ turn.rest, ∀ ovsMaster,
    MainIface br ovsMaster → ∀ e ∈ turn.start.world.listed,
    ifaceWeight env br ovsMaster turn.start e = 0
  /-- What an interface of the port finds has no other port for its own, or the master of the port
  already. -/
  masters : ∀ (turn : PortTurn env root brList s₀ port) (iface : OvsIf)
    (member : MemberTurn env root brList s₀ turn iface) (e : IfPtr),
    (ifaceTally env turn.br iface member.start).choice = some e →
    ∀ q ∈ allPorts brList, q ≠ port → Owns env root brList s₀ turn.start q e →
    (turn.start.world.ifs e).master = member.master

end

/-! ## Where a port is -/

theorem allIfaces_eq (brList : List OvsBridge) :
    allIfaces brList = (allPorts brList).flatMap OvsPort.ifaces := by
  unfold allIfaces allPorts OvsBridge.ifaces
  rw [List.flatMap_assoc]

section
variable {brList done rest : List OvsBridge} {br : OvsBridge} {port q : OvsPort} {i j : OvsIf}

theorem mem_allPorts (hbr : br ∈ brList) (hport : port ∈ br.system.toList ++ br.ports) :
    port ∈ allPorts brList := List.mem_flatMap.mpr ⟨br, hbr, hport⟩

theorem mem_bridge_ifaces (hport : port ∈ br.system.toList ++ br.ports) (hi : i ∈ port.ifaces) :
    i ∈ br.ifaces := List.mem_flatMap.mpr ⟨port, hport, hi⟩

theorem mem_allIfaces_port (hport : port ∈ allPorts brList) (hi : i ∈ port.ifaces) :
    i ∈ allIfaces brList := by
  rw [allIfaces_eq]
  exact List.mem_flatMap.mpr ⟨port, hport, hi⟩

theorem OvsBridge.without_eq (hport : port ∉ br.system.toList ++ br.ports) :
    br.without port = br := by
  rw [List.mem_append, not_or] at hport
  have hports : br.ports.filter (· ≠ port) = br.ports := by
    apply List.filter_eq_self.mpr
    intro q hq
    apply decide_eq_true
    rintro rfl
    exact hport.2 hq
  have hsystem : br.system.filter (· ≠ port) = br.system := by
    cases hs : br.system with
    | none => rfl
    | some system =>
      rw [Option.filter_some, if_pos]
      apply decide_eq_true
      rintro rfl
      exact hport.1 (hs ▸ List.mem_singleton_self system)
  unfold OvsBridge.without
  rw [hports, hsystem]

section
variable (hdistinct : ((allIfaces brList).map OvsIf.ptr).Nodup)
include hdistinct

theorem other_ptr (hport : port ∈ allPorts brList) (hq : q ∈ allPorts brList) (hne : q ≠ port)
    (hi : i ∈ port.ifaces) (hj : j ∈ q.ifaces) : i.ptr ≠ j.ptr := by
  rw [allIfaces_eq] at hdistinct
  have hpairs := (nodup_parts hdistinct).2
  have hsymm : Std.Symm fun x y : OvsPort => ∀ i ∈ x.ifaces, ∀ j ∈ y.ifaces, i.ptr ≠ j.ptr :=
    ⟨fun x y h j hj i hi heq => h i hi j hj heq.symm⟩
  exact hpairs.forall hport hq hne.symm i hi j hj

theorem split_ptr (hsplit : brList = done ++ br :: rest) :
    (∀ i ∈ br.ifaces, ∀ j ∈ allIfaces done, i.ptr ≠ j.ptr) ∧
      (∀ i ∈ br.ifaces, ∀ j ∈ allIfaces rest, j.ptr ≠ i.ptr) ∧
      ((allIfaces rest).map OvsIf.ptr).Nodup := by
  have hpairs := (nodup_parts (f := OvsBridge.ifaces) hdistinct).2
  rw [hsplit, List.pairwise_append, List.pairwise_cons] at hpairs
  obtain ⟨-, ⟨hrest, -⟩, hdone⟩ := hpairs
  refine ⟨fun i hi j hj heq => ?_, fun i hi j hj heq => ?_, ?_⟩
  · obtain ⟨x, hx, hjx⟩ := List.mem_flatMap.mp hj
    exact hdone x hx br List.mem_cons_self j hjx i hi heq.symm
  · obtain ⟨x, hx, hjx⟩ := List.mem_flatMap.mp hj
    exact hrest x hx i hi j hjx heq.symm
  · have hall : allIfaces brList = allIfaces done ++ (br.ifaces ++ allIfaces rest) := by
      rw [hsplit, allIfaces, List.flatMap_append, List.flatMap_cons]
      rfl
    rw [hall, List.map_append, List.map_append] at hdistinct
    exact (List.nodup_append.mp (List.nodup_append.mp hdistinct).2.1).2.1

theorem withoutPort_split (hsplit : brList = done ++ br :: rest)
    (hport : port ∈ br.system.toList ++ br.ports) (hi : i ∈ port.ifaces) :
    withoutPort port brList = done ++ br.without port :: rest := by
  have hpairs := (nodup_parts (f := OvsBridge.ifaces) hdistinct).2
  rw [hsplit, List.pairwise_append, List.pairwise_cons] at hpairs
  obtain ⟨-, ⟨hrest, -⟩, hdone⟩ := hpairs
  have hmem := mem_bridge_ifaces hport hi
  have hsame : ∀ l : List OvsBridge, (∀ x ∈ l, port ∉ x.system.toList ++ x.ports) →
      l.map (·.without port) = l := by
    intro l hl
    rw [List.map_congr_left fun x hx => OvsBridge.without_eq (hl x hx), List.map_id']
  unfold withoutPort
  rw [hsplit, List.map_append, List.map_cons, hsame done, hsame rest]
  · intro x hx hport'
    exact hrest x hx i hmem i (mem_bridge_ifaces hport' hi) rfl
  · intro x hx hport'
    exact hdone x hx br List.mem_cons_self i (mem_bridge_ifaces hport' hi) i hmem rfl

theorem without_system (hbr : br ∈ brList) (hsystem : br.system = some port)
    (hi : i ∈ port.ifaces) : br.without port = { br with system := none } := by
  have hparts := nodup_parts ((nodup_parts hdistinct).1 br hbr)
  have hother : port ∉ br.ports := by
    intro hport
    have hpairs := hparts.2
    rw [hsystem, Option.toList_some, List.singleton_append, List.pairwise_cons] at hpairs
    exact hpairs.1 port hport i hi i hi rfl
  have hports : br.ports.filter (· ≠ port) = br.ports := by
    apply List.filter_eq_self.mpr
    intro q hq
    apply decide_eq_true
    rintro rfl
    exact hother hq
  unfold OvsBridge.without
  rw [hports, hsystem, Option.filter_some, if_neg (by simp)]

theorem without_member {earlier later : List OvsPort} (hbr : br ∈ brList)
    (hports : br.ports = earlier ++ port :: later) (hi : i ∈ port.ifaces) :
    br.without port = { br with ports := earlier ++ later } := by
  have hpairs := (nodup_parts ((nodup_parts hdistinct).1 br hbr)).2
  rw [hports, ← List.append_assoc, List.pairwise_append, List.pairwise_cons] at hpairs
  obtain ⟨-, ⟨hlater, -⟩, hfirst⟩ := hpairs
  have hbefore : ∀ q ∈ br.system.toList ++ earlier, q ≠ port := by
    rintro q hq rfl
    exact hfirst q hq q List.mem_cons_self i hi i hi rfl
  have hafter : ∀ q ∈ later, q ≠ port := by
    rintro q hq rfl
    exact hlater q hq i hi i hi rfl
  have hkept : ∀ l : List OvsPort, (∀ q ∈ l, q ≠ port) → l.filter (· ≠ port) = l :=
    fun l hl => List.filter_eq_self.mpr fun q hq => decide_eq_true (hl q hq)
  have hsystem : br.system.filter (· ≠ port) = br.system := by
    cases hs : br.system with
    | none => rfl
    | some system =>
      rw [Option.filter_some, if_pos]
      apply decide_eq_true
      apply hbefore
      rw [hs]
      exact List.mem_append_left _ (List.mem_singleton_self system)
  unfold OvsBridge.without
  rw [hsystem, hports, List.filter_append, List.filter_cons_of_neg (by simp),
    hkept earlier fun q hq => hbefore q (List.mem_append_right _ hq), hkept later hafter]

end

end

section
variable {env : OvsEnv} {root : NsPtr} {brList : List OvsBridge} {s₀ : OvsState} {port : OvsPort}
  {i : OvsIf}

theorem MainTurn.mem_bridge (turn : MainTurn env root brList s₀ port) : turn.br ∈ brList := by
  have hmem : turn.br ∈ turn.done ++ turn.br :: turn.rest :=
    List.mem_append_right _ List.mem_cons_self
  rwa [← turn.split] at hmem

theorem MainTurn.mem_port (turn : MainTurn env root brList s₀ port) :
    port ∈ turn.br.system.toList ++ turn.br.ports := by
  rw [turn.system]
  exact List.mem_append_left _ (List.mem_singleton_self port)

theorem PortTurn.mem_bridge (turn : PortTurn env root brList s₀ port) : turn.br ∈ brList := by
  have hmem : turn.br ∈ turn.done ++ turn.br :: turn.rest :=
    List.mem_append_right _ List.mem_cons_self
  rwa [← turn.split] at hmem

theorem PortTurn.mem_port (turn : PortTurn env root brList s₀ port) :
    port ∈ turn.br.system.toList ++ turn.br.ports := by
  rw [turn.ports]
  exact List.mem_append_right _ (List.mem_append_right _ List.mem_cons_self)

section
variable (hdistinct : ((allIfaces brList).map OvsIf.ptr).Nodup)
include hdistinct

theorem MainTurn.unique (turn turn' : MainTurn env root brList s₀ port) : turn = turn' := by
  have hi : turn.iface ∈ port.ifaces := turn.sole ▸ List.mem_singleton_self _
  obtain ⟨hdone, hbr, hrest⟩ := Keyed.split_unique (hdistinct.of_map _) turn.split turn'.split
    (mem_bridge_ifaces turn.mem_port hi) (mem_bridge_ifaces turn'.mem_port hi)
  obtain ⟨done, br, rest, iface, start, hsplit, hsystem, hsole, hrun⟩ := turn
  obtain ⟨done', br', rest', iface', start', hsplit', hsystem', hsole', hrun'⟩ := turn'
  dsimp only at hdone hbr hrest
  subst hdone hbr hrest
  obtain rfl : iface = iface' := List.singleton_inj.mp (hsole.symm.trans hsole')
  obtain rfl : start = start' := by simpa [hrun] using hrun'
  rfl

theorem PortTurn.unique (turn turn' : PortTurn env root brList s₀ port) (hi : i ∈ port.ifaces) :
    turn = turn' := by
  obtain ⟨hdone, hbr, hrest⟩ := Keyed.split_unique (hdistinct.of_map _) turn.split turn'.split
    (mem_bridge_ifaces turn.mem_port hi) (mem_bridge_ifaces turn'.mem_port hi)
  have hports : (turn.br.ports.flatMap OvsPort.ifaces).Nodup := by
    have hbridge := ((nodup_parts hdistinct).1 turn.br turn.mem_bridge).of_map
    rw [turn.main.ifaces] at hbridge
    exact (List.nodup_cons.mp hbridge).2
  have hports' := turn'.ports
  rw [← hbr] at hports'
  obtain ⟨hearlier, -, hlater⟩ := Keyed.split_unique hports turn.ports hports' hi hi
  obtain ⟨done, br, rest, ovsMaster, earlier, later, before, linked, start, hsplit, hrun, hmain,
    hmainRun, hports, hearlierRun⟩ := turn
  obtain ⟨done', br', rest', ovsMaster', earlier', later', before', linked', start', hsplit', hrun',
    hmain', hmainRun', hports', hearlierRun'⟩ := turn'
  dsimp only at hdone hbr hrest hearlier hlater
  subst hdone hbr hrest hearlier hlater
  obtain rfl := hmain.unique hmain'
  obtain rfl : before = before' := by simpa [hrun] using hrun'
  obtain rfl : linked = linked' := by simpa [hmainRun] using hmainRun'
  obtain rfl : start = start' := by simpa [hearlierRun] using hearlierRun'
  rfl

theorem MainTurn.not_member (turn : MainTurn env root brList s₀ port)
    (turn' : PortTurn env root brList s₀ port) : False := by
  have hi : turn.iface ∈ port.ifaces := turn.sole ▸ List.mem_singleton_self _
  obtain ⟨-, hbr, -⟩ := Keyed.split_unique (hdistinct.of_map _) turn.split turn'.split
    (mem_bridge_ifaces turn.mem_port hi) (mem_bridge_ifaces turn'.mem_port hi)
  have hports := congrArg OvsBridge.ports (without_system hdistinct turn.mem_bridge turn.system hi)
  have hmember := without_member hdistinct turn'.mem_bridge turn'.ports hi
  rw [← hbr] at hmember
  have hlength := congrArg (fun br => br.ports.length) hmember
  dsimp only at hlength hports
  rw [hports, hbr, turn'.ports] at hlength
  simp at hlength

end

end

/-! ## The turns of the ports -/

section
variable {env : OvsEnv} {root : NsPtr} {br : OvsBridge} {ovsMaster : OvsIf} {q : OvsPort}
  {e : IfPtr} {s t : OvsState}

theorem portsMade_append {ports ports' : List OvsPort} :
    PortsMade env root br ovsMaster (ports ++ ports') s q e ↔
      PortsMade env root br ovsMaster ports s q e ∨
        ∃ t, Prog.forEach ports (linkPort env root br ovsMaster) s = some (.ok (), t) ∧
          PortsMade env root br ovsMaster ports' t q e := by
  unfold PortsMade
  constructor
  · rintro ⟨t, hreached, hmade⟩
    rcases Prog.reached_append.mp hreached with hreached | ⟨u, hrun, hreached⟩
    · exact .inl ⟨t, hreached, hmade⟩
    · exact .inr ⟨u, hrun, t, hreached, hmade⟩
  · rintro (⟨t, hreached, hmade⟩ | ⟨u, hrun, t, hreached, hmade⟩)
    · exact ⟨t, Prog.reached_append.mpr (.inl hreached), hmade⟩
    · exact ⟨t, Prog.reached_append.mpr (.inr ⟨u, hrun, hreached⟩), hmade⟩

theorem made_append {brList brList' : List OvsBridge} :
    Made env root (brList ++ brList') s q e ↔ Made env root brList s q e ∨
      ∃ t, linkIfaces env root brList s = some (.ok (), t) ∧ Made env root brList' t q e := by
  unfold Made
  constructor
  · rintro ⟨br, t, hreached, hmade⟩
    rcases Prog.reached_append.mp hreached with hreached | ⟨u, hrun, hreached⟩
    · exact .inl ⟨br, t, hreached, hmade⟩
    · exact .inr ⟨u, hrun, br, t, hreached, hmade⟩
  · rintro (⟨br, t, hreached, hmade⟩ | ⟨u, hrun, br, t, hreached, hmade⟩)
    · exact ⟨br, t, Prog.reached_append.mpr (.inl hreached), hmade⟩
    · exact ⟨br, t, Prog.reached_append.mpr (.inr ⟨u, hrun, hreached⟩), hmade⟩

theorem made_cons {rest : List OvsBridge} :
    Made env root (br :: rest) s q e ↔ BridgeMade env root br s q e ∨
      ∃ t, linkBridge env root br s = some (.ok (), t) ∧ Made env root rest t q e := by
  unfold Made
  constructor
  · rintro ⟨br', t, hreached, hmade⟩
    rcases Prog.reached_cons.mp hreached with ⟨rfl, rfl⟩ | ⟨u, hrun, hreached⟩
    · exact .inl hmade
    · exact .inr ⟨u, hrun, br', t, hreached, hmade⟩
  · rintro (hmade | ⟨u, hrun, br', t, hreached, hmade⟩)
    · exact ⟨br, s, Prog.reached_cons.mpr (.inl ⟨rfl, rfl⟩), hmade⟩
    · exact ⟨br', t, Prog.reached_cons.mpr (.inr ⟨u, hrun, hreached⟩), hmade⟩

/-! ## Where the main interface is mapped -/

section
variable (hmain : MainIface br ovsMaster)
  (hlinked : linkIface env root br ovsMaster true s = some (.ok (), t))
include hmain hlinked

theorem linkBridge_ports :
    linkBridge env root br s = Prog.forEach br.ports (linkPort env root br ovsMaster) t := by
  rw [linkBridge_main env root hmain, Prog.bind_ok s (Prog.attempt_eq_some.mpr ⟨_, hlinked, rfl⟩)]

theorem bridgeMade_ports :
    BridgeMade env root br s q e ↔ PortsMade env root br ovsMaster br.ports t q e := by
  constructor
  · rintro ⟨m, u, hm, hlinked', hmade⟩
    obtain rfl := hmain.unique hm
    obtain rfl : t = u := by simpa [hlinked] using hlinked'
    exact hmade
  · exact fun hmade => ⟨ovsMaster, t, hmain, hlinked, hmade⟩

variable {done rest : List OvsBridge} {earlier more : List OvsPort} {s₀ u : OvsState}
  (hdone : linkIfaces env root done s₀ = some (.ok (), s)) (hports : br.ports = earlier ++ more)
  (hearlier : Prog.forEach earlier (linkPort env root br ovsMaster) t = some (.ok (), u))
include hdone hports hearlier

theorem linkIfaces_resumes : linkIfaces env root (done ++ br :: rest) s₀ =
    (Prog.forEach more (linkPort env root br ovsMaster) >>= fun _ => linkIfaces env root rest) u := by
  unfold linkIfaces at hdone ⊢
  rw [Prog.forEach_append, Prog.bind_ok s₀ hdone, Prog.forEach_cons]
  apply Prog.bind_congr_run
  rw [linkBridge_ports hmain hlinked, hports, Prog.forEach_append, Prog.bind_ok t hearlier]

theorem made_resumes : Made env root (done ++ br :: rest) s₀ q e ↔
    Made env root (done ++ [{ br with ports := earlier }]) s₀ q e ∨
      PortsMade env root br ovsMaster more u q e ∨
      ∃ v, Prog.forEach more (linkPort env root br ovsMaster) u = some (.ok (), v) ∧
        Made env root rest v q e := by
  have hnone : ∀ v, ¬ Made env root [] v q e := by
    rintro v ⟨br, t, hreached, -⟩
    exact Prog.not_reached_nil hreached
  have hwhole : Made env root (br :: rest) s q e ↔
      PortsMade env root br ovsMaster earlier t q e ∨ PortsMade env root br ovsMaster more u q e ∨
        ∃ v, Prog.forEach more (linkPort env root br ovsMaster) u = some (.ok (), v) ∧
          Made env root rest v q e := by
    rw [made_cons, bridgeMade_ports hmain hlinked, hports, portsMade_append,
      linkBridge_ports hmain hlinked, hports, Prog.forEach_append, Prog.bind_ok t hearlier]
    simp only [hearlier, Option.some.injEq, Prod.mk.injEq, true_and, exists_eq_left', or_assoc]
  have hfirst : Made env root [{ br with ports := earlier }] s q e ↔
      PortsMade env root br ovsMaster earlier t q e := by
    rw [made_cons]
    have hmade : BridgeMade env root { br with ports := earlier } s q e ↔
        PortsMade env root br ovsMaster earlier t q e := bridgeMade_ports hmain hlinked
    rw [or_iff_left]
    · exact hmade
    · rintro ⟨v, -, hmade⟩
      exact hnone v hmade
  rw [made_append, made_append]
  simp only [hdone, Option.some.injEq, Prod.mk.injEq, true_and, exists_eq_left', hwhole, hfirst,
    or_assoc]

end

/-! ## What is made stays -/

structure Keeps (root : NsPtr) (e : IfPtr) (w : World) : Prop where
  scanned : w.Scanned
  root : root ∈ w.nsList
  listed : e ∈ w.listed

theorem Keeps.named {w w' : World} (h : Named w w') (hw : Keeps root e w) : Keeps root e w' := by
  refine ⟨hw.scanned.frame h.frame, ?_, ?_⟩
  · rw [h.frame.nsList]
    exact hw.root
  · rw [h.frame.listed]
    exact hw.listed

theorem Keeps.creates {name brName : CStr} {c : IfPtr} (hw : Keeps root e s.world)
    (h : Creates root name brName s t c) : Keeps root e t.world := by
  refine ⟨h.adds.scanned hw.scanned hw.root, ?_, ?_⟩
  · rw [h.adds.nsList]
    exact hw.root
  · exact (h.adds.mem_listed hw.scanned hw.root).mpr (.inr hw.listed)

theorem Made.listed {brList : List OvsBridge} {s₀ s : OvsState}
    (hinv : LinkInv (fun _ => True) root [] s₀) (hmade : Made env root brList s₀ q e)
    (hrun : linkIfaces env root brList s₀ = some (.ok (), s)) : e ∈ s.world.listed := by
  obtain ⟨br, t, ⟨done, rest, rfl, hdone⟩, ovsMaster, t₁, hmain, hlinked, u,
    ⟨pre, post, hports, hpre⟩, r, u', hport, -, hlisted⟩ := hmade
  rw [linkIfaces_resumes hmain hlinked hdone hports hpre] at hrun
  obtain ⟨_, v, hmore, hrest⟩ := (Prog.bind_eq_ok u).mp hrun
  rw [Prog.forEach_cons] at hmore
  obtain ⟨_, u'', hport', hpost⟩ := (Prog.bind_eq_ok u).mp hmore
  obtain rfl : u' = u'' := congrArg Prod.snd (Option.some.inj (hport.symm.trans hport'))
  have hinv' : LinkInv (fun _ => True) root [] u' := by
    have ht := linkIfaces_triple peerInvariant_true env done s₀ hinv _ _ hdone
    have ht₁ := linkIface_triple peerInvariant_true env br ovsMaster true t ht _ _ hlinked
    have hu := Prog.Triple.forEach (fun port _ =>
      linkPort_triple peerInvariant_true env br ovsMaster port) t₁ ht₁ _ _ hpre
    exact linkPort_triple peerInvariant_true env br ovsMaster q u hu _ _ hport'
  have hkeeps : Keeps root e u'.world := ⟨hinv'.scanned, hinv'.root, hlisted⟩
  have hnamed : ∀ w w', Named w w' → Keeps root e w → Keeps root e w' := fun _ _ => Keeps.named
  have hafter : Keeps root e v.world :=
    linkPorts_created env root hnamed br ovsMaster post hkeeps
      (fun _ _ _ _ _ _ _ _ _ _ _ h hcreates => h.creates hcreates) u' rfl _ _ hpost
  exact (linkIfaces_created env root hnamed rest hafter
    (fun _ _ _ _ _ _ h hcreates => h.creates hcreates) v rfl _ _ hrest).listed

end

end Plotnetcfg.Openvswitch
