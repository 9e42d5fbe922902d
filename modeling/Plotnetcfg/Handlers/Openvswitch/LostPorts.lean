import Plotnetcfg.Handlers.Openvswitch.UnmappedMain
import Plotnetcfg.Handlers.Openvswitch.UnmappedMember

/-! What a port whose interface cannot be mapped costs the other ports. -/

namespace Plotnetcfg.Openvswitch

/-- The other ports are what they are without an ambiguous one exactly where nothing that has an
interface is linked after it, and where neither its marks nor the interfaces before it have taken
something from them. -/
theorem linkIfaces_spares_iff {env : OvsEnv} {root : NsPtr} {answer : Except CStr Json} {w : World}
    (henv : env.ByName) (hscan : w.Scanned) (hroot : root ∈ w.nsList) {brList : List OvsBridge}
    {s₀ : OvsState} (hparse : parse root answer (postState w) = some (.ok brList, s₀))
    {port : OvsPort} (hambiguous : Ambiguous env root brList s₀ port) {r r' : Except Int Unit}
    {s s' : OvsState} (hrun : linkIfaces env root brList s₀ = some (r, s))
    (hrun' : linkIfaces env root (withoutPort port brList) s₀ = some (r', s'))
    (hmemory : r' ≠ .error (ENOMEM : Int)) :
    (∀ q ∈ allPorts brList, q ≠ port → Unaffected env root brList s₀ port s s' q) ↔
      Spared env root brList s₀ port := by
  obtain ⟨hdistinct, hdrawing⟩ := parse_drawing hscan hroot hparse
  have hnone : ∀ i ∈ allIfaces brList, s₀.link i.ptr = none :=
    fun i hi => hdrawing.later i hi List.not_mem_nil
  cases hambiguous with
  | main turn hsearch =>
    exact turn.unaffected_iff hdistinct hsearch henv hdrawing.inv hnone hrun hrun'
  | member turn member hsearch =>
    have hends := turn.ends member hsearch
    obtain rfl := congrArg Prod.snd (Option.some.inj (hrun.symm.trans hends))
    exact member.unaffected_iff henv hdistinct hdrawing.inv hnone hsearch hrun' hmemory

def lostReply : Except CStr Json :=
  replyOf (uuidOf "b") [
    (cstr "Bridge", .obj [(cstr "b", newRow [(cstr "name", .str (cstr "br0")),
      (cstr "ports", setOf [uuidOf "port0", uuidOf "port1", uuidOf "port2"])])]),
    (cstr "Port", .obj [(cstr "port0", portColumns "br0" "if0"),
      (cstr "port1", portColumns "x" "if1"), (cstr "port2", portColumns "y" "if2")]),
    (cstr "Interface", .obj [(cstr "if0", internalColumns "br0"),
      (cstr "if1", internalColumns "x"), (cstr "if2", internalColumns "y")])]

def lostWorld : World where
  ifs
    | 1 => { ifIndex := 1, ifName := cstr "br0", driver := some (cstr "openvswitch") }
    | 2 => { ifIndex := 2, ifName := cstr "x", driver := some (cstr "openvswitch"), ns := 1 }
    | 3 => { ifIndex := 3, ifName := cstr "x", driver := some (cstr "openvswitch"), ns := 2 }
    | 4 => { ifIndex := 4, ifName := cstr "y", driver := some (cstr "openvswitch") }
    | _ => {}
  nss
    | 0 => { ifaces := [1, 4] }
    | 1 => { ifaces := [2], name := some (cstr "blue") }
    | 2 => { ifaces := [3], name := some (cstr "red") }
    | _ => {}
  nsList := [0, 1, 2]
  free := [5, 6]

def lostEnv : OvsEnv := ⟨fun _ _ _ => true, fun _ _ => none⟩

theorem lostWorld_scanned : lostWorld.Scanned where
  nsNodup := by decide
  nodup := by decide
  home := by decide
  ids := by decide
  addr := by decide
  fresh := by decide
  freeNodup := by decide

/-- The port `x` is the first of the ports `x` and `y` of the bridge, and without it there is another
link for `y`. -/
def lostLink (brList : List OvsBridge) (s₀ : OvsState) : Prop :=
  ∃ br ∈ brList, brList = [br] ∧ ∃ system ∈ br.system.toList, ∃ m ∈ system.ifaces,
    system.ifaces = [m] ∧ ∃ x ∈ br.ports, ∃ y ∈ br.ports, br.ports = [x, y] ∧ y ≠ x ∧
    ∃ i ∈ x.ifaces, x.ifaces = [i] ∧ ((linkIface lostEnv 0 br m true s₀).any fun t =>
      decide (t.1 = .ok ()) && (linkIface lostEnv 0 br i false t.2).any fun u =>
        decide (u.1 = .error (ERANGE : Int)) &&
          (linkIfaces lostEnv 0 (withoutPort x brList) s₀).any fun v =>
            decide (v.1 = .ok () ∧ ∃ j ∈ y.ifaces, v.2.link j.ptr ≠ u.2.link j.ptr)) = true

instance (brList : List OvsBridge) (s₀ : OvsState) : Decidable (lostLink brList s₀) :=
  inferInstanceAs (Decidable (∃ br ∈ brList, _))

def lostRun : Bool :=
  match parse 0 lostReply (postState lostWorld) with
  | some (.ok brList, s₀) => lostLink brList s₀
  | _ => false

theorem lostReply_turn : ∃ brList s₀ port, ∃ turn : PortTurn lostEnv 0 brList s₀ port,
    ∃ iface, ∃ member : MemberTurn lostEnv 0 brList s₀ turn iface, ∃ s r' s',
      parse 0 lostReply (postState lostWorld) = some (.ok brList, s₀) ∧
      linkIface lostEnv 0 turn.br iface false member.start = some (.error (ERANGE : Int), s) ∧
      linkIfaces lostEnv 0 (withoutPort port brList) s₀ = some (r', s') ∧
      r' ≠ .error (ENOMEM : Int) ∧
      ∃ q ∈ turn.later, q ∈ allPorts brList ∧ q ≠ port ∧
        ∃ j ∈ q.ifaces, s'.link j.ptr ≠ s.link j.ptr := by
  have hrun : lostRun = true := by decide +kernel
  unfold lostRun at hrun
  split at hrun
  swap
  · cases hrun
  rename_i brList s₀ hparse
  obtain ⟨br, -, rfl, system, hsystem, m, -, hmain, x, hx, y, hy, hports, hne, i, -, hifaces, hlinks⟩ :=
    of_decide_eq_true hrun
  obtain ⟨⟨r, t⟩, hlinked, hlinks⟩ := (Option.any_eq_true _ _).mp hlinks
  obtain ⟨hok, hlinks⟩ := (Bool.and_eq_true _ _).mp hlinks
  obtain ⟨⟨r₁, s⟩, hsearch, hlinks⟩ := (Option.any_eq_true _ _).mp hlinks
  obtain ⟨herr, hlinks⟩ := (Bool.and_eq_true _ _).mp hlinks
  obtain ⟨⟨r', s'⟩, hwithout, hlinks⟩ := (Option.any_eq_true _ _).mp hlinks
  obtain ⟨hok', j, hj, hlink⟩ := of_decide_eq_true hlinks
  dsimp only at hok hsearch herr hok' hlink
  obtain rfl : r = .ok () := of_decide_eq_true hok
  obtain rfl : r₁ = .error (ERANGE : Int) := of_decide_eq_true herr
  let turn : PortTurn lostEnv 0 [br] s₀ x :=
    { done := []
      br := br
      rest := []
      ovsMaster := m
      earlier := []
      later := [y]
      before := s₀
      linked := t
      start := t
      split := rfl
      run := rfl
      main := ⟨system, Option.mem_toList.mp hsystem, hmain⟩
      mainRun := hlinked
      ports := hports
      earlierRun := rfl }
  have hcount : ¬ 1 < x.ifaceCount := by
    rw [x.counted, hifaces]
    exact lt_irrefl 1
  let member : MemberTurn lostEnv 0 [br] s₀ turn i :=
    { master := t.link m.ptr
      linked := t
      start := t
      masterRun := portMaster_sole hcount t
      reached := ⟨[], [], hifaces, rfl⟩ }
  refine ⟨[br], s₀, x, turn, i, member, s, r', s', hparse, hsearch, hwithout, ?_, y,
    List.mem_singleton_self y, ?_, hne, j, hj, hlink⟩
  · rw [hok']
    exact nofun
  · exact mem_allPorts (List.mem_singleton_self br) (List.mem_append_right _ hy)

/-- `x` is found twice, and `y` would be found. -/
theorem lostReply_run : ∃ brList s₀ port s r' s',
    parse 0 lostReply (postState lostWorld) = some (.ok brList, s₀) ∧
      Ambiguous lostEnv 0 brList s₀ port ∧
      linkIfaces lostEnv 0 brList s₀ = some (.error (ERANGE : Int), s) ∧
      linkIfaces lostEnv 0 (withoutPort port brList) s₀ = some (r', s') ∧
      r' ≠ .error (ENOMEM : Int) ∧
      ∃ q ∈ allPorts brList, q ≠ port ∧ ∃ j ∈ q.ifaces, s'.link j.ptr ≠ s.link j.ptr := by
  obtain ⟨brList, s₀, port, turn, iface, member, s, r', s', hparse, hsearch, hrun', hmemory, q, -, hq,
    hne, j, hj, hlink⟩ := lostReply_turn
  exact ⟨brList, s₀, port, s, r', s', hparse, .member turn member hsearch, turn.ends member hsearch,
    hrun', hmemory, q, hq, hne, j, hj, hlink⟩

theorem linkIfaces_spares_iff_lost : ∃ brList s₀ port,
    parse 0 lostReply (postState lostWorld) = some (.ok brList, s₀) ∧
      Ambiguous lostEnv 0 brList s₀ port ∧ ¬ Spared lostEnv 0 brList s₀ port := by
  obtain ⟨brList, s₀, port, s, r', s', hparse, hambiguous, hrun, hrun', hmemory, q, hq, hne, j, hj,
    hlink⟩ := lostReply_run
  refine ⟨brList, s₀, port, hparse, hambiguous, fun hspared => hlink ?_⟩
  exact ((linkIfaces_spares_iff (fun _ _ _ _ _ _ => rfl) lostWorld_scanned (by decide) hparse
    hambiguous hrun hrun' hmemory).mpr hspared q hq hne).link j hj

/-- A port that cannot be mapped costs the later ones of its bridge their links. -/
theorem ambiguous_port_costs : ¬ ∀ (env : OvsEnv) (root : NsPtr) (answer : Except CStr Json)
    (w : World) (brList : List OvsBridge) (s₀ s s' : OvsState) (port : OvsPort)
    (r r' : Except Int Unit), env.ByName → w.Scanned → root ∈ w.nsList →
    parse root answer (postState w) = some (.ok brList, s₀) →
    Ambiguous env root brList s₀ port → linkIfaces env root brList s₀ = some (r, s) →
    linkIfaces env root (withoutPort port brList) s₀ = some (r', s') →
    r ≠ .error (ENOMEM : Int) → r' ≠ .error (ENOMEM : Int) →
    ∀ q ∈ allPorts brList, q ≠ port → Unaffected env root brList s₀ port s s' q := by
  intro h
  obtain ⟨brList, s₀, port, s, r', s', hparse, hambiguous, hrun, hrun', hmemory, q, hq, hne, j, hj,
    hlink⟩ := lostReply_run
  apply hlink
  exact (h lostEnv 0 lostReply lostWorld brList s₀ s s' port _ r' (fun _ _ _ _ _ _ => rfl)
    lostWorld_scanned (by decide) hparse hambiguous hrun hrun' (by decide) hmemory q hq hne).link j hj

/-- What the port `q` is where the linking is cut off in the turn of another one: what the
configuration before that turn makes of it. -/
structure CutOff {env : OvsEnv} {root : NsPtr} {brList : List OvsBridge} {s₀ : OvsState}
    {port : OvsPort} (turn : PortTurn env root brList s₀ port) (s : OvsState) (q : OvsPort) : Prop where
  link : ∀ j ∈ q.ifaces, s.link j.ptr = turn.start.link j.ptr
  made : ∀ e, Made env root brList s₀ q e ↔ Made env root turn.past s₀ q e
  behind : q ∈ turn.later ++ allPorts turn.rest → ∀ j ∈ q.ifaces, s.link j.ptr = none

/-- An ambiguous interface of a port ends the linking. The other ports are as after the linking of
what comes before the port, which succeeds, but for the master of what the port has found so far. -/
theorem linkIfaces_cutOff {env : OvsEnv} {root : NsPtr} {answer : Except CStr Json} {w : World}
    (hscan : w.Scanned) (hroot : root ∈ w.nsList) {brList : List OvsBridge} {s₀ : OvsState}
    (hparse : parse root answer (postState w) = some (.ok brList, s₀)) {port : OvsPort}
    (turn : PortTurn env root brList s₀ port) {iface : OvsIf}
    (member : MemberTurn env root brList s₀ turn iface) {s : OvsState}
    (hsearch : linkIface env root turn.br iface false member.start = some (.error (ERANGE : Int), s)) :
    linkIfaces env root brList s₀ = some (.error (ERANGE : Int), s) ∧
      linkIfaces env root turn.past s₀ = some (.ok (), turn.start) ∧
      (∀ q ∈ allPorts brList, q ≠ port → CutOff turn s q) ∧
      ∀ e ∈ turn.start.world.listed,
        (turn.Finds e → (s.world.ifs e).master = member.master) ∧
        (¬ turn.Finds e → (s.world.ifs e).master = (turn.start.world.ifs e).master) := by
  obtain ⟨hdistinct, hdrawing⟩ := parse_drawing hscan hroot hparse
  have hnone : ∀ i ∈ allIfaces brList, s₀.link i.ptr = none :=
    fun i hi => hdrawing.later i hi List.not_mem_nil
  refine ⟨turn.ends member hsearch, turn.past_run, fun q hq hne => ⟨fun j hj => ?_, fun e => ?_,
    fun hbehind j hj => ?_⟩, fun e he => member.masters hdistinct hdrawing.inv hnone hsearch he⟩
  · exact member.link_kept hdistinct hsearch hq hne hj
  · exact turn.made_iff member hsearch hne
  · rw [member.link_kept hdistinct hsearch hq hne hj]
    apply turn.unlinked hdistinct hnone
    rcases List.mem_append.mp hbehind with hlater | hrest
    · exact turn.later_ahead hlater hj
    · exact List.mem_append_right _ (mem_allIfaces_port hrest hj)

/-- The port `y` gets no link. -/
theorem linkIfaces_cutOff_lost : ∃ brList s₀ port, ∃ turn : PortTurn lostEnv 0 brList s₀ port, ∃ s,
    parse 0 lostReply (postState lostWorld) = some (.ok brList, s₀) ∧
      linkIfaces lostEnv 0 brList s₀ = some (.error (ERANGE : Int), s) ∧
      ∃ q ∈ turn.later, q.ifaces ≠ [] ∧ ∀ j ∈ q.ifaces, s.link j.ptr = none := by
  obtain ⟨brList, s₀, port, turn, iface, member, s, -, -, hparse, hsearch, -, -, q, hlater, hq, hne,
    j, hj, -⟩ := lostReply_turn
  obtain ⟨hends, -, hports, -⟩ :=
    linkIfaces_cutOff lostWorld_scanned (by decide) hparse turn member hsearch
  exact ⟨brList, s₀, port, turn, s, hparse, hends, q, hlater, List.ne_nil_of_mem hj,
    (hports q hq hne).behind (List.mem_append_left _ hlater)⟩

end Plotnetcfg.Openvswitch
