import Plotnetcfg.Handlers.Openvswitch.LinkSteps
import Plotnetcfg.Handlers.Openvswitch.ReplySafety

/-! The topology after the linking: every port of a bridge is drawn as ovsdb has it. -/

namespace Plotnetcfg.Openvswitch

/-! ## One interface finds its place -/

/-- From `s` to `s'` the interface `e` gets the master `m`; if it is `created`, it is listed last
in the root name space. -/
structure Placed (root : NsPtr) (s s' : OvsState) (e : IfPtr) (m : Option IfPtr)
    (created : Bool) : Prop where
  kept : ∀ x ∈ s.world.listed, (s.world.ifs x).Kept (s'.world.ifs x)
  internal : ∀ x ∈ s.world.listed,
    (s'.world.ifs x).flags.internal = (s.world.ifs x).flags.internal
  others : ∀ x ≠ e, (s'.world.ifs x).master = (s.world.ifs x).master
  master : (s'.world.ifs e).master = m
  ifaces : ∀ n, (s'.world.nss n).ifaces =
    (s.world.nss n).ifaces ++ if n = root ∧ created then [e] else []
  nsList : s'.world.nsList = s.world.nsList
  new : created → e ∉ s.world.listed

section
variable {root : NsPtr} {s s₁ s₂ s' : OvsState} {e : IfPtr} {m : Option IfPtr} {created : Bool}

theorem Placed.listed (h : Placed root s s' e m created) {x : IfPtr}
    (hx : x ∈ s.world.listed) : x ∈ s'.world.listed := by
  obtain ⟨n, hn, hmem⟩ := World.mem_listed.mp hx
  apply World.mem_listed.mpr ⟨n, h.nsList ▸ hn, ?_⟩
  rw [h.ifaces]
  exact List.mem_append_left _ hmem

theorem Placed.ofFound (hsteady : Steady s.world s₁.world)
    (henslaves : Enslaves s₁.world s'.world e m) : Placed root s s' e m false where
  kept x _ := (hsteady.frame.kept x).trans (henslaves.frame.kept x)
  internal x _ := (henslaves.internal x).trans (hsteady.internal x)
  others x hx := by rw [henslaves.master, if_neg hx, hsteady.master]
  master := by rw [henslaves.master, if_pos rfl]
  ifaces n := by simp [henslaves.frame.ifaces, hsteady.frame.ifaces]
  nsList := henslaves.frame.nsList.trans hsteady.frame.nsList
  new := nofun

theorem Placed.ofCreated {name brName : CStr} (hscan : s.world.Scanned)
    (hsteady : Steady s.world s₁.world) (hcreate : Creates root name brName s₁ s₂ e)
    (henslaves : Enslaves s₂.world s'.world e m) : Placed root s s' e m true := by
  have hnew : e ∉ s.world.listed := by
    apply hscan.fresh
    rw [← hsteady.frame.free, hcreate.adds.free]
    exact List.mem_cons_self
  have hne : ∀ x ∈ s.world.listed, x ≠ e := by
    rintro x hx rfl
    exact hnew hx
  refine ⟨fun x hx => ?_, fun x hx => ?_, fun x hx => ?_, ?_, fun n => ?_, ?_, fun _ => hnew⟩
  · have hkept := hsteady.frame.kept x
    rw [← hcreate.adds.ifs x (hne x hx)] at hkept
    exact hkept.trans (henslaves.frame.kept x)
  · rw [henslaves.internal, hcreate.adds.ifs x (hne x hx), hsteady.internal]
  · rw [henslaves.master, if_neg hx, hcreate.adds.ifs x hx, hsteady.master]
  · rw [henslaves.master, if_pos rfl]
  · rw [henslaves.frame.ifaces, hcreate.adds.ifaces, hsteady.frame.ifaces]
    by_cases hn : n = root <;> simp [hn]
  · exact (henslaves.frame.nsList.trans hcreate.adds.nsList).trans hsteady.frame.nsList

structure Located (root : NsPtr) (br : OvsBridge) (iface : OvsIf) (s s₁ s' : OvsState) (e : IfPtr)
    (m : Option IfPtr) (created : Bool) : Prop where
  placed : Placed root s s' e m created
  missed : created = true ↔ s₁.link iface.ptr = none
  link : s'.link iface.ptr = some e
  others : ∀ ptr, ptr ≠ iface.ptr → s'.link ptr = s.link ptr
  name : (s'.world.ifs e).ifName = iface.name
  found : created = false → ∃ system main, br.system = some system ∧
    system.ifaces.head? = some main ∧ Matches br.dpType (s.link main.ptr) iface s.world e

theorem IfaceTurn.located {env : OvsEnv} {br : OvsBridge} {iface : OvsIf}
    (h : IfaceTurn env root br m iface s s₁ s₂ s' e) (hscan : s.world.Scanned)
    (hnone : s.link iface.ptr = none) : ∃ created, Located root br iface s s₁ s' e m created := by
  cases h.obtains with
  | found hlink heq =>
    subst heq
    obtain hhad | ⟨-, hmatch⟩ := h.looked.found e hlink
    · rw [hnone] at hhad
      exact absurd hhad nofun
    have hname : (s'.world.ifs e).ifName = iface.name := by
      obtain ⟨system, main, -, -, hmatch⟩ := hmatch
      rw [(h.enslaves.frame.kept e).ifName, (h.looked.world.frame.kept e).ifName, hmatch.name]
    refine ⟨false, .ofFound h.looked.world h.enslaves, ?_, ?_, fun ptr hne => ?_, hname,
      fun _ => hmatch⟩
    · simp [hlink]
    · rw [h.link, hlink]
    · rw [h.link, h.looked.link ptr hne]
  | created hlink hcreate heq =>
    subst heq
    refine ⟨true, .ofCreated hscan h.looked.world hcreate h.enslaves, ?_, ?_, fun ptr hne => ?_, ?_,
      nofun⟩
    · simp [hlink]
    · rw [h.link]
      exact Function.update_self ..
    · rw [h.link]
      dsimp only
      rw [Function.update_of_ne hne, hcreate.link, h.looked.link ptr hne]
    · rw [(h.enslaves.frame.kept e).ifName, hcreate.ifName]

end

/-! ## What the linking has made of the ports so far -/

structure LinkedIface where
  iface : OvsIf
  entry : IfPtr
  created : Bool

/-- A port of a bridge whose main interface is mapped to `main`; `own` is the entry created for
the port itself. -/
structure LinkedPort where
  br : OvsBridge
  ovsMaster : OvsIf
  main : IfPtr
  port : OvsPort
  own : Option IfPtr
  members : List LinkedIface

def LinkedPort.entries (p : LinkedPort) : List IfPtr :=
  p.own.toList ++ p.members.map (·.entry)

def LinkedPort.added (p : LinkedPort) : List IfPtr :=
  p.own.toList ++ (p.members.filter (·.created)).map (·.entry)

def LinkedPort.concat (p : LinkedPort) (member : LinkedIface) : LinkedPort :=
  { p with members := p.members ++ [member] }

structure LinkedPort.Drawn (p : LinkedPort) (s : OvsState) : Prop where
  isMain : MainIface p.br p.ovsMaster
  mainLink : s.link p.ovsMaster.ptr = some p.main
  ownName : ∀ e ∈ p.own, (s.world.ifs e).ifName = p.port.name
  ownInternal : ∀ e ∈ p.own, (s.world.ifs e).flags.internal = true
  ownMaster : ∀ e ∈ p.own, (s.world.ifs e).master = some p.main
  link : ∀ member ∈ p.members, s.link member.iface.ptr = some member.entry
  master : ∀ member ∈ p.members, (s.world.ifs member.entry).master = some (p.own.getD p.main)

structure Hidden (main e : IfPtr) (w : World) : Prop where
  listed : e ∈ w.listed
  driver : (w.ifs e).driver = none
  master : (w.ifs e).master = some main
  mainName : (w.ifs main).ifName ≠ cstr "ovs-system"

/-- The invariant of the linking from `s₀`: the turn of the interfaces `done` has come, and `H`
are the ports of the bridges that could be mapped. -/
structure Drawing (root : NsPtr) (brList : List OvsBridge) (s₀ : OvsState) (done : List OvsIf)
    (H : List LinkedPort) (s : OvsState) : Prop where
  inv : LinkInv (fun _ => True) root [] s
  names : ∀ i ∈ allIfaces brList, ∀ e, s.link i.ptr = some e → (s.world.ifs e).ifName = i.name
  later : ∀ i ∈ allIfaces brList, i ∉ done → s.link i.ptr = none
  ifaces : ∀ n, (s.world.nss n).ifaces =
    (s₀.world.nss n).ifaces ++ if n = root then H.flatMap LinkedPort.added else []
  drawn : ∀ p ∈ H, p.Drawn s
  hidden : ∀ p ∈ H, ∀ e ∈ p.own, Hidden p.main e s.world
  mains : ∀ p ∈ H, p.ovsMaster ∈ done
  members : ∀ p ∈ H, ∀ member ∈ p.members, member.iface ∈ done
  inList : ∀ i ∈ done, i ∈ allIfaces brList

structure Distinct (brList : List OvsBridge) : Prop where
  ptr : ((allIfaces brList).map OvsIf.ptr).Nodup
  name : ((allIfaces brList).map OvsIf.name).Nodup

section
variable {root : NsPtr} {brList : List OvsBridge} {s₀ s s' : OvsState} {done : List OvsIf}
  {H : List LinkedPort} {e : IfPtr} {m : Option IfPtr} {created : Bool}

theorem Distinct.ptr_ne (h : Distinct brList) {i j : OvsIf} (hi : i ∈ allIfaces brList)
    (hj : j ∈ allIfaces brList) (hne : i ≠ j) : i.ptr ≠ j.ptr :=
  fun heq => hne (List.inj_on_of_nodup_map h.ptr hi hj heq)

theorem Distinct.name_ne (h : Distinct brList) {i j : OvsIf} (hi : i ∈ allIfaces brList)
    (hj : j ∈ allIfaces brList) (hne : i ≠ j) : i.name ≠ j.name :=
  fun heq => hne (List.inj_on_of_nodup_map h.name hi hj heq)

/-- A port stays as it is drawn while its entries keep their names and masters. -/
theorem LinkedPort.Drawn.congr {p : LinkedPort} (h : p.Drawn s)
    (hmain : s'.link p.ovsMaster.ptr = s.link p.ovsMaster.ptr)
    (hlink : ∀ member ∈ p.members, s'.link member.iface.ptr = s.link member.iface.ptr)
    (hname : ∀ x ∈ p.own, (s'.world.ifs x).ifName = (s.world.ifs x).ifName)
    (hinternal : ∀ x ∈ p.own, (s'.world.ifs x).flags.internal = (s.world.ifs x).flags.internal)
    (hmaster : ∀ x ∈ p.entries, (s'.world.ifs x).master = (s.world.ifs x).master) :
    p.Drawn s' := by
  have hown : ∀ x ∈ p.own, x ∈ p.entries := fun x hx =>
    List.mem_append_left _ (Option.mem_toList.mpr hx)
  have hmember : ∀ member ∈ p.members, member.entry ∈ p.entries := fun member hmem =>
    List.mem_append_right _ (List.mem_map_of_mem hmem)
  refine ⟨h.isMain, hmain.trans h.mainLink, fun x hx => ?_, fun x hx => ?_, fun x hx => ?_,
    fun member hmem => (hlink member hmem).trans (h.link member hmem), fun member hmem => ?_⟩
  · rw [hname x hx, h.ownName x hx]
  · rw [hinternal x hx, h.ownInternal x hx]
  · rw [hmaster x (hown x hx), h.ownMaster x hx]
  · rw [hmaster _ (hmember member hmem), h.master member hmem]

theorem LinkedPort.Drawn.placed {p : LinkedPort} (h : p.Drawn s)
    (hplaced : Placed root s s' e m created)
    (hmain : s'.link p.ovsMaster.ptr = s.link p.ovsMaster.ptr)
    (hlink : ∀ member ∈ p.members, s'.link member.iface.ptr = s.link member.iface.ptr)
    (hlisted : ∀ x ∈ p.own, x ∈ s.world.listed) (hne : ∀ x ∈ p.entries, x ≠ e) :
    p.Drawn s' :=
  h.congr hmain hlink (fun x hx => (hplaced.kept x (hlisted x hx)).ifName)
    (fun x hx => hplaced.internal x (hlisted x hx)) fun x hx => hplaced.others x (hne x hx)

theorem Hidden.steady {main x : IfPtr} {w w' : World} (h : Hidden main x w)
    (hsteady : Steady w w') : Hidden main x w' where
  listed := by
    rw [hsteady.frame.listed]
    exact h.listed
  driver := by rw [(hsteady.frame.kept x).driver, h.driver]
  master := by rw [hsteady.master, h.master]
  mainName := by
    rw [(hsteady.frame.kept main).ifName]
    exact h.mainName

theorem Hidden.placed {main x : IfPtr} (h : Hidden main x s.world)
    (hplaced : Placed root s s' e m created) (hmain : main ∈ s.world.listed) (hne : x ≠ e) :
    Hidden main x s'.world where
  listed := hplaced.listed h.listed
  driver := by rw [(hplaced.kept x h.listed).driver, h.driver]
  master := by rw [hplaced.others x hne, h.master]
  mainName := by
    rw [(hplaced.kept main hmain).ifName]
    exact h.mainName

theorem Drawing.main_listed (h : Drawing root brList s₀ done H s) {p : LinkedPort} (hp : p ∈ H) :
    p.main ∈ s.world.listed := h.inv.links _ _ (h.drawn p hp).mainLink

/-- Nothing that is enslaved already is found in the search for another interface. -/
theorem Drawing.unclaimed (h : Drawing root brList s₀ done H s) (hdistinct : Distinct brList)
    {br : OvsBridge} {iface : OvsIf} {main : IfPtr} (hiface : iface ∈ allIfaces brList)
    (hturn : iface ∉ done) (hmatch : Matches br.dpType (some main) iface s.world e) :
    ∀ p ∈ H, ∀ x ∈ p.entries, x ≠ e := by
  rintro p hp x hx rfl
  rcases List.mem_append.mp hx with hown | hmember
  · -- an entry created for a port is enslaved to a main interface and has no driver
    have hhidden := h.hidden p hp x (Option.mem_toList.mp hown)
    have hhere := hmatch.here
    unfold masterElsewhere at hhere
    rw [hhidden.master] at hhere
    cases hdp : br.dpType with
    | system =>
      rw [hdp] at hhere
      exact hhidden.mainName (by simpa using hhere)
    | netdev =>
      have hdriver := hmatch.driver (.inl hdp)
      rw [hhidden.driver] at hdriver
      exact absurd hdriver nofun
  · obtain ⟨member, hmem, rfl⟩ := List.mem_map.mp hmember
    have hdone := h.members p hp member hmem
    have hin := h.inList _ hdone
    have hname := h.names _ hin _ ((h.drawn p hp).link member hmem)
    rw [hmatch.name] at hname
    exact hdistinct.name_ne hiface hin (fun heq => hturn (heq ▸ hdone)) hname

theorem Drawing.entry_listed (h : Drawing root brList s₀ done H s) {p : LinkedPort} (hp : p ∈ H)
    {x : IfPtr} (hx : x ∈ p.entries) : x ∈ s.world.listed := by
  rcases List.mem_append.mp hx with hown | hmember
  · exact (h.hidden p hp x (Option.mem_toList.mp hown)).listed
  · obtain ⟨member, hmem, rfl⟩ := List.mem_map.mp hmember
    exact h.inv.links _ _ ((h.drawn p hp).link member hmem)

theorem Drawing.names_placed (h : Drawing root brList s₀ done H s)
    (hplaced : Placed root s s' e m created) {i : OvsIf} (hi : i ∈ allIfaces brList)
    (hlink : s'.link i.ptr = s.link i.ptr) {x : IfPtr} (hx : s'.link i.ptr = some x) :
    (s'.world.ifs x).ifName = i.name := by
  rw [hlink] at hx
  rw [(hplaced.kept x (h.inv.links _ _ hx)).ifName, h.names i hi x hx]

theorem Drawing.ifaceTurn {p : LinkedPort} (h : Drawing root brList s₀ done (H ++ [p]) s)
    (hdistinct : Distinct brList) {iface : OvsIf} (hiface : iface ∈ allIfaces brList)
    (hturn : iface ∉ done) {s₁ : OvsState}
    (hlocated : Located root p.br iface s s₁ s' e (some (p.own.getD p.main)) created)
    (hinv : LinkInv (fun _ => True) root [] s') :
    Drawing root brList s₀ (done ++ [iface]) (H ++ [p.concat ⟨iface, e, created⟩]) s' := by
  have hplaced := hlocated.placed
  have hp : p ∈ H ++ [p] := List.mem_append_right _ (List.mem_singleton_self p)
  -- the entry is none of those that are enslaved already
  have hne : ∀ q ∈ H ++ [p], ∀ x ∈ q.entries, x ≠ e := by
    cases hcreated : created with
    | true =>
      rintro q hq x hx rfl
      exact hplaced.new hcreated (h.entry_listed hq hx)
    | false =>
      obtain ⟨system, main, hsystem, hmain, hmatch⟩ := hlocated.found hcreated
      obtain ⟨system', hsystem', hsole⟩ := (h.drawn p hp).isMain
      obtain rfl := Option.some.inj (hsystem.symm.trans hsystem')
      rw [hsole] at hmain
      obtain rfl := Option.some.inj hmain
      rw [(h.drawn p hp).mainLink] at hmatch
      exact h.unclaimed hdistinct hiface hturn hmatch
  have hlink : ∀ i ∈ done, s'.link i.ptr = s.link i.ptr := fun i hi =>
    hlocated.others _ (hdistinct.ptr_ne (h.inList i hi) hiface fun heq => hturn (heq ▸ hi))
  have hdrawn : ∀ q ∈ H ++ [p], q.Drawn s' := fun q hq =>
    (h.drawn q hq).placed hplaced (hlink _ (h.mains q hq))
      (fun member hmem => hlink _ (h.members q hq member hmem))
      (fun x hx => (h.hidden q hq x hx).listed) (hne q hq)
  have hhidden : ∀ q ∈ H ++ [p], ∀ x ∈ q.own, Hidden q.main x s'.world := fun q hq x hx =>
    (h.hidden q hq x hx).placed hplaced (h.main_listed hq)
      (hne q hq x (List.mem_append_left _ (Option.mem_toList.mpr hx)))
  -- the ports are those of before, the last with one more interface
  have hports : ∀ {P : LinkedPort → Prop}, (∀ q ∈ H ++ [p], P q) →
      (P p → P (p.concat ⟨iface, e, created⟩)) →
      ∀ q ∈ H ++ [p.concat ⟨iface, e, created⟩], P q := by
    intro P hall hlast q hq
    rcases List.mem_append.mp hq with hq | hq
    · exact hall q (List.mem_append_left _ hq)
    · rw [List.mem_singleton.mp hq]
      exact hlast (hall p hp)
  have hconcat : ∀ {P : LinkedIface → Prop}, (∀ member ∈ p.members, P member) →
      P ⟨iface, e, created⟩ → ∀ member ∈ (p.concat ⟨iface, e, created⟩).members, P member := by
    intro P hall hlast member hmem
    rcases List.mem_append.mp hmem with hmem | hmem
    · exact hall member hmem
    · rwa [List.mem_singleton.mp hmem]
  refine ⟨hinv, fun i hi x hx => ?_, fun i hi hnot => ?_, fun n => ?_,
    hports hdrawn fun hd => ?_, hports hhidden id,
    hports (fun q hq => List.mem_append_left _ (h.mains q hq)) id,
    hports (fun q hq member hmem => List.mem_append_left _ (h.members q hq member hmem))
      fun hall => hconcat hall (List.mem_append_right _ (List.mem_singleton_self iface)),
    fun i hi => ?_⟩
  · by_cases heq : i = iface
    · subst heq
      rw [hlocated.link, Option.some.injEq] at hx
      rw [← hx, hlocated.name]
    · exact h.names_placed hplaced hi (hlocated.others _ (hdistinct.ptr_ne hi hiface heq)) hx
  · rw [List.mem_append, List.mem_singleton, not_or] at hnot
    rw [hlocated.others _ (hdistinct.ptr_ne hi hiface hnot.2), h.later i hi hnot.1]
  · rw [hplaced.ifaces, h.ifaces]
    by_cases hn : n = root
    · cases created <;> simp [hn, LinkedPort.added, LinkedPort.concat]
    · simp [hn]
  · exact ⟨hd.isMain, hd.mainLink, hd.ownName, hd.ownInternal, hd.ownMaster,
      hconcat hd.link hlocated.link, hconcat hd.master hplaced.master⟩
  · rcases List.mem_append.mp hi with hi | hi
    · exact h.inList i hi
    · rwa [List.mem_singleton.mp hi]

theorem Drawing.masterTurn (h : Drawing root brList s₀ done H s) {br : OvsBridge}
    {ovsMaster : OvsIf} (hmain : MainIface br ovsMaster) (hdone : ovsMaster ∈ done)
    {main : IfPtr} (hlink : s.link ovsMaster.ptr = some main)
    (hname : ovsMaster.name ≠ cstr "ovs-system") {port : OvsPort}
    (hturn : MasterTurn root br ovsMaster port s s' m)
    (hinv : LinkInv (fun _ => True) root [] s') :
    ∃ own, m = some (own.getD main) ∧ (own.isSome ↔ 1 < port.ifaceCount) ∧
      Drawing root brList s₀ done (H ++ [⟨br, ovsMaster, main, port, own, []⟩]) s' := by
  have hports : ∀ {own : Option IfPtr} {P : LinkedPort → Prop}, (∀ q ∈ H, P q) →
      P ⟨br, ovsMaster, main, port, own, []⟩ →
      ∀ q ∈ H ++ [⟨br, ovsMaster, main, port, own, []⟩], P q := by
    intro own P hall hlast q hq
    rcases List.mem_append.mp hq with hq | hq
    · exact hall q hq
    · rwa [List.mem_singleton.mp hq]
  cases hturn with
  | sole hcount heq =>
    subst heq
    refine ⟨none, hlink, by simpa using hcount, hinv, h.names, h.later, fun n => ?_,
      hports h.drawn ⟨hmain, hlink, nofun, nofun, nofun, nofun, nofun⟩,
      hports h.hidden nofun, hports h.mains hdone, hports h.members nofun, h.inList⟩
    rw [h.ifaces]
    by_cases hn : n = root <;> simp [hn, LinkedPort.added]
  | several hcount hcreate henslaves hlinks =>
    rename_i t c
    have hplaced := Placed.ofCreated h.inv.scanned (.refl _) hcreate henslaves
    have hne : ∀ x ∈ s.world.listed, x ≠ c := by
      rintro x hx rfl
      exact hplaced.new rfl hx
    have hlisted : c ∈ s'.world.listed := by
      rw [henslaves.frame.listed]
      exact (hcreate.adds.mem_listed h.inv.scanned h.inv.root).mpr (.inl rfl)
    have hmainListed : main ∈ s.world.listed := h.inv.links _ _ hlink
    have hmaster : (s'.world.ifs c).master = some main := by rw [hplaced.master, hlink]
    have hcName : (s'.world.ifs c).ifName = port.name := by
      rw [(henslaves.frame.kept c).ifName, hcreate.ifName]
    have hcInternal : (s'.world.ifs c).flags.internal = true := by
      rw [henslaves.internal, hcreate.internal]
    have hcHidden : Hidden main c s'.world := by
      refine ⟨hlisted, ?_, hmaster, ?_⟩
      · rw [(henslaves.frame.kept c).driver, hcreate.driver]
      · rw [(hplaced.kept main hmainListed).ifName, h.names _ (h.inList _ hdone) _ hlink]
        exact hname
    have hlinkSame : ∀ ptr, s'.link ptr = s.link ptr := fun ptr => congrFun hlinks ptr
    refine ⟨some c, rfl, by simpa using hcount, hinv, fun i hi x hx => ?_, fun i hi hnot => ?_,
      fun n => ?_, hports (fun q hq => ?_) ?_, hports (fun q hq x hx => ?_) ?_,
      hports h.mains hdone, hports h.members nofun, h.inList⟩
    · exact h.names_placed hplaced hi (hlinkSame _) hx
    · rw [hlinkSame, h.later i hi hnot]
    · rw [hplaced.ifaces, h.ifaces]
      by_cases hn : n = root <;> simp [hn, LinkedPort.added]
    · exact (h.drawn q hq).placed hplaced (hlinkSame _) (fun _ _ => hlinkSame _)
        (fun x hx => (h.hidden q hq x hx).listed) fun x hx => hne x (h.entry_listed hq hx)
    · refine ⟨hmain, (hlinkSame _).trans hlink, ?_, ?_, ?_, nofun, nofun⟩
      · rintro _ ⟨⟩
        exact hcName
      · rintro _ ⟨⟩
        exact hcInternal
      · rintro _ ⟨⟩
        exact hmaster
    · exact (h.hidden q hq x hx).placed hplaced (h.main_listed hq)
        (hne x (h.hidden q hq x hx).listed)
    · rintro _ ⟨⟩
      exact hcHidden

theorem Drawing.mono (h : Drawing root brList s₀ done H s) {done' : List OvsIf}
    (hsub : ∀ i ∈ done, i ∈ done') (hin : ∀ i ∈ done', i ∈ allIfaces brList) :
    Drawing root brList s₀ done' H s :=
  ⟨h.inv, h.names, fun i hi hnot => h.later i hi fun hd => hnot (hsub i hd), h.ifaces, h.drawn,
    h.hidden, fun p hp => hsub _ (h.mains p hp),
    fun p hp member hmem => hsub _ (h.members p hp member hmem), hin⟩

theorem Drawing.steady (h : Drawing root brList s₀ done H s) (hsteady : Steady s.world s'.world)
    (hlink : s'.link = s.link) (hinv : LinkInv (fun _ => True) root [] s') :
    Drawing root brList s₀ done H s' := by
  have hkept := hsteady.frame.kept
  refine ⟨hinv, fun i hi x hx => ?_, fun i hi hnot => ?_, fun n => ?_, fun p hp => ?_,
    fun p hp x hx => (h.hidden p hp x hx).steady hsteady, h.mains, h.members, h.inList⟩
  · rw [hlink] at hx
    rw [(hkept x).ifName, h.names i hi x hx]
  · rw [hlink, h.later i hi hnot]
  · rw [hsteady.frame.ifaces, h.ifaces]
  · exact (h.drawn p hp).congr (congrFun hlink _) (fun _ _ => congrFun hlink _)
      (fun x _ => (hkept x).ifName) (fun x _ => hsteady.internal x) fun x _ => hsteady.master x

theorem Drawing.looked (h : Drawing root brList s₀ done H s) (hdistinct : Distinct brList)
    {br : OvsBridge} {iface : OvsIf} (hiface : iface ∈ allIfaces brList) (hturn : iface ∉ done)
    (hlooked : Looked br iface s s') (hinv : LinkInv (fun _ => True) root [] s') :
    Drawing root brList s₀ (done ++ [iface]) H s' := by
  have hkept := hlooked.world.frame.kept
  have hlink : ∀ i ∈ done, s'.link i.ptr = s.link i.ptr := fun i hi =>
    hlooked.link _ (hdistinct.ptr_ne (h.inList i hi) hiface fun heq => hturn (heq ▸ hi))
  refine ⟨hinv, fun i hi x hx => ?_, fun i hi hnot => ?_, fun n => ?_, fun p hp => ?_,
    fun p hp x hx => (h.hidden p hp x hx).steady hlooked.world,
    fun p hp => List.mem_append_left _ (h.mains p hp),
    fun p hp member hmem => List.mem_append_left _ (h.members p hp member hmem), fun i hi => ?_⟩
  · rw [(hkept x).ifName]
    by_cases heq : i = iface
    · subst heq
      obtain hhad | ⟨-, system, main, -, -, hmatch⟩ := hlooked.found x hx
      · exact h.names i hi x hhad
      · exact hmatch.name
    · rw [hlooked.link _ (hdistinct.ptr_ne hi hiface heq)] at hx
      exact h.names i hi x hx
  · rw [List.mem_append, List.mem_singleton, not_or] at hnot
    rw [hlooked.link _ (hdistinct.ptr_ne hi hiface hnot.2), h.later i hi hnot.1]
  · rw [hlooked.world.frame.ifaces, h.ifaces]
  · exact (h.drawn p hp).congr (hlink _ (h.mains p hp))
      (fun member hmem => hlink _ (h.members p hp member hmem)) (fun x _ => (hkept x).ifName)
      (fun x _ => hlooked.world.internal x) fun x _ => hlooked.world.master x
  · rcases List.mem_append.mp hi with hi | hi
    · exact h.inList i hi
    · rwa [List.mem_singleton.mp hi]

end

/-! ## The loops -/

section
variable (env : OvsEnv) (root : NsPtr) (brList : List OvsBridge) (s₀ : OvsState)

/-- The main interface of the bridge was found when its turn came. -/
def Mapped (br : OvsBridge) : Prop :=
  ∃ before after t ovsMaster t', brList = before ++ br :: after ∧
    linkIfaces env root before s₀ = some (.ok (), t) ∧ MainIface br ovsMaster ∧
      linkIface env root br ovsMaster true t = some (.ok (), t')

/-- The entry is created if and only if `link_iface` found none. -/
def LinkedIface.Searched (br : OvsBridge) (member : LinkedIface) : Prop :=
  ∃ t t', LinkCall env root brList s₀ br member.iface t ∧
    linkIface env root br member.iface false t = some (.ok (), t') ∧
      (member.created = true ↔ t'.link member.iface.ptr = none)

structure LinkedPort.Complete (p : LinkedPort) : Prop where
  ifaces : p.members.map (·.iface) = p.port.ifaces
  own : p.own.isSome ↔ 1 < p.port.ifaceCount
  searched : ∀ member ∈ p.members, member.Searched env root brList s₀ p.br

variable {env root brList s₀} {s : OvsState} {done : List OvsIf} {H : List LinkedPort}

theorem linkPort_drawing (hdistinct : Distinct brList)
    (h : Drawing root brList s₀ done H s) {br : OvsBridge} {ovsMaster : OvsIf}
    (hmain : MainIface br ovsMaster) (hdone : ovsMaster ∈ done)
    (hname : ovsMaster.name ≠ cstr "ovs-system") {main : IfPtr}
    (hlink : s.link ovsMaster.ptr = some main) {port : OvsPort}
    (hin : ∀ i ∈ port.ifaces, i ∈ allIfaces brList) (hnodup : (done ++ port.ifaces).Nodup)
    (hcall : ∀ master t ifaces iface ifaces' t',
      portMaster root br ovsMaster port s = some (.ok master, t) →
      port.ifaces = ifaces ++ iface :: ifaces' →
      Prog.forEach ifaces (linkPortIface env root br port master) t = some (.ok (), t') →
      LinkCall env root brList s₀ br iface t') :
    Prog.Runs (· = s) (linkPort env root br ovsMaster port)
      (fun _ s' => ∃ own members,
        LinkedPort.Complete env root brList s₀ ⟨br, ovsMaster, main, port, own, members⟩ ∧
        Drawing root brList s₀ (done ++ port.ifaces)
          (H ++ [⟨br, ovsMaster, main, port, own, members⟩]) s') fun _ => True := by
  have hmaster : Prog.Runs (· = s) (portMaster root br ovsMaster port)
      (fun master t => portMaster root br ovsMaster port s = some (.ok master, t) ∧
        ∃ own, master = some (own.getD main) ∧ (own.isSome ↔ 1 < port.ifaceCount) ∧
          Drawing root brList s₀ done (H ++ [⟨br, ovsMaster, main, port, own, []⟩]) t)
      fun _ => True := by
    intro t ht r t' hrun
    rw [ht] at hrun
    have hturn := portMaster_turn root br ovsMaster port s s rfl r t' hrun
    have hinv := portMaster_triple peerInvariant_true br ovsMaster port s h.inv r t' hrun
    cases r with
    | error err => trivial
    | ok master => exact ⟨hrun, h.masterTurn hmain hdone hlink hname hturn hinv⟩
  unfold linkPort
  apply Prog.Triple.bind hmaster
  intro master t ht
  obtain ⟨hrunMaster, own, rfl, hown, hdrawing⟩ := ht
  have hstep : ∀ pre iface post t', port.ifaces = pre ++ iface :: post →
      Prog.forEach pre (linkPortIface env root br port (some (own.getD main))) t =
        some (.ok (), t') →
      (∃ members : List LinkedIface, members.map (·.iface) = pre ∧
        (∀ member ∈ members, member.Searched env root brList s₀ br) ∧
        Drawing root brList s₀ (done ++ pre)
          (H ++ [⟨br, ovsMaster, main, port, own, members⟩]) t') →
      Prog.Runs (· = t') (linkPortIface env root br port (some (own.getD main)) iface)
        (fun _ t'' => ∃ members : List LinkedIface, members.map (·.iface) = pre ++ [iface] ∧
          (∀ member ∈ members, member.Searched env root brList s₀ br) ∧
          Drawing root brList s₀ (done ++ (pre ++ [iface]))
            (H ++ [⟨br, ovsMaster, main, port, own, members⟩]) t'') fun _ => True := by
    intro pre iface post t' hsplit hbefore hpre u hu r t'' hrun
    obtain ⟨members, hmap, hsearched, hpre⟩ := hpre
    rw [hu] at hrun
    have hturn := linkPortIface_turn env root br port (some (own.getD main)) iface t' t' rfl r t'' hrun
    have hinv := linkPortIface_triple peerInvariant_true env br port _ iface t' hpre.inv r t'' hrun
    cases r with
    | error err => trivial
    | ok v =>
      obtain ⟨t₁, t₂, e, hturn⟩ := hturn
      have hmem : iface ∈ port.ifaces := by
        rw [hsplit]
        exact List.mem_append_right _ List.mem_cons_self
      have hnot : iface ∉ done ++ pre := by
        rw [hsplit, ← List.append_assoc] at hnodup
        intro hmem'
        exact (List.nodup_append.mp hnodup).2.2 _ hmem' _ List.mem_cons_self rfl
      obtain ⟨created, hlocated⟩ := hturn.located hpre.inv.scanned
        (hpre.later iface (hin iface hmem) hnot)
      refine ⟨members ++ [⟨iface, e, created⟩], by simp [hmap], fun member hm => ?_, ?_⟩
      · rcases List.mem_append.mp hm with hm | hm
        · exact hsearched member hm
        · obtain rfl := List.mem_singleton.mp hm
          exact ⟨t', t₁, hcall _ _ _ _ _ _ hrunMaster hsplit hbefore, hturn.search,
            hlocated.missed⟩
      · rw [← List.append_assoc]
        exact hpre.ifaceTurn hdistinct (hin iface hmem) hnot hlocated hinv
  have hloop := Prog.Triple.forEachReached hstep ⟨[], rfl, nofun, by rwa [List.append_nil]⟩
  intro r s' hrun
  have hpost := hloop t rfl r s' hrun
  cases r with
  | error err => trivial
  | ok u =>
    obtain ⟨members, hmap, hsearched, hdrawing'⟩ := hpost
    exact ⟨own, members, ⟨hmap, hown, hsearched⟩, hdrawing'⟩

theorem Distinct.nodup (h : Distinct brList) : (allIfaces brList).Nodup := List.Nodup.of_map _ h.ptr

theorem allIfaces_split {before after : List OvsBridge} {br : OvsBridge}
    (hsplit : brList = before ++ br :: after) :
    allIfaces brList = allIfaces before ++ (br.ifaces ++ allIfaces after) := by
  rw [hsplit]
  simp [allIfaces]

def DrawnPorts (env : OvsEnv) (root : NsPtr) (brList : List OvsBridge) (s₀ : OvsState)
    (ports : List (OvsBridge × OvsPort)) (K : List LinkedPort) : Prop :=
  K.map (fun p => (p.br, p.port)) = ports ∧ ∀ p ∈ K, p.Complete env root brList s₀

theorem DrawnPorts.append {ports ports' : List (OvsBridge × OvsPort)} {K K' : List LinkedPort}
    (h : DrawnPorts env root brList s₀ ports K) (h' : DrawnPorts env root brList s₀ ports' K') :
    DrawnPorts env root brList s₀ (ports ++ ports') (K ++ K') := by
  refine ⟨by rw [List.map_append, h.1, h'.1], fun p hp => ?_⟩
  rcases List.mem_append.mp hp with hp | hp
  · exact h.2 p hp
  · exact h'.2 p hp

theorem linkPorts_drawing (hdistinct : Distinct brList)
    (h : Drawing root brList s₀ done H s) {br : OvsBridge} {ovsMaster : OvsIf}
    (hmain : MainIface br ovsMaster) (hdone : ovsMaster ∈ done)
    (hname : ovsMaster.name ≠ cstr "ovs-system") {main : IfPtr}
    (hlink : s.link ovsMaster.ptr = some main)
    (hin : ∀ i ∈ br.ports.flatMap OvsPort.ifaces, i ∈ allIfaces brList)
    (hnodup : (done ++ br.ports.flatMap OvsPort.ifaces).Nodup)
    (hcall : ∀ iface t ports port ports' ifaces ifaces' master t' t'',
      br.ports = ports ++ port :: ports' →
      Prog.forEach ports (linkPort env root br ovsMaster) s = some (.ok (), t) →
      portMaster root br ovsMaster port t = some (.ok master, t') →
      port.ifaces = ifaces ++ iface :: ifaces' →
      Prog.forEach ifaces (linkPortIface env root br port master) t' = some (.ok (), t'') →
      LinkCall env root brList s₀ br iface t'') :
    Prog.Runs (· = s) (Prog.forEach br.ports (linkPort env root br ovsMaster))
      (fun _ s' => ∃ K, DrawnPorts env root brList s₀ (br.ports.map fun port => (br, port)) K ∧
        Drawing root brList s₀ (done ++ br.ports.flatMap OvsPort.ifaces) (H ++ K) s')
      fun _ => True := by
  have hstep : ∀ pre port post t, br.ports = pre ++ port :: post →
      Prog.forEach pre (linkPort env root br ovsMaster) s = some (.ok (), t) →
      (∃ K, DrawnPorts env root brList s₀ (pre.map fun port => (br, port)) K ∧
        Drawing root brList s₀ (done ++ pre.flatMap OvsPort.ifaces) (H ++ K) t ∧
        t.link ovsMaster.ptr = some main) →
      Prog.Runs (· = t) (linkPort env root br ovsMaster port)
        (fun _ t' => ∃ K,
          DrawnPorts env root brList s₀ ((pre ++ [port]).map fun port => (br, port)) K ∧
          Drawing root brList s₀ (done ++ (pre ++ [port]).flatMap OvsPort.ifaces) (H ++ K) t' ∧
          t'.link ovsMaster.ptr = some main) fun _ => True := by
    intro pre port post t hsplit hbefore hpre
    obtain ⟨K, hK, hdrawing, hmainLink⟩ := hpre
    have hport : ∀ i ∈ port.ifaces, i ∈ allIfaces brList := by
      intro i hi
      apply hin i
      rw [hsplit]
      exact List.mem_flatMap.mpr ⟨port, List.mem_append_right _ List.mem_cons_self, hi⟩
    have hportNodup : (done ++ pre.flatMap OvsPort.ifaces ++ port.ifaces).Nodup := by
      rw [hsplit, List.flatMap_append, List.flatMap_cons, ← List.append_assoc,
        ← List.append_assoc] at hnodup
      exact (List.nodup_append.mp hnodup).1
    apply (linkPort_drawing hdistinct hdrawing hmain (List.mem_append_left _ hdone) hname hmainLink
      hport hportNodup fun master t' ifaces iface ifaces' t'' hmaster hifaces hrun =>
        hcall iface t pre port post ifaces ifaces' master t' t'' hsplit hbefore hmaster hifaces
          hrun).weaken (fun _ => id)
    rintro _ t' ⟨own, members, hcomplete, hdrawing'⟩
    refine ⟨K ++ [⟨br, ovsMaster, main, port, own, members⟩], ?_, ?_, ?_⟩
    · rw [List.map_append]
      exact hK.append ⟨rfl, fun p hp => List.mem_singleton.mp hp ▸ hcomplete⟩
    · rw [List.flatMap_append, List.flatMap_singleton, ← List.append_assoc, ← List.append_assoc]
      exact hdrawing'
    · exact (hdrawing'.drawn _ (List.mem_append_right _ (List.mem_singleton_self _))).mainLink
  have hstart : ∃ K, DrawnPorts env root brList s₀
        (([] : List OvsPort).map fun port => (br, port)) K ∧
      Drawing root brList s₀ (done ++ ([] : List OvsPort).flatMap OvsPort.ifaces) (H ++ K) s ∧
      s.link ovsMaster.ptr = some main := by
    refine ⟨[], ⟨rfl, fun _ hp => absurd hp List.not_mem_nil⟩, ?_, hlink⟩
    rw [List.flatMap_nil, List.append_nil, List.append_nil]
    exact h
  have hloop := Prog.Triple.forEachReached (I := fun pre t =>
    ∃ K, DrawnPorts env root brList s₀ (pre.map fun port => (br, port)) K ∧
      Drawing root brList s₀ (done ++ pre.flatMap OvsPort.ifaces) (H ++ K) t ∧
      t.link ovsMaster.ptr = some main) hstep hstart
  apply hloop.weaken (fun _ => id)
  rintro _ s' ⟨K, hK, hdrawing, -⟩
  exact ⟨K, hK, hdrawing⟩

/-- Where the bridge stands in the list is where its main interface does. -/
theorem mapped_iff (hdistinct : Distinct brList) {before after : List OvsBridge} {br : OvsBridge}
    (hsplit : brList = before ++ br :: after) {t : OvsState}
    (hbefore : linkIfaces env root before s₀ = some (.ok (), t)) {ovsMaster : OvsIf}
    (hmain : MainIface br ovsMaster) :
    Mapped env root brList s₀ br ↔
      ∃ t', linkIface env root br ovsMaster true t = some (.ok (), t') := by
  have hmem : ovsMaster ∈ br.ifaces := by
    rw [hmain.ifaces]
    exact List.mem_cons_self
  constructor
  · rintro ⟨before', after', u, ovsMaster', u', hsplit', hbefore', hmain', hrun⟩
    obtain rfl := hmain'.unique hmain
    -- the main interface is not in the bridges before, nor in those after
    have hnot : ∀ {b a : List OvsBridge}, brList = b ++ br :: a → br ∉ b ∧ br ∉ a := by
      intro b a hba
      have hnodup := hdistinct.nodup
      rw [allIfaces_split hba] at hnodup
      have hparts := List.nodup_append.mp hnodup
      constructor
      · intro hbr
        exact hparts.2.2 _ (List.mem_flatMap.mpr ⟨br, hbr, hmem⟩) _
          (List.mem_append_left _ hmem) rfl
      · intro hbr
        exact (List.nodup_append.mp hparts.2.1).2.2 _ hmem _
          (List.mem_flatMap.mpr ⟨br, hbr, hmem⟩) rfl
    have heq : before' = before :=
      ((List.append_cons_inj_of_notMem (hnot hsplit').1 (hnot hsplit').2).mp
        (hsplit'.symm.trans hsplit)).1
    rw [heq, hbefore] at hbefore'
    obtain rfl := (Prod.mk.inj (Option.some.inj hbefore')).2
    exact ⟨u', hrun⟩
  · rintro ⟨t', hrun⟩
    exact ⟨before, after, t, ovsMaster, t', hsplit, hbefore, hmain, hrun⟩

open scoped Classical in
noncomputable def mappedPorts (env : OvsEnv) (root : NsPtr) (brList : List OvsBridge)
    (s₀ : OvsState) (br : OvsBridge) : List (OvsBridge × OvsPort) :=
  if Mapped env root brList s₀ br then br.ports.map fun port => (br, port) else []

theorem allIfaces_concat (before : List OvsBridge) (br : OvsBridge) :
    allIfaces (before ++ [br]) = allIfaces before ++ br.ifaces := by
  simp [allIfaces]

/-- Nothing is drawn for a bridge that could not be mapped. -/
theorem Drawing.unmapped (h : Drawing root brList s₀ done H s) {br : OvsBridge}
    {brs : List OvsBridge} (hnot : ¬ Mapped env root brList s₀ br)
    (hsub : ∀ i ∈ done, i ∈ allIfaces brs) (hin : ∀ i ∈ allIfaces brs, i ∈ allIfaces brList) :
    ∃ K, DrawnPorts env root brList s₀ (mappedPorts env root brList s₀ br) K ∧
      Drawing root brList s₀ (allIfaces brs) (H ++ K) s := by
  refine ⟨[], ⟨?_, fun _ hp => absurd hp List.not_mem_nil⟩, ?_⟩
  · rw [mappedPorts, if_neg hnot]
    rfl
  · rw [List.append_nil]
    exact h.mono hsub hin

theorem Drawing.mainTurn (hdistinct : Distinct brList) (h : Drawing root brList s₀ done H s)
    {br : OvsBridge} {ovsMaster : OvsIf} (hmem : ovsMaster ∈ allIfaces brList)
    (hnot : ovsMaster ∉ done) {r : Except Int Unit} {t : OvsState}
    (hrun : linkIface env root br ovsMaster true s = some (r, t)) :
    Drawing root brList s₀ (done ++ [ovsMaster]) H t ∧
      (r = .ok () → (t.link ovsMaster.ptr).isSome) := by
  have hlooked := linkIface_looked env root br ovsMaster true s s rfl r t hrun
  have hinv := linkIface_triple peerInvariant_true env br ovsMaster true s h.inv r t hrun
  cases r with
  | error err => exact ⟨h.looked hdistinct hmem hnot hlooked hinv, fun hok => by cases hok⟩
  | ok u => exact ⟨h.looked hdistinct hmem hnot hlooked.1 hinv, fun _ => hlooked.2 rfl⟩

section
variable {before after : List OvsBridge} {br : OvsBridge}
  (hsplit : brList = before ++ br :: after)
include hsplit

theorem mem_allIfaces_split {i : OvsIf} (hi : i ∈ allIfaces (before ++ [br])) :
    i ∈ allIfaces brList := by
  rw [allIfaces_concat] at hi
  rw [allIfaces_split hsplit, ← List.append_assoc]
  exact List.mem_append_left _ hi

theorem Distinct.nodup_split (hdistinct : Distinct brList) :
    (allIfaces before ++ br.ifaces).Nodup := by
  have hnodup := hdistinct.nodup
  rw [allIfaces_split hsplit, ← List.append_assoc] at hnodup
  exact (List.nodup_append.mp hnodup).1

/-- A bridge whose main interface has been found. -/
theorem linkPorts_drawingMapped (hdistinct : Distinct brList)
    (hbefore : linkIfaces env root before s₀ = some (.ok (), s)) {ovsMaster : OvsIf}
    (hmain : MainIface br ovsMaster) (hname : ovsMaster.name ≠ cstr "ovs-system") {t : OvsState}
    (hrun : linkIface env root br ovsMaster true s = some (.ok (), t))
    (ht : Drawing root brList s₀ (allIfaces before ++ [ovsMaster]) H t) {main : IfPtr}
    (hlink : t.link ovsMaster.ptr = some main) :
    Prog.Runs (· = t) (Prog.forEach br.ports (linkPort env root br ovsMaster))
      (fun _ s' => ∃ K, DrawnPorts env root brList s₀ (mappedPorts env root brList s₀ br) K ∧
        Drawing root brList s₀ (allIfaces (before ++ [br])) (H ++ K) s') fun _ => True := by
  have hports : allIfaces before ++ [ovsMaster] ++ br.ports.flatMap OvsPort.ifaces =
      allIfaces (before ++ [br]) := by
    rw [allIfaces_concat, hmain.ifaces]
    simp
  have hin : ∀ i ∈ br.ports.flatMap OvsPort.ifaces, i ∈ allIfaces brList := by
    intro i hi
    apply mem_allIfaces_split hsplit
    rw [← hports]
    exact List.mem_append_right _ hi
  have hcall : ∀ iface t₁ ports port ports' ifaces ifaces' master t₂ t₃,
      br.ports = ports ++ port :: ports' →
      Prog.forEach ports (linkPort env root br ovsMaster) t = some (.ok (), t₁) →
      portMaster root br ovsMaster port t₁ = some (.ok master, t₂) →
      port.ifaces = ifaces ++ iface :: ifaces' →
      Prog.forEach ifaces (linkPortIface env root br port master) t₂ = some (.ok (), t₃) →
      LinkCall env root brList s₀ br iface t₃ :=
    fun iface t₁ ports port ports' ifaces ifaces' master t₂ t₃ h₁ h₂ h₃ h₄ h₅ =>
      ⟨before, after, s, hsplit, hbefore, .port hmain hrun h₁ h₂ h₃ h₄ h₅⟩
  have hmapped : Mapped env root brList s₀ br :=
    (mapped_iff hdistinct hsplit hbefore hmain).mpr ⟨t, hrun⟩
  rw [mappedPorts, if_pos hmapped, ← hports]
  apply linkPorts_drawing hdistinct ht hmain
    (List.mem_append_right _ (List.mem_singleton_self _)) hname hlink hin _ hcall
  rw [hports, allIfaces_concat]
  exact hdistinct.nodup_split hsplit

theorem linkBridge_drawing (hdistinct : Distinct brList)
    (hbefore : linkIfaces env root before s₀ = some (.ok (), s))
    (h : Drawing root brList s₀ (allIfaces before) H s)
    (hname : ∀ ovsMaster, MainIface br ovsMaster → ovsMaster.name ≠ cstr "ovs-system") :
    Prog.Runs (· = s) (linkBridge env root br)
      (fun _ s' => ∃ K, DrawnPorts env root brList s₀ (mappedPorts env root brList s₀ br) K ∧
        Drawing root brList s₀ (allIfaces (before ++ [br])) (H ++ K) s') fun _ => True := by
  have hin : ∀ i ∈ allIfaces (before ++ [br]), i ∈ allIfaces brList :=
    fun i => mem_allIfaces_split hsplit
  have hdone := allIfaces_concat before br
  by_cases hmain : ∃ ovsMaster, MainIface br ovsMaster
  swap
  · have hnot : ¬ Mapped env root brList s₀ br := by
      rintro ⟨-, -, -, ovsMaster, -, -, -, hmain', -⟩
      exact hmain ⟨ovsMaster, hmain'⟩
    obtain ⟨text, hskipped⟩ := linkBridge_skipped env root (not_exists.mp hmain)
    rw [hskipped]
    apply Prog.Triple.modify
    rintro _ rfl
    apply Drawing.unmapped _ hnot (fun i hi => hdone ▸ List.mem_append_left _ hi) hin
    refine h.steady ?_ rfl ?_
    · exact labelAdd_steady _ _ _
    · exact h.inv.frame (labelAdd_steady _ _ _).frame trivial
  obtain ⟨ovsMaster, hmain⟩ := hmain
  have hmem : ovsMaster ∈ br.ifaces := hmain.ifaces ▸ List.mem_cons_self
  have hnot : ovsMaster ∉ allIfaces before :=
    fun hb => (List.nodup_append.mp (hdistinct.nodup_split hsplit)).2.2 _ hb _ hmem rfl
  have hsub : ∀ i ∈ allIfaces before ++ [ovsMaster], i ∈ allIfaces (before ++ [br]) := by
    rw [hdone, hmain.ifaces]
    simp +contextual [or_imp]
  rw [linkBridge_main env root hmain]
  have hattempt : Prog.Runs (· = s) (Prog.attempt (linkIface env root br ovsMaster true))
      (fun r t => linkIface env root br ovsMaster true s = some (r, t)) fun _ => True := by
    apply Prog.Triple.attempt
    intro u hu r t hrun
    rw [hu] at hrun
    cases r <;> exact hrun
  apply Prog.Triple.bind hattempt
  intro r t hrun
  obtain ⟨hdrawing, hsome⟩ :=
    h.mainTurn hdistinct (hin _ (hdone ▸ List.mem_append_right _ hmem)) hnot hrun
  cases r with
  | error err =>
    have hnotMapped : ¬ Mapped env root brList s₀ br := by
      rw [mapped_iff hdistinct hsplit hbefore hmain]
      rintro ⟨t', hok⟩
      rw [hrun] at hok
      exact absurd hok (by simp)
    intro r' s' hend
    dsimp only at hend
    split_ifs at hend
    · obtain ⟨rfl, rfl⟩ := Prod.mk.inj (Option.some.inj hend)
      exact hdrawing.unmapped hnotMapped hsub hin
    · obtain ⟨rfl, rfl⟩ := Prod.mk.inj (Option.some.inj hend)
      trivial
  | ok u =>
    obtain ⟨main, hlink⟩ := Option.isSome_iff_exists.mp (hsome rfl)
    exact linkPorts_drawingMapped hsplit hdistinct hbefore hmain (hname _ hmain) hrun hdrawing hlink
      t rfl

end

variable (env) in
theorem linkIfaces_drawing (hdistinct : Distinct brList)
    (hname : ∀ br ∈ brList, ∀ ovsMaster, MainIface br ovsMaster →
      ovsMaster.name ≠ cstr "ovs-system")
    (h : Drawing root brList s₀ [] [] s₀) :
    Prog.Runs (· = s₀) (linkIfaces env root brList)
      (fun _ s' => ∃ H, DrawnPorts env root brList s₀
        (brList.flatMap (mappedPorts env root brList s₀)) H ∧
        Drawing root brList s₀ (allIfaces brList) H s') fun _ => True := by
  have hstep : ∀ pre br post s, brList = pre ++ br :: post →
      Prog.forEach pre (linkBridge env root) s₀ = some (.ok (), s) →
      (∃ H, DrawnPorts env root brList s₀ (pre.flatMap (mappedPorts env root brList s₀)) H ∧
        Drawing root brList s₀ (allIfaces pre) H s) →
      Prog.Runs (· = s) (linkBridge env root br)
        (fun _ s' => ∃ H, DrawnPorts env root brList s₀
          ((pre ++ [br]).flatMap (mappedPorts env root brList s₀)) H ∧
          Drawing root brList s₀ (allIfaces (pre ++ [br])) H s') fun _ => True := by
    intro pre br post s hsplit hbefore hpre
    obtain ⟨H, hH, hdrawing⟩ := hpre
    have hbr : br ∈ brList := hsplit ▸ List.mem_append_right _ List.mem_cons_self
    apply (linkBridge_drawing hsplit hdistinct hbefore hdrawing (hname br hbr)).weaken
      (fun _ => id)
    rintro _ s' ⟨K, hK, hdrawing'⟩
    refine ⟨H ++ K, ?_, hdrawing'⟩
    rw [List.flatMap_append, List.flatMap_singleton]
    exact hH.append hK
  have hstart : ∃ H, DrawnPorts env root brList s₀
      (([] : List OvsBridge).flatMap (mappedPorts env root brList s₀)) H ∧
        Drawing root brList s₀ (allIfaces []) H s₀ :=
    ⟨[], ⟨rfl, fun _ hp => absurd hp List.not_mem_nil⟩, h⟩
  exact Prog.Triple.forEachReached (I := fun pre t =>
    ∃ H, DrawnPorts env root brList s₀ (pre.flatMap (mappedPorts env root brList s₀)) H ∧
      Drawing root brList s₀ (allIfaces pre) H t) hstep hstart

end

/-! ## The whole reply -/

/-- `s'` shows what ovsdb has: `H` are the ports of the bridges whose main interface was mapped. -/
structure Mirrors (env : OvsEnv) (root : NsPtr) (brList : List OvsBridge) (s s' : OvsState)
    (H : List LinkedPort) : Prop where
  ports : H.map (fun p => (p.br, p.port)) = brList.flatMap (mappedPorts env root brList s)
  complete : ∀ p ∈ H, p.Complete env root brList s
  drawn : ∀ p ∈ H, p.Drawn s'
  added : ∀ n, (s'.world.nss n).ifaces =
    (s.world.nss n).ifaces ++ if n = root then H.flatMap LinkedPort.added else []
  distinct : ∀ i ∈ allIfaces brList, ∀ j ∈ allIfaces brList, i ≠ j →
    ∀ e, s'.link i.ptr = some e → s'.link j.ptr ≠ some e

theorem parse_drawing {root : NsPtr} {answer : Except CStr Json} {w : World} (hscan : w.Scanned)
    (hroot : root ∈ w.nsList) {brList : List OvsBridge} {s : OvsState}
    (hparse : parse root answer (postState w) = some (.ok brList, s)) :
    ((allIfaces brList).map OvsIf.ptr).Nodup ∧ Drawing root brList s [] [] s := by
  let unlinked : OvsState → Prop := fun s =>
    LinkInv (fun _ => True) root [] s ∧ ∀ ptr, s.link ptr = none
  have hcalloc : ∀ s, unlinked s →
      unlinked { s with link := Function.update s.link s.next none, next := s.next + 1 } := by
    rintro s ⟨hinv, hnone⟩
    refine ⟨hinv.callocIf, fun ptr => ?_⟩
    dsimp only
    rw [Function.update_apply, hnone, ite_self]
  have hstart : unlinked (postState w) := ⟨linkInv_postState hscan hroot, fun _ => rfl⟩
  have hpost : unlinked s ∧ Allocated s.next (allIfaces brList) :=
    parse_keeps hcalloc root (fun s text hs => ⟨hs.1.warned, hs.2⟩) answer (postState w) hstart
      (.ok brList) s hparse
  obtain ⟨⟨hinv, hnone⟩, hallocated⟩ := hpost
  have hempty : ∀ {P : LinkedPort → Prop}, ∀ p ∈ [], P p := fun p hp => absurd hp List.not_mem_nil
  refine ⟨hallocated.nodup, hinv, fun i _ e he => ?_, fun i _ _ => hnone i.ptr, fun n => ?_,
    hempty, hempty, hempty, hempty, fun i hi => absurd hi List.not_mem_nil⟩
  · rw [hnone] at he
    cases he
  · rw [List.flatMap_nil, ite_self, List.append_nil]

/-- When the linking succeeds the topology mirrors the configuration, provided that interfaces
have different names and none that stands for a bridge is called like the kernel datapath. -/
theorem linkIfaces_mirrors (env : OvsEnv) {root : NsPtr} {answer : Except CStr Json} {w : World}
    (hscan : w.Scanned) (hroot : root ∈ w.nsList) {brList : List OvsBridge} {s s' : OvsState}
    (hparse : parse root answer (postState w) = some (.ok brList, s))
    (hnames : ((allIfaces brList).map OvsIf.name).Nodup)
    (hmain : ∀ br ∈ brList, ∀ ovsMaster, MainIface br ovsMaster →
      ovsMaster.name ≠ cstr "ovs-system")
    (hrun : linkIfaces env root brList s = some (.ok (), s')) :
    ∃ H, Mirrors env root brList s s' H := by
  obtain ⟨hptrs, hdrawing⟩ := parse_drawing hscan hroot hparse
  have hdistinct : Distinct brList := ⟨hptrs, hnames⟩
  obtain ⟨H, hports, hdrawing'⟩ :=
    linkIfaces_drawing env hdistinct hmain hdrawing s rfl _ _ hrun
  refine ⟨H, hports.1, hports.2, hdrawing'.drawn, hdrawing'.ifaces, fun i hi j hj hne e he he' => ?_⟩
  have hname := hdrawing'.names i hi e he
  rw [hdrawing'.names j hj e he'] at hname
  exact hdistinct.name_ne hj hi (Ne.symm hne) hname

/-- The bridge `br0` of the kernel, whose main interface is `main`, with a bond `X` of two
interfaces, `member` and `Y`. -/
def bondReply (main member : String) : Except CStr Json :=
  replyOf (uuidOf "b") [
    (cstr "Bridge", .obj [(cstr "b", newRow [(cstr "name", .str (cstr "br0")),
      (cstr "ports", setOf [uuidOf "port0", uuidOf "port1"])])]),
    (cstr "Port", .obj [(cstr "port0", portColumns "br0" "if0"),
      (cstr "port1", newRow [(cstr "name", .str (cstr "X")),
        (cstr "interfaces", setOf [uuidOf "if1", uuidOf "if2"]),
        (cstr "bond_mode", setOf [])])]),
    (cstr "Interface", .obj [(cstr "if0", internalColumns main),
      (cstr "if1", newRow [(cstr "name", .str (cstr member)), (cstr "type", .str []),
        (cstr "options", .arr [.str (cstr "map"), .arr []])]),
      (cstr "if2", newRow [(cstr "name", .str (cstr "Y")), (cstr "type", .str []),
        (cstr "options", .arr [.str (cstr "map"), .arr []])])])]

def bondWorld (main : String) : World where
  ifs
    | 1 => { ifIndex := 1, ifName := cstr main, driver := some (cstr "openvswitch") }
    | _ => {}
  nss := fun _ => { ifaces := [1] }
  nsList := [0]
  free := [2, 3, 4]

theorem bondWorld_scanned (main : String) : (bondWorld main).Scanned where
  nsNodup := List.nodup_singleton 0
  nodup := List.nodup_singleton 1
  home := by
    intro n hn e he
    obtain rfl : n = 0 := List.mem_singleton.mp hn
    obtain rfl : e = 1 := List.mem_singleton.mp he
    rfl
  ids := nofun
  addr := by
    intro e he
    obtain rfl : e = 1 := List.mem_singleton.mp he
    exact nofun
  fresh := by
    intro e he hlisted
    obtain rfl : e = 1 := List.mem_singleton.mp hlisted
    exact absurd he (show 1 ∉ [2, 3, 4] by decide)
  freeNodup := show [2, 3, 4].Nodup by decide

def replyRun (env : OvsEnv) (root : NsPtr) (answer : Except CStr Json) (w : World) :
    Option (List OvsBridge × OvsState × OvsState) :=
  match parse root answer (postState w) with
  | some (.ok brList, s) =>
    match linkIfaces env root brList s with
    | some (.ok (), s') => some (brList, s, s')
    | _ => none
  | _ => none

theorem replyRun_eq_some {env : OvsEnv} {root : NsPtr} {answer : Except CStr Json} {w : World}
    {brList : List OvsBridge} {s s' : OvsState}
    (h : replyRun env root answer w = some (brList, s, s')) :
    parse root answer (postState w) = some (.ok brList, s) ∧
      linkIfaces env root brList s = some (.ok (), s') := by
  unfold replyRun at h
  split at h
  · rename_i hparse
    split at h
    · rename_i hrun
      obtain ⟨rfl, rfl, rfl⟩ : _ ∧ _ ∧ _ := by simpa using h
      exact ⟨hparse, hrun⟩
    · cases h
  · cases h

/-- No interface that stands for a bridge is called like the kernel datapath. -/
def mainsAllowed (brList : List OvsBridge) : Bool :=
  brList.all fun br => (br.system.toList.flatMap OvsPort.ifaces).all fun m =>
    m.name ≠ cstr "ovs-system"

theorem linkIfaces_mirrors_bond :
    ∃ brList s s', parse 0 (bondReply "br0" "X") (postState (bondWorld "br0")) = some (.ok brList, s) ∧
      linkIfaces default 0 brList s = some (.ok (), s') ∧ (s'.world.nss 0).ifaces = [1, 2, 3, 4] ∧
      ∃ H, Mirrors default 0 brList s s' H := by
  have hcheck : ((replyRun default 0 (bondReply "br0" "X") (bondWorld "br0")).any fun r =>
      decide ((r.2.2.world.nss 0).ifaces = [1, 2, 3, 4] ∧
        ((allIfaces r.1).map OvsIf.name).Nodup ∧ mainsAllowed r.1)) = true := by
    decide +kernel
  obtain ⟨⟨brList, s, s'⟩, hreply, hall⟩ := (Option.any_eq_true _ _).mp hcheck
  obtain ⟨hparse, hrun⟩ := replyRun_eq_some hreply
  obtain ⟨hifaces, hnames, hmains⟩ := of_decide_eq_true hall
  refine ⟨brList, s, s', hparse, hrun, hifaces, linkIfaces_mirrors default
    (bondWorld_scanned "br0") (List.mem_singleton_self 0) hparse hnames ?_ hrun⟩
  rintro br hbr ovsMaster ⟨system, hsystem, hsole⟩
  have hbridge := List.all_eq_true.mp hmains br hbr
  simpa [hsystem, hsole] using hbridge

/-- Where the main interface is called like the kernel datapath, the entry created for the bond is
found for the member of the same name, and gets itself as its master. -/
theorem bond_takes_itself :
    (bondWorld "ovs-system").Scanned ∧
      ∃ br s s', parse 0 (bondReply "ovs-system" "X") (postState (bondWorld "ovs-system")) =
          some (.ok [br], s) ∧
        ((br.system.toList ++ br.ports).map OvsPort.name).Nodup ∧
        ((allIfaces [br]).map OvsIf.name).Nodup ∧ br.name ≠ cstr "ovs-system" ∧
        linkIfaces default 0 [br] s = some (.ok (), s') ∧ Mapped default 0 [br] s br ∧
        ∃ m, MainIface br m ∧ ∃ port ∈ br.ports, 1 < port.ifaceCount ∧
          ∀ e ∈ (s'.world.nss 0).ifaces, (s'.world.ifs e).ifName = port.name →
            (s'.world.ifs e).master ≠ s'.link m.ptr := by
  have hcheck : ((replyRun default 0 (bondReply "ovs-system" "X") (bondWorld "ovs-system")).any
      fun r => decide (∃ br ∈ r.1, r.1 = [br] ∧
        ((br.system.toList ++ br.ports).map OvsPort.name).Nodup ∧
        ((allIfaces [br]).map OvsIf.name).Nodup ∧ br.name ≠ cstr "ovs-system" ∧
        ∃ system ∈ br.system.toList, ∃ m ∈ system.ifaces, system.ifaces = [m] ∧
          ((linkIface default 0 br m true r.2.1).any fun t => t.1.toBool) ∧
          ∃ port ∈ br.ports, 1 < port.ifaceCount ∧
            ∀ e ∈ (r.2.2.world.nss 0).ifaces, (r.2.2.world.ifs e).ifName = port.name →
              (r.2.2.world.ifs e).master ≠ r.2.2.link m.ptr)) = true := by
    decide +kernel
  obtain ⟨⟨brList, s, s'⟩, hreply, hall⟩ := (Option.any_eq_true _ _).mp hcheck
  obtain ⟨hparse, hrun⟩ := replyRun_eq_some hreply
  obtain ⟨br, -, hsole, hports, hnames, hname, system, hsystem, m, -, hmain, hlinked, hbond⟩ :=
    of_decide_eq_true hall
  dsimp only at hsole hlinked hbond
  subst hsole
  have hmain : MainIface br m := ⟨system, Option.mem_toList.mp hsystem, hmain⟩
  obtain ⟨⟨r, t⟩, hlink, hok⟩ := (Option.any_eq_true _ _).mp hlinked
  have hmapped : Mapped default 0 [br] s br := by
    cases r with
    | error e => cases hok
    | ok u => exact ⟨[], [], s, m, t, rfl, rfl, hmain, hlink⟩
  exact ⟨bondWorld_scanned _, br, s, s', hparse, hports, hnames, hname, hrun, hmapped, m, hmain,
    hbond⟩

end Plotnetcfg.Openvswitch
