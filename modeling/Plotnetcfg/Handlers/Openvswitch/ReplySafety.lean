import Plotnetcfg.Handlers.Openvswitch.LinkInvariant
import Plotnetcfg.Handlers.Openvswitch.Parsed
import Plotnetcfg.Handlers.Openvswitch.PortInfo

/-! When the handler gets through a reply of ovsdb: the reply has to be readable, and no search
for an internal interface may compare the driver of an entry that has none. -/

namespace Plotnetcfg.Openvswitch

/-- What `ovs_global_post` does with the reply. -/
def handleReply (env : OvsEnv) (root : NsPtr) (answer : Except CStr Json) : OvsProg Unit := do
  let brList ← parse root answer
  if brList.isEmpty then pure () else linkIfaces env root brList

/-! ## Searches -/

/-- If the search for `iface` compares the driver of the entry, the entry has one. -/
def DriverKnown (dpType : OvsDpType) (master : Option IfPtr) (iface : OvsIf) (w : World)
    (entry : IfPtr) : Prop :=
  masterElsewhere dpType master entry w = false → iface.name = (w.ifs entry).ifName →
    iface.type = cstr "internal" → (w.ifs entry).driver.isSome

structure SubDriversOnly (w₀ w : World) : Prop where
  nss : w.nss = w₀.nss
  ifs : ∀ x, ∃ d, w.ifs x = { w₀.ifs x with subDriver := d }

theorem SubDriversOnly.refl (w : World) : SubDriversOnly w w := ⟨rfl, fun _ => ⟨_, rfl⟩⟩

theorem SubDriversOnly.modifyIf {w₀ w : World} (h : SubDriversOnly w₀ w) (e : IfPtr)
    (d : Option CStr) :
    SubDriversOnly w₀ (w.modifyIf e fun x => { x with subDriver := d }) := by
  refine ⟨h.nss, fun x => ?_⟩
  obtain ⟨d', hd'⟩ := h.ifs x
  rw [World.modifyIf_ifs, hd']
  split_ifs
  · exact ⟨d, rfl⟩
  · exact ⟨d', rfl⟩

theorem SubDriversOnly.driverKnown {w₀ w : World} (h : SubDriversOnly w₀ w)
    (dpType : OvsDpType) (master : Option IfPtr) (iface : OvsIf) (entry : IfPtr) :
    DriverKnown dpType master iface w entry ↔ DriverKnown dpType master iface w₀ entry := by
  obtain ⟨d, hd⟩ := h.ifs entry
  have helsewhere : masterElsewhere dpType master entry w =
      masterElsewhere dpType master entry w₀ := by
    unfold masterElsewhere
    rw [hd]
    cases master <;> cases dpType <;> cases (w₀.ifs entry).master with
    | none => rfl
    | some m =>
      obtain ⟨d', hd'⟩ := h.ifs m
      simp [hd']
  unfold DriverKnown
  rw [helsewhere, hd]

section
variable (env : OvsEnv)

theorem safe_linkIfaceSearch (dpType : OvsDpType) (master : Option IfPtr) (iface : OvsIf)
    (entry : IfPtr) (w : World) :
    Prog.Safe (linkIfaceSearch env dpType master iface entry) w ↔
      DriverKnown dpType master iface w entry := by
  have hweigh : Prog.Safe (if notVport env master entry w then pure 0
      else pure (linkWeight master entry w) : Prog Int World Int) w := by
    split_ifs <;> exact Prog.safe_pure _ w
  unfold linkIfaceSearch DriverKnown
  rw [Prog.safe_get_bind]
  by_cases helsewhere : masterElsewhere dpType master entry w = true
  · rw [if_pos helsewhere]
    exact iff_of_true (Prog.safe_pure 0 w) fun h => by simp [helsewhere] at h
  rw [if_neg helsewhere]
  by_cases hname : iface.name = (w.ifs entry).ifName
  · rw [if_neg (not_not.mpr hname)]
    by_cases htype : iface.type = cstr "internal"
    · simp only [helsewhere, hname, htype, forall_const, if_true]
      cases dpType with
      | system =>
        have hnext : ∀ (driver : CStr) w', Prog.Safe (if driver ≠ cstr "openvswitch" then pure 0
            else if notVport env master entry w then pure 0
            else pure (linkWeight master entry w) : Prog Int World Int) w' := by
          intro driver w'
          split_ifs <;> exact Prog.safe_pure _ w'
        exact (Prog.safe_bind_of_safe hnext w).trans (Prog.safe_deref _ w)
      | netdev =>
        have hnext : ∀ (driver : CStr) w', Prog.Safe (
            if driver ≠ cstr "tun" ∨ (w.ifs entry).subDriver.isSome then pure 0
            else do
              Prog.modify fun w => w.modifyIf entry fun x =>
                { x with subDriver := some (cstr "openvswitch") }
              pure (linkWeight master entry w) : Prog Int World Int) w' := by
          intro driver w'
          split_ifs
          · exact Prog.safe_pure _ w'
          · exact nofun
        exact (Prog.safe_bind_of_safe hnext w).trans (Prog.safe_deref _ w)
    · simp only [htype, if_false, false_implies, implies_true, iff_true]
      cases dpType with
      | system => exact hweigh
      | netdev => exact Prog.safe_pure 0 w
  · rw [if_pos hname]
    exact iff_of_true (Prog.safe_pure 0 w) fun _ h => absurd h hname

def DriversKnown (br : OvsBridge) (iface : OvsIf) (s : OvsState) : Prop :=
  s.link iface.ptr = none → ∀ system ∈ br.system, ∀ master ∈ system.ifaces.head?,
    ∀ entry ∈ s.world.listed, DriverKnown br.dpType (s.link master.ptr) iface s.world entry

variable (root : NsPtr)

theorem safe_linkIface {br : OvsBridge} {system : OvsPort} (hsystem : br.system = some system)
    {master : OvsIf} (hmaster : system.ifaces.head? = some master) (iface : OvsIf)
    (required : Bool) (s : OvsState) :
    Prog.Safe (linkIface env root br iface required) s ↔ DriversKnown br iface s := by
  have hend : ∀ (desc : MatchDesc) s, Prog.Safe (do
      setLink iface.ptr (matchFound desc)
      if matchAmbiguous desc then do
        labelAdd root (cstr "Failed to map openvswitch interface " ++ iface.name ++
          cstr " reliably")
        Prog.throw (ERANGE : Int)
      else if required && (matchFound desc).isNone then do
        labelAdd root (cstr "Failed to map openvswitch interface " ++ iface.name)
        Prog.throw (ENOENT : Int)
      else pure () : OvsProg Unit) s := by
    intro desc s
    rw [Prog.safe_bind]
    refine ⟨nofun, fun _ s' _ => ?_⟩
    split_ifs <;> exact nofun
  have hcallback : SafeCallback (linkIfaceSearch env br.dpType (s.link master.ptr) iface)
      (SubDriversOnly s.world)
      (DriverKnown br.dpType (s.link master.ptr) iface s.world) := by
    refine ⟨fun e => ?_, fun e w hw => ?_⟩
    · exact linkIfaceSearch_triple env _ _ iface e fun w hw => hw.modifyIf e _
    · rw [safe_linkIfaceSearch, hw.driverKnown]
  unfold linkIface DriversKnown
  rw [Prog.safe_get_bind]
  by_cases hlink : (s.link iface.ptr).isSome
  · rw [if_pos hlink]
    refine iff_of_true (Prog.safe_pure () s) fun hnone => ?_
    simp [hnone] at hlink
  · rw [if_neg hlink, hsystem, Prog.safe_deref_bind]
    simp only [Option.some.injEq, exists_eq_left', Option.mem_some_iff, forall_eq', hmaster]
    rw [Prog.safe_deref_bind]
    simp only [Option.some.injEq, exists_eq_left']
    rw [Prog.safe_bind_of_safe hend, onWorld, Prog.safe_zoom]
    have hifaces : ∀ w, SubDriversOnly s.world w → ∀ n,
        (w.nss n).ifaces = (s.world.nss n).ifaces := fun w hw n => by rw [hw.nss]
    rw [safe_matchIf (d := { netnsList := some s.world.nsList }) hcallback hifaces rfl nofun
      (SubDriversOnly.refl s.world), Option.not_isSome_iff_eq_none.mp hlink]
    simp only [MatchDesc.netns, Option.getD_some, World.mem_listed, ne_eq, reduceCtorEq,
      not_false_eq_true, forall_const, forall_exists_index, and_imp]
    exact ⟨fun h e n hn he => h n hn e he, fun h n hn e he => h e n hn he⟩

/-! ## The rest of the linking is safe -/

theorem safe_linkTunnel {known : List IfPtr} {s : OvsState}
    (h : LinkInv (fun _ => True) root known s) (iface : OvsIf) {link : IfPtr}
    (hlink : link ∈ known) : Prog.Safe (linkTunnel env iface link) s := by
  have hend : ∀ (found : Option IfPtr) s, Prog.Safe (do
      modifyWorld (linkSet found (some link))
      modifyWorld (·.modifyIf link fun x => { x with flags := { x.flags with linkWeak := true } })
      : OvsProg Unit) s := fun _ _ => nofun
  unfold linkTunnel
  split
  · exact Prog.safe_pure () s
  · exact Prog.safe_pure () s
  · rw [Prog.safe_get_bind, Prog.safe_bind_of_safe hend, onWorld, Prog.safe_zoom]
    refine safe_tunnelFindStr env.inetPton _ fun e he => ?_
    have hns := h.scanned.ns_mem (h.known link hlink)
    exact h.scanned.addr e (World.mem_listed.mpr ⟨_, hns, he⟩)

theorem safe_linkPatch (iface : OvsIf) (link : IfPtr) (s : OvsState) :
    Prog.Safe (linkPatch iface link) s := by
  have hcallback : SafeCallback (linkPatchSearch iface) (· = s.world) fun _ => True := by
    refine ⟨fun e => linkPatchSearch_triple iface e, fun e w _ => iff_of_true ?_ trivial⟩
    unfold linkPatchSearch
    rw [Prog.safe_get_bind]
    split_ifs <;> exact Prog.safe_pure _ w
  have hifaces : ∀ w, w = s.world → ∀ n, (w.nss n).ifaces = (s.world.nss n).ifaces := by
    rintro _ rfl n
    rfl
  unfold linkPatch
  rw [Prog.safe_get_bind]
  refine (Prog.safe_bind_of_safe (fun desc s => ?_) s).mpr ?_
  · split_ifs
    · exact nofun
    · cases matchFound desc <;> exact nofun
  · rw [onWorld, Prog.safe_zoom,
      safe_matchIf (d := { netnsList := some s.world.nsList }) hcallback hifaces rfl nofun rfl]
    exact fun _ _ _ _ _ => trivial

theorem safe_createIface (name brName : CStr) (s : OvsState) :
    Prog.Safe (createIface root name brName) s := by
  unfold createIface Prog.Safe
  cases h : ifCreate s.world <;> simp [h]

theorem safe_linkedIface (br : OvsBridge) (iface : OvsIf) (s : OvsState) :
    Prog.Safe (linkedIface root br iface) s := by
  unfold linkedIface
  rw [Prog.safe_get_bind]
  cases s.link iface.ptr with
  | some link => exact Prog.safe_pure link s
  | none =>
    refine (Prog.safe_bind_of_safe (fun link s => ?_) s).mpr (safe_createIface root _ _ s)
    exact nofun

theorem safe_portMaster (br : OvsBridge) (ovsMaster : OvsIf) (port : OvsPort) (s : OvsState) :
    Prog.Safe (portMaster root br ovsMaster port) s := by
  unfold portMaster
  rw [Prog.safe_get_bind]
  split_ifs
  · refine (Prog.safe_bind_of_safe (fun link s => ?_) s).mpr (safe_createIface root _ _ s)
    exact nofun
  · exact Prog.safe_pure _ s

theorem safe_linkPortIface {s : OvsState} (h : LinkInv (fun _ => True) root [] s)
    (br : OvsBridge) (port : OvsPort) (master : Option IfPtr) (iface : OvsIf) :
    Prog.Safe (linkPortIface env root br port master iface) s ↔
      Prog.Safe (linkIface env root br iface false) s := by
  unfold linkPortIface
  refine Prog.safe_bind_of_triple (linkIface_triple peerInvariant_true env br iface false) h
    fun _ s₁ h₁ => ?_
  refine (Prog.safe_bind_of_triple (linkedIface_triple peerInvariant_true br iface) h₁
    fun link s₂ h₂ => ?_).mpr (safe_linkedIface root br iface s₁)
  refine (Prog.safe_bind_of_triple (E := fun _ _ => True)
    (setMaster_triple peerInvariant_true master link) h₂ fun _ s₃ h₃ => ?_).mpr nofun
  refine (Prog.safe_bind_of_triple (E := fun _ _ => True)
    (labelIface_triple peerInvariant_true iface link) h₃ fun _ s₄ h₄ => ?_).mpr nofun
  refine (Prog.safe_bind_of_triple (E := fun _ _ => True)
    (labelSoleIface_triple peerInvariant_true port link) h₄ fun _ s₅ h₅ => ?_).mpr nofun
  split_ifs
  · exact safe_linkTunnel env root h₅ iface List.mem_cons_self
  · exact safe_linkPatch iface link s₅
  · exact Prog.safe_pure () s₅

/-! ## All interfaces -/

/-- The interface that stands for the bridge. -/
def MainIface (br : OvsBridge) (ovsMaster : OvsIf) : Prop :=
  ∃ system, br.system = some system ∧ system.ifaces = [ovsMaster]

/-- The calls of `link_iface` that the linking of a bridge gets to from `s₀`: that for the
bridge itself, and those for the interfaces of its ports. -/
inductive BridgeCall (br : OvsBridge) (s₀ : OvsState) : OvsIf → OvsState → Prop where
  | main {ovsMaster : OvsIf} (hmain : MainIface br ovsMaster) : BridgeCall br s₀ ovsMaster s₀
  | port {ovsMaster iface : OvsIf} {ports ports' : List OvsPort} {port : OvsPort}
      {ifaces ifaces' : List OvsIf} {master : Option IfPtr} {s₁ s₂ s₃ s₄ : OvsState}
      (hmain : MainIface br ovsMaster)
      (hlinked : linkIface env root br ovsMaster true s₀ = some (.ok (), s₁))
      (hports : br.ports = ports ++ port :: ports')
      (hbefore : Prog.forEach ports (linkPort env root br ovsMaster) s₁ = some (.ok (), s₂))
      (hmaster : portMaster root br ovsMaster port s₂ = some (.ok master, s₃))
      (hifaces : port.ifaces = ifaces ++ iface :: ifaces')
      (hlast : Prog.forEach ifaces (linkPortIface env root br port master) s₃ =
        some (.ok (), s₄)) : BridgeCall br s₀ iface s₄

def LinkCall (brList : List OvsBridge) (s₀ : OvsState) (br : OvsBridge) (iface : OvsIf)
    (s : OvsState) : Prop :=
  ∃ done rest s', brList = done ++ br :: rest ∧
    linkIfaces env root done s₀ = some (.ok (), s') ∧ BridgeCall env root br s' iface s

theorem safe_linkPort {s : OvsState} (h : LinkInv (fun _ => True) root [] s) {br : OvsBridge}
    {ovsMaster : OvsIf} (hmain : MainIface br ovsMaster) (port : OvsPort) :
    Prog.Safe (linkPort env root br ovsMaster port) s ↔
      ∀ master s₁, portMaster root br ovsMaster port s = some (.ok master, s₁) →
        ∀ ifaces iface ifaces' s₂, port.ifaces = ifaces ++ iface :: ifaces' →
          Prog.forEach ifaces (linkPortIface env root br port master) s₁ = some (.ok (), s₂) →
            DriversKnown br iface s₂ := by
  obtain ⟨system, hsystem, hsole⟩ := hmain
  unfold linkPort
  rw [Prog.safe_bind, and_iff_right (safe_portMaster root br ovsMaster port s)]
  refine forall_congr' fun master => forall_congr' fun s₁ => imp_congr_right fun hmaster => ?_
  have h₁ := portMaster_triple peerInvariant_true br ovsMaster port s h _ _ hmaster
  rw [Prog.safe_forEach]
  refine forall_congr' fun ifaces => forall_congr' fun iface => forall_congr' fun ifaces' =>
    forall_congr' fun s₂ => imp_congr_right fun _ => imp_congr_right fun hrun => ?_
  have h₂ := Prog.Triple.forEach (fun x _ =>
    linkPortIface_triple peerInvariant_true env br port master x) s₁ h₁ _ _ hrun
  rw [safe_linkPortIface env root h₂,
    safe_linkIface env root hsystem (by rw [hsole]; rfl)]

theorem linkBridge_skipped {br : OvsBridge} (hskip : ∀ ovsMaster, ¬ MainIface br ovsMaster) :
    ∃ text, linkBridge env root br = labelAdd root text := by
  unfold linkBridge
  cases hsystem : br.system with
  | none => exact ⟨_, rfl⟩
  | some system =>
    dsimp only
    by_cases hnone : system.ifaceCount = 0
    · rw [if_pos hnone]
      exact ⟨_, rfl⟩
    by_cases hseveral : 1 < system.ifaceCount
    · rw [if_neg hnone, if_pos hseveral]
      exact ⟨_, rfl⟩
    have hone : system.ifaces.length = 1 := by
      have := system.counted
      omega
    obtain ⟨ovsMaster, hsole⟩ := List.length_eq_one_iff.mp hone
    exact absurd ⟨system, hsystem, hsole⟩ (hskip ovsMaster)

theorem linkBridge_main {br : OvsBridge} {ovsMaster : OvsIf} (hmain : MainIface br ovsMaster) :
    linkBridge env root br =
      (Prog.attempt (linkIface env root br ovsMaster true) >>= fun r =>
        match r with
        | .error err => if err = ENOENT ∨ err = ERANGE then pure () else Prog.throw err
        | .ok () => Prog.forEach br.ports (linkPort env root br ovsMaster)) := by
  obtain ⟨system, hsystem, hsole⟩ := hmain
  have hone : system.ifaceCount = 1 := by rw [system.counted, hsole]; rfl
  unfold linkBridge
  rw [hsystem]
  dsimp only
  rw [if_neg (by omega), if_neg (by omega), hsole]
  rfl

theorem MainIface.ifaces {br : OvsBridge} {ovsMaster : OvsIf} (h : MainIface br ovsMaster) :
    br.ifaces = ovsMaster :: br.ports.flatMap OvsPort.ifaces := by
  obtain ⟨system, hsystem, hsole⟩ := h
  simp [OvsBridge.ifaces, hsystem, hsole]

theorem MainIface.unique {br : OvsBridge} {m m' : OvsIf} (h : MainIface br m)
    (h' : MainIface br m') : m = m' := by
  obtain ⟨system, hsystem, hsole⟩ := h
  obtain ⟨system', hsystem', hsole'⟩ := h'
  rw [hsystem, Option.some.injEq] at hsystem'
  rw [hsystem', hsole'] at hsole
  exact (List.cons.inj hsole).1.symm

theorem safe_linkBridge {s : OvsState} (h : LinkInv (fun _ => True) root [] s)
    (br : OvsBridge) :
    Prog.Safe (linkBridge env root br) s ↔
      ∀ iface s', BridgeCall env root br s iface s' → DriversKnown br iface s' := by
  by_cases hmain : ∃ ovsMaster, MainIface br ovsMaster
  swap
  · obtain ⟨text, hskipped⟩ := linkBridge_skipped env root (not_exists.mp hmain)
    rw [hskipped]
    refine iff_of_true nofun ?_
    rintro iface s' (hcall | hcall) <;> exact absurd ⟨_, hcall⟩ hmain
  obtain ⟨ovsMaster, hmain⟩ := hmain
  obtain ⟨system, hsystem, hsole⟩ := id hmain
  rw [linkBridge_main env root hmain, Prog.safe_attempt_bind,
    safe_linkIface env root hsystem (by rw [hsole]; rfl)]
  have hports : ∀ s₁, linkIface env root br ovsMaster true s = some (.ok (), s₁) →
      (Prog.Safe (Prog.forEach br.ports (linkPort env root br ovsMaster)) s₁ ↔
        ∀ ports port ports' s₂, br.ports = ports ++ port :: ports' →
          Prog.forEach ports (linkPort env root br ovsMaster) s₁ = some (.ok (), s₂) →
            Prog.Safe (linkPort env root br ovsMaster port) s₂) :=
    fun s₁ _ => Prog.safe_forEach _ _ s₁
  have hport : ∀ s₁, linkIface env root br ovsMaster true s = some (.ok (), s₁) →
      ∀ ports s₂, Prog.forEach ports (linkPort env root br ovsMaster) s₁ = some (.ok (), s₂) →
        LinkInv (fun _ => True) root [] s₂ := by
    intro s₁ hlinked ports s₂ hbefore
    have h₁ := linkIface_triple peerInvariant_true env br ovsMaster true s h _ _ hlinked
    exact Prog.Triple.forEach (fun port _ =>
      linkPort_triple peerInvariant_true env br ovsMaster port) s₁ h₁ _ _ hbefore
  constructor
  · rintro ⟨hfirst, hrest⟩ iface s' hcall
    cases hcall with
    | main hmain' => rwa [hmain'.unique hmain]
    | port hmain' hlinked hsplit hbefore hmaster hifaces hlast =>
      obtain rfl := hmain'.unique hmain
      have hsafe := (hports _ hlinked).mp (hrest _ _ hlinked) _ _ _ _ hsplit hbefore
      rw [safe_linkPort env root (hport _ hlinked _ _ hbefore) hmain] at hsafe
      exact hsafe _ _ hmaster _ _ _ _ hifaces hlast
  · intro hknown
    refine ⟨hknown _ _ (.main hmain), fun r s₁ hlinked => ?_⟩
    cases r with
    | error err =>
      dsimp only
      split_ifs
      · exact Prog.safe_pure () s₁
      · exact Prog.safe_throw err s₁
    | ok u =>
      refine (hports s₁ hlinked).mpr fun ports port ports' s₂ hsplit hbefore => ?_
      rw [safe_linkPort env root (hport s₁ hlinked ports s₂ hbefore) hmain]
      intro master s₃ hmaster ifaces iface ifaces' s₄ hifaces hlast
      exact hknown iface s₄ (.port hmain hlinked hsplit hbefore hmaster hifaces hlast)

theorem safe_linkIfaces {s : OvsState} (h : LinkInv (fun _ => True) root [] s)
    (brList : List OvsBridge) :
    Prog.Safe (linkIfaces env root brList) s ↔
      ∀ br iface s', LinkCall env root brList s br iface s' → DriversKnown br iface s' := by
  unfold linkIfaces LinkCall
  rw [Prog.safe_forEach]
  have hbridge : ∀ done br s', Prog.forEach done (linkBridge env root) s = some (.ok (), s') →
      (Prog.Safe (linkBridge env root br) s' ↔
        ∀ iface s'', BridgeCall env root br s' iface s'' → DriversKnown br iface s'') := by
    refine fun done br s' hrun => safe_linkBridge env root ?_ br
    exact linkIfaces_triple peerInvariant_true env done s h _ _ hrun
  constructor
  · rintro hsafe br iface s'' ⟨done, rest, s', hsplit, hrun, hcall⟩
    exact (hbridge done br s' hrun).mp (hsafe done br rest s' hsplit hrun) iface s'' hcall
  · intro hknown done br rest s' hsplit hrun
    refine (hbridge done br s' hrun).mpr fun iface s'' hcall => ?_
    exact hknown br iface s'' ⟨done, rest, s', hsplit, hrun, hcall⟩

end

/-! ## The reply handler -/

def postState (w : World) : OvsState where
  world := w
  link := fun _ => none
  next := 0

def DriversCompared (env : OvsEnv) (root : NsPtr) (answer : Except CStr Json) (w : World) :
    Prop :=
  ∀ brList s, parse root answer (postState w) = some (.ok brList, s) →
    ∀ br iface s', LinkCall env root brList s br iface s' → DriversKnown br iface s'

theorem linkInv_postState {w : World} (hscan : w.Scanned) {root : NsPtr} (hroot : root ∈ w.nsList) :
    LinkInv (fun _ => True) root [] (postState w) :=
  ⟨hscan, trivial, hroot, nofun, nofun⟩

theorem LinkInv.callocIf {P : World → Prop} {root : NsPtr} {known : List IfPtr} {s : OvsState}
    (h : LinkInv P root known s) :
    LinkInv P root known
      { s with link := Function.update s.link s.next none, next := s.next + 1 } := by
  have hset : LinkInv P root known { s with link := Function.update s.link s.next none } :=
    h.setLink s.next nofun
  exact ⟨hset.scanned, hset.peers, hset.root, hset.links, hset.known⟩

theorem LinkInv.warned {root : NsPtr} {known : List IfPtr} {s : OvsState}
    (h : LinkInv (fun _ => True) root known s) {ns : NsPtr} {text : CStr} :
    LinkInv (fun _ => True) root known
      { s with world := s.world.modifyNs ns (·.labelAdd text) } :=
  h.frame (.modifyNs _ _ (fun _ => rfl) fun _ => rfl) trivial

/-- The handler gets through a reply, possibly with an error, exactly when the reply is readable
and the linking of its interfaces compares only drivers that are there. -/
theorem handleReply_safe_iff (env : OvsEnv) {root : NsPtr} (answer : Except CStr Json)
    {w : World} (hscan : w.Scanned) (hroot : root ∈ w.nsList) :
    Prog.Safe (handleReply env root answer) (postState w) ↔
      ReplyReadable answer ∧ DriversCompared env root answer w := by
  unfold handleReply DriversCompared
  rw [Prog.safe_bind, safe_parse]
  refine and_congr_right fun _ => forall_congr' fun brList => forall_congr' fun s =>
    imp_congr_right fun hrun => ?_
  have hinv : LinkInv (fun _ => True) root [] s :=
    (parse_keeps (fun _ => LinkInv.callocIf) root (fun _ _ h => h.warned) answer _
      (linkInv_postState hscan hroot) _ _ hrun).1
  cases brList with
  | nil =>
    refine iff_of_true (Prog.safe_pure () s) ?_
    rintro br iface s' ⟨done, rest, -, hsplit, -⟩
    simp at hsplit
  | cons br brList => exact safe_linkIfaces env root hinv (br :: brList)

def tunWorld : World where
  ifs
    | 1 => { ifIndex := 1, ifName := cstr "br0", driver := some (cstr "tun") }
    | 2 => { ifIndex := 2, ifName := cstr "p0", driver := some (cstr "tun") }
    | _ => {}
  nss := fun _ => { ifaces := [1, 2] }
  nsList := [0]
  free := [3]

theorem tunWorld_scanned : tunWorld.Scanned where
  nsNodup := by decide
  nodup := by decide
  home := by
    intro n hn e he
    obtain rfl : n = 0 := List.mem_singleton.mp hn
    rcases List.mem_pair.mp he with rfl | rfl <;> rfl
  ids := nofun
  addr := by
    intro e he
    rcases List.mem_pair.mp he with rfl | rfl <;> exact nofun
  fresh := by decide
  freeNodup := by decide

def uuidOf (row : String) : Json := .arr [.str (cstr "uuid"), .str (cstr row)]

def newRow (columns : List (CStr × Json)) : Json := .obj [(cstr "new", .obj columns)]

def replyOf (bridges : Json) (tables : List (CStr × Json)) : Except CStr Json :=
  .ok (.obj [(cstr "result", .obj ((cstr "Open_vSwitch",
    .obj [(cstr "root", newRow [(cstr "bridges", bridges)])]) :: tables))])

def portColumns (name iface : String) : Json :=
  newRow [(cstr "name", .str (cstr name)), (cstr "interfaces", uuidOf iface),
    (cstr "bond_mode", setOf [])]

def internalColumns (name : String) : Json :=
  newRow [(cstr "name", .str (cstr name)), (cstr "type", .str (cstr "internal")),
    (cstr "options", .arr [.str (cstr "map"), .arr []])]

def netdevReply (iface₁ iface₂ : String) : Except CStr Json :=
  replyOf (uuidOf "b") [
    (cstr "Bridge", .obj [(cstr "b", newRow [(cstr "name", .str (cstr "br0")),
      (cstr "ports", setOf [uuidOf "port0", uuidOf "port1", uuidOf "port2"]),
      (cstr "datapath_type", .str (cstr "netdev"))])]),
    (cstr "Port", .obj [(cstr "port0", portColumns "br0" "if0"),
      (cstr "port1", portColumns "port1" "if1"), (cstr "port2", portColumns "port2" "if2")]),
    (cstr "Interface", .obj [(cstr "if0", internalColumns "br0"),
      (cstr "if1", internalColumns iface₁), (cstr "if2", internalColumns iface₂)])]


theorem netdevReply_readable :
    ReplyReadable (netdevReply "p0" "x") ∧
      DriversCompared default 0 (netdevReply "p0" "x") tunWorld :=
  (handleReply_safe_iff default (netdevReply "p0" "x") tunWorld_scanned (by decide)).mp
    (by decide +kernel)

def trunkReply : Except CStr Json :=
  replyOf (uuidOf "b") [
    (cstr "Bridge", .obj [(cstr "b", newRow [(cstr "name", .str (cstr "br0")),
      (cstr "ports", uuidOf "port0")])]),
    (cstr "Port", .obj [(cstr "port0", newRow [(cstr "name", .str (cstr "port0")),
      (cstr "interfaces", uuidOf "if0"), (cstr "trunks", setOf [.int 10]),
      (cstr "bond_mode", setOf [])])])]

/-- The string `set` is compared with a null pointer when the bridges are a number, and `tun` with
the missing driver of an interface that the linking created for another port of the same
name; a refused port has its trunks freed twice. -/
theorem handleReply_faults : tunWorld.Scanned ∧ 0 ∈ tunWorld.nsList ∧
    ¬ Prog.Safe (handleReply default 0 (replyOf (.int 5) [])) (postState tunWorld) ∧
    ¬ Prog.Safe (handleReply default 0 (netdevReply "x" "x")) (postState tunWorld) ∧
    ¬ Prog.Safe (handleReply default 0 trunkReply) (postState tunWorld) :=
  ⟨tunWorld_scanned, by decide, by decide +kernel, by decide +kernel, by decide +kernel⟩

end Plotnetcfg.Openvswitch
