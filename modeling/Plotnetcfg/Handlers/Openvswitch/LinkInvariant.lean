import Plotnetcfg.Core.Peers
import Plotnetcfg.Handlers.Openvswitch.Link

/-! What linking the interfaces of ovsdb keeps: every interface is in one list, the interfaces
of ovsdb are linked to listed ones, and peers are mutual. -/

namespace Plotnetcfg.Openvswitch

/-- The invariant of the linking, with interfaces that are known to be listed by now. -/
structure LinkInv (P : World → Prop) (root : NsPtr) (known : List IfPtr) (s : OvsState) :
    Prop where
  scanned : s.world.Scanned
  peers : P s.world
  root : root ∈ s.world.nsList
  links : ∀ ptr e, s.link ptr = some e → e ∈ s.world.listed
  known : ∀ e ∈ known, e ∈ s.world.listed

section
variable {P : World → Prop} {root : NsPtr} {known : List IfPtr}

theorem LinkInv.forget {s : OvsState} (h : LinkInv P root known s) : LinkInv P root [] s :=
  ⟨h.scanned, h.peers, h.root, h.links, nofun⟩

theorem LinkInv.frame {s : OvsState} (h : LinkInv P root known s) {w : World}
    (hf : s.world.Frame w) (hw : P w) : LinkInv P root known { s with world := w } where
  scanned := h.scanned.frame hf
  peers := hw
  root := by rw [hf.nsList]; exact h.root
  links ptr e he := by rw [hf.listed]; exact h.links ptr e he
  known e he := by rw [hf.listed]; exact h.known e he

theorem LinkInv.setLink {s : OvsState} (h : LinkInv P root known s) (ptr : OvsIfPtr)
    {link : Option IfPtr} (hlink : ∀ e ∈ link, e ∈ s.world.listed) :
    LinkInv P root known { s with link := Function.update s.link ptr link } where
  scanned := h.scanned
  peers := h.peers
  root := h.root
  links q e he := by
    dsimp only at he ⊢
    rw [Function.update_apply] at he
    split_ifs at he
    · exact hlink e he
    · exact h.links q e he
  known := h.known

variable (hP : PeerInvariant P) {E : OvsState → Prop}
include hP

theorem modifyWorld_triple {f : World → World} (hf : ∀ w : World, w.Frame (f w))
    (hpeer : ∀ w x, ((f w).ifs x).peer = (w.ifs x).peer) :
    Prog.Runs (LinkInv P root known) (modifyWorld f) (fun _ => LinkInv P root known) E := by
  unfold modifyWorld onWorld
  refine Prog.Triple.zoom fun s hs => Prog.Triple.modify ?_
  rintro _ rfl
  exact hs.frame (hf _) (hP.frame (hf _) (hpeer _) hs.peers)

theorem modifyIf_triple (e : IfPtr) {f : IfEntry → IfEntry} (hf : ∀ x : IfEntry, x.Kept (f x))
    (hpeer : ∀ x, (f x).peer = x.peer) :
    Prog.Runs (LinkInv P root known) (modifyWorld (·.modifyIf e f))
      (fun _ => LinkInv P root known) E := by
  refine modifyWorld_triple hP (fun w => .modifyIf w e hf) fun w x => ?_
  rw [World.modifyIf_ifs]
  split_ifs
  · exact hpeer _
  · rfl

theorem labelAdd_triple (ns : NsPtr) (text : CStr) :
    Prog.Runs (LinkInv P root known) (labelAdd ns text) (fun _ => LinkInv P root known) E := by
  refine Prog.Triple.modify fun s hs => ?_
  have hf : s.world.Frame (s.world.modifyNs ns (·.labelAdd text)) :=
    .modifyNs _ _ (fun _ => rfl) fun _ => rfl
  exact hs.frame hf (hP.frame hf (fun _ => rfl) hs.peers)

/-! ## Searches -/

omit hP in
theorem linkIfaceSearch_triple (env : OvsEnv) (dpType : OvsDpType) (master : Option IfPtr)
    (iface : OvsIf) (entry : IfPtr) {I E : World → Prop}
    (hI : ∀ w, I w → I (w.modifyIf entry fun x =>
      { x with subDriver := some (cstr "openvswitch") })) :
    Prog.Runs I (linkIfaceSearch env dpType master iface entry)
      (fun res w => 0 ≤ res ∧ I w) E := by
  have hzero : Prog.Runs I (pure 0 : Prog Int World Int) (fun res w => 0 ≤ res ∧ I w) E :=
    Prog.Triple.pure fun w hw => ⟨le_refl 0, hw⟩
  have hweight : ∀ w₀, Prog.Runs I (pure (linkWeight master entry w₀) : Prog Int World Int)
      (fun res w => 0 ≤ res ∧ I w) E := by
    refine fun w₀ => Prog.Triple.pure fun w hw => ⟨?_, hw⟩
    unfold linkWeight
    cases master <;> dsimp only <;> split_ifs <;> decide
  have hderef : ∀ (x : Option CStr), Prog.Runs I (Prog.deref x : Prog Int World CStr)
      (fun _ => I) E := fun x => Prog.Triple.deref fun _ _ w hw => hw
  refine Prog.Triple.bind (Q := fun _ => I) (Prog.Triple.get fun w hw => hw) fun w₀ => ?_
  refine Prog.Triple.ite (fun _ => hzero) fun _ => Prog.Triple.ite (fun _ => hzero) fun _ => ?_
  cases dpType with
  | system =>
    refine Prog.Triple.ite (fun _ => ?_) fun _ => ?_
    · refine Prog.Triple.bind (hderef _) fun driver => ?_
      refine Prog.Triple.ite (fun _ => hzero) fun _ => ?_
      exact Prog.Triple.ite (fun _ => hzero) fun _ => hweight w₀
    · exact Prog.Triple.ite (fun _ => hzero) fun _ => hweight w₀
  | netdev =>
    refine Prog.Triple.ite (fun _ => ?_) fun _ => hzero
    refine Prog.Triple.bind (hderef _) fun driver => ?_
    refine Prog.Triple.ite (fun _ => hzero) fun _ => ?_
    refine Prog.Triple.bind (Q := fun _ => I) (Prog.Triple.modify hI) fun _ => ?_
    exact hweight w₀

omit hP in
theorem linkPatchSearch_triple (iface : OvsIf) (entry : IfPtr) {I E : World → Prop} :
    Prog.Runs I (linkPatchSearch iface entry) (fun res w => 0 ≤ res ∧ I w) E := by
  refine Prog.Triple.bind (Q := fun _ => I) (Prog.Triple.get fun w hw => hw) fun w₀ => ?_
  refine Prog.Triple.ite (fun _ => ?_) fun _ => ?_
  · exact Prog.Triple.pure fun w hw => ⟨le_refl 0, hw⟩
  · exact Prog.Triple.pure fun w hw => ⟨by decide, hw⟩

omit hP in
/-- A search of all name spaces keeps the invariant and finds a listed interface, when its
callback changes no list and no peer. -/
theorem search_triple {callback : MatchCallback} {s₀ : OvsState}
    (hcb : ∀ e (w₀ : World), Prog.Runs (fun w => w₀.Frame w ∧ P w) (callback e)
      (fun res w => 0 ≤ res ∧ w₀.Frame w ∧ P w) fun _ => False) :
    Prog.Runs (fun s => s = s₀ ∧ LinkInv P root known s)
      (onWorld (matchIf { netnsList := some s₀.world.nsList } callback))
      (fun desc s => LinkInv P root known s ∧ ∀ e ∈ matchFound desc, e ∈ s.world.listed) E := by
  unfold onWorld
  refine Prog.Triple.zoom ?_
  rintro s ⟨rfl, hs⟩
  have hall : ∀ w, s.world.Frame w ∧ P w → ∀ n ∈ s.world.nsList, ∀ e ∈ (w.nss n).ifaces,
      e ∈ s.world.listed := by
    intro w hw n hn e he
    rw [hw.1.ifaces] at he
    exact World.mem_listed.mpr ⟨n, hn, he⟩
  have hsearch := matchIf_triple (E := fun _ => False) (· ∈ s.world.listed)
    { netnsList := some s.world.nsList }
    (fun e => (hcb e s.world).weaken (fun _ => id) fun res w hw =>
      ⟨fun hneg => absurd hw.1 (not_le.mpr hneg), hw.2⟩) hall nofun
  rintro w rfl r w' hrun
  have hpost := hsearch _ ⟨.refl _, hs.peers⟩ r w' hrun
  cases r with
  | error e => exact hpost.elim
  | ok desc =>
    refine ⟨hs.frame hpost.2.1 hpost.2.2, fun e he => ?_⟩
    show e ∈ w'.listed
    rw [hpost.2.1.listed]
    exact matchFound_mem hpost.1 he

theorem linkIface_triple (env : OvsEnv) (br : OvsBridge) (iface : OvsIf) (required : Bool) :
    Prog.Runs (LinkInv P root known) (linkIface env root br iface required)
      (fun _ => LinkInv P root known) (LinkInv P root known) := by
  have hcb : ∀ master e (w₀ : World), Prog.Runs (fun w => w₀.Frame w ∧ P w)
      (linkIfaceSearch env br.dpType master iface e)
      (fun res w => 0 ≤ res ∧ w₀.Frame w ∧ P w) fun _ => False := by
    refine fun master e w₀ => linkIfaceSearch_triple env br.dpType master iface e fun w hw => ?_
    exact ⟨hw.1.trans (.modifyIf w e fun _ => ⟨rfl, rfl, rfl, rfl⟩),
      hP.modifyIf (fun _ => rfl) hw.2⟩
  unfold linkIface
  refine Prog.Triple.bind (Q := fun s₀ s => s = s₀ ∧ LinkInv P root known s)
    (Prog.Triple.get fun s hs => ⟨rfl, hs⟩) fun s₀ => ?_
  refine Prog.Triple.ite (fun _ => Prog.Triple.pure fun s hs => hs.2) fun _ => ?_
  refine Prog.Triple.bind (Q := fun _ s => s = s₀ ∧ LinkInv P root known s)
    (Prog.Triple.deref fun _ _ s hs => hs) fun system => ?_
  refine Prog.Triple.bind (Q := fun _ s => s = s₀ ∧ LinkInv P root known s)
    (Prog.Triple.deref fun _ _ s hs => hs) fun master => ?_
  refine Prog.Triple.bind (search_triple (hcb (s₀.link master.ptr))) fun desc => ?_
  refine Prog.Triple.bind (Q := fun _ => LinkInv P root known)
    (Prog.Triple.modify fun s hs => hs.1.setLink iface.ptr hs.2) fun _ => ?_
  refine Prog.Triple.ite (fun _ => ?_) fun _ => Prog.Triple.ite (fun _ => ?_) fun _ => ?_
  · exact Prog.Triple.bind (labelAdd_triple hP _ _) fun _ => Prog.Triple.throw fun s hs => hs
  · exact Prog.Triple.bind (labelAdd_triple hP _ _) fun _ => Prog.Triple.throw fun s hs => hs
  · exact Prog.Triple.pure fun s hs => hs

theorem createIface_triple (name brName : CStr) :
    Prog.Runs (LinkInv P root known) (createIface root name brName)
      (fun e => LinkInv P root (e :: known)) (LinkInv P root known) := by
  intro s hs r s' hrun
  unfold createIface ifCreate at hrun
  cases hfree : s.world.free with
  | nil =>
    simp only [hfree, Option.some.injEq, Prod.mk.injEq] at hrun
    obtain ⟨rfl, rfl⟩ := hrun
    exact hs
  | cons e free =>
    simp only [hfree, Option.some.injEq, Prod.mk.injEq] at hrun
    obtain ⟨rfl, rfl⟩ := hrun
    let zeroed := ({ s.world with free := free } : World).modifyIf e fun _ => {}
    have hadd : s.world.Adds (addIface root name brName e zeroed) root e := by
      refine ⟨rfl, fun n => ?_, fun n => ?_, hfree, fun x hx => ?_, ?_, ?_⟩
      · rw [addIface, World.modifyNs_nss, apply_ite NetnsEntry.ifaces]
        rfl
      · rw [addIface, World.modifyNs_nss, apply_ite NetnsEntry.ids, ite_self]
        rfl
      · simp [addIface, zeroed, hx]
      · simp [addIface]
      · simp [addIface, zeroed]
    have hlisted : ∀ x ∈ s.world.listed, x ∈ (addIface root name brName e zeroed).listed :=
      fun x hx => (hadd.mem_listed hs.scanned hs.root).mpr (.inr hx)
    have hnew : e ∉ s.world.listed :=
      hs.scanned.fresh e (by rw [hfree]; exact List.mem_cons_self)
    refine ⟨hadd.scanned hs.scanned hs.root, hP.congr (fun x => ?_) hlisted hs.peers, hs.root,
      fun ptr x hx => hlisted x (hs.links ptr x hx), fun x hx => ?_⟩
    · by_cases hxe : x = e
      · subst hxe
        exact .inr ⟨hnew, by simp [World.peers, addIface]⟩
      · left
        rw [World.peers, hadd.ifs x hxe]
        rfl
    · rcases List.mem_cons.mp hx with rfl | hx
      · exact (hadd.mem_listed hs.scanned hs.root).mpr (.inl rfl)
      · exact hlisted x (hs.known x hx)

theorem linkedIface_triple (br : OvsBridge) (iface : OvsIf) :
    Prog.Runs (LinkInv P root known) (linkedIface root br iface)
      (fun e => LinkInv P root (e :: known)) (LinkInv P root known) := by
  unfold linkedIface
  refine Prog.Triple.bind (Q := fun s₀ s => s = s₀ ∧ LinkInv P root known s)
    (Prog.Triple.get fun s hs => ⟨rfl, hs⟩) fun s₀ => ?_
  cases hlink : s₀.link iface.ptr with
  | some link =>
    refine Prog.Triple.pure ?_
    rintro s ⟨rfl, hs⟩
    refine ⟨hs.scanned, hs.peers, hs.root, hs.links, fun x hx => ?_⟩
    rcases List.mem_cons.mp hx with rfl | hx
    · exact hs.links iface.ptr x hlink
    · exact hs.known x hx
  | none =>
    refine Prog.Triple.bind ((createIface_triple hP _ _).weaken (fun _ => And.right) fun _ _ => id)
      fun link => ?_
    refine Prog.Triple.bind (Q := fun _ => LinkInv P root (link :: known))
      (Prog.Triple.modify fun s hs => hs.setLink iface.ptr ?_) fun _ => Prog.Triple.pure fun s => id
    rintro x hx
    obtain rfl := Option.some.inj hx
    exact hs.known link List.mem_cons_self

theorem linkTunnel_triple (env : OvsEnv) (iface : OvsIf) (link : IfPtr) :
    Prog.Runs (LinkInv P root known) (linkTunnel env iface link)
      (fun _ => LinkInv P root known) E := by
  unfold linkTunnel
  split
  · exact Prog.Triple.pure fun s => id
  · exact Prog.Triple.pure fun s => id
  · refine Prog.Triple.bind (Q := fun _ => LinkInv P root known)
      (Prog.Triple.get fun s => id) fun s₀ => ?_
    refine Prog.Triple.bind (Q := fun _ => LinkInv P root known) ?_ fun found => ?_
    · unfold onWorld
      refine Prog.Triple.zoom fun s hs => ?_
      refine (tunnelFindStr_triple env.inetPton _ _).weaken (fun _ => id) ?_
      rintro _ _ rfl
      exact hs
    · refine Prog.Triple.bind (Q := fun _ => LinkInv P root known)
        (modifyWorld_triple hP (fun w => linkSet_frame w _ _) fun w x => linkSet_peer w x _ _)
        fun _ => ?_
      exact modifyIf_triple hP link (fun _ => ⟨rfl, rfl, rfl, rfl⟩) fun _ => rfl

theorem linkPatch_triple (iface : OvsIf) {link : IfPtr} (hlink : link ∈ known) :
    Prog.Runs (LinkInv P root known) (linkPatch iface link)
      (fun _ => LinkInv P root known) E := by
  unfold linkPatch
  refine Prog.Triple.bind (Q := fun s₀ s => s = s₀ ∧ LinkInv P root known s)
    (Prog.Triple.get fun s hs => ⟨rfl, hs⟩) fun s₀ => ?_
  refine Prog.Triple.bind (search_triple fun e w₀ => linkPatchSearch_triple iface e) fun desc => ?_
  refine Prog.Triple.ite (fun _ => ?_) fun _ => ?_
  · refine (modifyWorld_triple hP (fun w => ifAddWarning_frame link _ w) fun w x => ?_).weaken
      (fun _ => And.left) fun _ _ => id
    rw [ifAddWarning_ifs]
    split_ifs <;> rfl
  · cases hfound : matchFound desc with
    | none => exact Prog.Triple.pure fun s hs => hs.1
    | some found =>
      unfold modifyWorld onWorld
      refine Prog.Triple.zoom fun s hs => Prog.Triple.modify ?_
      rintro _ rfl
      refine hs.1.frame (peerSet_frame _ _ _) (hP.peerSet ?_ ?_ hs.1.peers)
      · rintro x hx
        obtain rfl := Option.some.inj hx
        exact hs.1.known _ hlink
      · exact hs.2

def Relabels (x y : IfEntry) : Prop := x.Kept y ∧ y.peer = x.peer

omit hP in
theorem Relabels.trans {x y z : IfEntry} (h : Relabels x y) (h' : Relabels y z) : Relabels x z :=
  ⟨h.1.trans h'.1, h'.2.trans h.2⟩

omit hP in
theorem addConfig_relabels (key : CStr) (value : Option CStr) (x : IfEntry) :
    Relabels x (addConfig key value x) := by
  cases value <;> exact ⟨⟨rfl, rfl, rfl, rfl⟩, rfl⟩

omit hP in
theorem labelIface_relabels (iface : OvsIf) (x : IfEntry) : Relabels x (labelIface iface x) := by
  have htype : Relabels x (if iface.type ≠ [] then
      addConfig (cstr "type") (some iface.type) x else x) := by
    by_cases h : iface.type ≠ []
    · rw [if_pos h]
      exact addConfig_relabels _ _ x
    · rw [if_neg h]
      exact ⟨.refl x, rfl⟩
  exact (((htype.trans (addConfig_relabels _ _ _)).trans (addConfig_relabels _ _ _)).trans
    (addConfig_relabels _ _ _)).trans (addConfig_relabels _ _ _)

omit hP in
theorem labelPortOrIface_relabels (port : OvsPort) (x : IfEntry) :
    Relabels x (labelPortOrIface port x) := by
  have hlabel : ∀ text, Relabels x { x with edgeLabel := text } :=
    fun text => ⟨⟨rfl, rfl, rfl, rfl⟩, rfl⟩
  unfold labelPortOrIface
  dsimp only
  split_ifs
  · exact (hlabel _).trans (addConfig_relabels _ _ _)
  · exact (hlabel _).trans (addConfig_relabels _ _ _)
  · exact addConfig_relabels _ _ x

theorem setMaster_triple (master : Option IfPtr) (link : IfPtr) :
    Prog.Runs (LinkInv P root known) (modifyWorld (masterSet master link))
      (fun _ => LinkInv P root known) E :=
  modifyWorld_triple hP (fun w => masterSet_frame w _ _) fun w x => masterSet_peer w x _ _

theorem labelIface_triple (iface : OvsIf) (link : IfPtr) :
    Prog.Runs (LinkInv P root known) (modifyWorld (·.modifyIf link (labelIface iface)))
      (fun _ => LinkInv P root known) E :=
  modifyIf_triple hP link (fun x => (labelIface_relabels iface x).1)
    fun x => (labelIface_relabels iface x).2

theorem labelPort_triple (port : OvsPort) (link : IfPtr) :
    Prog.Runs (LinkInv P root known) (modifyWorld (·.modifyIf link (labelPortOrIface port)))
      (fun _ => LinkInv P root known) E :=
  modifyIf_triple hP link (fun x => (labelPortOrIface_relabels port x).1)
    fun x => (labelPortOrIface_relabels port x).2

theorem labelSoleIface_triple (port : OvsPort) (link : IfPtr) :
    Prog.Runs (LinkInv P root known)
      (modifyWorld (·.modifyIf link fun x =>
        if port.ifaceCount = 1 then labelPortOrIface port x else x))
      (fun _ => LinkInv P root known) E := by
  by_cases hsole : port.ifaceCount = 1
  · simp only [if_pos hsole]
    exact labelPort_triple hP port link
  · simp only [if_neg hsole]
    exact modifyIf_triple hP link (fun _ => ⟨rfl, rfl, rfl, rfl⟩) fun _ => rfl

theorem linkPortIface_triple (env : OvsEnv) (br : OvsBridge) (port : OvsPort)
    (master : Option IfPtr) (iface : OvsIf) :
    Prog.Runs (LinkInv P root []) (linkPortIface env root br port master iface)
      (fun _ => LinkInv P root []) (LinkInv P root []) := by
  unfold linkPortIface
  refine Prog.Triple.bind (linkIface_triple hP env br iface false) fun _ => ?_
  refine Prog.Triple.bind (linkedIface_triple hP br iface) fun link => ?_
  refine Prog.Triple.bind (setMaster_triple hP master link) fun _ => ?_
  refine Prog.Triple.bind (labelIface_triple hP iface link) fun _ => ?_
  refine Prog.Triple.bind (labelSoleIface_triple hP port link) fun _ => ?_
  refine Prog.Triple.ite (fun _ => ?_) fun _ => Prog.Triple.ite (fun _ => ?_) fun _ => ?_
  · exact (linkTunnel_triple hP env iface link).weaken (fun _ => id) fun _ _ h => h.forget
  · exact (linkPatch_triple hP iface List.mem_cons_self).weaken (fun _ => id)
      fun _ _ h => h.forget
  · exact Prog.Triple.pure fun s h => h.forget

theorem portMaster_triple (br : OvsBridge) (ovsMaster : OvsIf) (port : OvsPort) :
    Prog.Runs (LinkInv P root []) (portMaster root br ovsMaster port)
      (fun _ => LinkInv P root []) (LinkInv P root []) := by
  unfold portMaster
  refine Prog.Triple.bind (Q := fun _ => LinkInv P root []) (Prog.Triple.get fun s => id)
    fun s₀ => ?_
  refine Prog.Triple.ite (fun _ => ?_) fun _ => Prog.Triple.pure fun s => id
  refine Prog.Triple.bind (createIface_triple hP _ _) fun link => ?_
  refine Prog.Triple.bind (setMaster_triple hP _ link) fun _ => ?_
  refine Prog.Triple.bind (labelPort_triple hP port link) fun _ => ?_
  exact Prog.Triple.pure fun s h => h.forget

theorem linkPort_triple (env : OvsEnv) (br : OvsBridge) (ovsMaster : OvsIf) (port : OvsPort) :
    Prog.Runs (LinkInv P root []) (linkPort env root br ovsMaster port)
      (fun _ => LinkInv P root []) (LinkInv P root []) :=
  Prog.Triple.bind (portMaster_triple hP br ovsMaster port) fun master =>
    Prog.Triple.forEach fun iface _ => linkPortIface_triple hP env br port master iface

theorem linkBridge_triple (env : OvsEnv) (br : OvsBridge) :
    Prog.Runs (LinkInv P root []) (linkBridge env root br)
      (fun _ => LinkInv P root []) (LinkInv P root []) := by
  unfold linkBridge
  cases br.system with
  | none => exact labelAdd_triple hP _ _
  | some system =>
    refine Prog.Triple.ite (fun _ => labelAdd_triple hP _ _) fun _ => ?_
    refine Prog.Triple.ite (fun _ => labelAdd_triple hP _ _) fun _ => ?_
    refine Prog.Triple.bind (Q := fun _ => LinkInv P root [])
      (Prog.Triple.deref fun _ _ s => id) fun ovsMaster => ?_
    refine Prog.Triple.bind (Prog.Triple.attempt
      (Q := fun _ => LinkInv P root []) (linkIface_triple hP env br ovsMaster true))
      fun r => ?_
    cases r with
    | error err =>
      refine Prog.Triple.ite (fun _ => Prog.Triple.pure fun s => id) fun _ => ?_
      exact Prog.Triple.throw fun s => id
    | ok u => exact Prog.Triple.forEach fun port _ => linkPort_triple hP env br ovsMaster port

/-- Whatever the bridges, and also when it gives up, the linking keeps its invariant. -/
theorem linkIfaces_triple (env : OvsEnv) (brList : List OvsBridge) :
    Prog.Runs (LinkInv P root []) (linkIfaces env root brList)
      (fun _ => LinkInv P root []) (LinkInv P root []) :=
  Prog.Triple.forEach fun br _ => linkBridge_triple hP env br

end

end Plotnetcfg.Openvswitch
