import Plotnetcfg.Core.Twins
import Plotnetcfg.Handlers.Openvswitch.SearchEffect
import Plotnetcfg.Handlers.Openvswitch.Untouched

/-! The linking from two states that differ in the devices one search has marked. Only another
search for an internal interface of the same name tells them apart. -/

namespace Plotnetcfg.Openvswitch

/-- What the kernel answers to `check_vport` depends on the name space it is asked in and on the
name it is asked for. -/
def OvsEnv.ByName (env : OvsEnv) : Prop :=
  ∀ ns e (w w' : World), (w'.nss ns).fd = (w.nss ns).fd → (w'.ifs e).ifName = (w.ifs e).ifName →
    env.checkVport ns e w' = env.checkVport ns e w

/-- `link_iface` looks for a device of the name, which it would mark. -/
structure Rival (name : Option CStr) (br : OvsBridge) (iface : OvsIf) (s : OvsState) : Prop where
  unlinked : s.link iface.ptr = none
  writes : Writes br iface
  named : name = some iface.name

/-- In `w` the devices of the name are marked, in `w'` one of `marked` is not. -/
structure Contest (root : NsPtr) (name : Option CStr) (marked : IfPtr → Prop) (w w' : World) :
    Prop extends World.Twins marked w w' where
  scanned : w.Scanned
  root : root ∈ w.nsList
  inList : ∀ x, marked x → x ∈ w.listed
  named : ∀ x, marked x → name = some (w.ifs x).ifName
  taken : ∀ x ∈ w.listed, name = some (w.ifs x).ifName → (w.ifs x).driver = some (cstr "tun") →
    (w.ifs x).subDriver.isSome = true
  untaken : name.isSome = true → ∃ x, marked x ∧ (w.ifs x).driver = some (cstr "tun") ∧
    (w'.ifs x).subDriver = none

/-- The states besides differ in the link of the interface `m`. -/
structure Differ (root : NsPtr) (name : Option CStr) (marked : IfPtr → Prop) (m : OvsIfPtr)
    (s t : OvsState) : Prop where
  world : Contest root name marked s.world t.world
  link : ∀ ptr, ptr ≠ m → t.link ptr = s.link ptr

section
variable {env : OvsEnv} {root : NsPtr} {name : Option CStr} {marked : IfPtr → Prop} {m : OvsIfPtr}
  {w w' : World} {s t : OvsState} {br : OvsBridge} {iface : OvsIf}

theorem Contest.quiet (h : Contest root name marked w w') {f : World → World} (hf : Quiet f) :
    Contest root name marked (f w) (f w') := by
  have hframe := hf.frame w
  refine ⟨hf.twins h.toTwins, h.scanned.frame hframe, ?_, fun x hx => ?_, fun x hx => ?_,
    fun x hx hname hdriver => ?_, fun hsome => ?_⟩
  · rw [hframe.nsList]
    exact h.root
  · rw [hframe.listed]
    exact h.inList x hx
  · rw [(hframe.kept x).ifName]
    exact h.named x hx
  · rw [hframe.listed] at hx
    rw [(hframe.kept x).ifName] at hname
    rw [(hframe.kept x).driver] at hdriver
    rw [hf.subDriver]
    exact h.taken x hx hname hdriver
  · obtain ⟨x, hx, hdriver, hfree⟩ := h.untaken hsome
    exact ⟨x, hx, by rwa [(hframe.kept x).driver], by rwa [hf.subDriver]⟩

theorem Contest.mark (h : Contest root name marked w w') {e : IfPtr} (he : ¬ marked e) :
    Contest root name marked
      (w.modifyIf e fun x => { x with subDriver := some (cstr "openvswitch") })
      (w'.modifyIf e fun x => { x with subDriver := some (cstr "openvswitch") }) := by
  have hframe : w.Frame
      (w.modifyIf e fun x => { x with subDriver := some (cstr "openvswitch") }) :=
    .modifyIf w e fun _ => ⟨rfl, rfl, rfl, rfl⟩
  refine ⟨h.toTwins.mark he _, h.scanned.frame hframe, h.root, h.inList, fun x hx => ?_,
    fun x hx hname hdriver => ?_, fun hsome => ?_⟩
  · rw [(hframe.kept x).ifName]
    exact h.named x hx
  · rw [(hframe.kept x).ifName] at hname
    rw [(hframe.kept x).driver] at hdriver
    rw [World.modifyIf_ifs]
    split_ifs
    · rfl
    · exact h.taken x hx hname hdriver
  · obtain ⟨x, hx, hdriver, hfree⟩ := h.untaken hsome
    refine ⟨x, hx, by rwa [(hframe.kept x).driver], ?_⟩
    have hne : x ≠ e := by
      rintro rfl
      exact he hx
    rw [World.modifyIf_ifs, if_neg hne]
    exact hfree

theorem linkIfaceSearch_alike (henv : env.ByName) (master : Option IfPtr)
    (hother : Writes br iface → name ≠ some iface.name) (e : IfPtr) :
    Prog.Alike (Contest root name marked) (linkIfaceSearch env br.dpType master iface e)
      (linkIfaceSearch env br.dpType master iface e) := by
  unfold linkIfaceSearch
  apply Prog.Alike.get_bind
  intro w w' h
  have helsewhere : masterElsewhere br.dpType master e w' = masterElsewhere br.dpType master e w := by
    unfold masterElsewhere
    rw [h.master]
    cases master <;> cases br.dpType <;> cases (w.ifs e).master with
    | none => rfl
    | some x =>
      dsimp only
      try rw [h.ifName]
  have hns : ∀ x, (w'.ifs x).ns = (w.ifs x).ns := by
    intro x
    obtain ⟨d, hx⟩ := h.ifs x
    rw [hx]
  have hvport : notVport env master e w' = notVport env master e w := by
    unfold notVport
    cases master with
    | none => rfl
    | some x =>
      obtain ⟨warnings, hfd⟩ := h.nss (w.ifs x).ns
      dsimp only
      rw [h.master, hns, henv _ _ w w' (by rw [hfd]) (h.ifName e)]
  have hweight : linkWeight master e w' = linkWeight master e w := by
    unfold linkWeight
    cases master with
    | none =>
      obtain ⟨warnings, hname⟩ := h.nss (w.ifs e).ns
      dsimp only
      rw [hns, hname]
    | some x =>
      dsimp only
      rw [hns, hns]
  have hzero : Prog.Alike (Contest root name marked) (pure 0 : Prog Int World Int) (pure 0) :=
    Prog.Alike.pure 0
  rw [helsewhere, hvport, hweight, h.ifName, h.driver]
  apply Prog.Alike.ite Iff.rfl
  · exact fun _ => hzero
  intro _
  apply Prog.Alike.ite Iff.rfl
  · exact fun _ => hzero
  intro hname
  cases hdp : br.dpType with
  | system =>
    have hlast : Prog.Alike (Contest root name marked)
        (if notVport env master e w then pure 0 else pure (linkWeight master e w) :
          Prog Int World Int)
        (if notVport env master e w then pure 0 else pure (linkWeight master e w)) := by
      apply Prog.Alike.ite Iff.rfl
      · exact fun _ => hzero
      · exact fun _ => Prog.Alike.pure _
    apply Prog.Alike.ite Iff.rfl
    · intro _
      apply Prog.Alike.bind (Prog.Alike.deref _)
      intro driver
      apply Prog.Alike.ite Iff.rfl
      · exact fun _ => hzero
      · exact fun _ => hlast
    · exact fun _ => hlast
  | netdev =>
    apply Prog.Alike.ite Iff.rfl
    · intro htype
      have he : ¬ marked e := by
        intro hmarked
        apply hother ⟨hdp, htype⟩
        rw [not_not.mp hname]
        exact h.named e hmarked
      rw [h.same e he]
      apply Prog.Alike.bind (Prog.Alike.deref _)
      intro driver
      apply Prog.Alike.ite Iff.rfl
      · exact fun _ => hzero
      intro _
      apply Prog.Alike.bind (Prog.Alike.modify fun _ _ h => h.mark he)
      exact fun _ => Prog.Alike.pure _
    · exact fun _ => hzero

/-! ## What the linking does with an interface -/

theorem Differ.setLink (h : Differ root name marked m s t) (ptr : OvsIfPtr)
    (link : Option IfPtr) :
    Differ root name marked m { s with link := Function.update s.link ptr link }
      { t with link := Function.update t.link ptr link } := by
  refine ⟨h.world, fun p hp => ?_⟩
  dsimp only
  rw [Function.update_apply, Function.update_apply, h.link p hp]

theorem modifyWorld_alike {f : World → World} (hf : Quiet f) :
    Prog.Alike (Differ root name marked m) (modifyWorld f) (modifyWorld f) := by
  unfold modifyWorld onWorld
  apply Prog.Alike.zoom (S := Contest root name marked)
  · exact Prog.Alike.modify fun _ _ h => h.quiet hf
  · exact fun _ _ h => h.world
  · exact fun _ _ _ _ h hworld => ⟨hworld, h.link⟩

theorem onWorld_alike {α : Type} {p : Prog Int World α}
    (h : Prog.Alike (Contest root name marked) p p) :
    Prog.Alike (Differ root name marked m) (onWorld p) (onWorld p) :=
  h.zoom (fun _ _ hs => hs.world) fun _ _ _ _ hs hworld => ⟨hworld, hs.link⟩

theorem labelAdd_alike (ns : NsPtr) (text : CStr) :
    Prog.Alike (Differ root name marked m) (labelAdd ns text) (labelAdd ns text) :=
  Prog.Alike.modify fun _ _ h => ⟨h.world.quiet (labelAdd_quiet ns text), h.link⟩

/-- The interfaces of the bridge are not the one whose link differs. -/
def Elsewhere (m : OvsIfPtr) (br : OvsBridge) : Prop := ∀ iface ∈ br.ifaces, iface.ptr ≠ m

theorem Elsewhere.head (h : Elsewhere m br) {system : OvsPort} (hsystem : br.system = some system)
    {main : OvsIf} (hmain : system.ifaces.head? = some main) : main.ptr ≠ m := by
  apply h
  unfold OvsBridge.ifaces
  apply List.mem_flatMap.mpr ⟨system, _, List.mem_of_mem_head? hmain⟩
  rw [hsystem]
  exact List.mem_append_left _ (List.mem_singleton_self system)

theorem linkIface_ends (henv : env.ByName) (hbr : Elsewhere m br) (hiface : iface ∈ br.ifaces)
    (required : Bool) (h : Differ root name marked m s t) (hfree : ¬ Rival name br iface s) :
    Prog.Ends (Differ root name marked m) (linkIface env root br iface required s)
      (linkIface env root br iface required t) := by
  have hlink := h.link iface.ptr (hbr iface hiface)
  unfold linkIface
  rw [Prog.bind_ok s (Prog.get_apply s), Prog.bind_ok t (Prog.get_apply t), hlink]
  by_cases hsome : (s.link iface.ptr).isSome = true
  · rw [if_pos hsome, if_pos hsome]
    exact .of_some h
  rw [if_neg hsome, if_neg hsome]
  have hother : Writes br iface → name ≠ some iface.name := fun hwrites hname =>
    hfree ⟨Option.not_isSome_iff_eq_none.mp hsome, hwrites, hname⟩
  have hwarn : ∀ text (err : Int), Prog.Alike (Differ root name marked m)
      (do labelAdd root text; Prog.throw err : OvsProg Unit)
      (do labelAdd root text; Prog.throw err) := fun text err =>
    Prog.Alike.bind (labelAdd_alike root text) fun _ => Prog.Alike.throw err
  have hrest : Prog.Alike (Differ root name marked m)
      (do
        let system ← Prog.deref br.system
        let master ← Prog.deref system.ifaces.head?
        let desc ← onWorld (matchIf { netnsList := some s.world.nsList }
          (linkIfaceSearch env br.dpType (s.link master.ptr) iface))
        setLink iface.ptr (matchFound desc)
        if matchAmbiguous desc then do
          labelAdd root (cstr "Failed to map openvswitch interface " ++ iface.name ++
            cstr " reliably")
          Prog.throw (ERANGE : Int)
        else if required && (matchFound desc).isNone then do
          labelAdd root (cstr "Failed to map openvswitch interface " ++ iface.name)
          Prog.throw (ENOENT : Int)
        else pure () : OvsProg Unit)
      (do
        let system ← Prog.deref br.system
        let master ← Prog.deref system.ifaces.head?
        let desc ← onWorld (matchIf { netnsList := some t.world.nsList }
          (linkIfaceSearch env br.dpType (t.link master.ptr) iface))
        setLink iface.ptr (matchFound desc)
        if matchAmbiguous desc then do
          labelAdd root (cstr "Failed to map openvswitch interface " ++ iface.name ++
            cstr " reliably")
          Prog.throw (ERANGE : Int)
        else if required && (matchFound desc).isNone then do
          labelAdd root (cstr "Failed to map openvswitch interface " ++ iface.name)
          Prog.throw (ENOENT : Int)
        else pure ()) := by
    apply Prog.Alike.deref_bind
    intro system hsystem
    apply Prog.Alike.deref_bind
    intro main hmain
    rw [h.world.nsList, h.link main.ptr (hbr.head hsystem hmain)]
    have hsearch : Prog.Alike (Contest root name marked)
        (matchIf { netnsList := some s.world.nsList }
          (linkIfaceSearch env br.dpType (s.link main.ptr) iface))
        (matchIf { netnsList := some s.world.nsList }
          (linkIfaceSearch env br.dpType (s.link main.ptr) iface)) :=
      matchIf_alike (linkIfaceSearch_alike henv _ hother) (fun _ _ h => h.ifaces) _
    apply Prog.Alike.bind (onWorld_alike hsearch)
    intro desc
    apply Prog.Alike.bind (Prog.Alike.modify fun _ _ h => h.setLink iface.ptr _)
    intro _
    apply Prog.Alike.ite Iff.rfl
    · exact fun _ => hwarn _ _
    intro _
    apply Prog.Alike.ite Iff.rfl
    · exact fun _ => hwarn _ _
    · exact fun _ => Prog.Alike.pure ()
  exact hrest s t h

theorem createIface_alike (ifName brName : CStr) :
    Prog.Alike (Differ root name marked m) (createIface root ifName brName)
      (createIface root ifName brName) := by
  intro s t h
  cases hfree : s.world.free with
  | nil =>
    have hfree' : t.world.free = [] := h.world.free.trans hfree
    unfold createIface ifCreate
    rw [hfree, hfree']
    exact .of_some h
  | cons e free =>
    have hfree' : t.world.free = e :: free := h.world.free.trans hfree
    unfold createIface ifCreate
    rw [hfree, hfree']
    let zeroed (w : World) : World := { w with free := free }.modifyIf e fun _ => {}
    have hrun : createIface root ifName brName s = some (.ok e,
        { s with world := addIface root ifName brName e (zeroed s.world) }) := by
      unfold createIface ifCreate
      rw [hfree]
    have hcreates : Creates root ifName brName s _ e :=
      createIface_creates root ifName brName s s rfl _ _ hrun
    have hrun' : createIface root ifName brName t = some (.ok e,
        { t with world := addIface root ifName brName e (zeroed t.world) }) := by
      unfold createIface ifCreate
      rw [hfree']
    have hcreates' : Creates root ifName brName t _ e :=
      createIface_creates root ifName brName t t rfl _ _ hrun'
    have hnew : ¬ marked e := by
      intro he
      apply h.world.scanned.fresh e _ (h.world.inList e he)
      rw [hfree]
      exact List.mem_cons_self
    have hshrink : World.Twins marked { s.world with free := free } { t.world with free := free } :=
      ⟨h.world.nsList, rfl, h.world.nss, h.world.ifs, h.world.same⟩
    have htwins : World.Twins marked (addIface root ifName brName e (zeroed s.world))
        (addIface root ifName brName e (zeroed t.world)) := by
      have hentry := (hshrink.replace e {}).modifyIf e (f := fun x =>
        { x with
          internalNs := some (cstr "ovs:" ++ brName)
          ifName := ifName
          ns := root
          flags := { x.flags with internal := true } }) fun _ _ => rfl
      exact hentry.modifyNs root (f := fun ns => { ns with ifaces := ns.ifaces ++ [e] })
        (g := fun ns => { ns with ifaces := ns.ifaces ++ [e] }) fun _ _ => ⟨_, rfl⟩
    have hadds := hcreates.adds
    have hne : ∀ x, marked x → x ≠ e := by
      rintro x hx rfl
      exact hnew hx
    refine .of_some ⟨⟨htwins, hadds.scanned h.world.scanned h.world.root, h.world.root,
      fun x hx => ?_, fun x hx => ?_, fun x hx hname hdriver => ?_, fun hsome => ?_⟩, h.link⟩
    · exact (hadds.mem_listed h.world.scanned h.world.root).mpr (.inr (h.world.inList x hx))
    · have hsame := hadds.ifs x (hne x hx)
      dsimp only at hsame
      rw [hsame]
      exact h.world.named x hx
    · have hxe : x ≠ e := by
        rintro rfl
        have hnone := hcreates.driver
        dsimp only at hnone
        rw [hnone] at hdriver
        cases hdriver
      have hsame := hadds.ifs x hxe
      dsimp only at hsame
      rw [hsame] at hname hdriver ⊢
      rcases (hadds.mem_listed h.world.scanned h.world.root).mp hx with hxe' | hx
      · exact absurd hxe' hxe
      · exact h.world.taken x hx hname hdriver
    · obtain ⟨x, hx, hdriver, huntaken⟩ := h.world.untaken hsome
      have hsame := hadds.ifs x (hne x hx)
      have hsame' := hcreates'.adds.ifs x (hne x hx)
      dsimp only at hsame hsame'
      exact ⟨x, hx, by rwa [hsame], by rwa [hsame']⟩

theorem linkedIface_alike (hiface : iface.ptr ≠ m) :
    Prog.Alike (Differ root name marked m) (linkedIface root br iface)
      (linkedIface root br iface) := by
  unfold linkedIface
  apply Prog.Alike.get_bind
  intro s t h
  rw [h.link iface.ptr hiface]
  cases s.link iface.ptr with
  | some link => exact Prog.Alike.pure link
  | none =>
    apply Prog.Alike.bind (createIface_alike iface.name br.name)
    intro link
    apply Prog.Alike.bind (Prog.Alike.modify fun _ _ h => h.setLink iface.ptr _)
    exact fun _ => Prog.Alike.pure link

theorem linkTunnel_alike (link : IfPtr) :
    Prog.Alike (Differ root name marked m) (linkTunnel env iface link)
      (linkTunnel env iface link) := by
  unfold linkTunnel
  split
  · exact Prog.Alike.pure ()
  · exact Prog.Alike.pure ()
  · apply Prog.Alike.get_bind
    intro s t h
    have hns : (t.world.ifs link).ns = (s.world.ifs link).ns := by
      obtain ⟨d, hx⟩ := h.world.ifs link
      rw [hx]
    rw [hns]
    apply Prog.Alike.bind (onWorld_alike (tunnelFindStr_alike (fun _ _ h => h.toTwins) _ _ _))
    intro found
    apply Prog.Alike.bind (modifyWorld_alike (linkSet_quiet _ _))
    exact fun _ => modifyWorld_alike
      (modifyIf_quiet link (fun _ => ⟨rfl, rfl, rfl, rfl⟩) (fun _ => rfl) fun _ _ => rfl)

theorem linkPatch_alike (link : IfPtr) :
    Prog.Alike (Differ root name marked m) (linkPatch iface link) (linkPatch iface link) := by
  have hcallback : ∀ e, Prog.Alike (Contest root name marked) (linkPatchSearch iface e)
      (linkPatchSearch iface e) := by
    intro e
    unfold linkPatchSearch
    apply Prog.Alike.get_bind
    intro w w' h
    obtain ⟨d, hx⟩ := h.ifs e
    rw [hx]
    apply Prog.Alike.ite Iff.rfl
    · exact fun _ => Prog.Alike.pure 0
    · exact fun _ => Prog.Alike.pure 1
  unfold linkPatch
  apply Prog.Alike.get_bind
  intro s t h
  rw [h.world.nsList]
  apply Prog.Alike.bind (onWorld_alike (matchIf_alike hcallback (fun _ _ h => h.ifaces) _))
  intro desc
  apply Prog.Alike.ite Iff.rfl
  · exact fun _ => modifyWorld_alike (ifAddWarning_quiet link _)
  · intro _
    cases matchFound desc with
    | none => exact Prog.Alike.pure ()
    | some found => exact modifyWorld_alike (peerSet_quiet _ _)

theorem addConfig_commutes (key : CStr) (value : Option CStr) (x : IfEntry) (d : Option CStr) :
    addConfig key value { x with subDriver := d } =
      { addConfig key value x with subDriver := d } := by
  cases value <;> rfl

theorem addConfig_subDriver (key : CStr) (value : Option CStr) (x : IfEntry) :
    (addConfig key value x).subDriver = x.subDriver := by
  cases value <;> rfl

theorem labelIface_quiet (iface : OvsIf) (link : IfPtr) :
    Quiet fun w => w.modifyIf link (labelIface iface) := by
  apply modifyIf_quiet link fun x => (labelIface_labels iface x).toKept
  · intro x
    unfold labelIface
    simp only [addConfig_subDriver]
    split_ifs
    · exact addConfig_subDriver _ _ x
    · rfl
  · intro x d
    unfold labelIface
    split_ifs
    · simp only [addConfig_commutes]
    · simp only [addConfig_commutes]

theorem labelPortOrIface_quiet (port : OvsPort) (link : IfPtr) :
    Quiet fun w => w.modifyIf link (labelPortOrIface port) := by
  apply modifyIf_quiet link fun x => (labelPortOrIface_labels port x).toKept
  · intro x
    unfold labelPortOrIface
    rw [addConfig_subDriver]
    split_ifs <;> rfl
  · intro x d
    unfold labelPortOrIface
    dsimp only
    rw [← addConfig_commutes]
    congr 1
    split_ifs <;> rfl

theorem labelSoleIface_quiet (port : OvsPort) (link : IfPtr) :
    Quiet fun w => w.modifyIf link fun x =>
      if port.ifaceCount = 1 then labelPortOrIface port x else x := by
  by_cases hsole : port.ifaceCount = 1
  · simp only [if_pos hsole]
    exact labelPortOrIface_quiet port link
  · simp only [if_neg hsole]
    exact modifyIf_quiet link (fun _ => .refl _) (fun _ => rfl) fun _ _ => rfl

theorem joinPort_alike (port : OvsPort) (master : Option IfPtr) (link : IfPtr) :
    Prog.Alike (Differ root name marked m)
      (do
        modifyWorld (masterSet master link)
        modifyWorld (·.modifyIf link (labelIface iface))
        modifyWorld (·.modifyIf link fun x =>
          if port.ifaceCount = 1 then labelPortOrIface port x else x)
        if ifaceIsTunnel iface then linkTunnel env iface link
        else if iface.type = cstr "patch" then linkPatch iface link
        else pure () : OvsProg Unit)
      (do
        modifyWorld (masterSet master link)
        modifyWorld (·.modifyIf link (labelIface iface))
        modifyWorld (·.modifyIf link fun x =>
          if port.ifaceCount = 1 then labelPortOrIface port x else x)
        if ifaceIsTunnel iface then linkTunnel env iface link
        else if iface.type = cstr "patch" then linkPatch iface link
        else pure ()) := by
  apply Prog.Alike.bind (modifyWorld_alike (masterSet_quiet master link))
  intro _
  apply Prog.Alike.bind (modifyWorld_alike (labelIface_quiet iface link))
  intro _
  apply Prog.Alike.bind (modifyWorld_alike (labelSoleIface_quiet port link))
  intro _
  apply Prog.Alike.ite Iff.rfl
  · exact fun _ => linkTunnel_alike link
  intro _
  apply Prog.Alike.ite Iff.rfl
  · exact fun _ => linkPatch_alike link
  · exact fun _ => Prog.Alike.pure ()

/-! ## The search that tells the states apart -/

theorem Rival.finds_none (hrival : Rival name br iface s) (h : Contest root name marked s.world w')
    {required : Bool} {r : Except Int Unit} {s' : OvsState}
    (hrun : linkIface env root br iface required s = some (r, s')) : s'.link iface.ptr = none := by
  obtain ⟨master, desc, w, ⟨-, htally⟩, -, hlink, -⟩ := linkIface_from_search hrival.unlinked
    (linkSearch_marks hrival.writes h.scanned.nodup) hrun
  rw [hlink, matchFound_eq, htally, Tally.winner_none]
  intro x hx
  apply (markWeight_zero fun hmarks => ?_).le
  have htaken := h.taken x hx (by rw [hrival.named, hmarks.name]) hmarks.driver
  rw [hmarks.subDriver] at htaken
  cases htaken

theorem Rival.finds_some (hrival : Rival name br iface s) (h : Differ root name marked m s t)
    (hiface : iface.ptr ≠ m) {required : Bool} {r : Except Int Unit} {t' : OvsState}
    (hrun : linkIface env root br iface required t = some (r, t')) :
    ∃ e ∈ s.world.listed, t'.link iface.ptr = some e := by
  have hunlinked : t.link iface.ptr = none := (h.link iface.ptr hiface).trans hrival.unlinked
  have hnodup : t.world.listed.Nodup := by
    rw [h.world.listed]
    exact h.world.scanned.nodup
  obtain ⟨master, desc, w, ⟨-, htally⟩, -, hlink, -⟩ := linkIface_from_search hunlinked
    (linkSearch_marks hrival.writes hnodup) hrun
  have hfound := matchFound_eq desc
  rw [htally] at hfound
  obtain ⟨x, hx, hdriver, huntaken⟩ := h.world.untaken (by rw [hrival.named]; rfl)
  have hmarks : Marks iface t.world x := by
    refine ⟨?_, ?_, huntaken⟩
    · have hname := h.world.named x hx
      rw [hrival.named, Option.some.injEq] at hname
      rw [h.world.ifName, hname]
    · rw [h.world.driver, hdriver]
  have hsome : matchFound desc ≠ none := by
    rw [hfound, ne_eq, Tally.winner_none]
    intro hnone
    have hx' : x ∈ t.world.listed := by
      rw [h.world.listed]
      exact h.world.inList x hx
    exact absurd (markWeight_pos hmarks) (not_lt.mpr (hnone x hx'))
  obtain ⟨e, he⟩ := Option.ne_none_iff_exists'.mp hsome
  rw [he] at hfound
  refine ⟨e, ?_, by rw [hlink, he]⟩
  rw [← h.world.listed]
  exact (Tally.winner_some hfound.symm).1

theorem linkIface_parts (henv : env.ByName) (hbr : Elsewhere m br) (hiface : iface ∈ br.ifaces)
    (required : Bool) :
    Prog.Parts (Differ root name marked m) linkOf (· = iface.ptr)
      (Rival name br iface) (linkIface env root br iface required)
      (linkIface env root br iface required) := by
  refine ⟨fun s t h hfree => linkIface_ends henv hbr hiface required h hfree,
    fun s t h hrival r s' r' t' hrun hrun' => ⟨iface.ptr, rfl, ?_⟩⟩
  obtain ⟨e, -, he⟩ := hrival.finds_some h (hbr iface hiface) hrun'
  show s'.link iface.ptr ≠ t'.link iface.ptr
  rw [hrival.finds_none h.world hrun, he]
  exact nofun

theorem linkPortIface_parts (henv : env.ByName) (hbr : Elsewhere m br) (hiface : iface ∈ br.ifaces)
    (port : OvsPort) (master : Option IfPtr) :
    Prog.Parts (Differ root name marked m) linkOf (· = iface.ptr)
      (Rival name br iface) (linkPortIface env root br port master iface)
      (linkPortIface env root br port master iface) := by
  constructor
  · intro s t h hfree
    unfold linkPortIface
    apply (linkIface_ends henv hbr hiface false h hfree).bind
    intro _ s₁ t₁ _ h₁
    exact Prog.Alike.bind (linkedIface_alike (hbr iface hiface))
      (fun link => joinPort_alike port master link) s₁ t₁ h₁
  · intro s t h hrival r s' r' t' hrun hrun'
    refine ⟨iface.ptr, rfl, ?_⟩
    have hfound : ∃ e ∈ s.world.listed, t'.link iface.ptr = some e := by
      cases r' with
      | error err =>
        rcases linkPortIface_stops env root br port master iface t t rfl _ _ hrun' with
          hsearch | ⟨-, hsearch⟩
        · exact hrival.finds_some h (hbr iface hiface) hsearch
        · exact hrival.finds_some h (hbr iface hiface) hsearch
      | ok u =>
        obtain ⟨t₁, t₂, c, hturn⟩ := linkPortIface_turn env root br port master iface t t rfl _ _ hrun'
        obtain ⟨e, he, hlink⟩ := hrival.finds_some h (hbr iface hiface) hturn.search
        refine ⟨e, he, ?_⟩
        rw [hturn.link]
        cases hturn.obtains with
        | found _ heq => rw [heq, hlink]
        | created hnone _ _ =>
          rw [hlink] at hnone
          cases hnone
    obtain ⟨e, he, hlink'⟩ := hfound
    show s'.link iface.ptr ≠ t'.link iface.ptr
    rw [hlink']
    cases r with
    | error err =>
      rcases linkPortIface_stops env root br port master iface s s rfl _ _ hrun with
        hsearch | ⟨-, hsearch⟩
      · rw [hrival.finds_none h.world hsearch]
        exact nofun
      · rw [hrival.finds_none h.world hsearch]
        exact nofun
    | ok u =>
      obtain ⟨s₁, s₂, c, hturn⟩ := linkPortIface_turn env root br port master iface s s rfl _ _ hrun
      have hnone := hrival.finds_none h.world hturn.search
      rw [hturn.link]
      cases hturn.obtains with
      | found hsome _ =>
        rw [hnone] at hsome
        cases hsome
      | created _ hcreate heq =>
        rw [heq]
        dsimp only
        rw [Function.update_self]
        intro hce
        obtain rfl := Option.some.inj hce
        apply h.world.scanned.fresh c _ he
        rw [← hturn.looked.world.frame.free, hcreate.adds.free]
        exact List.mem_cons_self

/-! ## The whole linking -/

theorem portMaster_alike {ovsMaster : OvsIf} (hmain : ovsMaster.ptr ≠ m) (port : OvsPort) :
    Prog.Alike (Differ root name marked m) (portMaster root br ovsMaster port)
      (portMaster root br ovsMaster port) := by
  unfold portMaster
  apply Prog.Alike.get_bind
  intro s t h
  rw [h.link ovsMaster.ptr hmain]
  apply Prog.Alike.ite Iff.rfl
  · intro _
    apply Prog.Alike.bind (createIface_alike port.name br.name)
    intro link
    apply Prog.Alike.bind (modifyWorld_alike (masterSet_quiet _ link))
    intro _
    apply Prog.Alike.bind (modifyWorld_alike (labelPortOrIface_quiet port link))
    exact fun _ => Prog.Alike.pure _
  · exact fun _ => Prog.Alike.pure _

def PortRival (env : OvsEnv) (root : NsPtr) (name : Option CStr) (br : OvsBridge)
    (ovsMaster : OvsIf) (port : OvsPort) (s : OvsState) : Prop :=
  ∃ master s₁, portMaster root br ovsMaster port s = some (.ok master, s₁) ∧
    ∃ ifaces iface ifaces' s₂, port.ifaces = ifaces ++ iface :: ifaces' ∧
      Prog.forEach ifaces (linkPortIface env root br port master) s₁ = some (.ok (), s₂) ∧
      Rival name br iface s₂

def afterMain (env : OvsEnv) (root : NsPtr) (br : OvsBridge) (ovsMaster : OvsIf) :
    Except Int Unit → OvsProg Unit
  | .error err => if err = ENOENT ∨ err = ERANGE then pure () else Prog.throw err
  | .ok () => Prog.forEach br.ports (linkPort env root br ovsMaster)

theorem linkBridge_afterMain (env : OvsEnv) (root : NsPtr) {ovsMaster : OvsIf}
    (hmain : MainIface br ovsMaster) : linkBridge env root br =
      (Prog.attempt (linkIface env root br ovsMaster true) >>= afterMain env root br ovsMaster) :=
  linkBridge_main env root hmain

theorem nodup_parts {A : Type} {f : A → List OvsIf} {l : List A}
    (h : ((l.flatMap f).map OvsIf.ptr).Nodup) :
    (∀ x ∈ l, ((f x).map OvsIf.ptr).Nodup) ∧
      l.Pairwise fun x y => ∀ i ∈ f x, ∀ j ∈ f y, i.ptr ≠ j.ptr := by
  rw [List.map_flatMap, List.nodup_flatMap] at h
  refine ⟨h.1, h.2.imp fun hdisjoint i hi j hj heq => ?_⟩
  exact hdisjoint (List.mem_map_of_mem hi) (heq ▸ List.mem_map_of_mem hj)

section
variable (henv : env.ByName) (hbr : Elsewhere m br) (hdistinct : (br.ifaces.map OvsIf.ptr).Nodup)
include henv hbr hdistinct

theorem linkPort_parts {ovsMaster : OvsIf} (hmain : MainIface br ovsMaster) {port : OvsPort}
    (hport : port ∈ br.ports) :
    Prog.Parts (Differ root name marked m) linkOf (fun ptr => ∃ iface ∈ port.ifaces, ptr = iface.ptr)
      (PortRival env root name br ovsMaster port) (linkPort env root br ovsMaster port)
      (linkPort env root br ovsMaster port) := by
  rw [hmain.ifaces, List.map_cons, List.nodup_cons] at hdistinct
  have hmem : ∀ iface ∈ port.ifaces, iface ∈ br.ifaces := by
    intro iface hiface
    rw [hmain.ifaces]
    exact List.mem_cons_of_mem _ (List.mem_flatMap.mpr ⟨port, hport, hiface⟩)
  have hmainMem : ovsMaster ∈ br.ifaces := by
    rw [hmain.ifaces]
    exact List.mem_cons_self
  have hmaster : Prog.Parts (Differ root name marked m) linkOf (fun _ => False) (fun _ => False)
      (portMaster root br ovsMaster port) (portMaster root br ovsMaster port) :=
    Prog.Parts.of_alike (portMaster_alike (hbr ovsMaster hmainMem) port)
  have hspares : ∀ master, port.ifaces.Pairwise fun x y =>
      Prog.Spares linkOf (· = x.ptr) (linkPortIface env root br port master y) ∧
        Prog.Spares linkOf (· = x.ptr) (linkPortIface env root br port master y) := by
    intro master
    apply (List.pairwise_map.mp ((nodup_parts hdistinct.2).1 port hport)).imp
    intro x y hne
    have hspare : Prog.Spares linkOf (· = x.ptr) (linkPortIface env root br port master y) := by
      apply (linkPortIface_spares br port master y).mono
      rintro _ rfl
      exact hne
    exact ⟨hspare, hspare⟩
  have hloop := hmaster.bind (fun master => Prog.Parts.forEach
    (fun iface hiface => linkPortIface_parts henv hbr (hmem iface hiface) port master)
    (hspares master)) (fun _ _ _ _ _ _ => False.elim) fun _ _ _ _ _ _ => False.elim
  refine (hloop.mono fun ptr hptr => hptr.resolve_left id).congr fun s => ?_
  unfold PortRival
  simp only [false_or]

omit henv hbr in
/-- The main interface of a bridge is none of those of its ports. -/
theorem main_ptr_ne {ovsMaster : OvsIf} (hmain : MainIface br ovsMaster) {port : OvsPort}
    (hport : port ∈ br.ports) {iface : OvsIf} (hiface : iface ∈ port.ifaces) :
    ovsMaster.ptr ≠ iface.ptr := by
  rw [hmain.ifaces, List.map_cons, List.nodup_cons] at hdistinct
  intro heq
  apply hdistinct.1
  rw [heq]
  exact List.mem_map_of_mem (List.mem_flatMap.mpr ⟨port, hport, hiface⟩)

theorem linkPorts_parts {ovsMaster : OvsIf} (hmain : MainIface br ovsMaster) :
    Prog.Parts (Differ root name marked m) linkOf
      (fun ptr => ∃ port ∈ br.ports, ∃ iface ∈ port.ifaces, ptr = iface.ptr)
      (fun s => ∃ pre port post s', br.ports = pre ++ port :: post ∧
        Prog.forEach pre (linkPort env root br ovsMaster) s = some (.ok (), s') ∧
        PortRival env root name br ovsMaster port s')
      (Prog.forEach br.ports (linkPort env root br ovsMaster))
      (Prog.forEach br.ports (linkPort env root br ovsMaster)) := by
  have hparts := hdistinct
  rw [hmain.ifaces, List.map_cons, List.nodup_cons] at hparts
  have hspares : br.ports.Pairwise fun x y =>
      Prog.Spares linkOf (fun ptr => ∃ iface ∈ x.ifaces, ptr = iface.ptr)
          (linkPort env root br ovsMaster y) ∧
        Prog.Spares linkOf (fun ptr => ∃ iface ∈ x.ifaces, ptr = iface.ptr)
          (linkPort env root br ovsMaster y) := by
    apply (nodup_parts hparts.2).2.imp
    intro x y hne
    have hspare : Prog.Spares linkOf (fun ptr => ∃ iface ∈ x.ifaces, ptr = iface.ptr)
        (linkPort env root br ovsMaster y) := by
      apply (linkPort_spares br ovsMaster y).mono
      rintro _ ⟨i, hi, rfl⟩ j hj
      exact hne i hi j hj
    exact ⟨hspare, hspare⟩
  exact Prog.Parts.forEach (fun port hport => linkPort_parts henv hbr hdistinct hmain hport) hspares

theorem afterMain_parts {ovsMaster : OvsIf} (hmain : MainIface br ovsMaster)
    (r : Except Int Unit) :
    Prog.Parts (Differ root name marked m) linkOf
      (fun ptr => ∃ port ∈ br.ports, ∃ iface ∈ port.ifaces, ptr = iface.ptr)
      (fun s => r = .ok () ∧ ∃ pre port post s', br.ports = pre ++ port :: post ∧
        Prog.forEach pre (linkPort env root br ovsMaster) s = some (.ok (), s') ∧
        PortRival env root name br ovsMaster port s') (afterMain env root br ovsMaster r)
      (afterMain env root br ovsMaster r) := by
  cases r with
  | error err =>
    have halike : Prog.Alike (Differ root name marked m) (afterMain env root br ovsMaster (.error err))
        (afterMain env root br ovsMaster (.error err)) := by
      apply Prog.Alike.ite Iff.rfl
      · exact fun _ => Prog.Alike.pure ()
      · exact fun _ => Prog.Alike.throw err
    exact (Prog.Parts.of_alike halike).congr fun s => iff_of_false id fun h => absurd h.1 (by simp)
  | ok u => exact (linkPorts_parts henv hbr hdistinct hmain).congr fun s => (and_iff_right rfl).symm

omit henv hbr in
theorem afterMain_spares {ovsMaster : OvsIf} (hmain : MainIface br ovsMaster)
    (r : Except Int Unit) :
    Prog.Spares linkOf (· = ovsMaster.ptr) (afterMain env root br ovsMaster r) := by
  cases r with
  | error err =>
    show Prog.Spares _ _ (if err = ENOENT ∨ err = ERANGE then pure () else Prog.throw err)
    split_ifs
    · exact Prog.Spares.pure ()
    · exact Prog.Spares.throw err
  | ok u =>
    apply (linkPorts_spares br ovsMaster br.ports).mono
    rintro _ rfl port hport iface hiface
    exact main_ptr_ne hdistinct hmain hport hiface

omit henv hbr hdistinct in
/-- The searches of a bridge: that for its main interface, and those of its ports behind it. -/
theorem bridgeCall_rival_iff {ovsMaster : OvsIf} (hmain : MainIface br ovsMaster) (s : OvsState) :
    (Rival name br ovsMaster s ∨ ∃ r s₁, Prog.attempt (linkIface env root br ovsMaster true) s =
        some (.ok r, s₁) ∧ r = .ok () ∧ ∃ pre port post s', br.ports = pre ++ port :: post ∧
        Prog.forEach pre (linkPort env root br ovsMaster) s₁ = some (.ok (), s') ∧
        PortRival env root name br ovsMaster port s') ↔
      ∃ iface v, BridgeCall env root br s iface v ∧ Rival name br iface v := by
  constructor
  · rintro (hrival | ⟨r, s₁, hlinked, rfl, ports, port, ports', s₂, hports, hbefore, master, s₃,
      hmaster, ifaces, iface, ifaces', s₄, hifaces, hlast, hrival⟩)
    · exact ⟨ovsMaster, s, .main hmain, hrival⟩
    · obtain ⟨r, hlinked, heq⟩ := Prog.attempt_eq_some.mp hlinked
      obtain rfl := Except.ok.inj heq
      exact ⟨iface, s₄, .port hmain hlinked hports hbefore hmaster hifaces hlast, hrival⟩
  · rintro ⟨iface, v, hcall, hrival⟩
    cases hcall with
    | main hmain' =>
      obtain rfl := hmain.unique hmain'
      exact .inl hrival
    | port hmain' hlinked hports hbefore hmaster hifaces hlast =>
      obtain rfl := hmain.unique hmain'
      exact .inr ⟨.ok (), _, Prog.attempt_eq_some.mpr ⟨_, hlinked, rfl⟩, rfl, _, _, _, _, hports,
        hbefore, _, _, hmaster, _, _, _, _, hifaces, hlast, hrival⟩

theorem linkBridge_parts :
    Prog.Parts (Differ root name marked m) linkOf (fun ptr => ∃ iface ∈ br.ifaces, ptr = iface.ptr)
      (fun s => ∃ iface v, BridgeCall env root br s iface v ∧ Rival name br iface v)
      (linkBridge env root br) (linkBridge env root br) := by
  by_cases hmain : ∃ ovsMaster, MainIface br ovsMaster
  swap
  · obtain ⟨text, hskipped⟩ := linkBridge_skipped env root (not_exists.mp hmain)
    rw [hskipped]
    refine (Prog.Parts.of_alike (labelAdd_alike root text)).congr fun s => ?_
    refine iff_of_false id ?_
    rintro ⟨iface, v, hcall, -⟩
    cases hcall with
    | main h => exact hmain ⟨_, h⟩
    | port h _ _ _ _ _ _ => exact hmain ⟨_, h⟩
  obtain ⟨ovsMaster, hmain⟩ := hmain
  have hmainMem : ovsMaster ∈ br.ifaces := by
    rw [hmain.ifaces]
    exact List.mem_cons_self
  have hnext : ∀ r, Prog.Parts (Differ root name marked m) linkOf _ _
      (afterMain env root br ovsMaster r) (afterMain env root br ovsMaster r) :=
    afterMain_parts henv hbr hdistinct hmain
  have hspare : ∀ r, Prog.Spares linkOf (· = ovsMaster.ptr) (afterMain env root br ovsMaster r) :=
    afterMain_spares hdistinct hmain
  have hwhole := (linkIface_parts henv hbr hmainMem true).attempt.bind hnext hspare hspare
  rw [linkBridge_afterMain env root hmain]
  refine (hwhole.mono fun ptr hptr => ?_).congr (bridgeCall_rival_iff hmain)
  rcases hptr with rfl | ⟨port, hport, iface, hiface, rfl⟩
  · exact ⟨ovsMaster, hmainMem, rfl⟩
  · refine ⟨iface, ?_, rfl⟩
    rw [hmain.ifaces]
    exact List.mem_cons_of_mem _ (List.mem_flatMap.mpr ⟨port, hport, hiface⟩)

end

/-- The linking of the bridges tells the states apart exactly where it gets to a search for the
name, and then by the links of their interfaces. -/
theorem linkIfaces_parts (henv : env.ByName) {brList : List OvsBridge}
    (helse : ∀ iface ∈ allIfaces brList, iface.ptr ≠ m)
    (hdistinct : ((allIfaces brList).map OvsIf.ptr).Nodup) :
    Prog.Parts (Differ root name marked m) linkOf
      (fun ptr => ∃ iface ∈ allIfaces brList, ptr = iface.ptr)
      (fun s => ∃ br iface v, LinkCall env root brList s br iface v ∧ Rival name br iface v)
      (linkIfaces env root brList) (linkIfaces env root brList) := by
  obtain ⟨hnodup, hpairs⟩ := nodup_parts hdistinct
  have hin : ∀ br ∈ brList, ∀ iface ∈ br.ifaces, iface ∈ allIfaces brList :=
    fun br hbr iface hiface => List.mem_flatMap.mpr ⟨br, hbr, hiface⟩
  have hspares : brList.Pairwise fun x y =>
      Prog.Spares linkOf (fun ptr => ∃ iface ∈ x.ifaces, ptr = iface.ptr) (linkBridge env root y) ∧
        Prog.Spares linkOf (fun ptr => ∃ iface ∈ x.ifaces, ptr = iface.ptr)
          (linkBridge env root y) := by
    apply hpairs.imp
    intro x y hne
    have hspare : Prog.Spares linkOf (fun ptr => ∃ iface ∈ x.ifaces, ptr = iface.ptr)
        (linkBridge env root y) := by
      apply (linkBridge_spares y).mono
      rintro _ ⟨i, hi, rfl⟩ j hj
      exact hne i hi j hj
    exact ⟨hspare, hspare⟩
  have hbridge : ∀ br ∈ brList, Prog.Parts (Differ root name marked m) linkOf
      (fun ptr => ∃ iface ∈ br.ifaces, ptr = iface.ptr)
      (fun s => ∃ iface v, BridgeCall env root br s iface v ∧ Rival name br iface v)
      (linkBridge env root br) (linkBridge env root br) := fun br hbr =>
    linkBridge_parts henv (fun iface hiface => helse iface (hin br hbr iface hiface)) (hnodup br hbr)
  have hloop := Prog.Parts.forEach hbridge hspares
  refine (hloop.mono fun ptr hptr => ?_).congr fun s => ?_
  · obtain ⟨br, hbr, iface, hiface, rfl⟩ := hptr
    exact ⟨iface, hin br hbr iface hiface, rfl⟩
  · constructor
    · rintro ⟨done, br, rest, s', hsplit, hdone, iface, v, hcall, hrival⟩
      exact ⟨br, iface, v, ⟨done, rest, s', hsplit, hdone, hcall⟩, hrival⟩
    · rintro ⟨br, iface, v, ⟨done, rest, s', hsplit, hdone, hcall⟩, hrival⟩
      exact ⟨done, br, rest, s', hsplit, hdone, iface, v, hcall, hrival⟩

end

end Plotnetcfg.Openvswitch
