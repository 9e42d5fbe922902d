import Plotnetcfg.Handlers.FillSteps
import Plotnetcfg.Handlers.Openvswitch.LinkSteps

/-! The handler of Open vSwitch as a run of steps: whatever it is given, and also where it gives
up, it gets from one topology to the next by steps of `FillSteps`. -/

namespace Plotnetcfg.Openvswitch

open Handlers (PostCalls PostInput PostStep PostRun bridgeNames)

theorem tunnelFindStr_holder (inetPton : Int → CStr → Option (List UInt8)) (ns : NsPtr)
    (addr : CStr) (w : World) :
    Prog.Runs (· = w) (tunnelFindStr inetPton ns addr)
      (fun found w' => (∀ x ∈ found, ∃ family raw, addrParseRaw inetPton addr = some (family, raw) ∧
        w.addrHolder ns { family := family, raw := some raw } = some x) ∧ w' = w)
      fun _ => False := by
  unfold tunnelFindStr
  cases hparse : addrParseRaw inetPton addr with
  | none => exact Prog.Triple.pure fun _ hw => ⟨nofun, hw⟩
  | some data =>
    obtain ⟨family, raw⟩ := data
    apply (tunnelFindAddr_holder _ ns).weaken (fun _ => id)
    rintro found w' ⟨rfl, hw⟩
    exact ⟨fun x hx => ⟨family, raw, rfl, hx⟩, hw⟩

theorem linkPatchSearch_finds (iface : OvsIf) (w : World) :
    Prog.Runs (· = w) (matchIf { netnsList := some w.nsList } (linkPatchSearch iface))
      (fun desc w' => (∀ x, matchFound desc = some x → x ∈ w.listed ∧
        iface.peer = some (w.ifs x).ifName ∧ (w.ifs x).flags.internal = true) ∧ w' = w)
      fun _ => False := by
  apply matchIf_finds _ rfl _ ⟨le_refl 0, nofun⟩
  rintro v rfl n hn e he
  apply Prog.Triple.bind (Q := fun w₁ w => w₁ = v ∧ w = v) (Prog.Triple.get fun _ hw => ⟨hw, hw⟩)
  intro w₁
  apply Prog.Triple.of_and
  rintro rfl
  apply Prog.Triple.ite
  · exact fun _ => Prog.Triple.pure fun _ hw =>
      ⟨fun h => absurd h (by decide), fun h => absurd h (by decide), hw⟩
  · intro hmatch
    rw [not_or, not_not, Bool.not_eq_true, Bool.not_eq_false'] at hmatch
    exact Prog.Triple.pure fun _ hw => ⟨fun h => absurd h (by decide),
      fun _ => ⟨World.mem_listed.mpr ⟨n, hn, he⟩, hmatch⟩, hw⟩

theorem mem_allIfaces {brList : List OvsBridge} {br : OvsBridge} (hbr : br ∈ brList)
    {port : OvsPort} (hport : port ∈ br.ports) {iface : OvsIf} (hiface : iface ∈ port.ifaces) :
    iface ∈ allIfaces brList := by
  apply List.mem_flatMap.mpr ⟨br, hbr, _⟩
  exact List.mem_flatMap.mpr ⟨port, List.mem_append_right _ hport, hiface⟩

theorem mem_bridgeNames {brList : List OvsBridge} {iface : OvsIf}
    (hiface : iface ∈ allIfaces brList) : iface.name ∈ bridgeNames brList :=
  List.mem_append_left _ (List.mem_map_of_mem hiface)

theorem MainIface.mem_allIfaces {brList : List OvsBridge} {br : OvsBridge} (hbr : br ∈ brList)
    {main : OvsIf} (hmain : MainIface br main) : main ∈ allIfaces brList := by
  apply List.mem_flatMap.mpr ⟨br, hbr, _⟩
  rw [hmain.ifaces]
  exact List.mem_cons_self

theorem addConfig_unlabelled (key : CStr) (value : Option CStr) (x : IfEntry) :
    (addConfig key value x).unlabelled = x.unlabelled := by
  cases value <;> rfl

theorem labelIface_unlabelled (iface : OvsIf) (x : IfEntry) :
    (labelIface iface x).unlabelled = x.unlabelled := by
  have htype : (if iface.type ≠ [] then addConfig (cstr "type") (some iface.type) x
      else x).unlabelled = x.unlabelled := by
    split_ifs
    · rfl
    · rfl
  unfold labelIface
  dsimp only
  rw [addConfig_unlabelled, addConfig_unlabelled, addConfig_unlabelled, addConfig_unlabelled, htype]

theorem labelPortOrIface_unlabelled (port : OvsPort) (x : IfEntry) :
    (labelPortOrIface port x).unlabelled = x.unlabelled := by
  unfold labelPortOrIface
  dsimp only
  rw [addConfig_unlabelled]
  split_ifs <;> rfl

/-! ## The turns that are reached -/

/-- The turn of an interface of a port that has got the entry `link`. -/
structure Join where
  port : OvsPort
  iface : OvsIf
  master : Option IfPtr
  link : IfPtr

def Join.joined (j : Join) (w : World) : World :=
  ((masterSet j.master j.link w).modifyIf j.link (labelIface j.iface)).modifyIf j.link fun x =>
    if j.port.ifaceCount = 1 then labelPortOrIface j.port x else x

section
variable (env : OvsEnv) (root : NsPtr)

/-- The turns that the linking of a port gets to, each with the state it starts in. -/
inductive PortJoin (br : OvsBridge) (ovsMaster : OvsIf) (port : OvsPort) (s : OvsState) :
    Join → OvsState → Prop where
  | iface {master : Option IfPtr} {ifaces ifaces' : List OvsIf} {iface : OvsIf} {link : IfPtr}
      {t t' t'' u : OvsState}
      (hmaster : portMaster root br ovsMaster port s = some (.ok master, t))
      (hifaces : port.ifaces = ifaces ++ iface :: ifaces')
      (hbefore : Prog.forEach ifaces (linkPortIface env root br port master) t =
        some (.ok (), t'))
      (hsearch : linkIface env root br iface false t' = some (.ok (), t''))
      (hlinked : linkedIface root br iface t'' = some (.ok link, u)) :
      PortJoin br ovsMaster port s ⟨port, iface, master, link⟩ u

inductive BridgeJoin (br : OvsBridge) (s : OvsState) : Join → OvsState → Prop where
  | port {ovsMaster : OvsIf} {ports ports' : List OvsPort} {port : OvsPort} {s₁ s₂ u : OvsState}
      {j : Join} (hmain : MainIface br ovsMaster)
      (hlinked : linkIface env root br ovsMaster true s = some (.ok (), s₁))
      (hports : br.ports = ports ++ port :: ports')
      (hbefore : Prog.forEach ports (linkPort env root br ovsMaster) s₁ = some (.ok (), s₂))
      (hjoin : PortJoin env root br ovsMaster port s₂ j u) : BridgeJoin br s j u

def JoinCall (brList : List OvsBridge) (s₀ : OvsState) (j : Join) (u : OvsState) : Prop :=
  ∃ done br rest s, brList = done ++ br :: rest ∧
    linkIfaces env root done s₀ = some (.ok (), s) ∧ BridgeJoin env root br s j u

end

def TunnelFound (env : OvsEnv) (j : Join) (w : World) (found : IfPtr) : Prop :=
  ifaceIsTunnel j.iface = true ∧ ∃ localIp ∈ j.iface.localIp, localIp ≠ [] ∧
    tunnelFindStr env.inetPton (w.ifs j.link).ns localIp w = some (.ok (some found), w)

def PatchFound (j : Join) (w : World) (found : IfPtr) : Prop :=
  ifaceIsTunnel j.iface = false ∧ j.iface.type = cstr "patch" ∧ ∃ desc,
    matchIf { netnsList := some w.nsList } (linkPatchSearch j.iface) w = some (.ok desc, w) ∧
      matchAmbiguous desc = false ∧ matchFound desc = some found

/-- The calls that are made in a turn are among `calls`. -/
structure Join.Makes (calls : PostCalls) (env : OvsEnv) (j : Join) (w : World) : Prop where
  self : j.master = some j.link → calls.self j.link
  tunnel : ∀ found, TunnelFound env j (j.joined w) found → calls.tunnel j.link found
  patch : ∀ found, PatchFound j (j.joined w) found → calls.pair j.link found

/-- The state of the handler on its way from the topology `w₀`. -/
structure Linking (input : PostInput) (w₀ : World) (s : OvsState) : Prop where
  run : PostRun input w₀ s.world
  links : ∀ i ∈ allIfaces input.bridges, ∀ e, s.link i.ptr = some e →
    e ∈ s.world.listed ∧ (s.world.ifs e).ifName = i.name

section
variable {input : PostInput} {w₀ : World} {s : OvsState} {E : OvsState → Prop}

theorem Linking.fits (hfits : input.Fits w₀) (h : Linking input w₀ s) : input.Fits s.world :=
  hfits.extends (h.run.extends hfits)

theorem Linking.run_next (hfits : input.Fits w₀) (h : Linking input w₀ s) {w : World}
    (hrun : PostRun input s.world w) : Linking input w₀ { s with world := w } where
  run := h.run.trans hrun
  links i hi e he := by
    have hext := hrun.extends (h.fits hfits)
    obtain ⟨hlisted, hname⟩ := h.links i hi e he
    exact ⟨hext.listed e hlisted, (hext.ifName hlisted).trans hname⟩

theorem Linking.step (hfits : input.Fits w₀) (h : Linking input w₀ s) {w : World}
    (hstep : PostStep input s.world w) : Linking input w₀ { s with world := w } :=
  h.run_next hfits (.single hstep)

theorem Linking.trans (h : Linking input w₀ s) {s' : OvsState}
    (h' : Linking input s.world s') : Linking input w₀ s' :=
  ⟨h.run.trans h'.run, h'.links⟩

theorem Linking.restart (h : Linking input w₀ s) : Linking input s.world s := ⟨.refl, h.links⟩

section
variable (hdistinct : ((allIfaces input.bridges).map OvsIf.ptr).Nodup)
include hdistinct

theorem Linking.setLink (h : Linking input w₀ s) {iface : OvsIf}
    (hiface : iface ∈ allIfaces input.bridges) {link : Option IfPtr}
    (hlink : ∀ e ∈ link, e ∈ s.world.listed ∧ (s.world.ifs e).ifName = iface.name) :
    Linking input w₀ { s with link := Function.update s.link iface.ptr link } where
  run := h.run
  links i hi e he := by
    dsimp only at he ⊢
    rw [Function.update_apply] at he
    split_ifs at he with hptr
    · obtain rfl := List.inj_on_of_nodup_map hdistinct hi hiface hptr
      exact hlink e he
    · exact h.links i hi e he

end

variable (hfits : input.Fits w₀)
include hfits

theorem modifyWorld_linking {f : World → World}
    (hf : ∀ w, w₀.Extends input.root input.names w → PostStep input w (f w)) :
    Prog.Runs (Linking input w₀) (modifyWorld f) (fun _ => Linking input w₀) E := by
  unfold modifyWorld onWorld
  apply Prog.Triple.zoom
  intro s hs
  apply Prog.Triple.modify
  rintro _ rfl
  exact hs.step hfits (hf s.world (hs.run.extends hfits))

theorem label_linking (e : IfPtr) {f : IfEntry → IfEntry}
    (hf : ∀ x, (f x).unlabelled = x.unlabelled) :
    Prog.Runs (Linking input w₀) (modifyWorld (·.modifyIf e f)) (fun _ => Linking input w₀) E :=
  modifyWorld_linking hfits fun _ _ => .label e hf

theorem labelAdd_linking (ns : NsPtr) (text : CStr) :
    Prog.Runs (Linking input w₀) (labelAdd ns text) (fun _ => Linking input w₀) E :=
  Prog.Triple.modify fun _ hs => hs.step hfits (.warn ns text)

/-! ## Finding and creating interfaces -/

omit hfits in
theorem linkSearch_linking (br : OvsBridge) (master : Option IfPtr) (iface : OvsIf)
    (s : OvsState) :
    Prog.Runs (· = s) (onWorld (matchIf { netnsList := some s.world.nsList }
      (linkIfaceSearch input.ovs br.dpType master iface)))
      (fun desc s' => (PostRun input s.world s'.world ∧ s'.link = s.link) ∧
        ∀ e ∈ matchFound desc, e ∈ s.world.listed ∧ (s.world.ifs e).ifName = iface.name)
      fun _ => False := by
  have hmarks : Prog.Runs (PostRun input s.world) (matchIf { netnsList := some s.world.nsList }
      (linkIfaceSearch input.ovs br.dpType master iface)) (fun _ => PostRun input s.world)
      fun _ => True := by
    apply (matchIf_triple (fun _ => True) _ (fun e => ?_) (fun _ _ _ _ _ _ => trivial)
      fun _ _ => trivial).weaken (fun _ => id) fun _ _ => And.right
    have hcallback := linkIfaceSearch_triple (I := PostRun input s.world) (E := fun _ => True)
      input.ovs br.dpType master iface e fun w hw => hw.tail (.label e fun _ => rfl)
    exact hcallback.weaken (fun _ => id) fun _ _ h => ⟨fun _ => trivial, h.2⟩
  have hrun : Prog.Runs (· = s) (onWorld (matchIf { netnsList := some s.world.nsList }
      (linkIfaceSearch input.ovs br.dpType master iface)))
      (fun _ s' => PostRun input s.world s'.world) fun _ => True := by
    apply Prog.Triple.zoom
    rintro _ rfl w rfl r w' hsearch
    have hpost := hmarks _ .refl r w' hsearch
    cases r with
    | ok desc => exact hpost
    | error err => trivial
  have hfound := linkSearch_finds input.ovs br master iface s
  apply ((hrun.and hfound).weakenError fun _ _ h => h.2).weaken (fun _ => id)
  rintro desc s' ⟨hrun', hmatches, -, hlink⟩
  refine ⟨⟨hrun', hlink⟩, fun e he => ?_⟩
  exact ⟨(hmatches e he).listed, (hmatches e he).name⟩

variable (hdistinct : ((allIfaces input.bridges).map OvsIf.ptr).Nodup)

include hdistinct in
theorem linkIface_linking (br : OvsBridge) {iface : OvsIf}
    (hiface : iface ∈ allIfaces input.bridges) (required : Bool) :
    Prog.Runs (Linking input w₀) (linkIface input.ovs input.root br iface required)
      (fun _ => Linking input w₀) (Linking input w₀) := by
  unfold linkIface
  apply Prog.Triple.bind (Q := fun s₁ s => s = s₁ ∧ Linking input w₀ s)
    (Prog.Triple.get fun s hs => ⟨rfl, hs⟩)
  intro s₁
  apply Prog.Triple.ite
  · exact fun _ => Prog.Triple.pure fun _ hs => hs.2
  intro _
  apply Prog.Triple.bind (Q := fun _ s => s = s₁ ∧ Linking input w₀ s)
    (Prog.Triple.deref fun _ _ _ hs => hs)
  intro system
  apply Prog.Triple.bind (Q := fun _ s => s = s₁ ∧ Linking input w₀ s)
    (Prog.Triple.deref fun _ _ _ hs => hs)
  intro main
  have hsearch : Prog.Runs (fun s => s = s₁ ∧ Linking input w₀ s)
      (onWorld (matchIf { netnsList := some s₁.world.nsList }
        (linkIfaceSearch input.ovs br.dpType (s₁.link main.ptr) iface)))
      (fun desc s => Linking input w₀ s ∧ ∀ e ∈ matchFound desc,
        e ∈ s.world.listed ∧ (s.world.ifs e).ifName = iface.name) (Linking input w₀) := by
    rintro s ⟨rfl, hs⟩ r s' hrun
    have hpost := linkSearch_linking br (s.link main.ptr) iface s s rfl r s' hrun
    cases r with
    | error err => exact hpost.elim
    | ok desc =>
      obtain ⟨⟨hreached, hlink⟩, hfound⟩ := hpost
      have hext := hreached.extends (hs.fits hfits)
      have hnext := hs.run_next hfits hreached
      refine ⟨⟨hnext.run, fun i hi e he => hnext.links i hi e (hlink ▸ he)⟩, fun e he => ?_⟩
      obtain ⟨hlisted, hname⟩ := hfound e he
      exact ⟨hext.listed e hlisted, (hext.ifName hlisted).trans hname⟩
  apply Prog.Triple.bind hsearch
  intro desc
  apply Prog.Triple.bind (Q := fun _ => Linking input w₀)
  · exact Prog.Triple.modify fun s hs => hs.1.setLink hdistinct hiface hs.2
  intro _
  have hwarn : ∀ text err, Prog.Runs (Linking input w₀)
      (do labelAdd input.root text; Prog.throw err : OvsProg Unit)
      (fun _ => Linking input w₀) (Linking input w₀) := fun text err =>
    Prog.Triple.bind (labelAdd_linking hfits _ text) fun _ => Prog.Triple.throw fun _ => id
  apply Prog.Triple.ite
  · exact fun _ => hwarn _ _
  intro _
  apply Prog.Triple.ite
  · exact fun _ => hwarn _ _
  · exact fun _ => Prog.Triple.pure fun _ => id

omit hfits in
theorem addIface_created (name brName : CStr) (e : IfPtr) (w : World) (root : NsPtr) :
    (addIface root name brName e (w.modifyIf e fun _ => {})).ifs e =
      createdIface root name brName := by
  simp [addIface, createdIface]

theorem createIface_linking {name : CStr} (hname : name ∈ bridgeNames input.bridges)
    (brName : CStr) :
    Prog.Runs (Linking input w₀) (createIface input.root name brName)
      (fun e s => Linking input w₀ s ∧ e ∈ s.world.listed ∧ (s.world.ifs e).ifName = name ∧
        ∀ i ∈ allIfaces input.bridges, s.link i.ptr ≠ some e) (Linking input w₀) := by
  intro s hs r s' hrun
  have hcreates := createIface_creates input.root name brName s s rfl r s' hrun
  cases r with
  | error err => exact hcreates ▸ hs
  | ok e =>
    have hworld : s'.world.ifs e = createdIface input.root name brName ∧
        ∀ n, (s'.world.nss n).bare = (s.world.nss n).bare := by
      unfold createIface ifCreate at hrun
      cases hfree : s.world.free with
      | nil => simp [hfree] at hrun
      | cons x free =>
        simp only [hfree, Option.some.injEq, Prod.mk.injEq, Except.ok.injEq] at hrun
        obtain ⟨rfl, rfl⟩ := hrun
        refine ⟨addIface_created name brName x _ _, fun n => ?_⟩
        unfold addIface
        rw [World.modifyNs_nss]
        split_ifs <;> rfl
    have hstep : PostStep input s.world s'.world :=
      .create hcreates.adds hworld.2 ⟨name, hname, brName, hworld.1⟩
    have hs' : Linking input w₀ s' := by
      have hnext := hs.step hfits hstep
      exact ⟨hnext.run, fun i hi x hx => hnext.links i hi x (hcreates.link ▸ hx)⟩
    have hfits' := hs.fits hfits
    refine ⟨hs', ?_, hcreates.ifName, fun i hi hlink => ?_⟩
    · exact (hcreates.adds.mem_listed hfits'.scanned hfits'.root).mpr (.inl rfl)
    · have hold := (hs.links i hi e (hcreates.link ▸ hlink)).1
      exact hfits'.scanned.fresh e (by rw [hcreates.adds.free]; exact List.mem_cons_self) hold

include hdistinct in
theorem linkedIface_linking (br : OvsBridge) {iface : OvsIf}
    (hiface : iface ∈ allIfaces input.bridges) :
    Prog.Runs (Linking input w₀) (linkedIface input.root br iface)
      (fun e s => Linking input w₀ s ∧ e ∈ s.world.listed ∧ (s.world.ifs e).ifName = iface.name)
      (Linking input w₀) := by
  unfold linkedIface
  apply Prog.Triple.bind (Q := fun s₁ s => s = s₁ ∧ Linking input w₀ s)
    (Prog.Triple.get fun s hs => ⟨rfl, hs⟩)
  intro s₁
  cases hlink : s₁.link iface.ptr with
  | some e =>
    apply Prog.Triple.pure
    rintro s ⟨rfl, hs⟩
    exact ⟨hs, hs.links iface hiface e hlink⟩
  | none =>
    have hcreate := createIface_linking hfits (mem_bridgeNames hiface) br.name
    apply Prog.Triple.bind (hcreate.weaken (fun s hs => hs.2) fun _ _ => id)
    intro e
    apply Prog.Triple.bind (Q := fun _ s => Linking input w₀ s ∧ e ∈ s.world.listed ∧
      (s.world.ifs e).ifName = iface.name)
    · apply Prog.Triple.modify
      rintro s ⟨hs, hlisted, hname, -⟩
      refine ⟨hs.setLink hdistinct hiface ?_, hlisted, hname⟩
      intro x hx
      obtain rfl := Option.some.inj hx
      exact ⟨hlisted, hname⟩
    · exact fun _ => Prog.Triple.pure fun _ => id

/-! ## Tunnels and patch ports -/

omit hfits in
theorem modifyWorld_to (f : World → World) (s : OvsState) :
    Prog.Runs (· = s) (modifyWorld f) (fun _ s' => s' = { s with world := f s.world }) E := by
  unfold modifyWorld onWorld
  apply Prog.Triple.zoom
  rintro _ rfl
  apply Prog.Triple.modify
  rintro _ rfl
  rfl

theorem linkTunnel_linking (hs : Linking input w₀ s) {j : Join} (hlink : j.link ∈ s.world.listed)
    (htunnel : ifaceIsTunnel j.iface = true)
    (hcall : ∀ found, TunnelFound input.ovs j s.world found → input.calls.tunnel j.link found) :
    Prog.Runs (· = s) (linkTunnel input.ovs j.iface j.link) (fun _ => Linking input w₀) E := by
  have hlabel := label_linking (E := E) hfits j.link
    (f := fun x => { x with flags := { x.flags with linkWeak := true } }) fun _ => rfl
  have hscanned := (hs.fits hfits).scanned
  unfold linkTunnel
  split
  · exact Prog.Triple.pure fun _ hs' => hs' ▸ hs
  · exact Prog.Triple.pure fun _ hs' => hs' ▸ hs
  next localIp hne hlocal =>
    apply Prog.Triple.bind (Q := fun s₁ s' => s₁ = s ∧ s' = s) (Prog.Triple.get fun _ hs' => ⟨hs', hs'⟩)
    intro s₁
    apply Prog.Triple.of_and
    rintro rfl
    -- the search changes nothing
    apply Prog.Triple.bind (Q := fun found s' => s' = s₁ ∧ ∀ x ∈ found,
      x ∈ s₁.world.listed ∧ TunnelFound input.ovs j s₁.world x)
    · unfold onWorld
      apply Prog.Triple.zoom
      rintro _ rfl
      rintro _ rfl r w hrun
      have hpost := tunnelFindStr_holder input.ovs.inetPton _ localIp _ _ rfl r w hrun
      cases r with
      | error err => exact hpost.elim
      | ok found =>
        obtain ⟨hfound, rfl⟩ := hpost
        refine ⟨rfl, fun x hx => ?_⟩
        obtain ⟨family, raw, -, hholder⟩ := hfound x hx
        obtain rfl : found = some x := hx
        have hns := hscanned.ns_mem hlink
        have hnodup := (List.nodup_flatMap.mp hscanned.nodup).1 _ hns
        have hmem := ((addrHolder_eq_some _ hnodup).mp hholder).1
        exact ⟨World.mem_listed.mpr ⟨_, hns, hmem⟩, htunnel, localIp, hlocal, hne, hrun⟩
    intro found
    have hset : Prog.Runs (fun s' => s' = s₁ ∧ ∀ x ∈ found,
        x ∈ s₁.world.listed ∧ TunnelFound input.ovs j s₁.world x)
        (modifyWorld (linkSet found (some j.link))) (fun _ => Linking input w₀) E := by
      rintro _ ⟨rfl, hfound⟩ r s' hrun
      have hpost := modifyWorld_to (E := E) (linkSet found (some j.link)) _ _ rfl r s' hrun
      cases r with
      | error err => exact hpost
      | ok u =>
        rw [hpost]
        apply hs.step hfits
        cases found with
        | none => exact .unlink j.link
        | some x =>
          obtain ⟨hlisted, hcalled⟩ := hfound x rfl
          exact .tunnel hlink hlisted (hcall x hcalled)
    exact Prog.Triple.bind hset fun _ => hlabel

theorem linkPatch_linking (hs : Linking input w₀ s) {j : Join} (hlink : j.link ∈ s.world.listed)
    (htunnel : ifaceIsTunnel j.iface = false) (htype : j.iface.type = cstr "patch")
    (hcall : ∀ found, PatchFound j s.world found → input.calls.pair j.link found) :
    Prog.Runs (· = s) (linkPatch j.iface j.link) (fun _ => Linking input w₀) E := by
  unfold linkPatch
  apply Prog.Triple.bind (Q := fun s₁ s' => s₁ = s ∧ s' = s) (Prog.Triple.get fun _ hs' => ⟨hs', hs'⟩)
  intro s₁
  apply Prog.Triple.of_and
  rintro rfl
  apply Prog.Triple.bind (Q := fun desc s' => s' = s₁ ∧
    matchIf { netnsList := some s₁.world.nsList } (linkPatchSearch j.iface) s₁.world =
      some (.ok desc, s₁.world) ∧ ∀ x, matchFound desc = some x → x ∈ s₁.world.listed)
  · unfold onWorld
    apply Prog.Triple.zoom
    rintro _ rfl
    rintro _ rfl r w hrun
    have hpost := linkPatchSearch_finds j.iface _ _ rfl r w hrun
    cases r with
    | error err => exact hpost.elim
    | ok desc =>
      obtain ⟨hfound, rfl⟩ := hpost
      exact ⟨rfl, hrun, fun x hx => (hfound x hx).1⟩
  intro desc
  apply Prog.Triple.ite
  · intro _
    rintro _ ⟨rfl, -⟩ r s' hrun
    have hpost := modifyWorld_to (E := E) (ifAddWarning j.link _) _ _ rfl r s' hrun
    cases r with
    | error err => exact hpost
    | ok u =>
      rw [hpost]
      exact hs.run_next hfits (Handlers.ifAddWarning_run j.link _ _)
  · intro hsole
    rw [Bool.not_eq_true] at hsole
    cases hfound : matchFound desc with
    | none => exact Prog.Triple.pure fun _ hs' => hs'.1 ▸ hs
    | some found =>
      rintro _ ⟨rfl, hsearch, hlisted⟩ r s' hrun
      have hpost := modifyWorld_to (E := E) (peerSet (some j.link) (some found)) _ _ rfl r s' hrun
      cases r with
      | error err => exact hpost
      | ok u =>
        rw [hpost]
        exact hs.step hfits (.pair hlink (hlisted found rfl)
          (hcall found ⟨htunnel, htype, desc, hsearch, hsole, hfound⟩))

/-! ## Ports and bridges -/

theorem join_linking (hs : Linking input w₀ s) {j : Join} (hlink : j.link ∈ s.world.listed)
    (hmaster : ∀ m ∈ j.master, m ∈ s.world.listed)
    (hcalls : j.Makes input.calls input.ovs s.world) :
    Prog.Runs (· = s) (do
        modifyWorld (masterSet j.master j.link)
        modifyWorld (·.modifyIf j.link (labelIface j.iface))
        modifyWorld (·.modifyIf j.link fun x =>
          if j.port.ifaceCount = 1 then labelPortOrIface j.port x else x)
        if ifaceIsTunnel j.iface then linkTunnel input.ovs j.iface j.link
        else if j.iface.type = cstr "patch" then linkPatch j.iface j.link
        else pure ()) (fun _ => Linking input w₀) E := by
  have henslaved := hs.step hfits (.enslave hlink hmaster hcalls.self)
  have hlabelled := henslaved.step hfits (.label j.link (labelIface_unlabelled j.iface))
  have hjoined : Linking input w₀ { s with world := j.joined s.world } := by
    apply hlabelled.step hfits (.label j.link _)
    intro x
    split_ifs
    · exact labelPortOrIface_unlabelled j.port x
    · rfl
  have hlisted : j.link ∈ (j.joined s.world).listed := by
    have hsame : (j.joined s.world).listed = (masterSet j.master j.link s.world).listed := rfl
    rw [hsame, (masterSet_frame s.world j.master j.link).listed]
    exact hlink
  apply Prog.Triple.bind (modifyWorld_to _ s)
  intro _
  apply Prog.Triple.bind (modifyWorld_to _ _)
  intro _
  apply Prog.Triple.bind (modifyWorld_to _ _)
  intro _
  apply Prog.Triple.ite
  · exact fun htunnel => linkTunnel_linking hfits hjoined hlisted htunnel hcalls.tunnel
  intro htunnel
  rw [Bool.not_eq_true] at htunnel
  apply Prog.Triple.ite
  · exact fun htype => linkPatch_linking hfits hjoined hlisted htunnel htype hcalls.patch
  · intro _
    apply Prog.Triple.pure
    rintro _ rfl
    exact hjoined

include hdistinct in
theorem linkPortIface_linking {br : OvsBridge} (hbr : br ∈ input.bridges) {port : OvsPort}
    (hport : port ∈ br.ports) {iface : OvsIf} (hiface : iface ∈ port.ifaces)
    {master : Option IfPtr} (hs : Linking input w₀ s) (hmaster : ∀ m ∈ master, m ∈ s.world.listed)
    (hcalls : ∀ t u link, linkIface input.ovs input.root br iface false s = some (.ok (), t) →
      linkedIface input.root br iface t = some (.ok link, u) →
      Join.Makes input.calls input.ovs ⟨port, iface, master, link⟩ u.world) :
    Prog.Runs (· = s) (linkPortIface input.ovs input.root br port master iface)
      (fun _ => Linking input w₀) (Linking input w₀) := by
  have hall : iface ∈ allIfaces input.bridges := mem_allIfaces hbr hport hiface
  have hfits' := hs.fits hfits
  have hsearch : Prog.Runs (· = s) (linkIface input.ovs input.root br iface false)
      (fun _ t => linkIface input.ovs input.root br iface false s = some (.ok (), t) ∧
        Linking input s.world t) (Linking input w₀) := by
    rintro _ rfl r t hrun
    have hpost := linkIface_linking hfits' hdistinct br hall false _ hs.restart r t hrun
    cases r with
    | error err => exact hs.trans hpost
    | ok u => exact ⟨hrun, hpost⟩
  unfold linkPortIface
  apply Prog.Triple.bind hsearch
  rintro _ t ⟨hsearched, ht⟩
  have hlinked : Prog.Runs (· = t) (linkedIface input.root br iface)
      (fun link u => linkedIface input.root br iface t = some (.ok link, u) ∧
        Linking input s.world u ∧ link ∈ u.world.listed) (Linking input w₀) := by
    rintro _ rfl r u hrun
    have hpost := linkedIface_linking hfits' hdistinct br hall _ ht r u hrun
    cases r with
    | error err => exact hs.trans hpost
    | ok link => exact ⟨hrun, hpost.1, hpost.2.1⟩
  refine Prog.Triple.bind hlinked (fun link => ?_) t rfl
  rintro u ⟨hobtained, hu, hlisted⟩
  have hext := hu.run.extends hfits'
  exact join_linking hfits (j := ⟨port, iface, master, link⟩) (hs.trans hu) hlisted
    (fun m hm => hext.listed m (hmaster m hm)) (hcalls t u link hsearched hobtained) u rfl

theorem portMaster_linking {br : OvsBridge} (hbr : br ∈ input.bridges) {main : OvsIf}
    (hmain : MainIface br main) {port : OvsPort} (hport : port ∈ br.ports) :
    Prog.Runs (Linking input w₀) (portMaster input.root br main port)
      (fun master s => Linking input w₀ s ∧ ∀ m ∈ master, m ∈ s.world.listed)
      (Linking input w₀) := by
  have hmem := hmain.mem_allIfaces hbr
  unfold portMaster
  apply Prog.Triple.bind (Q := fun s₁ s => s = s₁ ∧ Linking input w₀ s)
    (Prog.Triple.get fun s hs => ⟨rfl, hs⟩)
  intro s₁
  apply Prog.Triple.ite
  · intro _
    have hportName : port.name ∈ bridgeNames input.bridges :=
      List.mem_append_right _ (List.mem_map_of_mem (List.mem_flatMap.mpr ⟨br, hbr, hport⟩))
    have hcreate := createIface_linking hfits hportName br.name
    have hcreate' : Prog.Runs (fun s => s = s₁ ∧ Linking input w₀ s)
        (createIface input.root port.name br.name)
        (fun link s => Linking input w₀ s ∧ link ∈ s.world.listed ∧
          s.link main.ptr ≠ some link ∧ s.link main.ptr = s₁.link main.ptr)
        (Linking input w₀) := by
      rintro s ⟨rfl, hs⟩ r s' hrun
      have hpost := hcreate s hs r s' hrun
      have hcreates := createIface_creates input.root port.name br.name s s rfl r s' hrun
      cases r with
      | error err => exact hpost
      | ok link =>
        obtain ⟨hs', hlisted, -, hfresh⟩ := hpost
        exact ⟨hs', hlisted, hfresh main hmem, by rw [hcreates.link]⟩
    apply Prog.Triple.bind hcreate'
    intro link
    rintro s ⟨hs, hlisted, hfresh, hsame⟩ r s' hrun
    have hfits' := hs.fits hfits
    have hrest : Prog.Runs (Linking input s.world) (do
        modifyWorld (masterSet (s₁.link main.ptr) link)
        modifyWorld (·.modifyIf link (labelPortOrIface port))
        pure (some link) : OvsProg (Option IfPtr))
        (fun master s' => Linking input s.world s' ∧ master = some link)
        (Linking input s.world) := by
      apply Prog.Triple.bind (Q := fun _ => Linking input s.world)
      · apply modifyWorld_linking hfits'
        intro w hw
        apply PostStep.enslave (hw.listed link hlisted)
        · intro m hm
          have hm' : s.link main.ptr = some m := hsame.trans hm
          exact hw.listed m (hs.links main hmem m hm').1
        · intro hself
          exact absurd (hsame.trans hself) hfresh
      intro _
      apply Prog.Triple.bind (label_linking hfits' link (labelPortOrIface_unlabelled port))
      exact fun _ => Prog.Triple.pure fun _ h => ⟨h, rfl⟩
    have hpost := hrest s hs.restart r s' hrun
    cases r with
    | error err => exact hs.trans hpost
    | ok master =>
      obtain ⟨hs', rfl⟩ := hpost
      have hext := hs'.run.extends hfits'
      refine ⟨hs.trans hs', fun m hm => ?_⟩
      obtain rfl := Option.some.inj hm
      exact hext.listed _ hlisted
  · intro _
    apply Prog.Triple.pure
    rintro s ⟨rfl, hs⟩
    exact ⟨hs, fun m hm => (hs.links main hmem m hm).1⟩

include hdistinct in
theorem linkPort_linking {br : OvsBridge} (hbr : br ∈ input.bridges) {main : OvsIf}
    (hmain : MainIface br main) {port : OvsPort} (hport : port ∈ br.ports)
    (hs : Linking input w₀ s) (hcalls : ∀ j u, PortJoin input.ovs input.root br main port s j u →
      j.Makes input.calls input.ovs u.world) :
    Prog.Runs (· = s) (linkPort input.ovs input.root br main port)
      (fun _ => Linking input w₀) (Linking input w₀) := by
  have hmaster : Prog.Runs (· = s) (portMaster input.root br main port)
      (fun master t => portMaster input.root br main port s = some (.ok master, t) ∧
        Linking input w₀ t ∧ ∀ m ∈ master, m ∈ t.world.listed) (Linking input w₀) := by
    rintro _ rfl r t hrun
    have hpost := portMaster_linking hfits hbr hmain hport _ hs r t hrun
    cases r with
    | error err => exact hpost
    | ok master => exact ⟨hrun, hpost⟩
  unfold linkPort
  apply Prog.Triple.bind hmaster
  rintro master t ⟨hmastered, ht, hmasterListed⟩
  have hfits' := ht.fits hfits
  have hloop : Prog.Runs (· = t)
      (Prog.forEach port.ifaces (linkPortIface input.ovs input.root br port master))
      (fun _ => Linking input t.world) (Linking input t.world) := by
    apply Prog.Triple.forEachReached (I := fun _ => Linking input t.world) _ ht.restart
    intro pre iface post t' hsplit hbefore ht'
    have hiface : iface ∈ port.ifaces := hsplit ▸ List.mem_append_right pre List.mem_cons_self
    apply linkPortIface_linking hfits' hdistinct hbr hport hiface ht'
    · exact fun m hm => (ht'.run.extends hfits').listed m (hmasterListed m hm)
    · exact fun t'' u link hsearch hlinked =>
        hcalls _ u (.iface hmastered hsplit hbefore hsearch hlinked)
  intro r s' hrun
  have hpost := hloop t rfl r s' hrun
  cases r with
  | error err => exact ht.trans hpost
  | ok u => exact ht.trans hpost

include hdistinct in
theorem linkBridge_linking {br : OvsBridge} (hbr : br ∈ input.bridges) (hs : Linking input w₀ s)
    (hcalls : ∀ j u, BridgeJoin input.ovs input.root br s j u →
      j.Makes input.calls input.ovs u.world) :
    Prog.Runs (· = s) (linkBridge input.ovs input.root br)
      (fun _ => Linking input w₀) (Linking input w₀) := by
  by_cases hmain : ∃ main, MainIface br main
  · obtain ⟨main, hmain⟩ := hmain
    rw [linkBridge_main input.ovs input.root hmain]
    have hmem := hmain.mem_allIfaces hbr
    have hfound : Prog.Runs (· = s)
        (Prog.attempt (linkIface input.ovs input.root br main true))
        (fun r t => linkIface input.ovs input.root br main true s = some (r, t) ∧
          Linking input w₀ t) (Linking input w₀) := by
      apply Prog.Triple.attempt
      rintro _ rfl r t hrun
      have hpost := linkIface_linking hfits hdistinct br hmem true _ hs r t hrun
      cases r with
      | error err => exact ⟨hrun, hpost⟩
      | ok u => exact ⟨hrun, hpost⟩
    apply Prog.Triple.bind hfound
    rintro r t ⟨hsearch, ht⟩
    cases r with
    | error err =>
      have hend : Prog.Runs (Linking input w₀) (if err = ENOENT ∨ err = ERANGE then pure ()
          else Prog.throw err : OvsProg Unit) (fun _ => Linking input w₀) (Linking input w₀) := by
        apply Prog.Triple.ite
        · exact fun _ => Prog.Triple.pure fun _ => id
        · exact fun _ => Prog.Triple.throw fun _ => id
      exact hend t ht
    | ok u =>
      refine Prog.Triple.forEachReached (I := fun _ => Linking input w₀) ?_ ht t rfl
      intro pre port post t' hsplit hbefore ht'
      have hport : port ∈ br.ports := hsplit ▸ List.mem_append_right pre List.mem_cons_self
      exact linkPort_linking hfits hdistinct hbr hmain hport ht' fun j v hjoin =>
        hcalls j v (.port hmain hsearch hsplit hbefore hjoin)
  · obtain ⟨text, hskipped⟩ := linkBridge_skipped input.ovs input.root (not_exists.mp hmain)
    rw [hskipped]
    exact (labelAdd_linking hfits _ text).weaken (fun _ hs' => hs' ▸ hs) fun _ _ => id

include hdistinct in
/-- Whatever the bridges, the handler goes by steps, and relates interfaces in the turns that it
gets to only. -/
theorem linkIfaces_linking (hs : Linking input w₀ s)
    (hcalls : ∀ j u, JoinCall input.ovs input.root input.bridges s j u →
      j.Makes input.calls input.ovs u.world) :
    Prog.Runs (· = s) (linkIfaces input.ovs input.root input.bridges)
      (fun _ => Linking input w₀) (Linking input w₀) := by
  unfold linkIfaces
  apply Prog.Triple.forEachReached (I := fun _ => Linking input w₀) _ hs
  intro done br rest t hsplit hbefore ht
  have hbr : br ∈ input.bridges := hsplit ▸ List.mem_append_right done List.mem_cons_self
  exact linkBridge_linking hfits hdistinct hbr ht fun j u hjoin =>
    hcalls j u ⟨done, br, rest, t, hsplit, hbefore, hjoin⟩

end

end Plotnetcfg.Openvswitch
