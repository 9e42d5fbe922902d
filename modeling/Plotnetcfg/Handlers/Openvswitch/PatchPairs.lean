import Plotnetcfg.Handlers.Openvswitch.LinkFields
import Plotnetcfg.Handlers.Openvswitch.Turns

/-! Patch ports. The end of a pair that is processed last finds the other one by its name; a port
that is processed later may take either of them away. -/

namespace Plotnetcfg.Openvswitch

structure Bears (w : World) (name : CStr) (y : IfPtr) : Prop where
  listed : y ∈ w.listed
  name : (w.ifs y).ifName = name
  internal : (w.ifs y).flags.internal = true

def SoleBearer (w : World) (name : CStr) (y : IfPtr) : Prop :=
  Bears w name y ∧ ∀ z, Bears w name z → z = y

/-- What `link_patch` for the entry `e` of `iface` makes of the peers `p`. -/
inductive Repeers (iface : OvsIf) (e : IfPtr) (w : World) (p : IfPtr → Option IfPtr) :
    (IfPtr → Option IfPtr) → Prop where
  | paired {name : CStr} {y : IfPtr} (hpeer : iface.peer = some name)
      (hsole : SoleBearer w name y) : Repeers iface e w p (Matching.rematch p (some e) (some y))
  | alone (hnone : ∀ name y, iface.peer = some name → ¬ SoleBearer w name y) :
      Repeers iface e w p p

theorem bears_named {w w' : World} (h : Named w w') {name : CStr} {y : IfPtr} :
    Bears w' name y ↔ Bears w name y := by
  constructor
  · rintro ⟨hlisted, hname, hinternal⟩
    rw [h.frame.listed] at hlisted
    rw [(h.frame.kept y).ifName] at hname
    rw [h.internal] at hinternal
    exact ⟨hlisted, hname, hinternal⟩
  · rintro ⟨hlisted, hname, hinternal⟩
    refine ⟨?_, ?_, ?_⟩
    · rwa [h.frame.listed]
    · rwa [(h.frame.kept y).ifName]
    · rwa [h.internal]

theorem Repeers.named {w w' : World} (h : Named w w') {iface : OvsIf} {e : IfPtr}
    {p p' : IfPtr → Option IfPtr} (hp : Repeers iface e w p p') : Repeers iface e w' p p' := by
  have hsole : ∀ {name y}, SoleBearer w' name y ↔ SoleBearer w name y := by
    intro name y
    simp only [SoleBearer, bears_named h]
  cases hp with
  | paired hpeer hy => exact .paired hpeer (hsole.mpr hy)
  | alone hnone => exact .alone fun name y hpeer hy => hnone name y hpeer (hsole.mp hy)

/-! ## The search for the peer -/

section
variable {env : OvsEnv} {root : NsPtr} {br : OvsBridge} {port : OvsPort} {iface : OvsIf} {e : IfPtr}
  {known : List IfPtr} {s t : OvsState} {E : OvsState → Prop}

def patchWeight (iface : OvsIf) (w : World) (y : IfPtr) : Int :=
  if iface.peer ≠ some (w.ifs y).ifName ∨ !(w.ifs y).flags.internal then 0 else 1

theorem patchWeight_pos {w : World} {y : IfPtr} : 0 < patchWeight iface w y ↔
    iface.peer = some (w.ifs y).ifName ∧ (w.ifs y).flags.internal = true := by
  unfold patchWeight
  split_ifs with h
  · simp only [lt_irrefl, false_iff]
    intro hboth
    rcases h with hpeer | hinternal
    · exact hpeer hboth.1
    · rw [hboth.2] at hinternal
      cases hinternal
  · rw [not_or, not_not, Bool.not_eq_true, Bool.not_eq_false'] at h
    simp only [zero_lt_one, true_iff]
    exact h

theorem linkPatchSearch_weighs (iface : OvsIf) (w : World) :
    Weighs (linkPatchSearch iface) w (patchWeight iface w) where
  nonneg y := by
    unfold patchWeight
    split_ifs <;> decide
  run y := by
    unfold linkPatchSearch
    apply Prog.Triple.bind (Q := fun w₁ w' => w₁ = w ∧ w' = w) (Prog.Triple.get fun _ h => ⟨h, h⟩)
    intro w₁
    apply Prog.Triple.of_and
    rintro rfl
    apply Prog.Triple.ite
    · intro h
      exact Prog.Triple.pure fun _ hw => ⟨(if_pos h).symm, hw⟩
    · intro h
      exact Prog.Triple.pure fun _ hw => ⟨(if_neg h).symm, hw⟩

theorem patchChoice_eq_some {w : World} (hnodup : w.listed.Nodup) {y : IfPtr} :
    (Tally.scan (patchWeight iface w) {} w.listed).choice = some y ↔
      ∃ name, iface.peer = some name ∧ SoleBearer w name y := by
  have hbears : ∀ {name z}, iface.peer = some name →
      (Bears w name z ↔ z ∈ w.listed ∧ 0 < patchWeight iface w z) := by
    intro name z hpeer
    rw [patchWeight_pos, hpeer, Option.some.injEq]
    constructor
    · exact fun h => ⟨h.listed, h.name.symm, h.internal⟩
    · exact fun h => ⟨h.1, h.2.1.symm, h.2.2⟩
  have hone : ∀ z, patchWeight iface w z < 1 ∨ patchWeight iface w z = 1 := by
    intro z
    unfold patchWeight
    split_ifs <;> simp
  rw [Tally.choice_eq_some hnodup]
  constructor
  · rintro ⟨hlisted, hpos, hlt⟩
    have hpeer := (patchWeight_pos.mp hpos).1
    refine ⟨_, hpeer, (hbears hpeer).mpr ⟨hlisted, hpos⟩, fun z hz => ?_⟩
    by_contra hne
    obtain ⟨hzlisted, hzpos⟩ := (hbears hpeer).mp hz
    have hless := hlt z hzlisted hne
    have := hone y
    omega
  · rintro ⟨name, hpeer, hy, hsole⟩
    obtain ⟨hlisted, hpos⟩ := (hbears hpeer).mp hy
    refine ⟨hlisted, hpos, fun z hz hne => ?_⟩
    have hnot : ¬ 0 < patchWeight iface w z := fun hzpos =>
      hne (hsole z ((hbears hpeer).mpr ⟨hz, hzpos⟩))
    omega

theorem linkPatch_repeers (iface : OvsIf) (e : IfPtr) (hinv : LinkInv World.Paired root known s) :
    Prog.Runs (· = s) (linkPatch iface e)
      (fun _ s' => Repeers iface e s.world s.world.peers s'.world.peers) E := by
  unfold linkPatch
  apply Prog.Triple.bind (Q := fun s₁ s' => s₁ = s ∧ s' = s) (Prog.Triple.get fun _ h => ⟨h, h⟩)
  intro s₁
  apply Prog.Triple.of_and
  rintro rfl
  have hsearch : Prog.Runs (· = s₁) (onWorld (matchIf { netnsList := some s₁.world.nsList }
      (linkPatchSearch iface)))
      (fun d s' => d.tally = Tally.scan (patchWeight iface s₁.world) {} s₁.world.listed ∧ s' = s₁)
      E := by
    apply Prog.Triple.zoom
    rintro s₁ rfl
    have htally := matchIf_tally (linkPatchSearch_weighs iface s₁.world)
      { netnsList := some s₁.world.nsList } rfl rfl
    apply (htally.weakenError fun _ _ => False.elim).weaken fun _ => id
    rintro d _ ⟨hd, rfl⟩
    refine ⟨?_, rfl⟩
    have hall : MatchDesc.entries { netnsList := some s₁.world.nsList } s₁.world.listed =
        s₁.world.listed := List.filter_eq_self.mpr fun y _ => rfl
    rw [hd.tally]
    show Tally.scan _ _ (MatchDesc.entries _ s₁.world.listed) = _
    rw [hall]
    rfl
  apply Prog.Triple.bind hsearch
  intro d
  apply Prog.Triple.of_and
  intro hd
  have hchoice : ∀ y, d.tally.choice = some y ↔
      ∃ name, iface.peer = some name ∧ SoleBearer s₁.world name y := by
    intro y
    rw [hd]
    exact patchChoice_eq_some hinv.scanned.nodup
  have hnone : d.tally.choice = none → Repeers iface e s₁.world s₁.world.peers s₁.world.peers := by
    intro hd'
    apply Repeers.alone
    intro name y hpeer hy
    have hsome := (hchoice y).mpr ⟨name, hpeer, hy⟩
    rw [hd'] at hsome
    cases hsome
  apply Prog.Triple.ite
  · intro htied
    have hd' : d.tally.choice = none := if_pos ((matchAmbiguous_iff d).mp htied)
    unfold modifyWorld onWorld
    apply Prog.Triple.zoom
    rintro s₁ rfl
    apply Prog.Triple.modify
    rintro _ rfl
    have hpeers : (ifAddWarning e (cstr "failed to find openvswitch patch port peer reliably")
        s₁.world).peers = s₁.world.peers := by
      funext x
      unfold World.peers
      rw [ifAddWarning_ifs]
      split_ifs <;> rfl
    show Repeers iface e s₁.world s₁.world.peers (World.peers (ifAddWarning ..))
    rw [hpeers]
    exact hnone hd'
  · intro htied
    have hd' : d.tally.choice = matchFound d := by
      rw [matchFound_eq]
      exact if_neg fun h => htied ((matchAmbiguous_iff d).mpr h)
    cases hfound : matchFound d with
    | none =>
      apply Prog.Triple.pure
      rintro _ rfl
      exact hnone (hd'.trans hfound)
    | some y =>
      obtain ⟨name, hpeer, hsole⟩ := (hchoice y).mp (hd'.trans hfound)
      unfold modifyWorld onWorld
      apply Prog.Triple.zoom
      rintro s₁ rfl
      apply Prog.Triple.modify
      rintro _ rfl
      show Repeers iface e s₁.world s₁.world.peers (peerSet (some e) (some y) s₁.world).peers
      rw [peerSet_peers hinv.peers.symmetric]
      exact .paired hpeer hsole

/-! ## Calls that change no peer -/

theorem unwritten_peer : Unwritten IfEntry.peer :=
  ⟨fun _ _ => rfl, fun _ _ _ => rfl, fun _ _ _ => rfl, fun _ _ => rfl, fun _ _ => rfl,
    fun _ _ _ _ => rfl⟩

/-- Only an interface without a peer may be returned by `malloc`. -/
abbrev HasPeer (x : IfPtr) (p : Option IfPtr) : OvsState → Prop :=
  HasField IfEntry.peer x p (p = none)

theorem peers_kept {α : Type} {prog : OvsProg α} (hinv : LinkInv World.Paired root known s)
    (hkeep : ∀ x p, Prog.Runs (HasPeer x p) prog (fun _ => HasPeer x p) (HasPeer x p))
    {r : Except Int α} (hrun : prog s = some (r, t)) : t.world.peers = s.world.peers := by
  funext x
  have hfresh : x ∈ s.world.free → s.world.peers x = none := by
    intro hx
    by_contra hsome
    exact hinv.scanned.fresh x hx (hinv.peers.listed x (Option.isSome_iff_ne_none.mpr hsome))
  have hpost := hkeep x (s.world.peers x) s ⟨rfl, hfresh⟩ r t hrun
  cases r with
  | ok a => exact hpost.value
  | error err => exact hpost.value

theorem linkIface_peers {required : Bool} (hinv : LinkInv World.Paired root known s)
    {r : Except Int Unit} (hrun : linkIface env root br iface required s = some (r, t)) :
    t.world.peers = s.world.peers :=
  peers_kept hinv (fun _ _ => linkIface_hasField unwritten_peer br iface required) hrun

theorem portMaster_peers {main : OvsIf} (hinv : LinkInv World.Paired root known s)
    {r : Except Int (Option IfPtr)} (hrun : portMaster root br main port s = some (r, t)) :
    t.world.peers = s.world.peers := by
  refine peers_kept hinv (fun x p => ?_) hrun
  unfold portMaster
  apply Prog.Triple.bind (Q := fun _ => HasPeer x p) (Prog.Triple.get fun _ => id)
  intro t
  apply Prog.Triple.ite
  · intro _
    apply Prog.Triple.bind (createIface_hasField unwritten_peer id port.name br.name)
    intro c
    apply Prog.Triple.of_and
    intro _
    apply Prog.Triple.bind (masterSet_hasField unwritten_peer _ c)
    intro _
    apply Prog.Triple.bind (modifyIf_hasField c fun y => (labelPortOrIface_relabels port y).2)
    exact fun _ => Prog.Triple.pure fun _ => id
  · exact fun _ => Prog.Triple.pure fun _ => id

/-! ## The turn of an interface -/

structure Unpeered (root : NsPtr) (iface : OvsIf) (e : IfPtr) (p : IfPtr → Option IfPtr)
    (s : OvsState) : Prop where
  inv : LinkInv World.Paired root [e] s
  link : s.link iface.ptr = some e
  peers : s.world.peers = p

theorem modifyWorld_unpeered {p : IfPtr → Option IfPtr} {f : World → World}
    (hf : ∀ w : World, w.Frame (f w)) (hpeer : ∀ w x, ((f w).ifs x).peer = (w.ifs x).peer) :
    Prog.Runs (Unpeered root iface e p) (modifyWorld f) (fun _ => Unpeered root iface e p) E := by
  unfold modifyWorld onWorld
  apply Prog.Triple.zoom
  intro s hs
  apply Prog.Triple.modify
  rintro _ rfl
  have hpaired := peerInvariant_paired.frame (hf s.world) (hpeer s.world) hs.inv.peers
  refine ⟨hs.inv.frame (hf s.world) hpaired, hs.link, ?_⟩
  rw [← hs.peers]
  exact funext (hpeer s.world)

theorem modifyIf_unpeered {p : IfPtr → Option IfPtr} {f : IfEntry → IfEntry} (x : IfPtr)
    (hf : ∀ y, Relabels y (f y)) :
    Prog.Runs (Unpeered root iface e p) (modifyWorld (·.modifyIf x f))
      (fun _ => Unpeered root iface e p) E := by
  apply modifyWorld_unpeered
  · exact fun w => .modifyIf w x fun y => (hf y).1
  · intro w y
    rw [World.modifyIf_ifs]
    split_ifs
    · exact (hf _).2
    · rfl

theorem linkedIface_unpeered {p : IfPtr → Option IfPtr} :
    Prog.Runs (fun s => LinkInv World.Paired root [] s ∧ s.world.peers = p)
      (linkedIface root br iface) (fun e => Unpeered root iface e p) fun _ => True := by
  rintro s ⟨hinv, rfl⟩ r t hrun
  have hinv' := linkedIface_triple peerInvariant_paired br iface s hinv r t hrun
  have hpeers := peers_kept hinv
    (fun _ _ => linkedIface_hasField unwritten_peer id br iface) hrun
  have hobtains := linkedIface_obtains root br iface s s rfl r t hrun
  cases r with
  | error err => trivial
  | ok e =>
    refine ⟨hinv', ?_, hpeers⟩
    cases hobtains with
    | found hlink heq => rw [heq, hlink]
    | created hlink hcreate heq =>
      rw [heq]
      exact Function.update_self ..

structure Turned (iface : OvsIf) (p : IfPtr → Option IfPtr) (s : OvsState) : Prop where
  patch : iface.type = cstr "patch" →
    ∃ e, s.link iface.ptr = some e ∧ Repeers iface e s.world p s.world.peers
  other : iface.type ≠ cstr "patch" → s.world.peers = p

theorem linkPortIface_turned (env : OvsEnv) (br : OvsBridge) (port : OvsPort)
    (master : Option IfPtr) (iface : OvsIf) (hinv : LinkInv World.Paired root [] s) :
    Prog.Runs (· = s) (linkPortIface env root br port master iface)
      (fun _ => Turned iface s.world.peers) fun _ => True := by
  have hsearch : Prog.Runs (· = s) (linkIface env root br iface false)
      (fun _ t => LinkInv World.Paired root [] t ∧ t.world.peers = s.world.peers)
      fun _ => True := by
    rintro _ rfl r t hrun
    have hinv' := linkIface_triple peerInvariant_paired env br iface false _ hinv r t hrun
    cases r with
    | error err => trivial
    | ok u => exact ⟨hinv', linkIface_peers hinv hrun⟩
  unfold linkPortIface
  apply Prog.Triple.bind hsearch
  intro _
  apply Prog.Triple.bind linkedIface_unpeered
  intro e
  apply Prog.Triple.bind (modifyWorld_unpeered (fun w => masterSet_frame w master e)
    fun w x => masterSet_peer w x master e)
  intro _
  apply Prog.Triple.bind (modifyIf_unpeered e (labelIface_relabels iface))
  intro _
  have hlabel : Prog.Runs (Unpeered root iface e s.world.peers)
      (modifyWorld (·.modifyIf e fun x => if port.ifaceCount = 1 then labelPortOrIface port x else x))
      (fun _ => Unpeered root iface e s.world.peers) fun _ => True := by
    apply modifyIf_unpeered
    intro y
    split_ifs
    · exact labelPortOrIface_relabels port y
    · exact ⟨.refl y, rfl⟩
  apply Prog.Triple.bind hlabel
  intro _
  apply Prog.Triple.ite
  · intro htunnel t ht r t' hrun
    have hnot : iface.type ≠ cstr "patch" := by
      intro htype
      rw [ifaceIsTunnel_iff, htype] at htunnel
      exact absurd htunnel (by decide)
    have hpeers := peers_kept ht.inv
      (fun _ _ => linkTunnel_hasField unwritten_peer iface e) hrun
    cases r with
    | error err => trivial
    | ok u => exact ⟨fun htype => absurd htype hnot, fun _ => hpeers.trans ht.peers⟩
  intro _
  apply Prog.Triple.ite
  · intro htype t ht r t' hrun
    have hrepeers := linkPatch_repeers (E := fun _ => True) iface e ht.inv t rfl r t' hrun
    have hdecorates := linkPatch_decorates (E := fun _ => True) iface e t t ⟨.refl _, rfl⟩ r t' hrun
    cases r with
    | error err => trivial
    | ok u =>
      refine ⟨fun _ => ⟨e, ?_, ?_⟩, fun hnot => absurd htype hnot⟩
      · rw [hdecorates.2, ht.link]
      · rw [← ht.peers]
        exact hrepeers.named hdecorates.1.toNamed
  · intro htype
    apply Prog.Triple.pure
    exact fun t ht => ⟨fun h => absurd h htype, fun _ => ht.peers⟩

end

/-! ## The bearers of a name -/

section
variable {env : OvsEnv} {root : NsPtr} {brList : List OvsBridge} {br : OvsBridge} {port : OvsPort}
  {iface main : OvsIf} {e y : IfPtr} {m : Option IfPtr} {name : CStr} {s s₁ s₂ s' : OvsState}

theorem Creates.bears {name' brName : CStr} (h : Creates root name' brName s s' e)
    (hscan : s.world.Scanned) (hroot : root ∈ s.world.nsList) :
    Bears s'.world name y ↔ Bears s.world name y ∨ y = e ∧ name' = name := by
  have hlisted := h.adds.mem_listed (x := y) hscan hroot
  by_cases hy : y = e
  · subst hy
    have hnew : y ∉ s.world.listed := by
      apply hscan.fresh
      rw [h.adds.free]
      exact List.mem_cons_self
    constructor
    · exact fun hb => .inr ⟨rfl, h.ifName.symm.trans hb.name⟩
    · rintro (hb | ⟨-, rfl⟩)
      · exact absurd hb.listed hnew
      · exact ⟨hlisted.mpr (.inl rfl), h.ifName, h.internal⟩
  · have hifs := h.adds.ifs y hy
    constructor
    · intro hb
      have hold := (hlisted.mp hb.listed).resolve_left hy
      exact .inl ⟨hold, hifs ▸ hb.name, hifs ▸ hb.internal⟩
    · rintro (hb | ⟨heq, -⟩)
      · exact ⟨hlisted.mpr (.inr hb.listed), hifs ▸ hb.name, hifs ▸ hb.internal⟩
      · exact absurd heq hy

theorem IfaceTurn.bears (h : IfaceTurn env root br m iface s s₁ s₂ s' e)
    (hscan : s.world.Scanned) (hroot : root ∈ s.world.nsList) : Bears s'.world name y ↔
      Bears s.world name y ∨ s₁.link iface.ptr = none ∧ y = e ∧ iface.name = name := by
  have hframe := h.looked.world.frame
  rw [bears_named h.enslaves.toNamed]
  cases h.obtains with
  | found hlink heq =>
    subst heq
    rw [bears_named h.looked.world.toNamed, hlink]
    simp
  | created hlink hcreate heq =>
    subst heq
    have hroot₁ : root ∈ s₁.world.nsList := by rwa [hframe.nsList]
    dsimp only
    rw [hcreate.bears (hscan.frame hframe) hroot₁, bears_named h.looked.world.toNamed, hlink]
    simp

theorem IfaceTurn.link_self (h : IfaceTurn env root br m iface s s₁ s₂ s' e) :
    s'.link iface.ptr = some e := by
  rw [h.link]
  cases h.obtains with
  | found hlink heq => rw [heq, hlink]
  | created hlink hcreate heq =>
    rw [heq]
    exact Function.update_self ..

theorem IfaceTurn.link_other (h : IfaceTurn env root br m iface s s₁ s₂ s' e) {ptr : OvsIfPtr}
    (hne : ptr ≠ iface.ptr) : s'.link ptr = s.link ptr := by
  rw [h.link]
  cases h.obtains with
  | found hlink heq => rw [heq, h.looked.link ptr hne]
  | created hlink hcreate heq =>
    rw [heq]
    dsimp only
    rw [Function.update_of_ne hne, hcreate.link, h.looked.link ptr hne]

theorem IfaceTurn.fresh (h : IfaceTurn env root br m iface s s₁ s₂ s' e)
    (hscan : s.world.Scanned) (hmiss : s₁.link iface.ptr = none) : e ∉ s.world.listed := by
  cases h.obtains with
  | found hlink =>
    rw [hmiss] at hlink
    cases hlink
  | created _ hcreate =>
    apply hscan.fresh
    rw [← h.looked.world.frame.free, hcreate.adds.free]
    exact List.mem_cons_self

def LinksNamed (brList : List OvsBridge) (s : OvsState) : Prop :=
  ∀ k ∈ allIfaces brList, ∀ e, s.link k.ptr = some e → (s.world.ifs e).ifName = k.name

theorem Looked.linksNamed (h : Looked br iface s s') (hdistinct : Distinct brList)
    (hin : iface ∈ allIfaces brList) (hnamed : LinksNamed brList s) : LinksNamed brList s' := by
  intro k hk x hx
  rw [(h.world.frame.kept x).ifName]
  by_cases hki : k = iface
  · subst hki
    rcases h.found x hx with hhad | ⟨-, system, main, -, -, hmatch⟩
    · exact hnamed k hk x hhad
    · exact hmatch.name
  · rw [h.link k.ptr (hdistinct.ptr_ne hk hin hki)] at hx
    exact hnamed k hk x hx

theorem IfaceTurn.linksNamed (h : IfaceTurn env root br m iface s s₁ s₂ s' e)
    (hinv : LinkInv World.Paired root [] s) (hdistinct : Distinct brList)
    (hin : iface ∈ allIfaces brList) (hnamed : LinksNamed brList s) : LinksNamed brList s' := by
  have hlooked := h.looked.linksNamed hdistinct hin hnamed
  intro k hk x hx
  rw [(h.enslaves.frame.kept x).ifName]
  rw [h.link] at hx
  cases h.obtains with
  | found hlink heq =>
    subst heq
    exact hlooked k hk x hx
  | created hlink hcreate heq =>
    subst heq
    dsimp only at hx ⊢
    by_cases hki : k = iface
    · subst hki
      rw [Function.update_self] at hx
      obtain rfl := Option.some.inj hx
      exact hcreate.ifName
    · have hptr := hdistinct.ptr_ne hk hin hki
      rw [Function.update_of_ne hptr, hcreate.link] at hx
      have hold : x ∈ s.world.listed := by
        apply hinv.links k.ptr
        rw [← h.looked.link k.ptr hptr, hx]
      have hne : x ≠ e := by
        rintro rfl
        exact h.fresh hinv.scanned hlink hold
      rw [hcreate.adds.ifs x hne]
      exact hlooked k hk x hx

theorem MasterTurn.linksNamed (h : MasterTurn root br main port s s' m)
    (hinv : LinkInv World.Paired root [] s) (hnamed : LinksNamed brList s) :
    LinksNamed brList s' := by
  cases h with
  | sole _ heq => exact heq ▸ hnamed
  | @several _ c _ hcreate henslaves hlink =>
    intro k hk x hx
    rw [hlink] at hx
    have hne : x ≠ c := by
      rintro rfl
      apply hinv.scanned.fresh x _ (hinv.links k.ptr x hx)
      rw [hcreate.adds.free]
      exact List.mem_cons_self
    rw [(henslaves.frame.kept x).ifName, hcreate.adds.ifs x hne]
    exact hnamed k hk x hx

end

/-! ## The ends of a pair -/

/-- Among the turns is that of a port of several interfaces that is called `name`. -/
def BondTurn (before : List Turn) (name : CStr) : Prop :=
  ∃ br port, .port br port ∈ before ∧ 1 < port.ifaceCount ∧ port.name = name

/-- The turn takes neither `i` nor `j` away from its peer: if a patch port names one of them, its
search finds a bond of the name, too. -/
def Harmless (i j : OvsIf) (before : List Turn) : Turn → Prop
  | .port _ _ => True
  | .iface _ _ k => k.type = cstr "patch" → ∀ x ∈ [i, j], k.peer = some x.name →
      BondTurn before x.name

/-- The turn of `j`, with the turns `before` it, finds `i`, and none of those `after` it takes
either away. -/
structure Uninterrupted (i j : OvsIf) (before after : List Turn) : Prop where
  found : ¬ BondTurn before i.name
  kept : ∀ pre t post, after = pre ++ t :: post → Harmless i j (before ++ pre) t

def Connected (s : OvsState) (i j : OvsIf) : Prop :=
  ∃ e f, s.link i.ptr = some e ∧ s.link j.ptr = some f ∧ s.world.peers e = some f ∧
    s.world.peers f = some e

/-- The linking has come to the interface, and no entry of the kernel was found for it. -/
def NotMapped (env : OvsEnv) (root : NsPtr) (brList : List OvsBridge) (s₀ : OvsState) (i : OvsIf) :
    Prop :=
  ∃ br t t', LinkCall env root brList s₀ br i t ∧
    linkIface env root br i false t = some (.ok (), t') ∧ t'.link i.ptr = none

/-- What the linking starts with: no interface has a link, and nothing was created for ovsdb. -/
structure Unlinked (root : NsPtr) (brList : List OvsBridge) (s : OvsState) : Prop where
  inv : LinkInv World.Paired root [] s
  link : ∀ i ∈ allIfaces brList, s.link i.ptr = none
  kernel : ∀ e ∈ s.world.listed, (s.world.ifs e).flags.internal = false

section
variable {before pre post : List Turn} {br : OvsBridge} {port : OvsPort} {i j k : OvsIf}
  {name : CStr} {t : Turn}

theorem bondTurn_append_iface :
    BondTurn (pre ++ .iface br port k :: post) name ↔ BondTurn (pre ++ post) name := by
  simp [BondTurn]

theorem bondTurn_concat_iface :
    BondTurn (pre ++ [.iface br port k]) name ↔ BondTurn pre name := by
  rw [bondTurn_append_iface, List.append_nil]

theorem bondTurn_concat_port : BondTurn (pre ++ [.port br port]) name ↔
    BondTurn pre name ∨ 1 < port.ifaceCount ∧ port.name = name := by
  constructor
  · rintro ⟨br', port', hmem, hcount, hname⟩
    rcases List.mem_append.mp hmem with hmem | hmem
    · exact .inl ⟨br', port', hmem, hcount, hname⟩
    · cases List.mem_singleton.mp hmem
      exact .inr ⟨hcount, hname⟩
  · rintro (⟨br', port', hmem, hrest⟩ | hrest)
    · exact ⟨br', port', List.mem_append_left _ hmem, hrest⟩
    · exact ⟨br, port, List.mem_append_right _ (List.mem_singleton_self _), hrest⟩

theorem uninterrupted_nil : Uninterrupted i j before [] ↔ ¬ BondTurn before i.name := by
  constructor
  · exact fun h => h.found
  · refine fun h => ⟨h, fun pre t post hsplit => ?_⟩
    exact absurd hsplit.symm (List.append_ne_nil_of_right_ne_nil pre (List.cons_ne_nil t post))

theorem uninterrupted_concat : Uninterrupted i j before (pre ++ [t]) ↔
    Uninterrupted i j before pre ∧ Harmless i j (before ++ pre) t := by
  constructor
  · intro h
    refine ⟨⟨h.found, fun pre' t' post' hsplit => ?_⟩, h.kept pre t [] rfl⟩
    apply h.kept pre' t' (post' ++ [t])
    rw [hsplit]
    simp
  · rintro ⟨h, ht⟩
    refine ⟨h.found, fun pre' t' post' hsplit => ?_⟩
    rcases List.eq_nil_or_concat post' with rfl | ⟨post', t'', rfl⟩
    · obtain ⟨rfl, heq⟩ := List.append_inj' hsplit rfl
      obtain rfl := List.singleton_inj.mp heq
      exact ht
    · rw [List.concat_eq_append, ← List.cons_append, ← List.append_assoc] at hsplit
      obtain ⟨hpre, -⟩ := List.append_inj' hsplit rfl
      exact h.kept pre' t' post' hpre

end

theorem linkIface_linked {env : OvsEnv} {root : NsPtr} {br : OvsBridge} {iface : OvsIf}
    {required : Bool} {s : OvsState} (h : (s.link iface.ptr).isSome) :
    linkIface env root br iface required s = some (.ok (), s) := by
  unfold linkIface
  rw [Prog.bind_ok s (Prog.get_apply s), if_pos h]
  rfl

section
variable {env : OvsEnv} {root : NsPtr} {brList : List OvsBridge} {s₀ s s₁ s₂ s' : OvsState}
  {br : OvsBridge} {port : OvsPort} {x : OvsIf} {e : IfPtr} {m : Option IfPtr}
  {pre pre' : List Turn}

theorem NotMapped.missed (h : NotMapped env root brList s₀ x) (hdistinct : Distinct brList)
    (hport : port ∈ br.ports) (hx : x ∈ port.ifaces) (hcall : LinkCall env root brList s₀ br x s)
    (hturn : IfaceTurn env root br m x s s₁ s₂ s' e) :
    s.link x.ptr = none ∧ s₁.link x.ptr = none := by
  obtain ⟨br', t, t', hcall', hrun, hmiss⟩ := h
  obtain ⟨rfl, rfl⟩ := linkCall_unique hdistinct hport hx hcall hcall'
  have hsearch := hturn.search
  rw [hrun] at hsearch
  obtain rfl := (Prod.mk.inj (Option.some.inj hsearch)).2
  refine ⟨?_, hmiss⟩
  by_contra hsome
  have hlinked : linkIface env root br x false s = some (.ok (), s) :=
    linkIface_linked (Option.isSome_iff_ne_none.mpr hsome)
  rw [hrun] at hlinked
  obtain rfl := (Prod.mk.inj (Option.some.inj hlinked)).2
  exact hsome hmiss

/-- What is known of an end of the pair after the turns `pre`: another entry of its name is one
created for a bond. -/
structure EndKnown (x : OvsIf) (pre : List Turn) (s : OvsState) : Prop where
  turned : ∀ br port, .iface br port x ∈ pre → (s.link x.ptr).isSome
  bears : ∀ e, s.link x.ptr = some e → Bears s.world x.name e
  rivals : (∃ y, Bears s.world x.name y ∧ s.link x.ptr ≠ some y) ↔ BondTurn pre x.name

theorem EndKnown.congr (h : EndKnown x pre s) (hlink : s'.link x.ptr = s.link x.ptr)
    (hbears : ∀ y, Bears s'.world x.name y ↔ Bears s.world x.name y)
    (hturned : ∀ br port, .iface br port x ∈ pre' → .iface br port x ∈ pre)
    (hbond : BondTurn pre' x.name ↔ BondTurn pre x.name) : EndKnown x pre' s' where
  turned br port hmem := by
    rw [hlink]
    exact h.turned br port (hturned br port hmem)
  bears e he := by
    rw [hlink] at he
    exact (hbears e).mpr (h.bears e he)
  rivals := by
    rw [hbond, ← h.rivals, hlink]
    simp only [hbears]

theorem EndKnown.masterTurn {main : OvsIf} (h : EndKnown x pre s)
    (hinv : LinkInv World.Paired root [] s) (hturn : MasterTurn root br main port s s' m) :
    EndKnown x (pre ++ [.port br port]) s' ∧ s'.link = s.link := by
  have hmem : ∀ br' port', .iface br' port' x ∈ pre ++ [.port br port] →
      .iface br' port' x ∈ pre := by
    simp
  cases hturn with
  | sole hcount heq =>
    subst heq
    refine ⟨h.congr rfl (fun _ => Iff.rfl) hmem ?_, rfl⟩
    rw [bondTurn_concat_port]
    exact or_iff_left fun hbond => hcount hbond.1
  | @several t c hcount hcreate henslaves hlink =>
    refine ⟨?_, hlink⟩
    have hbears : ∀ y, Bears s'.world x.name y ↔
        Bears s.world x.name y ∨ y = c ∧ port.name = x.name := by
      intro y
      rw [bears_named henslaves.toNamed, hcreate.bears hinv.scanned hinv.root]
    have hnew : s.link x.ptr ≠ some c := by
      intro hc
      apply hinv.scanned.fresh c _ (hinv.links x.ptr c hc)
      rw [hcreate.adds.free]
      exact List.mem_cons_self
    refine ⟨fun br' port' hturned => ?_, fun e he => ?_, ?_⟩
    · rw [hlink]
      exact h.turned br' port' (hmem br' port' hturned)
    · rw [hlink] at he
      exact (hbears e).mpr (.inl (h.bears e he))
    · rw [bondTurn_concat_port, ← h.rivals, hlink]
      simp only [hbears]
      constructor
      · rintro ⟨y, hy | ⟨-, hname⟩, hne⟩
        · exact .inl ⟨y, hy, hne⟩
        · exact .inr ⟨hcount, hname⟩
      · rintro (⟨y, hy, hne⟩ | ⟨-, hname⟩)
        · exact ⟨y, .inl hy, hne⟩
        · exact ⟨c, .inr ⟨rfl, hname⟩, hnew⟩

theorem EndKnown.ifaceTurn {k : OvsIf} (h : EndKnown x pre s)
    (hinv : LinkInv World.Paired root [] s) (hdistinct : Distinct brList)
    (hx : x ∈ allIfaces brList) (hk : k ∈ allIfaces brList)
    (hturn : IfaceTurn env root br m k s s₁ s₂ s' e)
    (hmiss : k = x → s.link x.ptr = none ∧ s₁.link x.ptr = none) :
    EndKnown x (pre ++ [.iface br port k]) s' := by
  by_cases hkx : k = x
  · subst hkx
    obtain ⟨hnone, hnone₁⟩ := hmiss rfl
    have hlink := hturn.link_self
    have hbears : ∀ y, Bears s'.world k.name y ↔ Bears s.world k.name y ∨ y = e := by
      intro y
      rw [hturn.bears hinv.scanned hinv.root]
      simp [hnone₁]
    refine ⟨fun _ _ _ => ?_, fun f hf => ?_, ?_⟩
    · rw [hlink]
      rfl
    · rw [hlink] at hf
      exact (hbears f).mpr (.inr (Option.some.inj hf).symm)
    · rw [bondTurn_concat_iface, ← h.rivals, hlink, hnone]
      simp only [hbears]
      constructor
      · rintro ⟨y, hy | rfl, hne⟩
        · exact ⟨y, hy, nofun⟩
        · exact absurd rfl hne
      · rintro ⟨y, hy, -⟩
        refine ⟨y, .inl hy, fun heq => ?_⟩
        obtain rfl := Option.some.inj heq
        exact hturn.fresh hinv.scanned hnone₁ hy.listed
  · have hname : k.name ≠ x.name := hdistinct.name_ne hk hx hkx
    refine h.congr (hturn.link_other (hdistinct.ptr_ne hx hk (Ne.symm hkx))) (fun y => ?_)
      (fun br' port' hmem => ?_) bondTurn_concat_iface
    · rw [hturn.bears hinv.scanned hinv.root]
      simp [hname]
    · rcases List.mem_append.mp hmem with hmem | hmem
      · exact hmem
      · cases List.mem_singleton.mp hmem
        exact absurd rfl hkx

/-! ## The pair -/

/-- The ends `i` and `j`, of which `j` has its turn after the turns `before`, when those of `pre`
have come. -/
structure PairTurns (root : NsPtr) (brList : List OvsBridge) (i j : OvsIf) (jTurn : Turn)
    (before pre : List Turn) (s : OvsState) : Prop where
  inv : LinkInv World.Paired root [] s
  named : LinksNamed brList s
  first : EndKnown i pre s
  second : EndKnown j pre s
  connected : ∀ rest, pre = before ++ jTurn :: rest →
    (Connected s i j ↔ Uninterrupted i j before rest)

theorem Connected.congr {i j : OvsIf} (hi : s'.link i.ptr = s.link i.ptr)
    (hj : s'.link j.ptr = s.link j.ptr) (hpeers : s'.world.peers = s.world.peers) :
    Connected s' i j ↔ Connected s i j := by
  unfold Connected
  rw [hi, hj, hpeers]

variable {i j : OvsIf} {before : List Turn} {jTurn : Turn}

/-- What does not count as a turn, and leaves names, peers and the links of both ends alone. -/
theorem PairTurns.quiet (h : PairTurns root brList i j jTurn before pre s)
    (hinv : LinkInv World.Paired root [] s') (hnamed : LinksNamed brList s')
    (hworld : Named s.world s'.world) (hpeers : s'.world.peers = s.world.peers)
    (hi : s'.link i.ptr = s.link i.ptr) (hj : s'.link j.ptr = s.link j.ptr) :
    PairTurns root brList i j jTurn before pre s' where
  inv := hinv
  named := hnamed
  first := h.first.congr hi (fun _ => bears_named hworld) (fun _ _ => id) Iff.rfl
  second := h.second.congr hj (fun _ => bears_named hworld) (fun _ _ => id) Iff.rfl
  connected rest hsplit := by rw [Connected.congr hi hj hpeers, h.connected rest hsplit]

theorem PairTurns.warn (h : PairTurns root brList i j jTurn before pre s) (text : CStr) :
    PairTurns root brList i j jTurn before pre
      { s with world := s.world.modifyNs root (·.labelAdd text) } := by
  have hsteady := labelAdd_steady s.world root text
  have hpaired := peerInvariant_paired.frame hsteady.frame (fun _ => rfl) h.inv.peers
  apply h.quiet (h.inv.frame hsteady.frame hpaired) _ hsteady.toNamed rfl rfl rfl
  intro k hk e he
  rw [(hsteady.frame.kept e).ifName]
  exact h.named k hk e he

theorem PairTurns.look (h : PairTurns root brList i j jTurn before pre s)
    (hdistinct : Distinct brList) {main : OvsIf} (hin : main ∈ allIfaces brList)
    (hi : main ≠ i) (hj : main ≠ j) (hiIn : i ∈ allIfaces brList) (hjIn : j ∈ allIfaces brList)
    {r : Except Int Unit} (hrun : linkIface env root br main true s = some (r, s')) :
    PairTurns root brList i j jTurn before pre s' := by
  have hlooked : Looked br main s s' := by
    have hpost := linkIface_looked env root br main true s s rfl r s' hrun
    cases r with
    | error err => exact hpost
    | ok u => exact hpost.1
  have hinv : LinkInv World.Paired root [] s' := by
    have hpost := linkIface_triple peerInvariant_paired env br main true s h.inv r s' hrun
    cases r with
    | error err => exact hpost
    | ok u => exact hpost
  exact h.quiet hinv (hlooked.linksNamed hdistinct hin h.named) hlooked.world.toNamed
    (linkIface_peers h.inv hrun) (hlooked.link _ (hdistinct.ptr_ne hiIn hin hi.symm))
    (hlooked.link _ (hdistinct.ptr_ne hjIn hin hj.symm))

theorem concat_eq_append_cons {t u : Turn} {rest : List Turn}
    (h : pre ++ [t] = before ++ u :: rest) :
    rest = [] ∧ pre = before ∧ t = u ∨
      ∃ rest', rest = rest' ++ [t] ∧ pre = before ++ u :: rest' := by
  rcases List.eq_nil_or_concat rest with rfl | ⟨rest', t', rfl⟩
  · obtain ⟨hpre, ht⟩ := List.append_inj' h rfl
    exact .inl ⟨rfl, hpre, List.singleton_inj.mp ht⟩
  · rw [List.concat_eq_append, ← List.cons_append, ← List.append_assoc] at h
    obtain ⟨hpre, ht⟩ := List.append_inj' h rfl
    obtain rfl := List.singleton_inj.mp ht
    exact .inr ⟨rest', List.concat_eq_append, hpre⟩

theorem PairTurns.masterTurn (h : PairTurns root brList i j (.iface br port x) before pre s)
    {br' : OvsBridge} {port' : OvsPort} {main : OvsIf} {master : Option IfPtr}
    (hrun : portMaster root br' main port' s = some (.ok master, s')) :
    PairTurns root brList i j (.iface br port x) before (pre ++ [.port br' port']) s' := by
  have hturn := portMaster_turn root br' main port' s s rfl _ s' hrun
  have hinv := portMaster_triple peerInvariant_paired br' main port' s h.inv _ s' hrun
  obtain ⟨hfirst, hlink⟩ := h.first.masterTurn h.inv hturn
  obtain ⟨hsecond, -⟩ := h.second.masterTurn h.inv hturn
  refine ⟨hinv, hturn.linksNamed h.inv h.named, hfirst, hsecond, fun rest hsplit => ?_⟩
  rcases concat_eq_append_cons hsplit with ⟨-, -, heq⟩ | ⟨rest', rfl, hpre⟩
  · cases heq
  · rw [Connected.congr (by rw [hlink]) (by rw [hlink]) (portMaster_peers h.inv hrun),
      h.connected rest' hpre, uninterrupted_concat]
    exact (and_iff_left trivial).symm

theorem connected_found (hi : s.link i.ptr = some e) (hij : s.link j.ptr ≠ s.link i.ptr)
    (hbears : Bears s.world i.name e) (hpeer : j.peer = some i.name) {f : IfPtr}
    (hj : s.link j.ptr = some f) {p : IfPtr → Option IfPtr} (hnone : p f = none)
    (hp : Repeers j f s.world p s.world.peers) :
    Connected s i j ↔ ¬ ∃ y, Bears s.world i.name y ∧ s.link i.ptr ≠ some y := by
  have hne : f ≠ e := by
    rintro rfl
    exact hij (hj.trans hi.symm)
  generalize hq : s.world.peers = q at hp
  unfold Connected
  rw [hq]
  cases hp with
  | @paired name y hpeer' hsole =>
    rw [hpeer, Option.some.injEq] at hpeer'
    subst hpeer'
    obtain rfl := hsole.2 e hbears
    constructor
    · rintro - ⟨y, hy, hney⟩
      rw [hi, hsole.2 y hy] at hney
      exact hney rfl
    · intro _
      exact ⟨e, f, hi, hj, Matching.rematch_second hne.symm, Matching.rematch_first ..⟩
  | alone hnot =>
    constructor
    · rintro ⟨e', f', -, hj', -, hf'⟩
      rw [hj, Option.some.injEq] at hj'
      rw [← hj', hnone] at hf'
      cases hf'
    · intro hno
      apply absurd _ (hnot i.name e hpeer)
      refine ⟨hbears, fun z hz => ?_⟩
      by_contra hze
      refine hno ⟨z, hz, fun heq => hze ?_⟩
      rw [hi, Option.some.injEq] at heq
      exact heq.symm

theorem connected_kept {k : OvsIf} {f g : IfPtr} (hi : s.link i.ptr = some e)
    (hj : s.link j.ptr = some f) (hi' : s'.link i.ptr = s.link i.ptr)
    (hj' : s'.link j.ptr = s.link j.ptr) (he : Bears s'.world i.name e)
    (hf : Bears s'.world j.name f) (hge : g ≠ e) (hgf : g ≠ f)
    (hp : Repeers k g s'.world s.world.peers s'.world.peers) :
    Connected s' i j ↔ Connected s i j ∧ ∀ x ∈ [i, j], k.peer = some x.name →
      ∃ y, Bears s'.world x.name y ∧ s'.link x.ptr ≠ some y := by
  have hpair : ∀ {u : OvsState}, u.link i.ptr = s.link i.ptr → u.link j.ptr = s.link j.ptr →
      (Connected u i j ↔ u.world.peers e = some f ∧ u.world.peers f = some e) := by
    intro u hui huj
    unfold Connected
    rw [hui, huj, hi, hj]
    simp
  rw [hpair hi' hj', hpair rfl rfl]
  generalize hq : s'.world.peers = q at hp
  have hlinks : ∀ x ∈ [i, j], ∃ z, Bears s'.world x.name z ∧ s'.link x.ptr = some z ∧
      (z = e ∨ z = f) := by
    simp [hi', hj', hi, hj, he, hf]
  cases hp with
  | @paired name y hpeer hsole =>
    by_cases hy : y = e ∨ y = f
    · -- the pair is separated
      have hleft : ¬ (Matching.rematch s.world.peers (some g) (some y) e = some f ∧
          Matching.rematch s.world.peers (some g) (some y) f = some e) := by
        rintro ⟨hef, hfe⟩
        rcases hy with rfl | rfl
        · rw [Matching.rematch_second hge.symm, Option.some.injEq] at hef
          exact hgf hef
        · rw [Matching.rematch_second hgf.symm, Option.some.injEq] at hfe
          exact hge hfe
      have hright : ¬ ∀ x ∈ [i, j], k.peer = some x.name →
          ∃ z, Bears s'.world x.name z ∧ s'.link x.ptr ≠ some z := by
        intro hall
        have hnamed : ∃ x ∈ [i, j], name = x.name ∧ s'.link x.ptr = some y := by
          rcases hy with rfl | rfl
          · exact ⟨i, by simp, hsole.1.name.symm.trans he.name, hi'.trans hi⟩
          · exact ⟨j, by simp, hsole.1.name.symm.trans hf.name, hj'.trans hj⟩
        obtain ⟨x, hx, rfl, hlink⟩ := hnamed
        obtain ⟨z, hz, hne⟩ := hall x hx hpeer
        rw [hsole.2 z hz] at hne
        exact hne hlink
      exact iff_of_false hleft fun h => hright h.2
    · rw [not_or] at hy
      have hothers : ∀ x ∈ [i, j], k.peer ≠ some x.name := by
        intro x hx hpeer'
        obtain ⟨z, hz, -, hzef⟩ := hlinks x hx
        rw [hpeer, Option.some.injEq] at hpeer'
        subst hpeer'
        obtain rfl := hsole.2 z hz
        rcases hzef with rfl | rfl
        · exact hy.1 rfl
        · exact hy.2 rfl
      rw [Matching.rematch_others hge.symm (Ne.symm hy.1) hgf.symm (Ne.symm hy.2),
        Matching.rematch_others hgf.symm (Ne.symm hy.2) hge.symm (Ne.symm hy.1)]
      exact (and_iff_left fun x hx hpeer' => absurd hpeer' (hothers x hx)).symm
  | alone hnone =>
    refine (and_iff_left fun x hx hpeer => ?_).symm
    obtain ⟨z, hz, hlink, -⟩ := hlinks x hx
    by_contra hno
    refine hnone x.name z hpeer ⟨hz, fun y hy => ?_⟩
    by_contra hne
    refine hno ⟨y, hy, fun heq => hne ?_⟩
    rw [hlink, Option.some.injEq] at heq
    exact heq.symm

theorem PairTurns.ifaceTurn {brj : OvsBridge} {portj : OvsPort} {k : OvsIf}
    (h : PairTurns root brList i j (.iface brj portj j) before pre s)
    (hdistinct : Distinct brList) (hne : i ≠ j) (hin : ∀ x ∈ [i, j], x ∈ allIfaces brList)
    (hfirst : ∃ br port, .iface br port i ∈ before) (htype : j.type = cstr "patch")
    (hpeer : j.peer = some i.name) (hmissed : ∀ x ∈ [i, j], NotMapped env root brList s₀ x)
    (hbr : br ∈ brList) (hport : port ∈ br.ports) (hk : k ∈ port.ifaces)
    (hcall : LinkCall env root brList s₀ br k s)
    (hrun : linkPortIface env root br port m k s = some (.ok (), s')) :
    PairTurns root brList i j (.iface brj portj j) before (pre ++ [.iface br port k]) s' := by
  have hkIn : k ∈ allIfaces brList := List.mem_flatMap.mpr ⟨br, hbr, port_mem_ifaces hport hk⟩
  have hturned := linkPortIface_turned env br port m k h.inv s rfl _ s' hrun
  have hinv := linkPortIface_triple peerInvariant_paired env br port m k s h.inv _ s' hrun
  obtain ⟨s₁, s₂, g, hturn⟩ := linkPortIface_turn env root br port m k s s rfl _ s' hrun
  have hmiss : ∀ x ∈ [i, j], k = x → s.link x.ptr = none ∧ s₁.link x.ptr = none := by
    rintro x hx rfl
    exact (hmissed k hx).missed hdistinct hport hk hcall hturn
  have hnamed := hturn.linksNamed h.inv hdistinct hkIn h.named
  have hi : EndKnown i (pre ++ [.iface br port k]) s' :=
    h.first.ifaceTurn h.inv hdistinct (hin i (by simp)) hkIn hturn (hmiss i (by simp))
  have hj : EndKnown j (pre ++ [.iface br port k]) s' :=
    h.second.ifaceTurn h.inv hdistinct (hin j (by simp)) hkIn hturn (hmiss j (by simp))
  have hsame : ∀ x ∈ [i, j], k ≠ x → s'.link x.ptr = s.link x.ptr := fun x hx hkx =>
    hturn.link_other (hdistinct.ptr_ne (hin x hx) hkIn hkx.symm)
  have hself := hturn.link_self
  refine ⟨hinv, hnamed, hi, hj, fun rest hsplit => ?_⟩
  have hibefore : (s.link i.ptr).isSome := by
    obtain ⟨br', port', hmem⟩ := hfirst
    apply h.first.turned br' port'
    rcases concat_eq_append_cons hsplit with ⟨-, rfl, -⟩ | ⟨rest', -, rfl⟩
    · exact hmem
    · exact List.mem_append_left _ hmem
  obtain ⟨e, he⟩ := Option.isSome_iff_exists.mp hibefore
  rcases concat_eq_append_cons hsplit with ⟨rfl, rfl, heq⟩ | ⟨rest', rfl, hpre⟩
  · -- the turn of the second end
    cases heq
    obtain ⟨f, hf, hrepeers⟩ := hturned.patch htype
    have hi' := hsame i (by simp) hne.symm
    have hfresh : s.world.peers f = none := by
      rw [hself, Option.some.injEq] at hf
      subst hf
      by_contra hsome
      exact hturn.fresh h.inv.scanned (hmiss j (by simp) rfl).2
        (h.inv.peers.listed g (Option.isSome_iff_ne_none.mpr hsome))
    have hij : s'.link j.ptr ≠ s'.link i.ptr := by
      intro hsame
      rw [hf] at hsame
      have hname := (hi.bears f hsame.symm).name
      rw [(hj.bears f hf).name] at hname
      exact hdistinct.name_ne (hin j (by simp)) (hin i (by simp)) hne.symm hname
    rw [connected_found (hi'.trans he) hij (hi.bears e (hi'.trans he)) hpeer hf hfresh hrepeers,
      hi.rivals, bondTurn_concat_iface, uninterrupted_nil]
  · -- a later turn, which is none of the two
    have hki : k ≠ i := by
      rintro rfl
      rw [(hmiss k (by simp) rfl).1] at he
      cases he
    have hkj : k ≠ j := by
      rintro rfl
      have hsome := h.second.turned brj portj (by simp [hpre])
      rw [(hmiss k (by simp) rfl).1] at hsome
      cases hsome
    obtain ⟨f, hf⟩ := Option.isSome_iff_exists.mp (h.second.turned brj portj (by simp [hpre]))
    have hi' := hsame i (by simp) hki
    have hj' := hsame j (by simp) hkj
    rw [uninterrupted_concat, ← h.connected rest' hpre]
    by_cases htypek : k.type = cstr "patch"
    · obtain ⟨g', hg, hrepeers⟩ := hturned.patch htypek
      have hgname := hnamed k hkIn g' hg
      have hbears : ∀ x ∈ [i, j], k ≠ x → ∀ z, Bears s'.world x.name z → g' ≠ z := by
        rintro x hx hkx z hz rfl
        exact hdistinct.name_ne hkIn (hin x hx) hkx (hgname.symm.trans hz.name)
      have hie := hi.bears e (hi'.trans he)
      have hjf := hj.bears f (hj'.trans hf)
      have hbond : ∀ x ∈ [i, j], ((∃ y, Bears s'.world x.name y ∧ s'.link x.ptr ≠ some y) ↔
          BondTurn (before ++ rest') x.name) := by
        intro x hx
        have hsame' : BondTurn (pre ++ [.iface br port k]) x.name ↔
            BondTurn (before ++ rest') x.name := by
          rw [bondTurn_concat_iface, hpre, bondTurn_append_iface]
        rw [← hsame']
        rcases List.mem_pair.mp hx with rfl | rfl
        · exact hi.rivals
        · exact hj.rivals
      rw [connected_kept he hf hi' hj' hie hjf (hbears i (by simp) hki e hie)
        (hbears j (by simp) hkj f hjf) hrepeers]
      refine and_congr_right fun _ => ?_
      constructor
      · exact fun hall _ x hx hpeerk => (hbond x hx).mp (hall x hx hpeerk)
      · exact fun hall x hx hpeerk => (hbond x hx).mpr (hall htypek x hx hpeerk)
    · rw [Connected.congr hi' hj' (hturned.other htypek)]
      exact (and_iff_left fun htype => absurd htype htypek).symm

/-! ## The whole linking -/

/-- The interface `j`, which has its turn after `i` and names it as its peer, is connected to it in
the end exactly when no bond has the name of `i` by then, and no patch port that follows finds
either of them by its name. -/
theorem linkIfaces_connected_iff {after : List Turn} {bri brj : OvsBridge} {porti portj : OvsPort}
    (hdistinct : Distinct brList) (h₀ : Unlinked root brList s₀) (hne : i ≠ j)
    (hturns : turns env root brList s₀ = before ++ .iface brj portj j :: after)
    (hfirst : .iface bri porti i ∈ before) (htype : j.type = cstr "patch")
    (hpeer : j.peer = some i.name) (hmissed : ∀ x ∈ [i, j], NotMapped env root brList s₀ x)
    (hrun : linkIfaces env root brList s₀ = some (.ok (), s')) :
    Connected s' i j ↔ Uninterrupted i j before after := by
  have hplace : ∀ x ∈ [i, j], ∃ br ∈ brList, ∃ port ∈ br.ports, x ∈ port.ifaces := by
    have hi : .iface bri porti i ∈ turns env root brList s₀ :=
      hturns ▸ List.mem_append_left _ hfirst
    have hj : .iface brj portj j ∈ turns env root brList s₀ :=
      hturns ▸ List.mem_append_right _ List.mem_cons_self
    intro x hx
    rcases List.mem_pair.mp hx with rfl | rfl
    · obtain ⟨hbr, hport, hx⟩ := iface_mem hi
      exact ⟨bri, hbr, porti, hport, hx⟩
    · obtain ⟨hbr, hport, hx⟩ := iface_mem hj
      exact ⟨brj, hbr, portj, hport, hx⟩
  have hin : ∀ x ∈ [i, j], x ∈ allIfaces brList := by
    intro x hx
    obtain ⟨br, hbr, port, hport, hx⟩ := hplace x hx
    exact List.mem_flatMap.mpr ⟨br, hbr, port_mem_ifaces hport hx⟩
  have hrules : TurnRules env root brList s₀
      (PairTurns root brList i j (.iface brj portj j) before) := by
    refine ⟨fun text h => h.warn text, @fun _ br main _ _ _ hbr hmain h hlook => ?_,
      fun _ _ h hmaster => h.masterTurn hmaster, fun hsplit hcall h hiface => ?_⟩
    · have hother : ∀ x ∈ [i, j], main ≠ x := by
        intro x hx
        obtain ⟨br, hbr', port, hport, hx⟩ := hplace x hx
        exact hdistinct.main_ne hbr hbr' hmain hport hx
      have hmainIn : main ∈ allIfaces brList := by
        apply List.mem_flatMap.mpr ⟨br, hbr, _⟩
        rw [hmain.ifaces]
        exact List.mem_cons_self
      exact h.look hdistinct hmainIn (hother i (by simp)) (hother j (by simp)) (hin i (by simp))
        (hin j (by simp)) hlook
    · obtain ⟨hbr, hport, hk⟩ := iface_mem (hsplit ▸ List.mem_append_right _ List.mem_cons_self)
      exact h.ifaceTurn hdistinct hne hin ⟨bri, porti, hfirst⟩ htype hpeer hmissed hbr hport hk
        hcall hiface
  have hend : ∀ x ∈ [i, j], EndKnown x [] s₀ := by
    intro x hx
    have hnone := h₀.link x (hin x hx)
    refine ⟨nofun, fun e he => ?_, ?_⟩
    · rw [hnone] at he
      cases he
    · constructor
      · rintro ⟨y, hy, -⟩
        have hinternal := hy.internal
        rw [h₀.kernel y hy.listed] at hinternal
        cases hinternal
      · rintro ⟨br, port, hmem, -⟩
        cases hmem
  have hstart : PairTurns root brList i j (.iface brj portj j) before [] s₀ := by
    refine ⟨h₀.inv, fun k hk e he => ?_, hend i (by simp), hend j (by simp), fun rest hsplit => ?_⟩
    · rw [h₀.link k hk] at he
      cases he
    · exact absurd hsplit.symm (List.append_ne_nil_of_right_ne_nil _ (List.cons_ne_nil _ _))
  exact (linkIfaces_turns hdistinct hrules hstart hrun).connected after hturns

end

theorem parse_unlinked {root : NsPtr} {answer : Except CStr Json} {w : World} (hscan : w.Scanned)
    (hpaired : w.Paired) (hroot : root ∈ w.nsList)
    (hkernel : ∀ e ∈ w.listed, (w.ifs e).flags.internal = false) {brList : List OvsBridge}
    {s : OvsState} (hparse : parse root answer (postState w) = some (.ok brList, s)) :
    Unlinked root brList s := by
  let unlinked : OvsState → Prop := fun s =>
    Named w s.world ∧ s.world.peers = w.peers ∧ ∀ ptr, s.link ptr = none
  have hcalloc : ∀ s, unlinked s →
      unlinked { s with link := Function.update s.link s.next none, next := s.next + 1 } := by
    rintro s ⟨hnamed, hpeers, hnone⟩
    refine ⟨hnamed, hpeers, fun ptr => ?_⟩
    dsimp only
    rw [Function.update_apply, hnone, ite_self]
  have hwarn : ∀ s text, unlinked s →
      unlinked { s with world := s.world.modifyNs root (·.labelAdd text) } :=
    fun s text hs => ⟨hs.1.trans (labelAdd_steady s.world root text).toNamed, hs.2⟩
  obtain ⟨⟨hnamed, hpeers, hnone⟩, -⟩ : unlinked s ∧ Allocated s.next (allIfaces brList) :=
    parse_keeps hcalloc root hwarn answer (postState w) ⟨.refl w, rfl, fun _ => rfl⟩ (.ok brList) s
      hparse
  have hinv : LinkInv World.Paired root [] s := by
    refine ⟨hscan.frame hnamed.frame, ⟨?_, fun e he => ?_⟩, ?_, fun ptr e he => ?_, nofun⟩
    · rw [hpeers]
      exact hpaired.symmetric
    · rw [hpeers] at he
      rw [hnamed.frame.listed]
      exact hpaired.listed e he
    · rw [hnamed.frame.nsList]
      exact hroot
    · rw [hnone] at he
      cases he
  refine ⟨hinv, fun i _ => hnone i.ptr, fun e he => ?_⟩
  rw [hnamed.frame.listed] at he
  rw [hnamed.internal]
  exact hkernel e he

/-! ## A bridge with a pair -/

section
variable (env : OvsEnv) (root : NsPtr) (br : OvsBridge) (main iface : OvsIf) (ports : List OvsPort)
  (s : OvsState)

def misses : Bool :=
  (linkIface env root br main true s).any fun r => r.1.isOk &&
    (Prog.forEach ports (linkPort env root br main) r.2).any fun u => u.1.isOk &&
      (linkIface env root br iface false u.2).any fun v => v.1.isOk && (v.2.link iface.ptr).isNone

end

theorem any_isOk {α β : Type} {o : Option (Except Int α × β)} {p : Except Int α × β → Bool}
    (h : (o.any fun r => r.1.isOk && p r) = true) :
    ∃ a b, o = some (.ok a, b) ∧ p (.ok a, b) = true := by
  obtain ⟨⟨r, b⟩, ho, hr⟩ := (Option.any_eq_true _ _).mp h
  rw [Bool.and_eq_true] at hr
  cases r with
  | error e => cases hr.1
  | ok a => exact ⟨a, b, ho, hr.2⟩

theorem notMapped_of_misses {env : OvsEnv} {root : NsPtr} {br : OvsBridge} {main iface : OvsIf}
    {port : OvsPort} {ports ports' : List OvsPort} {s : OvsState} (hmain : MainIface br main)
    (hports : br.ports = ports ++ port :: ports') (hsole : port.ifaces = [iface])
    (h : misses env root br main iface ports s = true) : NotMapped env root [br] s iface := by
  unfold misses at h
  obtain ⟨_, t, hlinked, h⟩ := any_isOk h
  obtain ⟨_, u, hbefore, h⟩ := any_isOk h
  obtain ⟨_, v, hsearch, hmiss⟩ := any_isOk h
  have hmaster : portMaster root br main port u = some (.ok (u.link main.ptr), u) := by
    apply portMaster_sole
    rw [port.counted, hsole]
    exact lt_irrefl 1
  have hcall : BridgeCall env root br s iface u :=
    .port hmain hlinked hports hbefore hmaster (hsole.trans (List.nil_append _).symm) rfl
  exact ⟨br, u, v, ⟨[], [], s, rfl, rfl, hcall⟩, hsearch, Option.isNone_iff_eq_none.mp hmiss⟩

def patchIface (ptr : OvsIfPtr) (name peer : String) : OvsIf :=
  { ptr := ptr, name := cstr name, type := cstr "patch", peer := some (cstr peer) }

def patchPort (iface : OvsIf) : OvsPort :=
  { name := iface.name, ifaces := [iface], ifaceCount := 1 }

def patchMain : OvsIf := { ptr := 0, name := cstr "br0", type := cstr "internal" }

def patchBridge (ifaces : List OvsIf) : OvsBridge :=
  { name := cstr "br0"
    dpType := .system
    ports := ifaces.map patchPort
    system := some { name := cstr "br0", ifaces := [patchMain], ifaceCount := 1 } }

def patchState : OvsState := { world := bondWorld "br0", link := fun _ => none, next := 4 }

theorem patchState_unlinked (brList : List OvsBridge) : Unlinked 0 brList patchState where
  inv := by
    refine ⟨bondWorld_scanned "br0", .of_no_peers fun e => ?_, List.mem_singleton_self 0, nofun, nofun⟩
    show ((bondWorld "br0").ifs e).peer = none
    unfold bondWorld
    dsimp only
    split <;> rfl
  link _ _ := rfl
  kernel := by decide

theorem patchBridge_main (ifaces : List OvsIf) : MainIface (patchBridge ifaces) patchMain :=
  ⟨_, rfl, rfl⟩

theorem patchBridge_turns {ifaces : List OvsIf} (h : (linkIface default 0 (patchBridge ifaces)
      patchMain true patchState).any (fun r => r.1.isOk) = true) :
    turns default 0 [patchBridge ifaces] patchState =
      portTurns (ifaces.map fun iface => (patchBridge ifaces, patchPort iface)) := by
  obtain ⟨_, t, hlinked, -⟩ := any_isOk (p := fun _ => true) (by simpa using h)
  have hmapped : Mapped default 0 [patchBridge ifaces] patchState (patchBridge ifaces) :=
    ⟨[], [], patchState, patchMain, t, rfl, rfl, patchBridge_main ifaces, hlinked⟩
  unfold turns
  rw [List.flatMap_singleton, mappedPorts, if_pos hmapped]
  show portTurns (List.map _ (ifaces.map patchPort)) = _
  rw [List.map_map]
  rfl

def patchEnds : List OvsIf := [patchIface 1 "p0" "p1", patchIface 2 "p1" "p0"]

theorem patchEnds_notMapped (others : List OvsIf)
    (h : patchEnds.all fun x => misses default 0 (patchBridge (patchEnds ++ others)) patchMain x
      ((patchEnds.take (x.ptr - 1)).map patchPort) patchState) :
    ∀ x ∈ patchEnds, NotMapped default 0 [patchBridge (patchEnds ++ others)] patchState x := by
  intro x hx
  have hmain := patchBridge_main (patchEnds ++ others)
  have hmiss := List.all_eq_true.mp h x hx
  rcases List.mem_pair.mp hx with rfl | rfl
  · exact notMapped_of_misses hmain rfl rfl hmiss
  · exact notMapped_of_misses hmain rfl rfl hmiss

theorem linkIfaces_connected_pair : ∃ s',
    linkIfaces default 0 [patchBridge patchEnds] patchState = some (.ok (), s') ∧
      Connected s' (patchIface 1 "p0" "p1") (patchIface 2 "p1" "p0") := by
  let br := patchBridge patchEnds
  let i := patchIface 1 "p0" "p1"
  let j := patchIface 2 "p1" "p0"
  have hok : ((linkIfaces default 0 [br] patchState).any fun r => r.1.isOk && true) = true := by
    decide +kernel
  obtain ⟨_, s', hrun, -⟩ := any_isOk hok
  have hmissed := patchEnds_notMapped [] (by decide +kernel)
  have hturns : turns default 0 [br] patchState =
      portTurns (patchEnds.map fun iface => (br, patchPort iface)) :=
    patchBridge_turns (by decide +kernel)
  have hdistinct : Distinct [br] := ⟨by decide, by decide⟩
  let before : List Turn := [.port br (patchPort i), .iface br (patchPort i) i,
    .port br (patchPort j)]
  have hfirst : .iface br (patchPort i) i ∈ before := List.mem_cons_of_mem _ List.mem_cons_self
  have hfound : ¬ BondTurn before i.name := by
    rintro ⟨br', port', hmem, hcount, -⟩
    simp only [before, List.mem_cons, Turn.port.injEq, reduceCtorEq, List.not_mem_nil, or_false,
      false_or] at hmem
    rcases hmem with ⟨-, rfl⟩ | ⟨-, rfl⟩
    · exact lt_irrefl 1 hcount
    · exact lt_irrefl 1 hcount
  exact ⟨s', hrun, (linkIfaces_connected_iff hdistinct (patchState_unlinked _) (by decide) hturns
    hfirst rfl rfl hmissed hrun).mpr (uninterrupted_nil.mpr hfound)⟩

/-- A third patch port that names an end of the pair takes it away. -/
theorem linkIfaces_takes_peer : ¬ ∀ (env : OvsEnv) (root : NsPtr) (brList : List OvsBridge)
    (s s' : OvsState) (br br' : OvsBridge) (port port' : OvsPort) (i j : OvsIf),
      Distinct brList →
      ((brList.flatMap fun br => br.system.toList ++ br.ports).map OvsPort.name).Nodup →
      Unlinked root brList s → i ≠ j → .iface br port i ∈ turns env root brList s →
      .iface br' port' j ∈ turns env root brList s → i.type = cstr "patch" →
      j.type = cstr "patch" → i.peer = some j.name → j.peer = some i.name →
      NotMapped env root brList s i → NotMapped env root brList s j →
      linkIfaces env root brList s = some (.ok (), s') → Connected s' i j := by
  intro h
  let others : List OvsIf := [patchIface 3 "p2" "p0"]
  let br := patchBridge (patchEnds ++ others)
  let i := patchIface 1 "p0" "p1"
  let j := patchIface 2 "p1" "p0"
  have hends : ((linkIfaces default 0 [br] patchState).any fun r => r.1.isOk &&
      (r.2.link 1).all fun e => decide (r.2.world.peers e ≠ r.2.link 2)) = true := by
    decide +kernel
  obtain ⟨_, s', hrun, hs'⟩ := any_isOk hends
  have hmissed := patchEnds_notMapped others (by decide +kernel)
  have hturns : turns default 0 [br] patchState =
      portTurns ((patchEnds ++ others).map fun iface => (br, patchPort iface)) :=
    patchBridge_turns (by decide +kernel)
  have hturn : ∀ x ∈ patchEnds, .iface br (patchPort x) x ∈ turns default 0 [br] patchState := by
    intro x hx
    rw [hturns]
    apply List.mem_flatMap.mpr ⟨(br, patchPort x), _, _⟩
    · exact List.mem_map_of_mem (List.mem_append_left _ hx)
    · exact List.mem_cons_of_mem _ List.mem_cons_self
  obtain ⟨e, f, he, hf, hef, -⟩ := h default 0 [br] patchState s' br br (patchPort i) (patchPort j)
    i j ⟨by decide, by decide⟩ (by decide) (patchState_unlinked _) (by decide)
    (hturn i List.mem_cons_self) (hturn j (List.mem_cons_of_mem _ List.mem_cons_self)) rfl rfl rfl rfl
    (hmissed i List.mem_cons_self) (hmissed j (List.mem_cons_of_mem _ List.mem_cons_self)) hrun
  have he : s'.link 1 = some e := he
  have hf : s'.link 2 = some f := hf
  dsimp only at hs'
  rw [he, hf] at hs'
  simp [hef] at hs'

end Plotnetcfg.Openvswitch
