import Plotnetcfg.Core.Peers

/-! Virtual ethernet pairs (`handlers/veth.c`). -/

namespace Plotnetcfg.Handlers

/-- `ethtoolVethPeer` is the index that the driver reports, 0 when it reports none. -/
def vethScan (ethtoolVethPeer : CStr → UInt32) (entry : IfPtr) (w : World) : World :=
  w.modifyIf entry fun x =>
    if x.linkIndex ≠ 0 then
      { x with
        peerIndex := x.linkIndex
        peerNetnsid := x.linkNetnsid
        linkIndex := 0
        linkNetnsid := -1 }
    else { x with peerIndex := ethtoolVethPeer x.ifName }

def matchPeer (link : IfPtr) : MatchCallback := fun entry => do
  let w ← Prog.get
  let x := w.ifs entry
  if x.ifIndex ≠ (w.ifs link).peerIndex ∨ x.peerIndex ≠ (w.ifs link).ifIndex then pure 0
  else do
    let driver ← Prog.deref x.driver
    if driver ≠ cstr "veth" then pure 0
    else if x.peer.isSome ∧ x.peer ≠ some link then pure 0
    else if x.ns = (w.ifs link).ns then pure 2
    else pure 1

def vethPost (entry : IfPtr) : Prog Int World Unit := do
  let w ← Prog.get
  if (w.ifs entry).peer.isSome then pure ()
  else if (w.ifs entry).peerIndex = 0 then Prog.throw (ENOENT : Int)
  else do
    let desc ← matchIf { exclude := some entry, netnsList := some w.nsList } (matchPeer entry)
    if matchAmbiguous desc then
      Prog.modify (ifAddWarning entry (cstr "failed to find the veth peer reliably"))
    else
      match matchFound desc with
      | none => Prog.modify (ifAddWarning entry (cstr "failed to find the veth peer"))
      | some found => Prog.modify (peerSet (some entry) (some found))

section
variable {I E : World → Prop}

theorem matchPeer_triple (link entry : IfPtr) :
    Prog.Runs I (matchPeer link entry) (fun res w => 0 ≤ res ∧ I w) E := by
  refine Prog.Triple.bind (Q := fun _ => I) (Prog.Triple.get fun w hw => hw) fun w₀ => ?_
  refine Prog.Triple.ite (fun _ => Prog.Triple.pure fun w hw => ⟨le_refl 0, hw⟩) fun _ => ?_
  refine Prog.Triple.bind (Q := fun _ => I) (Prog.Triple.deref fun _ _ w hw => hw) fun driver => ?_
  refine Prog.Triple.ite (fun _ => Prog.Triple.pure fun w hw => ⟨le_refl 0, hw⟩) fun _ => ?_
  refine Prog.Triple.ite (fun _ => Prog.Triple.pure fun w hw => ⟨le_refl 0, hw⟩) fun _ => ?_
  refine Prog.Triple.ite (fun _ => ?_) fun _ => ?_
  · exact Prog.Triple.pure fun w hw => ⟨by decide, hw⟩
  · exact Prog.Triple.pure fun w hw => ⟨by decide, hw⟩

end

theorem vethPost_triple {P : World → Prop} (hP : PeerInvariant P) {w₀ : World} {entry : IfPtr}
    (hentry : entry ∈ w₀.listed) :
    Prog.Runs (fun w => w₀.Frame w ∧ P w) (vethPost entry) (fun _ w => w₀.Frame w ∧ P w)
      (fun w => w₀.Frame w ∧ P w) := by
  have hmem : ∀ {w : World}, w₀.Frame w → ∀ {x : IfPtr}, x ∈ w₀.listed → x ∈ w.listed :=
    fun hf _ hx => by rwa [hf.listed]
  have hwarn : ∀ text, Prog.Runs (fun w => w₀.Frame w ∧ P w)
      (Prog.modify (ifAddWarning entry text) : Prog Int World Unit) (fun _ w => w₀.Frame w ∧ P w)
      (fun w => w₀.Frame w ∧ P w) := by
    refine fun text => Prog.Triple.modify fun w hw => ?_
    have hf := ifAddWarning_frame entry text w
    refine ⟨hw.1.trans hf, hP.frame hf (fun x => ?_) hw.2⟩
    rw [ifAddWarning_ifs]
    split_ifs <;> rfl
  unfold vethPost
  refine Prog.Triple.bind (Q := fun w₁ w => w₀.Frame w₁ ∧ w₀.Frame w ∧ P w)
    (Prog.Triple.get fun w hw => ⟨hw.1, hw⟩) fun w₁ => ?_
  refine Prog.Triple.ite (fun _ => Prog.Triple.pure fun w hw => hw.2) fun _ => ?_
  refine Prog.Triple.ite (fun _ => Prog.Triple.throw fun w hw => hw.2) fun _ => ?_
  rintro w ⟨hw₁, hw⟩
  have hall : ∀ w, w₀.Frame w ∧ P w → ∀ n ∈ w₁.nsList, ∀ e ∈ (w.nss n).ifaces,
      e ∈ w₀.listed := by
    intro w hw n hn e he
    rw [hw.1.ifaces] at he
    rw [hw₁.nsList] at hn
    exact World.mem_listed.mpr ⟨n, hn, he⟩
  have hsearch := matchIf_triple (E := fun w => w₀.Frame w ∧ P w)
    (· ∈ w₀.listed) { exclude := some entry, netnsList := some w₁.nsList }
    (fun e => (matchPeer_triple entry e).weaken (fun _ => id) fun _ w hw => ⟨fun _ => hw.2, hw.2⟩)
    hall nofun
  refine Prog.Triple.bind hsearch (fun desc => ?_) w hw
  refine Prog.Triple.ite (fun _ => (hwarn _).weaken (fun _ => And.right) fun _ _ => id) fun _ => ?_
  cases hfound : matchFound desc with
  | none => exact (hwarn _).weaken (fun _ => And.right) fun _ _ => id
  | some found =>
    refine Prog.Triple.modify fun w hw => ?_
    have hlisted := matchFound_mem hw.1 hfound
    refine ⟨hw.2.1.trans (peerSet_frame w _ _), hP.peerSet ?_ ?_ hw.2.2⟩
    · rintro x hx
      obtain rfl := Option.some.inj hx
      exact hmem hw.2.1 hentry
    · rintro x hx
      obtain rfl := Option.some.inj hx
      exact hmem hw.2.1 hlisted

end Plotnetcfg.Handlers
