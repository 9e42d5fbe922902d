import Plotnetcfg.Frontends.Dot
import Plotnetcfg.Frontends.Json
import Plotnetcfg.Handlers.FillRuns
import Plotnetcfg.Handlers.PrivateUse

/-! Links to a name space alone in both frontends. The JSON frontend goes by the index of the
lower device, the dot frontend by the interface that was found. -/

namespace Plotnetcfg.Frontends

open Handlers Openvswitch

def hasLinkNetns (w : World) (mask : PropMask) (e : IfPtr) : Bool :=
  (jsonObjectGet (some (.obj (ifObj w mask e))) (cstr "link-netns")).isSome

def drawsNetns (w : World) (e : IfPtr) : Prop := ∃ ns, DotEdge.linkNet e ns ∈ dotEdges w

/-- Both frontends show the name space, or neither does, and the JSON frontend only where there
is no interface to show. -/
structure LinkNetnsAgree (w : World) (mask : PropMask) (e : IfPtr) : Prop where
  drawn : hasLinkNetns w mask e = true ↔ drawsNetns w e
  alone : hasLinkNetns w mask e = true → (w.ifs e).link = none ∧ (w.ifs e).peer = none

section
variable {w : World} {mask : PropMask} {e : IfPtr}

theorem hasLinkNetns_iff : hasLinkNetns w mask e = true ↔
    (w.ifs e).linkIndex = 0 ∧ (w.ifs e).linkNet.isSome := by
  show ((ifObj w mask e).lookup (cstr "link-netns")).isSome = true ↔ _
  rw [lookup_linkNetns]
  split_ifs with hindex
  · simp [hindex]
  · simp [hindex]

theorem drawsNetns_iff (he : e ∈ w.listed) :
    drawsNetns w e ↔ (w.ifs e).link = none ∧ (w.ifs e).linkNet.isSome := by
  unfold drawsNetns
  constructor
  · rintro ⟨ns, hedge⟩
    obtain ⟨x, -, hmaster | hphysfn | hlink | hpeer⟩ := mem_dotEdges.mp hedge
    · obtain ⟨_, _, hmaster⟩ := mem_masterEdge.mp hmaster
      cases hmaster
    · obtain ⟨_, _, hphysfn⟩ := mem_physfnEdge.mp hphysfn
      cases hphysfn
    · rcases mem_linkEdge.mp hlink with ⟨_, _, hlink⟩ | ⟨hnone, n, hnet, hedge'⟩
      · cases hlink
      · cases hedge'
        exact ⟨hnone, by rw [hnet]; rfl⟩
    · obtain ⟨_, _, _, hpeer⟩ := mem_peerEdge.mp hpeer
      cases hpeer
  · rintro ⟨hnone, hsome⟩
    obtain ⟨ns, hns⟩ := Option.isSome_iff_exists.mp hsome
    have hedge : DotEdge.linkNet e ns ∈ linkEdge w e := mem_linkEdge.mpr (.inr ⟨hnone, ns, hns, rfl⟩)
    exact ⟨ns, mem_dotEdges.mpr ⟨e, he, .inr (.inr (.inl hedge))⟩⟩

/-- Where the name space is known only for want of an index, the frontends disagree exactly on
the interfaces that have got a link or a peer all the same. -/
theorem linkNetnsAgree_iff (he : e ∈ w.listed)
    (hindex : (w.ifs e).linkNet.isSome → (w.ifs e).linkIndex = 0) :
    LinkNetnsAgree w mask e ↔ ((w.ifs e).linkNet.isSome →
      (w.ifs e).link = none ∧ (w.ifs e).peer = none) := by
  have hjson : hasLinkNetns w mask e = true ↔ (w.ifs e).linkNet.isSome := by
    rw [hasLinkNetns_iff]
    exact ⟨And.right, fun h => ⟨hindex h, h⟩⟩
  constructor
  · intro h hnet
    exact h.alone (hjson.mpr hnet)
  · intro h
    refine ⟨?_, fun hhas => h (hjson.mp hhas)⟩
    rw [hjson, drawsNetns_iff he]
    exact ⟨fun hnet => ⟨(h hnet).1, hnet⟩, And.right⟩

end

/-! ## Over a whole run -/

/-- The calls that leave the link and the peer of `e` alone. -/
def callsSparing (e : IfPtr) : PostCalls :=
  ⟨fun x _ => x ≠ e, fun x found => x ≠ e ∧ found ≠ e, fun _ => True⟩

/-- No call of `netns_fill_list` is to give the interface a link or a peer: `match_all_netnsid`
leads neither it to a peer nor another one to it, and the searches of the turns and callbacks that
are reached find nothing for it. -/
structure Unattached (ovs : OvsEnv) (env : HandlerEnv) (root : NsPtr)
    (answer : Option (Except CStr Json)) (s : ScanState) (e : IfPtr) : Prop where
  peer : 0 ≤ (s.world.ifs e).peerNetnsid → s.world.peerTarget e = none
  notPeer : ∀ x ∈ s.world.listed, 0 ≤ (s.world.ifs x).peerNetnsid → s.world.peerTarget x ≠ some e
  calls : FillMakes ovs env root answer s (callsSparing e)

section
variable {input : PostInput} {w v v' : World} {e : IfPtr}

/-- The index is missing, and no link or peer has taken its place. -/
structure Apart (v : World) (e : IfPtr) : Prop where
  linkIndex : (v.ifs e).linkIndex = 0
  link : (v.ifs e).link = none
  peer : (v.ifs e).peer = none

theorem Apart.start (h : Collected w) (he : e ∈ w.listed)
    (hpeer : 0 ≤ (w.ifs e).peerNetnsid → w.peerTarget e = none)
    (hnotPeer : ∀ x ∈ w.listed, 0 ≤ (w.ifs x).peerNetnsid → w.peerTarget x ≠ some e)
    (hnet : (w.netTarget e).isSome) : Apart (matchAllNetnsid w) e := by
  have hindex : (w.ifs e).linkIndex = 0 := by
    unfold World.netTarget at hnet
    split_ifs at hnet with hbare
    · exact hbare.2
    · cases hnet
  refine ⟨?_, ?_, ?_⟩
  · rw [h.linkIndex_eq, hindex]
  · rw [h.link_eq he, if_neg fun haway => haway.2 hindex]
  · rw [Option.eq_none_iff_forall_not_mem]
    intro y hy
    rcases peer_matched h hy with ⟨-, hid, htarget⟩ | ⟨hlisted, hid, htarget⟩
    · rw [hpeer hid] at htarget
      cases htarget
    · exact hnotPeer y hlisted hid htarget

theorem Apart.step (hcalls : input.calls = callsSparing e) (hfits : input.Fits v)
    (hev : e ∈ v.listed) (hstep : PostStep input v v') (hv : Apart v e) : Apart v' e := by
  refine ⟨?_, ?_, ?_⟩
  · rw [(hstep.extends hfits).linkIndex hev, hv.linkIndex]
  · rw [Option.eq_none_iff_forall_not_mem]
    intro y hy
    rcases hstep.link hy with hold | ⟨hindex, -⟩ | hcall
    · rw [hv.link] at hold
      cases hold
    · exact hindex hv.linkIndex
    · rw [hcalls] at hcall
      exact hcall rfl
  · rw [Option.eq_none_iff_forall_not_mem]
    intro y hy
    have hpeer := hstep.peer hy
    rw [hcalls] at hpeer
    rcases hpeer with hold | hcall | hcall
    · rw [hv.peer] at hold
      cases hold
    · exact hcall.1 rfl
    · exact hcall.2 rfl

theorem Apart.run (hcalls : input.calls = callsSparing e) (hfits : input.Fits w)
    (he : e ∈ w.listed) (hrun : PostRun input w v) (hw : Apart w e) : Apart v e := by
  induction hrun with
  | refl => exact hw
  | @tail u v hrun hstep ih =>
    have hext := PostRun.extends hfits hrun
    exact ih.step hcalls (hfits.extends hext) (hext.listed e he) hstep

theorem linkNet_isSome (h : Collected w) (hext : (matchAllNetnsid w).Extends input.root input.names v)
    (hev : e ∈ v.listed) (hnet : (v.ifs e).linkNet.isSome) :
    e ∈ w.listed ∧ (w.netTarget e).isSome := by
  by_cases he : e ∈ (matchAllNetnsid w).listed
  · have hew := h.mem_listed.mp he
    rw [hext.linkNet he, h.linkNet_eq hew] at hnet
    exact ⟨hew, hnet⟩
  · obtain ⟨name, -, brName, hcreated⟩ := hext.created e hev he
    have hnone := congrArg IfEntry.linkNet hcreated
    have hnone : (v.ifs e).linkNet = none := hnone
    rw [hnone] at hnet
    cases hnet

end

/-- Whatever is scanned and whatever ovsdb reports, the frontends agree on the interfaces that no
call is to give a link or a peer. -/
theorem linkNetns_agree (ovs : OvsEnv) (env : HandlerEnv) {root : NsPtr}
    {answer : Option (Except CStr Json)} {s s' : ScanState} {r : Except Stop Unit}
    (h : Collected s.world) (hroot : root ∈ s.world.nsList)
    (hrun : fillListPost ovs env root answer s = some (r, s')) {e : IfPtr}
    (he : e ∈ s'.world.listed)
    (hun : (s.world.netTarget e).isSome → Unattached ovs env root answer s e) (mask : PropMask) :
    LinkNetnsAgree s'.world mask e := by
  have hapart : (s'.world.ifs e).linkNet.isSome → Apart s'.world e := by
    intro hnet
    obtain ⟨bridges, -, hsteps⟩ := fillListPost_run h hroot hrun
    obtain ⟨hew, htarget⟩ := linkNet_isSome h (hsteps.extends (h.fits hroot)) he hnet
    obtain ⟨hpeer, hnotPeer, hcalls⟩ := hun htarget
    obtain ⟨bridges, -, hsteps⟩ := fillListPost_steps h hroot hcalls hrun
    exact Apart.run rfl (h.fits hroot) (h.mem_listed.mpr hew) hsteps
      (Apart.start h hew hpeer hnotPeer htarget)
  rw [linkNetnsAgree_iff he fun hnet => (hapart hnet).linkIndex]
  exact fun hnet => ⟨(hapart hnet).link, (hapart hnet).peer⟩

/-- A tunnel that is linked to another name space, and there a device with an address. -/
def tunnelScan (held : Bool) : ScanState where
  world :=
    { ifs := fun e =>
        if e = 0 then { ifName := cstr "gre1", driver := some (cstr "gre"), linkNetnsid := 5 }
        else { ns := 1, ifName := cstr "eth0", flags := { up := true },
               addr := [⟨{ family := AF_INET, raw := some [10, 0, 0, if held then 1 else 2] }, {}⟩] }
      nss := fun n =>
        if n = 0 then { ifaces := [0], ids := [⟨1, 5⟩] }
        else { ifaces := [1], name := some (cstr "lower") }
      nsList := [0, 1]
      free := [] }
  priv := fun e =>
    if e = 0 then .live (.tunnel { family := AF_INET, raw := some [10, 0, 0, 1] }) else .unset

theorem tunnelScan_collected (held : Bool) : Collected (tunnelScan held).world := by
  have hscanned : (tunnelScan held).world.Scanned := by
    cases held <;> exact ⟨by decide, by decide, by decide, by decide, by decide, by decide, by decide⟩
  have hentries : ∀ e, (tunnelScan held).world.ifs e ∈
      [(tunnelScan held).world.ifs 0, (tunnelScan held).world.ifs 1] := by
    intro e
    by_cases he : e = 0
    · subst he
      exact List.mem_cons_self
    · have hsame : (tunnelScan held).world.ifs e = (tunnelScan held).world.ifs 1 := if_neg he
      rw [hsame]
      exact List.mem_cons_of_mem _ List.mem_cons_self
  apply Collected.of_entries hscanned hentries
  cases held <;> decide

/-- Nothing holds the address: both frontends show the name space. -/
theorem linkNetns_agree_tunnel : ∃ s', fillListPost default plainEnv 0 none
    (tunnelScan false) = some (.ok (), s') ∧ hasLinkNetns s'.world {} 0 = true ∧
      LinkNetnsAgree s'.world {} 0 := by
  obtain ⟨s', hrun, hends⟩ : ∃ s', fillListPost default plainEnv 0 none
      (tunnelScan false) = some (.ok (), s') ∧
        decide (0 ∈ s'.world.listed ∧ hasLinkNetns s'.world {} 0 = true) = true :=
    exists_of_ends (by decide +kernel)
  obtain ⟨hlisted, hhas⟩ := of_decide_eq_true hends
  have hcollected := tunnelScan_collected false
  have hcalls : FillMakes default plainEnv 0 none (tunnelScan false) (callsSparing 0) := by
    apply FillMakes.ofTunnels hcollected List.mem_cons_self
    · decide
    · rintro e - data found hlocal hholder rfl
      have hdata : { family := AF_INET, raw := some [10, 0, 0, 1] } = data := Option.some.inj hlocal
      subst hdata
      have hnone : (tunnelScan false).world.addrHolder 1
          { family := AF_INET, raw := some [10, 0, 0, 1] } = none := by decide +kernel
      exact absurd (hnone.symm.trans hholder) nofun
  have hagree : LinkNetnsAgree s'.world {} 0 :=
    linkNetns_agree default plainEnv hcollected List.mem_cons_self hrun hlisted
      (fun _ => ⟨fun hid => absurd hid (by decide), by decide, hcalls⟩) {}
  exact ⟨s', hrun, hhas, hagree⟩

/-- The device holds the address: the tunnel has got a link, and JSON shows the name space all
the same. -/
theorem linkNetns_disagree : ¬ ∀ (ovs : OvsEnv) (env : HandlerEnv) (root : NsPtr)
    (answer : Option (Except CStr Json)) (s s' : ScanState), Collected s.world →
      root ∈ s.world.nsList → fillListPost ovs env root answer s = some (.ok (), s') →
      ∀ e ∈ s'.world.listed, ∀ mask, LinkNetnsAgree s'.world mask e := by
  intro h
  obtain ⟨s', hrun, hends⟩ : ∃ s', fillListPost default plainEnv 0 none
      (tunnelScan true) = some (.ok (), s') ∧
        decide (0 ∈ s'.world.listed ∧ hasLinkNetns s'.world {} 0 = true ∧
          (s'.world.ifs 0).link = some 1) = true :=
    exists_of_ends (by decide +kernel)
  obtain ⟨hlisted, hhas, hlink⟩ := of_decide_eq_true hends
  have hagree := h default plainEnv 0 none _ s' (tunnelScan_collected _) List.mem_cons_self hrun 0
    hlisted {}
  rw [(hagree.alone hhas).1] at hlink
  cases hlink

end Plotnetcfg.Frontends
