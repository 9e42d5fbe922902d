import Plotnetcfg.Handlers.PostEffect
import Plotnetcfg.Netns.Start

/-! From the dumps of the kernel to the topology that is shown: where `netns_fill_list` succeeds,
masters and lower devices are the interfaces whose indexes the kernel has told. -/

namespace Plotnetcfg

/-- An interface without its relations, its labels, and the name space it is linked to. -/
def IfEntry.core (x : IfEntry) : IfEntry := { x.unrelated with linkNet := none }

namespace Handlers

open Plotnetcfg.Netlink Bytes

def SearchesLink (x : IfEntry) : Prop := ∃ d ∈ linkingDrivers, x.driver = some d

/-- The master and the lower device of `e` are those that its indexes are of. -/
structure Related (w : World) (e : IfPtr) : Prop where
  master : (w.ifs e).masterIndex ≠ 0 → ∀ y ∈ (w.nss (w.ifs e).ns).ifaces, y ≠ e →
    (w.ifs y).ifIndex = (w.ifs e).masterIndex → (w.ifs e).master = some y
  noMaster : (w.ifs e).masterIndex = 0 → (w.ifs e).master = none
  link : ¬ SearchesLink (w.ifs e) → (w.ifs e).linkNetnsid < 0 → (w.ifs e).linkIndex ≠ 0 →
    ∀ y ∈ (w.nss (w.ifs e).ns).ifaces, y ≠ e →
      (w.ifs y).ifIndex = (w.ifs e).linkIndex → (w.ifs e).link = some y
  away : ¬ SearchesLink (w.ifs e) → 0 ≤ (w.ifs e).linkNetnsid → (w.ifs e).linkIndex ≠ 0 →
    ∀ y, w.linkTarget e = some y → (w.ifs e).link = some y
  noLink : ¬ SearchesLink (w.ifs e) → (w.ifs e).linkIndex = 0 → (w.ifs e).link = none

def DumpsUnique (calls : NsPtr → NsCalls) (list : List NsPtr) : Prop :=
  ∀ n ∈ list, ∀ linfo, (calls n).ifList.linkDump = .ok linfo → (linfo.map linkIndexOf).Nodup

/-! ## The steps after the scan -/

section
variable {env : HandlerEnv} {s s₁ s' : ScanState}

structure Retains (w w' : World) : Prop where
  core : ∀ e ∈ w.listed, (w'.ifs e).core = (w.ifs e).core
  frame : w.Frame w'

theorem Retains.field {α : Type} {w w' : World} (h : Retains w w') (field : IfEntry → α)
    (hfield : ∀ x, field x.core = field x) {e : IfPtr} (he : e ∈ w.listed) :
    field (w'.ifs e) = field (w.ifs e) := by
  rw [← hfield, h.core e he, hfield]

theorem Retains.trans {w w' w'' : World} (h : Retains w w') (h' : Retains w' w'') :
    Retains w w'' where
  core e he := (h'.core e (by rwa [h.frame.listed])).trans (h.core e he)
  frame := h.frame.trans h'.frame

theorem Retains.linkTarget {w w' : World} (h : Retains w w') (hscanned : w.Scanned) {e : IfPtr}
    (he : e ∈ w.listed) : w'.linkTarget e = w.linkTarget e := by
  have hids : matchNetnsid (w.ifs e).linkNetnsid (w'.nss (w.ifs e).ns) =
      matchNetnsid (w.ifs e).linkNetnsid (w.nss (w.ifs e).ns) := by
    rw [matchNetnsid, matchNetnsid, h.frame.ids]
  rw [World.linkTarget, World.linkTarget, h.field IfEntry.linkIndex (fun _ => rfl) he,
    h.field IfEntry.linkNetnsid (fun _ => rfl) he, h.field IfEntry.ns (fun _ => rfl) he,
    matchIfNetnsid, matchIfNetnsid, hids]
  cases hfound : matchNetnsid (w.ifs e).linkNetnsid (w.nss (w.ifs e).ns) with
  | none => rfl
  | some ptr =>
    have hptr : ptr ∈ w.nsList := by
      obtain ⟨i, hi, rfl⟩ := Option.map_eq_some_iff.mp hfound
      exact hscanned.ids _ (hscanned.ns_mem he) i (List.mem_of_find?_eq_some hi)
    dsimp only
    rw [h.frame.ifaces]
    apply List.find?_congr
    intro y hy
    rw [h.field IfEntry.ifIndex (fun _ => rfl) (World.mem_listed.mpr ⟨ptr, hptr, hy⟩)]

theorem core_of_unrelated {x y : IfEntry} (h : y.unrelated = x.unrelated) : y.core = x.core := by
  rw [IfEntry.core, IfEntry.core, h]

theorem Collected.retains {w : World} (h : Collected w) : Retains w (matchAllNetnsid w) where
  core e _ := by
    obtain ⟨_, _, _, _, hifs⟩ := h.matched.ifs e
    rw [hifs]
    rfl
  frame := h.frame

theorem fillListResolve_eq (hrun : fillListResolve s = some (.ok (), s₁)) :
    masterResolve (matchAllNetnsid s.world) = some (.ok (), s₁.world) := by
  unfold fillListResolve at hrun
  rw [Prog.bind_ok s (modifyWorld_run _ s)] at hrun
  obtain ⟨⟨r, w⟩, hresolve, hsame⟩ := Option.map_eq_some_iff.mp hrun
  obtain ⟨rfl, rfl⟩ := Prod.mk.inj hsame
  obtain ⟨⟨r', w'⟩, hmaster, hmap⟩ := Option.map_eq_some_iff.mp hresolve
  obtain ⟨hr, rfl⟩ := Prod.mk.inj hmap
  cases r' with
  | error err => cases hr
  | ok u => exact hmaster

theorem fillListResolve_retains (h : Collected s.world)
    (hrun : fillListResolve s = some (.ok (), s₁)) :
    Retains (matchAllNetnsid s.world) s₁.world where
  core e he := by
    have hlisted := h.mem_listed.mp he
    have hroot := h.scanned.ns_mem hlisted
    have hposting := fillListResolve_posting h hroot default .any s rfl _ s₁ hrun []
    have hext := PostRun.extends (h.fits hroot) hposting.run
    exact core_of_unrelated (hext.kept e he)
  frame := by
    have hnamed := masterResolve_named (matchAllNetnsid s.world) _ (.refl _) _ s₁.world
      (fillListResolve_eq hrun)
    exact hnamed.frame

theorem ifHandlerPost_retains (hrun : ifHandlerPost (ifHandlers env) s₁ = some (.ok (), s')) :
    Retains s₁.world s'.world where
  core e _ := core_of_unrelated ((ifHandlerPost_picked hrun).kept e)
  frame := by
    have hnamed := ifHandlerPost_keepsNames env s₁.world s₁ (.refl _) _ s' hrun
    exact hnamed.frame

/-- Without ovsdb, `if_handler_post` comes right after resolving. -/
theorem fillListPost_plain {ovs : Openvswitch.OvsEnv} {root : NsPtr}
    (hrun : fillListPost ovs env root none s = some (.ok (), s')) :
    ∃ s₁, fillListResolve s = some (.ok (), s₁) ∧
      ifHandlerPost (ifHandlers env) s₁ = some (.ok (), s') := by
  unfold fillListPost at hrun
  obtain ⟨_, s₁, hresolve, hrun⟩ := (Prog.bind_eq_ok s).mp hrun
  have hglobal : onWorld (ovsGlobalPost ovs root none) s₁ = some (.ok (), s₁) := rfl
  rw [Prog.bind_ok s₁ hglobal] at hrun
  exact ⟨s₁, hresolve, hrun⟩

theorem Retains.index {w w' : World} (h : Retains w w') {e : IfPtr} (he : e ∈ w.listed)
    (rel : RevLists.Rel) : (w'.ifs e).index rel = (w.ifs e).index rel := by
  cases rel with
  | master => exact h.field IfEntry.masterIndex (fun _ => rfl) he
  | link => exact h.field IfEntry.linkIndex (fun _ => rfl) he

theorem Retains.ifIndex {w w' : World} (h : Retains w w') {n : NsPtr} (hn : n ∈ w.nsList) {e : IfPtr}
    (he : e ∈ (w.nss n).ifaces) : (w'.ifs e).ifIndex = (w.ifs e).ifIndex :=
  h.field IfEntry.ifIndex (fun _ => rfl) (World.mem_listed.mpr ⟨n, hn, he⟩)

theorem Retains.indexesUnique {w w' : World} (h : Retains w w') (hunique : w.IndexesUnique) :
    w'.IndexesUnique := by
  intro n hn x hx y hy hsame
  rw [h.frame.nsList] at hn
  rw [h.frame.ifaces] at hx hy
  rw [h.ifIndex hn hx, h.ifIndex hn hy] at hsame
  exact hunique n hn x hx y hy hsame

section
variable (h : Collected s.world) (hunique : s.world.IndexesUnique)
  (hresolve : fillListResolve s = some (.ok (), s₁)) {e : IfPtr} (he : e ∈ s.world.listed)
  (rel : RevLists.Rel)
include h hunique hresolve he

theorem fillListResolve_resolution :
    (matchAllNetnsid s.world).Resolution rel e ((s₁.world.ifs e).upper rel)
      ((matchAllNetnsid s.world).resolveWarnings rel e) := by
  have hscanned := h.scanned.frame h.frame
  have hhomed : (matchAllNetnsid s.world).Homed :=
    ⟨hscanned.nsNodup, hscanned.nodup, hscanned.home⟩
  exact (World.resolvedTo_of_run hhomed (h.retains.indexesUnique hunique)
    (fillListResolve_eq hresolve)).outcome rel e (h.mem_listed.mpr he)

theorem fillListResolve_home (hnone : ((matchAllNetnsid s.world).ifs e).upper rel = none)
    (hzero : (s.world.ifs e).index rel ≠ 0) {y : IfPtr}
    (hy : y ∈ (s.world.nss (s.world.ifs e).ns).ifaces) (hne : y ≠ e)
    (hsame : (s.world.ifs y).ifIndex = (s.world.ifs e).index rel) :
    (s₁.world.ifs e).upper rel = some y := by
  have hns := h.scanned.ns_mem he
  have hyl : y ∈ s.world.listed := World.mem_listed.mpr ⟨_, hns, hy⟩
  have hwants : (matchAllNetnsid s.world).Wants rel e := by
    refine ⟨by rw [hnone]; rfl, ?_⟩
    rwa [h.retains.index he]
  have hcandidate : y ∈ (matchAllNetnsid s.world).candidates rel e := by
    rw [World.mem_candidates, h.retains.index he, h.retains.ifIndex hns hy]
    exact ⟨h.mem_listed.mpr hyl, hne, hsame⟩
  have hyns : ((matchAllNetnsid s.world).ifs y).ns = ((matchAllNetnsid s.world).ifs e).ns := by
    rw [h.retains.field IfEntry.ns (fun _ => rfl) hyl, h.retains.field IfEntry.ns (fun _ => rfl) he]
    exact h.scanned.home _ hns y hy
  exact ((fillListResolve_resolution h hunique hresolve he rel).home hwants y hcandidate hyns).1

/-- Without an index what `match_all_netnsid` has found stays. -/
theorem fillListResolve_kept (hnot : ¬ (matchAllNetnsid s.world).Wants rel e) :
    (s₁.world.ifs e).upper rel = ((matchAllNetnsid s.world).ifs e).upper rel :=
  ((fillListResolve_resolution h hunique hresolve he rel).kept hnot).1

omit hunique hresolve in
theorem not_wants (hzero : (s.world.ifs e).index rel = 0) :
    ¬ (matchAllNetnsid s.world).Wants rel e := by
  rintro ⟨-, hindex⟩
  rw [h.retains.index he] at hindex
  exact hindex hzero

end

/-- Only the handlers that search an address give an interface another lower device. -/
theorem ifHandlerPost_link (hnodup : s₁.world.listed.Nodup)
    (hrun : ifHandlerPost (ifHandlers env) s₁ = some (.ok (), s')) {e : IfPtr}
    (hnot : ¬ SearchesLink (s'.world.ifs e)) : (s'.world.ifs e).link = (s₁.world.ifs e).link := by
  have hpicked := ifHandlerPost_picked hrun
  have hdriver : (s'.world.ifs e).driver = (s₁.world.ifs e).driver := by
    have hunrelated := congrArg IfEntry.driver (hpicked.kept e)
    exact hunrelated
  have hlink := congrFun (congrArg Picks.link hpicked.picks) e
  rw [turns_link hnodup, if_neg] at hlink
  · exact hlink
  · rintro ⟨-, hsearch⟩
    unfold SearchesLink at hnot
    rw [hdriver] at hnot
    exact hnot hsearch

theorem Collected.related (h : Collected s.world) (hunique : s.world.IndexesUnique)
    (hresolve : fillListResolve s = some (.ok (), s₁))
    (hpost : ifHandlerPost (ifHandlers env) s₁ = some (.ok (), s')) {e : IfPtr}
    (he : e ∈ s.world.listed) : Related s'.world e := by
  have hresolved := fillListResolve_retains h hresolve
  have hretains := (h.retains.trans hresolved).trans (ifHandlerPost_retains hpost)
  have hmaster : (s'.world.ifs e).master = (s₁.world.ifs e).master :=
    ((ifHandlerPost_picked hpost).masters e).1
  have hlink (hnot : ¬ SearchesLink (s'.world.ifs e)) :
      (s'.world.ifs e).link = (s₁.world.ifs e).link := by
    apply ifHandlerPost_link ?_ hpost hnot
    rw [hresolved.frame.listed]
    exact (h.scanned.frame h.frame).nodup
  have hmatched := h.link_eq he
  have hns := h.scanned.ns_mem he
  have hnetnsid := hretains.field IfEntry.linkNetnsid (fun _ => rfl) he
  have hmasterIndex := hretains.field IfEntry.masterIndex (fun _ => rfl) he
  have hlinkIndex := hretains.field IfEntry.linkIndex (fun _ => rfl) he
  have hhome := hretains.field IfEntry.ns (fun _ => rfl) he
  constructor
  · intro hzero y hy hne hsame
    rw [hhome, hretains.frame.ifaces] at hy
    rw [hmasterIndex] at hzero hsame
    rw [hretains.ifIndex hns hy] at hsame
    rw [hmaster]
    exact fillListResolve_home h hunique hresolve he .master (h.master_eq e) hzero hy hne hsame
  · intro hzero
    rw [hmasterIndex] at hzero
    have hnot := not_wants h he .master hzero
    rw [hmaster]
    exact (fillListResolve_kept h hunique hresolve he .master hnot).trans (h.master_eq e)
  · intro hnot hneg hzero y hy hne hsame
    rw [hhome, hretains.frame.ifaces] at hy
    rw [hlinkIndex] at hzero hsame
    rw [hretains.ifIndex hns hy] at hsame
    rw [hnetnsid] at hneg
    rw [if_neg fun haway => absurd haway.1 (not_le.mpr hneg)] at hmatched
    rw [hlink hnot]
    exact fillListResolve_home h hunique hresolve he .link hmatched hzero hy hne hsame
  · intro hnot hid hzero y hy
    rw [hnetnsid] at hid
    rw [hlinkIndex] at hzero
    rw [hretains.linkTarget h.scanned he] at hy
    rw [if_pos ⟨hid, hzero⟩, hy] at hmatched
    have hsettled : ¬ (matchAllNetnsid s.world).Wants .link e := by
      rintro ⟨hnone, -⟩
      have hnone : ((matchAllNetnsid s.world).ifs e).link.isNone := hnone
      rw [hmatched] at hnone
      cases hnone
    rw [hlink hnot]
    exact (fillListResolve_kept h hunique hresolve he .link hsettled).trans hmatched
  · intro hnot hzero
    rw [hlinkIndex] at hzero
    rw [if_neg fun haway => haway.2 hzero] at hmatched
    have hsettled := not_wants h he .link hzero
    rw [hlink hnot]
    exact (fillListResolve_kept h hunique hresolve he .link hsettled).trans hmatched

end

/-! ## From the dumps to the topology -/

section
variable {calls : NsPtr → NsCalls} {ids : NsPtr → Netns.IdsEnv} {descriptor : NsPtr → UInt32}
  {ovs : Openvswitch.OvsEnv} {env : HandlerEnv} {s' : ListState}

theorem ToldBy.ifIndex {ns : NsPtr} {ainfo : List NlMsg} {m : NlMsg} {e : IfPtr} {x : IfEntry}
    (h : ToldBy env ns ainfo m e x) : x.ifIndex = linkIndexOf m := by
  obtain ⟨ifi, tb, ifname, mac, hlink, -, -, hread, -⟩ := h.fields
  have hindex := congrArg IfEntry.ifIndex hread
  rw [← linkOf_index hlink]
  exact hindex

theorem told_indexes {ns : NsPtr} {ainfo linfo : List NlMsg} {ifaces : List IfPtr} {w : World}
    (h : List.Forall₂ (fun m e => ToldBy env ns ainfo m e (w.ifs e)) linfo ifaces) :
    ifaces.map (fun e => (w.ifs e).ifIndex) = linfo.map linkIndexOf := by
  induction h with
  | nil => rfl
  | cons hm _ ih => rw [List.map_cons, List.map_cons, hm.ifIndex, ih]

theorem DumpsUnique.indexesUnique {w : World} (h : DumpsUnique calls w.nsList)
    (hscanned : ∀ n ∈ w.nsList, NsScanned (calls n) n w) : w.IndexesUnique := by
  intro n hn x hx y hy hsame
  obtain ⟨linfo, ainfo, hlinks, -, htold⟩ := (hscanned n hn).dumps
  have hnodup := h n hn linfo hlinks
  rw [← told_indexes htold] at hnodup
  exact List.inj_on_of_nodup_map hnodup hx hy hsame

theorem netnsCollect_start {list : List NetnsEntry} {free : List IfPtr}
    (hids : Netns.Unidentified list) (hfree : free.Nodup)
    (hrun : netnsCollect calls ids descriptor (startState list free) = some (.ok (), s')) :
    s'.scan.world.nsList = List.range list.length ∧ Collected s'.scan.world ∧
      ∀ n ∈ s'.scan.world.nsList, NsScanned (calls n) n s'.scan.world := by
  have hfresh := startState_fresh hids hfree
  obtain ⟨w, hgathered, hadded⟩ := netnsCollect_gathered hfresh hrun
  have hsame : s'.scan.world.nsList = List.range list.length :=
    hadded.nsList.trans hgathered.nsList
  refine ⟨hsame, hgathered.collected hfresh hadded, ?_⟩
  rw [hsame]
  exact hgathered.nsScanned hadded

theorem routesScanned_of_nsScanned {w : World} (h : ∀ n ∈ w.nsList, NsScanned (calls n) n w) :
    RoutesScanned w := fun n hn => ⟨_, _, (h n hn).routes⟩

def portScan : Netns.ScanEnv := { root := 1, varDir := none, procDir := none }

theorem portList : Netns.netnsList portScan (fun _ => []) false = .ok ⟨1, [{}]⟩ := rfl

/-- The port becomes a slave of the bridge, and the lower device of the interface on top of
it. -/
theorem portRun : ∃ s',
    netnsFillList portCalls noIds (fun _ => 3) default plainEnv 0 none (startState [{}] [0, 1, 2]) =
      some (.ok (), s') ∧ (s'.scan.world.ifs 1).master = some 0 ∧
      (s'.scan.world.ifs 2).link = some 1 := by
  obtain ⟨s', hrun, hends⟩ : ∃ s',
      netnsFillList portCalls noIds (fun _ => 3) default plainEnv 0 none
        (startState [{}] [0, 1, 2]) = some (.ok (), s') ∧
        decide ((s'.scan.world.ifs 1).master = some 0 ∧
          (s'.scan.world.ifs 2).link = some 1) = true :=
    exists_of_listEnds (by decide +kernel)
  exact ⟨s', hrun, of_decide_eq_true hends⟩

/-- Where `netns_fill_list` succeeds, whatever ovsdb has answered, every pointer leads into the
lists, and each interface is once in the lists of its master and of its lower device. -/
theorem netnsFillList_references {scan : Netns.ScanEnv} {strerror : Errno → CStr}
    {supported : Bool} {built : Netns.ScanState} {free : List IfPtr}
    {answer : Option (Except CStr Json)} (hlist : Netns.netnsList scan strerror supported = .ok built)
    (hfree : free.Nodup)
    (hrun : netnsFillList calls ids descriptor ovs env 0 answer (startState built.list free) =
      some (.ok (), s')) :
    References s'.scan.world ∧ ∀ m e,
      ((s'.scan.world.ifs m).revMaster.count e =
        if (s'.scan.world.ifs e).master = some m then 1 else 0) ∧
      (s'.scan.world.ifs m).revLink.count e =
        if (s'.scan.world.ifs e).link = some m then 1 else 0 := by
  obtain ⟨_, t, hcollect, hpost⟩ := (Prog.bind_eq_ok _).mp hrun
  obtain ⟨hsame, hcollected, hscanned⟩ :=
    netnsCollect_start (Netns.netnsList_unidentified hlist) hfree hcollect
  have hroot : 0 ∈ t.scan.world.nsList := by
    rw [hsame]
    exact List.mem_range.mpr (List.length_pos_iff.mpr (Netns.netnsList_ne_nil hlist))
  obtain ⟨bridges, -, hsteps⟩ := fillListPost_run hcollected hroot (onScan_ok hpost)
  have hmirror := PostRun.mirror hcollected hroot hsteps
  exact ⟨hsteps.references hcollected (routesScanned_of_nsScanned hscanned) hroot,
    fun m e => ⟨hmirror .master m e, hmirror .link m e⟩⟩

theorem netnsFillList_references_port : ∃ s',
    netnsFillList portCalls noIds (fun _ => 3) default plainEnv 0 none (startState [{}] [0, 1, 2]) =
      some (.ok (), s') ∧ References s'.scan.world ∧
      (s'.scan.world.ifs 0).revMaster.count 1 = 1 := by
  obtain ⟨s', hrun, hmaster, -⟩ := portRun
  obtain ⟨hreferences, hlists⟩ := netnsFillList_references portList (by decide) hrun
  refine ⟨s', hrun, hreferences, ?_⟩
  rw [(hlists 0 1).1, if_pos hmaster]

/-- Where `netns_fill_list` succeeds and there is no ovsdb, the interfaces of each name space are
those of its link dump in the order of the dump, and each has the master and the lower device that
the kernel tells of. -/
theorem netnsFillList_related {scan : Netns.ScanEnv} {strerror : Errno → CStr} {supported : Bool}
    {built : Netns.ScanState} {free : List IfPtr}
    (hlist : Netns.netnsList scan strerror supported = .ok built) (hfree : free.Nodup)
    (hunique : DumpsUnique calls (List.range built.list.length))
    (hrun : netnsFillList calls ids descriptor ovs env 0 none (startState built.list free) =
      some (.ok (), s')) :
    ∀ n < built.list.length, ∃ linfo ainfo, (calls n).ifList.linkDump = .ok linfo ∧
      (calls n).ifList.addrDump = .ok ainfo ∧
      List.Forall₂ (fun m e => Related s'.scan.world e ∧
        ∃ x, ToldBy (calls n).handlers n ainfo m e x ∧ (s'.scan.world.ifs e).core = x.core)
        linfo (s'.scan.world.nss n).ifaces := by
  obtain ⟨_, t, hcollect, hpost⟩ := (Prog.bind_eq_ok _).mp hrun
  obtain ⟨hsame, hcollected, hscanned⟩ :=
    netnsCollect_start (Netns.netnsList_unidentified hlist) hfree hcollect
  rw [← hsame] at hunique
  obtain ⟨u, hresolve, hlast⟩ := fillListPost_plain (onScan_ok hpost)
  have hretains := (hcollected.retains.trans (fillListResolve_retains hcollected hresolve)).trans
    (ifHandlerPost_retains hlast)
  intro n hn
  have hn : n ∈ t.scan.world.nsList := by rwa [hsame, List.mem_range]
  obtain ⟨linfo, ainfo, hlinks, haddrs, htold⟩ := (hscanned n hn).dumps
  refine ⟨linfo, ainfo, hlinks, haddrs, ?_⟩
  rw [hretains.frame.ifaces]
  apply forall₂_imp_of_mem htold
  intro m e he hm
  have hlisted : e ∈ t.scan.world.listed := World.mem_listed.mpr ⟨n, hn, he⟩
  exact ⟨hcollected.related (hunique.indexesUnique hscanned) hresolve hlast hlisted, _, hm,
    hretains.core e hlisted⟩

end

theorem netnsFillList_related_port : ∃ s',
    netnsFillList portCalls noIds (fun _ => 3) default plainEnv 0 none (startState [{}] [0, 1, 2]) =
      some (.ok (), s') ∧ (s'.scan.world.ifs 1).master = some 0 ∧
      (s'.scan.world.ifs 2).link = some 1 ∧
      ∀ e ∈ (s'.scan.world.nss 0).ifaces, Related s'.scan.world e := by
  obtain ⟨s', hrun, hmaster, hlink⟩ := portRun
  have hunique : DumpsUnique portCalls (List.range 1) := by
    intro n _ linfo hlinks
    rw [← Except.ok.inj hlinks]
    decide +kernel
  obtain ⟨linfo, ainfo, -, -, hrelated⟩ :=
    netnsFillList_related portList (by decide) hunique hrun 0 (by decide)
  refine ⟨s', hrun, hmaster, hlink, fun e he => ?_⟩
  obtain ⟨i, hi, rfl⟩ := List.mem_iff_getElem.mp he
  have hlength := List.Forall₂.length_eq hrelated
  exact (List.Forall₂.get hrelated (hlength ▸ hi) hi).1

end Handlers

end Plotnetcfg
