import Plotnetcfg.Handlers.FillList
import Plotnetcfg.Handlers.References
import Plotnetcfg.Netns.LinkDump
import Plotnetcfg.Netns.NetnsIds
import Mathlib.Data.List.Find

/-! The whole of `netns_fill_list` over its list of name spaces. What its first two loops collect is
what the kernel has told, and nothing in it is resolved yet. -/

namespace Plotnetcfg.Handlers

open Plotnetcfg.Netlink Bytes

structure NsCalls where
  setns : Netns.SysResult := none
  sysfsMount : Netns.SysResult := none
  handlers : HandlerEnv
  ifList : IfListCalls
  routeScan : RouteScanEnv := {}
  routes : List RouteItem := []

def onResult (res : Netns.SysResult) : ListProg Unit :=
  match res with
  | some e => Prog.throw (.err e)
  | none => pure ()

section
variable (calls : NsCalls) (ns : NsPtr)

/-- `netns_handler_scan`: there is a handler of routes only. -/
def netnsHandlerScan : HandlerProg Unit := do
  let s ← Prog.get
  let (err, rtables) := routeScan s.world ns calls.routeScan calls.routes
  modifyWorld (·.modifyNs ns fun n => { n with rtables := rtables })
  if err ≠ 0 then fail err else pure ()

/-- The process is already in the root name space, which has no name. -/
def switchTo : ListProg Unit := do
  let s ← Prog.get
  if (s.scan.world.nss ns).name.isSome then onResult calls.setns else pure ()

def scanNs : ListProg Unit := do
  switchTo calls ns
  onResult calls.sysfsMount
  ifList calls.handlers ns calls.ifList
  onScan (netnsHandlerScan calls ns)

end

section
variable (calls : NsPtr → NsCalls) (ids : NsPtr → Netns.IdsEnv) (descriptor : NsPtr → UInt32)

def fillIds : HandlerProg Unit := do
  let s ← Prog.get
  let w ← Prog.deref (Netns.fillAllIds ids descriptor s.world.nsList s.world)
  modifyWorld fun _ => w

/-- `netns_fill_list` up to `match_all_netnsid`. -/
def netnsCollect : ListProg Unit := do
  let s ← Prog.get
  Prog.forEach s.scan.world.nsList fun ns => scanNs (calls ns) ns
  onScan (fillIds ids descriptor)

variable (ovs : Openvswitch.OvsEnv) (env : HandlerEnv) (root : NsPtr)
  (answer : Option (Except CStr Json))

/-- `netns_fill_list`, once it has its list. -/
def netnsFillList : ListProg Unit := do
  netnsCollect calls ids descriptor
  onScan (fillListPost ovs env root answer)

end

/-! ## One name space -/

/-- The interfaces of the name space are those that the kernel tells of, with their addresses, and
its tables are those of its routes. -/
structure NsScanned (calls : NsCalls) (ns : NsPtr) (w : World) : Prop where
  dumps : ∃ linfo ainfo, calls.ifList.linkDump = .ok linfo ∧ calls.ifList.addrDump = .ok ainfo ∧
    List.Forall₂ (fun m e => ToldBy calls.handlers ns ainfo m e (w.ifs e)) linfo (w.nss ns).ifaces
  routes : routeScan w ns calls.routeScan calls.routes = (0, (w.nss ns).rtables)

section
variable {w w' : World} {calls : NsCalls} {ns : NsPtr}

theorem scanRoutes_congr (h : ∀ item, scannedRoute w' ns item = scannedRoute w ns item)
    (items : List RouteItem) (tables : Tables) :
    scanRoutes w' ns items tables = scanRoutes w ns items tables := by
  induction items generalizing tables with
  | nil => rfl
  | cons item items ih =>
    rw [scanRoutes, scanRoutes, h]
    simp only [ih]

theorem routeScan_congr (hifaces : (w'.nss ns).ifaces = (w.nss ns).ifaces)
    (hifs : ∀ e ∈ (w.nss ns).ifaces, w'.ifs e = w.ifs e) (env : RouteScanEnv)
    (items : List RouteItem) : routeScan w' ns env items = routeScan w ns env items := by
  have hfind (index : UInt32) : findIfByIfindex w' (w'.nss ns).ifaces index =
      findIfByIfindex w (w.nss ns).ifaces index := by
    rw [hifaces, findIfByIfindex, findIfByIfindex]
    apply List.find?_congr
    intro e he
    rw [hifs e he]
  have hroute (item : RouteItem) : scannedRoute w' ns item = scannedRoute w ns item := by
    simp only [scannedRoute, hfind]
  simp only [routeScan, scanRoutes_congr hroute]

theorem NsScanned.congr (h : NsScanned calls ns w)
    (hifaces : (w'.nss ns).ifaces = (w.nss ns).ifaces)
    (hrtables : (w'.nss ns).rtables = (w.nss ns).rtables)
    (hifs : ∀ e ∈ (w.nss ns).ifaces, w'.ifs e = w.ifs e) : NsScanned calls ns w' where
  dumps := by
    obtain ⟨linfo, ainfo, hlinks, haddrs, htold⟩ := h.dumps
    refine ⟨linfo, ainfo, hlinks, haddrs, ?_⟩
    rw [hifaces]
    apply forall₂_imp_of_mem htold
    intro m e he hm
    rwa [hifs e he]
  routes := by
    rw [routeScan_congr hifaces hifs, hrtables]
    exact h.routes

structure NsDone (calls : NsCalls) (ns : NsPtr) (w w' : World) : Prop where
  nsList : w'.nsList = w.nsList
  taken : w.free = (w'.nss ns).ifaces ++ w'.free
  others : ∀ e ∉ (w'.nss ns).ifaces, w'.ifs e = w.ifs e
  unwarned : ∀ n ≠ ns, (w'.nss n).unwarned = (w.nss n).unwarned
  ids : ∀ n, (w'.nss n).ids = (w.nss n).ids
  scanned : NsScanned calls ns w'

theorem onResult_ok {res : Netns.SysResult} {s s' : ListState}
    (h : onResult res s = some (.ok (), s')) : s' = s := by
  cases res with
  | none => exact (Prod.mk.inj (Option.some.inj h)).2.symm
  | some e => cases h

theorem onScan_ok {p : HandlerProg Unit} {s s' : ListState}
    (h : onScan p s = some (.ok (), s')) : p s.scan = some (.ok (), s'.scan) := by
  obtain ⟨⟨r, t⟩, hrun, hsame⟩ := Option.map_eq_some_iff.mp h
  obtain ⟨rfl, rfl⟩ := Prod.mk.inj hsame
  exact hrun

theorem netnsHandlerScan_ok {s s' : ScanState} (h : netnsHandlerScan calls ns s = some (.ok (), s')) :
    ∃ rtables, routeScan s.world ns calls.routeScan calls.routes = (0, rtables) ∧
      s'.world = s.world.modifyNs ns fun n => { n with rtables := rtables } := by
  unfold netnsHandlerScan at h
  rw [Prog.bind_ok s (Prog.get_apply s)] at h
  rcases hroutes : routeScan s.world ns calls.routeScan calls.routes with ⟨err, rtables⟩
  simp only [hroutes] at h
  rw [Prog.bind_ok s (modifyWorld_run _ s)] at h
  split_ifs at h with herr
  · cases h
  · refine ⟨rtables, by rw [not_not.mp herr], ?_⟩
    rw [← (Prod.mk.inj (Option.some.inj h)).2]

theorem scanNs_done {s s' : ListState} (hnodup : s.scan.world.free.Nodup)
    (hrun : scanNs calls ns s = some (.ok (), s')) :
    NsDone calls ns s.scan.world s'.scan.world := by
  obtain ⟨_, s₁, hswitch, hrun⟩ := (Prog.bind_eq_ok s).mp hrun
  have hs₁ : s₁ = s := by
    unfold switchTo at hswitch
    rw [Prog.bind_ok s (Prog.get_apply s)] at hswitch
    split_ifs at hswitch
    · exact onResult_ok hswitch
    · exact (Prod.mk.inj (Option.some.inj hswitch)).2.symm
  obtain ⟨_, s₂, hmount, hrun⟩ := (Prog.bind_eq_ok s₁).mp hrun
  have hs₂ : s₂ = s := (onResult_ok hmount).trans hs₁
  obtain ⟨_, s₃, hlist, hroutes⟩ := (Prog.bind_eq_ok s₂).mp hrun
  rw [hs₂] at hlist
  obtain ⟨linfo, ainfo, hlinks, haddrs, hdumped⟩ := ifList_dumped hnodup hlist
  obtain ⟨rtables, hscan, hworld⟩ := netnsHandlerScan_ok (onScan_ok hroutes)
  have hns : s'.scan.world.nss ns = { s₃.scan.world.nss ns with rtables := rtables } := by
    rw [hworld, World.modifyNs_nss, if_pos rfl]
  have hother (n : NsPtr) (hn : n ≠ ns) : s'.scan.world.nss n = s₃.scan.world.nss n := by
    rw [hworld, World.modifyNs_nss, if_neg hn]
  have hifs : s'.scan.world.ifs = s₃.scan.world.ifs := by rw [hworld, World.modifyNs_ifs]
  have hifaces : (s'.scan.world.nss ns).ifaces = (s₃.scan.world.nss ns).ifaces := by rw [hns]
  refine ⟨?_, ?_, fun e he => ?_, fun n hn => ?_, fun n => ?_, ?_⟩
  · rw [hworld, World.modifyNs_nsList, hdumped.nsList]
  · rw [hifaces, hworld, World.modifyNs_free, hdumped.taken]
  · rw [hifaces] at he
    rw [hifs, hdumped.others e he]
  · rw [hother n hn, hdumped.unwarned, if_neg hn]
  · have hids := congrArg NetnsEntry.ids (hdumped.unwarned n)
    have hkept : (s₃.scan.world.nss n).ids = (s.scan.world.nss n).ids := by
      split_ifs at hids
      · exact hids
      · exact hids
    rw [← hkept]
    by_cases hn : n = ns
    · rw [hn, hns]
    · rw [hother n hn]
  · constructor
    · refine ⟨linfo, ainfo, hlinks, haddrs, ?_⟩
      rw [hifaces, hifs]
      exact hdumped.told
    · rw [routeScan_congr hifaces fun e _ => by rw [hifs], hscan, hns]

end

/-! ## The list of name spaces -/

/-- What the first loop starts from: no interface is in use, and no ids are known. -/
structure Fresh (w : World) : Prop where
  nsList : w.nsList.Nodup
  free : w.free.Nodup
  ifs : ∀ e, w.ifs e = {}
  ids : ∀ n, (w.nss n).ids = []

structure Gathered (calls : NsPtr → NsCalls) (done : List NsPtr) (w₀ w : World) : Prop where
  nsList : w.nsList = w₀.nsList
  taken : w₀.free = (done.flatMap fun n => (w.nss n).ifaces) ++ w.free
  others : ∀ e ∉ done.flatMap fun n => (w.nss n).ifaces, w.ifs e = w₀.ifs e
  ids : ∀ n, (w.nss n).ids = (w₀.nss n).ids
  scanned : ∀ n ∈ done, NsScanned (calls n) n w

section
variable {calls : NsPtr → NsCalls} {done : List NsPtr} {ns : NsPtr} {w₀ w w' : World}

theorem Gathered.step (hfree : w₀.free.Nodup) (hnew : ns ∉ done) (h : Gathered calls done w₀ w)
    (hdone : NsDone (calls ns) ns w w') : Gathered calls (done ++ [ns]) w₀ w' := by
  have hsame (n : NsPtr) (hn : n ∈ done) : (w'.nss n).unwarned = (w.nss n).unwarned :=
    hdone.unwarned n fun hns => hnew (hns ▸ hn)
  have hifaces (n : NsPtr) (hn : n ∈ done) : (w'.nss n).ifaces = (w.nss n).ifaces := by
    have hifaces := congrArg NetnsEntry.ifaces (hsame n hn)
    exact hifaces
  have hlists : (done.flatMap fun n => (w'.nss n).ifaces) =
      done.flatMap fun n => (w.nss n).ifaces := List.flatMap_congr hifaces
  have hall : ((done ++ [ns]).flatMap fun n => (w'.nss n).ifaces) =
      (done.flatMap fun n => (w.nss n).ifaces) ++ (w'.nss ns).ifaces := by
    rw [List.flatMap_append, List.flatMap_singleton, hlists]
  have htaken : w₀.free = (done.flatMap fun n => (w.nss n).ifaces) ++
      ((w'.nss ns).ifaces ++ w'.free) := by
    rw [h.taken, hdone.taken]
  -- no interface of the name spaces before is among the new ones
  have hapart (n : NsPtr) (hn : n ∈ done) (e : IfPtr) (he : e ∈ (w.nss n).ifaces) :
      e ∉ (w'.nss ns).ifaces := by
    intro he'
    rw [htaken] at hfree
    have hdisjoint := (List.nodup_append.mp hfree).2.2
    exact hdisjoint e (List.mem_flatMap.mpr ⟨n, hn, he⟩) e (List.mem_append_left _ he') rfl
  refine ⟨hdone.nsList.trans h.nsList, ?_, fun e he => ?_, fun n => ?_, fun n hn => ?_⟩
  · rw [hall, htaken, List.append_assoc]
  · rw [hall, List.mem_append, not_or] at he
    rw [hdone.others e he.2, h.others e he.1]
  · rw [hdone.ids, h.ids]
  · rcases List.mem_append.mp hn with hn | hn
    · apply (h.scanned n hn).congr (hifaces n hn)
      · have hrtables := congrArg NetnsEntry.rtables (hsame n hn)
        exact hrtables
      · exact fun e he => hdone.others e (hapart n hn e he)
    · rw [List.mem_singleton.mp hn]
      exact hdone.scanned

theorem gathered_nil (calls : NsPtr → NsCalls) (w : World) : Gathered calls [] w w where
  nsList := rfl
  taken := rfl
  others _ _ := rfl
  ids _ := rfl
  scanned _ hn := absurd hn List.not_mem_nil

theorem Gathered.free (hfree : w₀.free.Nodup) (h : Gathered calls done w₀ w) : w.free.Nodup := by
  rw [h.taken] at hfree
  exact (List.nodup_append.mp hfree).2.1

theorem scanLoop_gathered (hfree : w₀.free.Nodup) {list : List NsPtr} (hlist : list.Nodup) :
    Prog.Runs (fun s => s.scan.world = w₀) (Prog.forEach list fun ns => scanNs (calls ns) ns)
      (fun _ s => Gathered calls list w₀ s.scan.world) fun _ => True := by
  let I (pre : List NsPtr) (s : ListState) : Prop := Gathered calls pre w₀ s.scan.world
  have hloop : Prog.Runs (I []) (Prog.forEach list fun ns => scanNs (calls ns) ns)
      (fun _ => I ([] ++ list)) fun _ => True := by
    apply Prog.Triple.forEachAfter
    intro mid ns post hsplit s hs r s' hrun
    cases r with
    | error stop => trivial
    | ok u =>
      have hnew : ns ∉ mid := by
        rw [hsplit] at hlist
        have hdisjoint := (List.nodup_append.mp hlist).2.2
        exact fun hns => hdisjoint ns hns ns List.mem_cons_self rfl
      exact hs.step hfree hnew (scanNs_done (hs.free hfree) hrun)
  apply hloop.weaken
  · rintro s rfl
    exact gathered_nil calls _
  · exact fun _ _ => id

/-! ## The ids -/

structure IdsAdded (w w' : World) : Prop where
  ifs : w'.ifs = w.ifs
  nsList : w'.nsList = w.nsList
  free : w'.free = w.free
  ifaces : ∀ n, (w'.nss n).ifaces = (w.nss n).ifaces
  rtables : ∀ n, (w'.nss n).rtables = (w.nss n).rtables
  ids : ∀ n, ∀ i ∈ (w'.nss n).ids, i ∈ (w.nss n).ids ∨ i.ns ∈ w.nsList

theorem IdsAdded.refl (w : World) : IdsAdded w w :=
  ⟨rfl, rfl, rfl, fun _ => rfl, fun _ => rfl, fun _ _ => .inl⟩

theorem IdsAdded.trans {w'' : World} (h : IdsAdded w w') (h' : IdsAdded w' w'') :
    IdsAdded w w'' where
  ifs := h'.ifs.trans h.ifs
  nsList := h'.nsList.trans h.nsList
  free := h'.free.trans h.free
  ifaces n := (h'.ifaces n).trans (h.ifaces n)
  rtables n := (h'.rtables n).trans (h.rtables n)
  ids n i hi := by
    rcases h'.ids n i hi with hold | hnew
    · exact h.ids n i hold
    · rw [h.nsList] at hnew
      exact .inr hnew

theorem getIds_mem {env : Netns.IdsEnv} {descriptor : NsPtr → UInt32} {list : List NsPtr}
    {i : Nat} {s : Session} {records : List NetnsId}
    (h : (Netns.getIds env descriptor i list s).1 = some records) : ∀ r ∈ records, r.ns ∈ list := by
  induction list generalizing i s records with
  | nil =>
    obtain rfl := Option.some.inj h
    exact fun r hr => absurd hr List.not_mem_nil
  | cons entry list ih =>
    rw [Netns.getIds] at h
    rcases hget : Netns.netnsGetId env descriptor i entry s with ⟨id, s₁⟩
    rw [hget] at h
    cases id with
    | none => cases h
    | some id =>
      simp only at h
      split_ifs at h
      · exact fun r hr => List.mem_cons_of_mem _ (ih h r hr)
      · obtain rfl := Option.some.inj h
        exact fun r hr => absurd hr List.not_mem_nil
      · obtain ⟨rest, hrest, rfl⟩ := Option.map_eq_some_iff.mp h
        intro r hr
        rcases List.mem_cons.mp hr with rfl | hr
        · exact List.mem_cons_self
        · exact List.mem_cons_of_mem _ (ih hrest r hr)

theorem netnsGetAllIds_added {env : Netns.IdsEnv} {descriptor : NsPtr → UInt32} {current : NsPtr}
    (h : Netns.netnsGetAllIds env descriptor current w = some w') : IdsAdded w w' := by
  unfold Netns.netnsGetAllIds at h
  cases hopen : env.opened with
  | none =>
    rw [hopen] at h
    obtain rfl := Option.some.inj h
    exact .refl w
  | some s =>
    rw [hopen] at h
    obtain ⟨records, hrecords, rfl⟩ := Option.map_eq_some_iff.mp h
    refine ⟨rfl, rfl, rfl, fun n => ?_, fun n => ?_, fun n i hi => ?_⟩
    · rw [World.modifyNs_nss]
      split_ifs <;> rfl
    · rw [World.modifyNs_nss]
      split_ifs <;> rfl
    · rw [World.modifyNs_nss] at hi
      split_ifs at hi
      · rcases List.mem_append.mp hi with hold | hnew
        · exact .inl hold
        · exact .inr (getIds_mem hrecords i hnew)
      · exact .inl hi

theorem fillAllIds_added {env : NsPtr → Netns.IdsEnv} {descriptor : NsPtr → UInt32}
    {list : List NsPtr} (h : Netns.fillAllIds env descriptor list w = some w') : IdsAdded w w' := by
  induction list generalizing w with
  | nil =>
    obtain rfl := Option.some.inj h
    exact .refl w
  | cons current list ih =>
    obtain ⟨w₁, hfirst, hrest⟩ := Option.bind_eq_some_iff.mp h
    exact (netnsGetAllIds_added hfirst).trans (ih hrest)

theorem fillIds_ok {env : NsPtr → Netns.IdsEnv} {descriptor : NsPtr → UInt32} {s s' : ScanState}
    (h : fillIds env descriptor s = some (.ok (), s')) : IdsAdded s.world s'.world := by
  unfold fillIds at h
  rw [Prog.bind_ok s (Prog.get_apply s)] at h
  obtain ⟨v, t, hderef, hwrite⟩ := (Prog.bind_eq_ok s).mp h
  cases hfill : Netns.fillAllIds env descriptor s.world.nsList s.world with
  | none =>
    rw [hfill] at hderef
    cases hderef
  | some w =>
    rw [hfill] at hderef
    obtain ⟨hv, rfl⟩ := Prod.mk.inj (Option.some.inj hderef)
    obtain rfl := Except.ok.inj hv
    rw [← (Prod.mk.inj (Option.some.inj hwrite)).2]
    exact fillAllIds_added hfill

end

/-! ## What is collected -/

structure Unrelated (ns : NsPtr) (x : IfEntry) : Prop where
  ns : x.ns = ns
  master : x.master = none
  link : x.link = none
  peer : x.peer = none
  physfn : x.physfn = none
  linkNet : x.linkNet = none
  revMaster : x.revMaster = []
  revLink : x.revLink = []
  internal : x.flags.internal = false

theorem unrelated_new (ns : NsPtr) : Unrelated ns { ns := ns } :=
  ⟨rfl, rfl, rfl, rfl, rfl, rfl, rfl, rfl, rfl⟩

section
variable {env : HandlerEnv} {ns : NsPtr} {ainfo : List NlMsg} {m : NlMsg} {e : IfPtr} {x : IfEntry}

theorem ToldBy.unrelated (h : ToldBy env ns ainfo m e x) : Unrelated ns x := by
  obtain ⟨ifi, tb, ifname, mac, -, -, -, hread, -⟩ := h.fields
  have hfield {α : Type} (field : IfEntry → α) (hfield : ∀ v, field v.undecorated = field v)
      (hwrite : ∀ v mac addr, field { v with macAddr := mac, addr := addr } = field v) :
      field x = field (linkEntry env e ifi tb ifname { ns := ns }) := by
    rw [← hfield x, hread, hwrite, hfield]
  exact {
    ns := hfield IfEntry.ns (fun _ => rfl) fun _ _ _ => rfl
    master := hfield IfEntry.master (fun _ => rfl) fun _ _ _ => rfl
    link := hfield IfEntry.link (fun _ => rfl) fun _ _ _ => rfl
    peer := hfield IfEntry.peer (fun _ => rfl) fun _ _ _ => rfl
    physfn := hfield IfEntry.physfn (fun _ => rfl) fun _ _ _ => rfl
    linkNet := hfield IfEntry.linkNet (fun _ => rfl) fun _ _ _ => rfl
    revMaster := hfield IfEntry.revMaster (fun _ => rfl) fun _ _ _ => rfl
    revLink := hfield IfEntry.revLink (fun _ => rfl) fun _ _ _ => rfl
    internal := hfield (fun v => v.flags.internal) (fun _ => rfl) fun _ _ _ => rfl }

theorem ToldBy.raw (h : ToldBy env ns ainfo m e x) : ∀ a ∈ x.addr, a.addr.raw.isSome := by
  intro a ha
  obtain ⟨i, hi, rfl⟩ := List.mem_iff_getElem.mp ha
  have hlength := List.Forall₂.length_eq h.listed
  have hdescribes := List.Forall₂.get h.listed (hlength ▸ hi) hi
  have hconcerns := List.mem_filter.mp
    (List.get_mem (ainfo.filter (Concerns x.ifIndex)) ⟨i, hlength ▸ hi⟩)
  have hattr := (of_decide_eq_true hconcerns.2).attr
  rw [List.get_eq_getElem, List.get_eq_getElem] at hdescribes
  rw [List.get_eq_getElem] at hattr
  cases hloc : addrAttrs (ainfo.filter (Concerns x.ifIndex))[i] IFA_LOCAL with
  | some loc =>
    rw [hdescribes.loc loc hloc]
    rfl
  | none =>
    rw [hloc] at hattr
    obtain ⟨address, haddress⟩ := Option.isSome_iff_exists.mp (hattr.resolve_left (by decide))
    rw [hdescribes.address hloc address haddress]
    rfl

end

section
variable {calls : NsPtr → NsCalls} {ids : NsPtr → Netns.IdsEnv} {descriptor : NsPtr → UInt32}
  {w₀ w w' : World}

theorem NsScanned.told {calls : NsCalls} {ns : NsPtr} (h : NsScanned calls ns w) {e : IfPtr}
    (he : e ∈ (w.nss ns).ifaces) : ∃ ainfo m, ToldBy calls.handlers ns ainfo m e (w.ifs e) := by
  obtain ⟨linfo, ainfo, -, -, htold⟩ := h.dumps
  obtain ⟨i, hi, rfl⟩ := List.mem_iff_getElem.mp he
  have hlength := List.Forall₂.length_eq htold
  exact ⟨ainfo, _, List.Forall₂.get htold (hlength ▸ hi) hi⟩

theorem Gathered.nsScanned (h : Gathered calls done w₀ w) (hadded : IdsAdded w w') :
    ∀ n ∈ done, NsScanned (calls n) n w' := by
  intro n hn
  apply (h.scanned n hn).congr (hadded.ifaces n) (hadded.rtables n)
  exact fun e _ => by rw [hadded.ifs]

theorem Gathered.collected (hfresh : Fresh w₀) (h : Gathered calls w₀.nsList w₀ w)
    (hadded : IdsAdded w w') : Collected w' := by
  have hlist : w'.nsList = w₀.nsList := hadded.nsList.trans h.nsList
  have hlisted : w'.listed = w₀.nsList.flatMap fun n => (w.nss n).ifaces := by
    rw [World.listed, hlist]
    exact List.flatMap_congr fun n _ => hadded.ifaces n
  have hfree : (w'.listed ++ w'.free).Nodup := by
    rw [hlisted, hadded.free, ← h.taken]
    exact hfresh.free
  obtain ⟨hnodup, hfreeNodup, hdisjoint⟩ := List.nodup_append.mp hfree
  have htold (n : NsPtr) (hn : n ∈ w'.nsList) (e : IfPtr) (he : e ∈ (w'.nss n).ifaces) :
      ∃ ainfo m, ToldBy (calls n).handlers n ainfo m e (w'.ifs e) := by
    rw [hlist] at hn
    exact (h.nsScanned hadded n hn).told he
  have hunrelated (e : IfPtr) : ∃ n, Unrelated n (w'.ifs e) := by
    by_cases he : e ∈ w'.listed
    · obtain ⟨n, hn, hmem⟩ := World.mem_listed.mp he
      obtain ⟨ainfo, m, htold⟩ := htold n hn e hmem
      exact ⟨n, htold.unrelated⟩
    · rw [hlisted] at he
      rw [hadded.ifs, h.others e he, hfresh.ifs]
      exact ⟨_, unrelated_new 0⟩
  have hscanned : w'.Scanned := by
    refine ⟨hlist ▸ hfresh.nsList, hnodup, fun n hn e he => ?_, fun n hn i hi => ?_,
      fun e he => ?_, fun e he hmem => hdisjoint e hmem e he rfl, hfreeNodup⟩
    · obtain ⟨ainfo, m, htold⟩ := htold n hn e he
      exact htold.unrelated.ns
    · rcases hadded.ids n i hi with hold | hnew
      · rw [h.ids, hfresh.ids] at hold
        exact absurd hold List.not_mem_nil
      · rwa [hadded.nsList]
    · obtain ⟨n, hn, hmem⟩ := World.mem_listed.mp he
      obtain ⟨ainfo, m, htold⟩ := htold n hn e hmem
      exact htold.raw
  refine ⟨hscanned, fun e => ?_, fun e => ?_, fun e => ?_, fun e => ?_, fun e => ?_, fun e => ?_,
    fun e => ?_, fun e _ => ?_⟩
  all_goals obtain ⟨n, hnew⟩ := hunrelated e
  · exact hnew.master
  · exact hnew.link
  · exact hnew.peer
  · exact hnew.physfn
  · exact hnew.linkNet
  · exact hnew.revMaster
  · exact hnew.revLink
  · exact hnew.internal

theorem netnsCollect_gathered {s s' : ListState} (hfresh : Fresh s.scan.world)
    (hrun : netnsCollect calls ids descriptor s = some (.ok (), s')) :
    ∃ w, Gathered calls s.scan.world.nsList s.scan.world w ∧ IdsAdded w s'.scan.world := by
  unfold netnsCollect at hrun
  rw [Prog.bind_ok s (Prog.get_apply s)] at hrun
  obtain ⟨_, t, hloop, hids⟩ := (Prog.bind_eq_ok s).mp hrun
  exact ⟨t.scan.world, scanLoop_gathered hfresh.free hfresh.nsList s rfl _ t hloop,
    fillIds_ok (onScan_ok hids)⟩

/-- What `netns_fill_list` collects of its name spaces is what the kernel tells of them: every
message of a link dump is one interface, with its addresses, and the routes are those of the dump.
No interface is related to another yet. -/
theorem netnsCollect_collected {s s' : ListState} (hfresh : Fresh s.scan.world)
    (hrun : netnsCollect calls ids descriptor s = some (.ok (), s')) :
    s'.scan.world.nsList = s.scan.world.nsList ∧ Collected s'.scan.world ∧
      ∀ n ∈ s.scan.world.nsList, NsScanned (calls n) n s'.scan.world := by
  obtain ⟨w, hgathered, hadded⟩ := netnsCollect_gathered hfresh hrun
  exact ⟨hadded.nsList.trans hgathered.nsList, hgathered.collected hfresh hadded,
    hgathered.nsScanned hadded⟩

end

/-! A bridge with a port, and an interface on top of the port. -/

def indexMsg (index : UInt32) (name : String) (attrs : List UInt8) : NlMsg where
  buf :=
    let attrs := attrBytes IFLA_IFNAME (cstr name ++ [0]) ++ attrs
    leBytes 4 (32 + attrs.length) ++ leBytes 2 RTM_NEWLINK ++ zeros 10 ++
      (zeros 4 ++ leBytes 4 index.toNat ++ zeros 8) ++ attrs
  start := NLMSG_HDRLEN

def portLinks : List NlMsg :=
  [indexMsg 1 "br0" [], indexMsg 2 "eth0" (attrBytes IFLA_MASTER (leBytes 4 1)),
    indexMsg 3 "eth0.5" (attrBytes IFLA_LINK (leBytes 4 2))]

def portCalls (_ : NsPtr) : NsCalls where
  handlers := plainEnv
  ifList := ⟨0, .ok portLinks, .ok []⟩

def noIds (_ : NsPtr) : Netns.IdsEnv where
  rtnlOpen := none
  evs := []

def portStart : ListState where
  scan :=
    { world := ⟨fun _ => {}, fun _ => {}, [0], [0, 1, 2]⟩
      priv := fun _ => .unset }
  ainfo := []

theorem portStart_fresh : Fresh portStart.scan.world :=
  ⟨by decide, by decide, fun _ => rfl, fun _ => rfl⟩

theorem exists_of_listEnds {r : Option (Except Stop Unit × ListState)} {p : ListState → Bool}
    (h : (r.any fun r => r.1.isOk && p r.2) = true) : ∃ s', r = some (.ok (), s') ∧ p s' = true := by
  obtain ⟨⟨_ | u, s'⟩, rfl, hr⟩ := (Option.any_eq_true _ _).mp h
  · cases hr
  · exact ⟨s', rfl, hr⟩

theorem netnsCollect_collected_port : ∃ s',
    netnsCollect portCalls noIds (fun _ => 3) portStart = some (.ok (), s') ∧
      (s'.scan.world.nss 0).ifaces = [0, 1, 2] ∧ Collected s'.scan.world ∧
      NsScanned (portCalls 0) 0 s'.scan.world := by
  obtain ⟨s', hrun, hifaces⟩ : ∃ s',
      netnsCollect portCalls noIds (fun _ => 3) portStart = some (.ok (), s') ∧
        decide ((s'.scan.world.nss 0).ifaces = [0, 1, 2]) = true :=
    exists_of_listEnds (by decide +kernel)
  obtain ⟨-, hcollected, hscanned⟩ := netnsCollect_collected portStart_fresh hrun
  exact ⟨s', hrun, of_decide_eq_true hifaces, hcollected, hscanned 0 (List.mem_singleton_self 0)⟩

end Plotnetcfg.Handlers
