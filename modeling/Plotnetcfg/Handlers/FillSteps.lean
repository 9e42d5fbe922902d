import Plotnetcfg.Core.Netnsid
import Plotnetcfg.Handlers.Devices
import Plotnetcfg.Handlers.Openvswitch.ReplySafety
import Plotnetcfg.Handlers.VethPairing

/-! What `netns_fill_list` does to the topology after `match_all_netnsid`, as single steps. A step
that relates two interfaces says what it found the second one by. -/

namespace Plotnetcfg

/-- An interface without what the handlers write only to show it. -/
def IfEntry.unlabelled (x : IfEntry) : IfEntry :=
  { x with
    flags := { x.flags with linkWeak := false, passiveSlave := false }
    subDriver := none
    properties := []
    activeSlave := none
    edgeLabel := none
    warnings := 0 }

/-- An interface without its relations to others either. -/
def IfEntry.unrelated (x : IfEntry) : IfEntry :=
  { x.unlabelled with
    master := none
    link := none
    peer := none
    physfn := none
    revMaster := []
    revLink := [] }

def NetnsEntry.bare (ns : NetnsEntry) : NetnsEntry := { ns with ifaces := [], warnings := [] }

def createdIface (root : NsPtr) (name brName : CStr) : IfEntry where
  ns := root
  internalNs := some (cstr "ovs:" ++ brName)
  ifName := name
  flags := { internal := true }

def IfEntry.Created (root : NsPtr) (names : List CStr) (x : IfEntry) : Prop :=
  ∃ name ∈ names, ∃ brName, x.unrelated = createdIface root name brName

theorem IfEntry.Created.unrelated {root : NsPtr} {names : List CStr} {x y : IfEntry}
    (h : x.Created root names) (hy : y.unrelated = x.unrelated) : y.Created root names := by
  obtain ⟨name, hname, brName, hx⟩ := h
  exact ⟨name, hname, brName, hy.trans hx⟩

theorem IfEntry.unrelated_of_unlabelled {x y : IfEntry} (h : y.unlabelled = x.unlabelled) :
    y.unrelated = x.unrelated := by
  unfold IfEntry.unrelated
  rw [h]

/-! ## What stays -/

namespace World

/-- `w'` is a later state: nothing changed but labels and relations, and the interfaces that are
new are in the root name space. -/
structure Extends (root : NsPtr) (names : List CStr) (w w' : World) : Prop where
  scanned : w'.Scanned
  nsList : w'.nsList = w.nsList
  bare : ∀ n, (w'.nss n).bare = (w.nss n).bare
  listed : ∀ e ∈ w.listed, e ∈ w'.listed
  kept : ∀ e ∈ w.listed, (w'.ifs e).unrelated = (w.ifs e).unrelated
  created : ∀ e ∈ w'.listed, e ∉ w.listed → (w'.ifs e).Created root names

section
variable {root : NsPtr} {names : List CStr} {w w' w'' : World}

theorem Extends.refl (h : w.Scanned) : w.Extends root names w :=
  ⟨h, rfl, fun _ => rfl, fun _ => id, fun _ _ => rfl, fun _ he hne => absurd he hne⟩

theorem Extends.trans (h : w.Extends root names w') (h' : w'.Extends root names w'') : w.Extends root names w'' where
  scanned := h'.scanned
  nsList := h'.nsList.trans h.nsList
  bare n := (h'.bare n).trans (h.bare n)
  listed e he := h'.listed e (h.listed e he)
  kept e he := (h'.kept e (h.listed e he)).trans (h.kept e he)
  created e he hnew := by
    by_cases hmid : e ∈ w'.listed
    · exact (h.created e hmid hnew).unrelated (h'.kept e hmid)
    · exact h'.created e he hmid

theorem Extends.ofFrame (h : w.Scanned) (hframe : w.Frame w')
    (hbare : ∀ n, (w'.nss n).bare = (w.nss n).bare)
    (hkept : ∀ e, (w'.ifs e).unrelated = (w.ifs e).unrelated) : w.Extends root names w' where
  scanned := h.frame hframe
  nsList := hframe.nsList
  bare := hbare
  listed e he := by rwa [hframe.listed]
  kept e _ := hkept e
  created e he hne := absurd (hframe.listed ▸ he) hne

theorem Scanned.mem_ifaces (h : w.Scanned) {n : NsPtr} (hn : n ∈ w.nsList) {e : IfPtr} :
    e ∈ (w.nss n).ifaces ↔ e ∈ w.listed ∧ (w.ifs e).ns = n := by
  constructor
  · intro he
    exact ⟨World.mem_listed.mpr ⟨n, hn, he⟩, h.home n hn e he⟩
  · rintro ⟨he, rfl⟩
    obtain ⟨m, hm, hmem⟩ := World.mem_listed.mp he
    rwa [h.home m hm e hmem]

theorem Extends.name (h : w.Extends root names w') (n : NsPtr) : (w'.nss n).name = (w.nss n).name := by
  have hname := congrArg NetnsEntry.name (h.bare n)
  exact hname

theorem Extends.rtables (h : w.Extends root names w') (n : NsPtr) :
    (w'.nss n).rtables = (w.nss n).rtables := by
  have hrtables := congrArg NetnsEntry.rtables (h.bare n)
  exact hrtables

section
variable {e : IfPtr} (h : w.Extends root names w') (he : e ∈ w.listed)
include h he

theorem Extends.ns : (w'.ifs e).ns = (w.ifs e).ns := by
  have hns := congrArg IfEntry.ns (h.kept e he)
  exact hns

theorem Extends.ifName : (w'.ifs e).ifName = (w.ifs e).ifName := by
  have hname := congrArg IfEntry.ifName (h.kept e he)
  exact hname

theorem Extends.driver : (w'.ifs e).driver = (w.ifs e).driver := by
  have hdriver := congrArg IfEntry.driver (h.kept e he)
  exact hdriver

theorem Extends.linkNet : (w'.ifs e).linkNet = (w.ifs e).linkNet := by
  have hnet := congrArg IfEntry.linkNet (h.kept e he)
  exact hnet

theorem Extends.linkIndex : (w'.ifs e).linkIndex = (w.ifs e).linkIndex := by
  have hindex := congrArg IfEntry.linkIndex (h.kept e he)
  exact hindex

theorem Extends.holdsAddr (data : Addr) :
    Plotnetcfg.holdsAddr data (w'.ifs e) = Plotnetcfg.holdsAddr data (w.ifs e) := by
  have hup := congrArg (fun x => x.flags.up) (h.kept e he)
  have haddr := congrArg IfEntry.addr (h.kept e he)
  have hup : (w'.ifs e).flags.up = (w.ifs e).flags.up := hup
  have haddr : (w'.ifs e).addr = (w.ifs e).addr := haddr
  unfold Plotnetcfg.holdsAddr
  rw [hup, haddr]

end

theorem Extends.created_addr (h : w.Extends root names w') {e : IfPtr} (he : e ∈ w'.listed)
    (hnew : e ∉ w.listed) (data : Addr) : Plotnetcfg.holdsAddr data (w'.ifs e) = false := by
  obtain ⟨name, -, brName, hx⟩ := h.created e he hnew
  have hup : (w'.ifs e).flags.up = false := by
    have hflag := congrArg (fun x => x.flags.up) hx
    exact hflag
  simp [Plotnetcfg.holdsAddr, hup]

theorem Extends.addrHolder (hw : w.Scanned) (h : w.Extends root names w') {ns : NsPtr}
    (hns : ns ∈ w.nsList) (data : Addr) : w'.addrHolder ns data = w.addrHolder ns data := by
  have hns' : ns ∈ w'.nsList := by rwa [h.nsList]
  have hnodup : ∀ {v : World}, v.Scanned → ns ∈ v.nsList → (v.nss ns).ifaces.Nodup := by
    intro v hv hmem
    exact (List.nodup_flatMap.mp hv.nodup).1 ns hmem
  -- an interface that holds the address is an old one
  have hold : ∀ x, x ∈ (w'.nss ns).ifaces ∧ Plotnetcfg.holdsAddr data (w'.ifs x) = true ↔
      x ∈ (w.nss ns).ifaces ∧ Plotnetcfg.holdsAddr data (w.ifs x) = true := by
    intro x
    rw [h.scanned.mem_ifaces hns', hw.mem_ifaces hns]
    constructor
    · rintro ⟨⟨hx, hhome⟩, hholds⟩
      have hx' : x ∈ w.listed := by
        by_contra hnew
        rw [h.created_addr hx hnew] at hholds
        cases hholds
      rw [h.ns hx'] at hhome
      rw [h.holdsAddr hx'] at hholds
      exact ⟨⟨hx', hhome⟩, hholds⟩
    · rintro ⟨⟨hx, hhome⟩, hholds⟩
      rw [h.ns hx, h.holdsAddr hx]
      exact ⟨⟨h.listed x hx, hhome⟩, hholds⟩
  apply Option.ext
  intro x
  rw [addrHolder_eq_some data (hnodup h.scanned hns'), addrHolder_eq_some data (hnodup hw hns),
    ← and_assoc, ← and_assoc]
  have hunique : (∀ y ∈ (w'.nss ns).ifaces, Plotnetcfg.holdsAddr data (w'.ifs y) = true → y = x) ↔
      ∀ y ∈ (w.nss ns).ifaces, Plotnetcfg.holdsAddr data (w.ifs y) = true → y = x := by
    constructor
    · intro hall y hy hholds
      obtain ⟨hy', hholds'⟩ := (hold y).mpr ⟨hy, hholds⟩
      exact hall y hy' hholds'
    · intro hall y hy hholds
      obtain ⟨hy', hholds'⟩ := (hold y).mp ⟨hy, hholds⟩
      exact hall y hy' hholds'
  rw [hold x, hunique]

end

end World

namespace Handlers

open Openvswitch RevLists

/-! ## The steps -/

/-- The calls that relate an interface to one that was searched for. -/
structure PostCalls where
  /-- `link_set(found, e)`, where `found` holds an address -/
  tunnel : IfPtr → IfPtr → Prop
  /-- `peer_set(e, found)` -/
  pair : IfPtr → IfPtr → Prop
  /-- `master_set(e, e)` -/
  self : IfPtr → Prop

def PostCalls.any : PostCalls := ⟨fun _ _ => True, fun _ _ => True, fun _ => True⟩

/-- What the handlers go by: the C library, the root name space, the private blocks and the
bridges of ovsdb. -/
structure PostInput where
  ovs : OvsEnv
  root : NsPtr
  priv : IfPtr → Block
  bridges : List OvsBridge
  calls : PostCalls

def bridgeNames (bridges : List OvsBridge) : List CStr :=
  (allIfaces bridges).map OvsIf.name ++ (bridges.flatMap OvsBridge.ports).map OvsPort.name

def blockAddr : Block → Option Addr
  | .live (.tunnel localAddr) => if 0 ≤ localAddr.family then some localAddr else none
  | .live (.vxlan priv) => priv.localAddr
  | _ => none

def PostInput.names (input : PostInput) : List CStr := bridgeNames input.bridges

section
variable (input : PostInput) (w : World)

inductive PostStep : World → Prop where
  | label (e : IfPtr) {f : IfEntry → IfEntry} (hf : ∀ x, (f x).unlabelled = x.unlabelled) :
      PostStep (w.modifyIf e f)
  | warn (ns : NsPtr) (text : CStr) : PostStep (w.modifyNs ns (·.labelAdd text))
  | resolve {rel : Rel} {e : IfPtr} {found : Option IfPtr} (he : e ∈ w.listed)
      (hindex : (w.ifs e).index rel ≠ 0) (hfound : ∀ x ∈ found, x ∈ w.listed ∧ x ≠ e) :
      PostStep (upperSet rel found e w)
  | tunnel {e found : IfPtr} (he : e ∈ w.listed) (hfound : found ∈ w.listed)
      (hcall : input.calls.tunnel e found) : PostStep (linkSet (some found) (some e) w)
  | unlink (e : IfPtr) : PostStep (linkSet none (some e) w)
  | physfn {e : IfPtr} {found : Option IfPtr} (hfound : ∀ x ∈ found, x ∈ w.listed) :
      PostStep (w.modifyIf e fun x => { x with physfn := found })
  | pair {e found : IfPtr} (he : e ∈ w.listed) (hfound : found ∈ w.listed)
      (hcall : input.calls.pair e found) : PostStep (peerSet (some e) (some found) w)
  | enslave {e : IfPtr} {master : Option IfPtr} (he : e ∈ w.listed)
      (hmaster : ∀ m ∈ master, m ∈ w.listed) (hself : master = some e → input.calls.self e) :
      PostStep (masterSet master e w)
  | create {e : IfPtr} {w' : World} (hadds : w.Adds w' input.root e)
      (hbare : ∀ n, (w'.nss n).bare = (w.nss n).bare)
      (hnew : ∃ name ∈ input.names, ∃ brName,
        w'.ifs e = createdIface input.root name brName) : PostStep w'

end

def PostRun (input : PostInput) : World → World → Prop := Relation.ReflTransGen (PostStep input)

structure PostInput.Fits (input : PostInput) (w : World) : Prop where
  scanned : w.Scanned
  root : input.root ∈ w.nsList
  linkNet : ∀ e ∈ w.listed, ∀ n ∈ (w.ifs e).linkNet, n ∈ w.nsList

/-! ## What a step keeps -/

theorem upperSet_ifs (rel : Rel) (found : Option IfPtr) (e x : IfPtr) (w : World) :
    ((upperSet rel found e w).ifs x).unrelated = (w.ifs x).unrelated := by
  cases rel with
  | master =>
    obtain ⟨m, rev, h⟩ := masterSet_ifs w x found e
    rw [upperSet, h]
    rfl
  | link =>
    obtain ⟨l, rev, h⟩ := linkSet_ifs w x found (some e)
    rw [upperSet, h]
    rfl

theorem modifyIf_unrelated {f : IfEntry → IfEntry} (hf : ∀ x, (f x).unrelated = x.unrelated)
    (e x : IfPtr) (w : World) : ((w.modifyIf e f).ifs x).unrelated = (w.ifs x).unrelated := by
  rw [World.modifyIf_ifs]
  split_ifs
  · exact hf _
  · rfl

theorem kept_of_unrelated {x y : IfEntry} (h : y.unrelated = x.unrelated) : x.Kept y := by
  have hns := congrArg IfEntry.ns h
  have haddr := congrArg IfEntry.addr h
  have hname := congrArg IfEntry.ifName h
  have hdriver := congrArg IfEntry.driver h
  exact ⟨hns, haddr, hname, hdriver⟩

section
variable {input : PostInput} {w w' : World}

theorem extends_of_lists (h : w.Scanned)
    (hlists : w'.nss = w.nss ∧ w'.nsList = w.nsList ∧ w'.free = w.free)
    (hkept : ∀ x, (w'.ifs x).unrelated = (w.ifs x).unrelated) : w.Extends input.root input.names w' := by
  apply World.Extends.ofFrame h
  · exact frame_of_lists hlists fun x => kept_of_unrelated (hkept x)
  · intro n
    rw [hlists.1]
  · exact hkept

theorem PostStep.extends (hfits : input.Fits w) (hstep : PostStep input w w') :
    w.Extends input.root input.names w' := by
  obtain ⟨h, hroot, -⟩ := hfits
  have hupper : ∀ rel found e, w.Extends input.root input.names (upperSet rel found e w) := by
    intro rel found e
    apply extends_of_lists h
    · cases rel
      · exact masterSet_lists w found e
      · exact linkSet_lists w found (some e)
    · exact fun x => upperSet_ifs rel found e x w
  have hmodify : ∀ (e : IfPtr) {f : IfEntry → IfEntry}, (∀ x, (f x).unrelated = x.unrelated) →
      w.Extends input.root input.names (w.modifyIf e f) :=
    fun e f hf => extends_of_lists h ⟨rfl, rfl, rfl⟩ fun x => modifyIf_unrelated hf e x w
  cases hstep with
  | label e hf => exact hmodify e fun x => IfEntry.unrelated_of_unlabelled (hf x)
  | warn ns text =>
    apply World.Extends.ofFrame h
    · exact .modifyNs _ _ (fun _ => rfl) fun _ => rfl
    · intro n
      rw [World.modifyNs_nss]
      split_ifs <;> rfl
    · exact fun _ => rfl
  | @resolve rel e found => exact hupper rel found e
  | @tunnel e found => exact hupper .link (some found) e
  | unlink e => exact hupper .link none e
  | physfn => exact hmodify _ fun _ => rfl
  | @pair e found =>
    apply extends_of_lists h (peerSet_lists w _ _)
    intro x
    obtain ⟨p, hp⟩ := peerSet_ifs w x (some e) (some found)
    rw [hp]
    rfl
  | @enslave e master => exact hupper .master master e
  | @create e _ hadds hbare hnew =>
    have hold : ∀ x ∈ w.listed, x ≠ e := by
      rintro x hx rfl
      exact h.fresh x (by rw [hadds.free]; exact List.mem_cons_self) hx
    refine ⟨hadds.scanned h hroot, hadds.nsList, hbare, fun x hx => ?_, fun x hx => ?_,
      fun x hx hold => ?_⟩
    · exact (hadds.mem_listed h hroot).mpr (.inr hx)
    · rw [hadds.ifs x (hold x hx)]
    · obtain rfl := ((hadds.mem_listed h hroot).mp hx).resolve_right hold
      obtain ⟨name, hname, brName, hifs⟩ := hnew
      rw [hifs]
      exact ⟨name, hname, brName, rfl⟩

theorem PostInput.Fits.extends (hfits : input.Fits w) (h : w.Extends input.root input.names w') :
    input.Fits w' where
  scanned := h.scanned
  root := by
    rw [h.nsList]
    exact hfits.root
  linkNet e he n hn := by
    rw [h.nsList]
    by_cases hold : e ∈ w.listed
    · rw [h.linkNet hold] at hn
      exact hfits.linkNet e hold n hn
    · obtain ⟨name, -, brName, hcreated⟩ := h.created e he hold
      have hnone := congrArg IfEntry.linkNet hcreated
      have hnone : (w'.ifs e).linkNet = none := hnone
      rw [hnone] at hn
      cases hn

theorem PostRun.extends (hfits : input.Fits w) (hrun : PostRun input w w') :
    w.Extends input.root input.names w' := by
  induction hrun with
  | refl => exact .refl hfits.scanned
  | tail _ hstep ih => exact ih.trans (hstep.extends (hfits.extends ih))

theorem ifAddWarning_run (e : IfPtr) (text : CStr) (w : World) :
    PostRun input w (ifAddWarning e text w) := by
  have hcount : PostStep input w
      (w.modifyIf e fun x => { x with warnings := x.warnings + 1 }) := .label e fun _ => rfl
  exact .tail (.single hcount) (.warn _ _)

/-! ## What a step relates -/

theorem modifyIf_field {α : Type} (field : IfEntry → α) {f : IfEntry → IfEntry}
    (hf : ∀ x, field (f x) = field x) (e x : IfPtr) (w : World) :
    field ((w.modifyIf e f).ifs x) = field (w.ifs x) := by
  rw [World.modifyIf_ifs]
  split_ifs
  · exact hf _
  · rfl

theorem label_field {α : Type} (field : IfEntry → α) (hfield : ∀ x, field x.unlabelled = field x)
    {f : IfEntry → IfEntry} (hf : ∀ x, (f x).unlabelled = x.unlabelled) (e x : IfPtr) (w : World) :
    field ((w.modifyIf e f).ifs x) = field (w.ifs x) := by
  apply modifyIf_field
  intro z
  rw [← hfield, hf, hfield]

theorem created_field {α : Type} {f : IfEntry → Option α}
    (hfield : ∀ root name brName, f (createdIface root name brName) = none) {e x : IfPtr}
    (hadds : w.Adds w' input.root e)
    (hnew : ∃ name ∈ input.names, ∃ brName,
      w'.ifs e = createdIface input.root name brName) {y : α} (h : f (w'.ifs x) = some y) :
    f (w.ifs x) = some y := by
  by_cases hx : x = e
  · obtain ⟨name, -, brName, hifs⟩ := hnew
    rw [hx, hifs, hfield] at h
    cases h
  · rwa [hadds.ifs x hx] at h

/-- A link is old, found by index or found by address. -/
theorem PostStep.link (hstep : PostStep input w w') {x y : IfPtr}
    (h : (w'.ifs x).link = some y) : (w.ifs x).link = some y ∨
      ((w.ifs x).linkIndex ≠ 0 ∧ y ≠ x ∨ input.calls.tunnel x y) := by
  cases hstep with
  | label e hf =>
    rw [label_field IfEntry.link (fun _ => rfl) hf] at h
    exact .inl h
  | warn => exact .inl h
  | @resolve rel e found _ hindex hfound =>
    cases rel with
    | master =>
      rw [upperSet, (masterSet_link w x found e).1] at h
      exact .inl h
    | link =>
      rw [upperSet, linkSet_link] at h
      split_ifs at h with hx
      · subst hx
        exact .inr (.inl ⟨hindex, (hfound y h).2⟩)
      · exact .inl h
  | @tunnel e found _ _ hcall =>
    rw [linkSet_link] at h
    split_ifs at h with hx
    · subst hx
      obtain rfl := Option.some.inj h
      exact .inr (.inr hcall)
    · exact .inl h
  | unlink e =>
    rw [linkSet_link] at h
    split_ifs at h
    exact .inl h
  | physfn =>
    rw [modifyIf_field IfEntry.link] at h
    · exact .inl h
    · exact fun _ => rfl
  | @pair e found =>
    obtain ⟨p, hp⟩ := peerSet_ifs w x (some e) (some found)
    rw [hp] at h
    exact .inl h
  | enslave =>
    rw [(masterSet_link w x _ _).1] at h
    exact .inl h
  | create hadds _ hnew => exact .inl (created_field (f := IfEntry.link) (fun _ _ _ => rfl) hadds hnew h)

theorem PostStep.peer (hstep : PostStep input w w') {x y : IfPtr}
    (h : (w'.ifs x).peer = some y) :
    (w.ifs x).peer = some y ∨ input.calls.pair x y ∨ input.calls.pair y x := by
  cases hstep with
  | label e hf =>
    rw [label_field IfEntry.peer (fun _ => rfl) hf] at h
    exact .inl h
  | warn => exact .inl h
  | @resolve rel e found =>
    cases rel with
    | master =>
      rw [upperSet, masterSet_peer] at h
      exact .inl h
    | link =>
      rw [upperSet, linkSet_peer] at h
      exact .inl h
  | tunnel =>
    rw [linkSet_peer] at h
    exact .inl h
  | unlink =>
    rw [linkSet_peer] at h
    exact .inl h
  | physfn =>
    rw [modifyIf_field IfEntry.peer] at h
    · exact .inl h
    · exact fun _ => rfl
  | @pair e found _ _ hcall =>
    rcases peerSet_peer e (some found) w h with hold | ⟨rfl, hy⟩ | ⟨hx, rfl⟩
    · exact .inl hold
    · obtain rfl := Option.some.inj hy
      exact .inr (.inl hcall)
    · obtain rfl := Option.some.inj hx
      exact .inr (.inr hcall)
  | enslave =>
    rw [masterSet_peer] at h
    exact .inl h
  | create hadds _ hnew =>
    exact .inl (created_field (f := IfEntry.peer) (fun _ _ _ => rfl) hadds hnew h)

theorem PostStep.master (hstep : PostStep input w w') {x y : IfPtr}
    (h : (w'.ifs x).master = some y) :
    (w.ifs x).master = some y ∨ (y = x → input.calls.self x) := by
  cases hstep with
  | label e hf =>
    rw [label_field IfEntry.master (fun _ => rfl) hf] at h
    exact .inl h
  | warn => exact .inl h
  | @resolve rel e found _ _ hfound =>
    cases rel with
    | master =>
      rw [upperSet, masterSet_master] at h
      split_ifs at h with hx
      · subst hx
        exact .inr fun hself => absurd hself (hfound y h).2
      · exact .inl h
    | link =>
      rw [upperSet, (linkSet_master w x found e).1] at h
      exact .inl h
  | @tunnel e found =>
    rw [(linkSet_master w x (some found) e).1] at h
    exact .inl h
  | unlink e =>
    rw [(linkSet_master w x none e).1] at h
    exact .inl h
  | physfn =>
    rw [modifyIf_field IfEntry.master] at h
    · exact .inl h
    · exact fun _ => rfl
  | @pair e found =>
    obtain ⟨p, hp⟩ := peerSet_ifs w x (some e) (some found)
    rw [hp] at h
    exact .inl h
  | @enslave e master _ _ hself =>
    rw [masterSet_master] at h
    split_ifs at h with hx
    · subst hx
      exact .inr fun hyx => hself (hyx ▸ h)
    · exact .inl h
  | create hadds _ hnew =>
    exact .inl (created_field (f := IfEntry.master) (fun _ _ _ => rfl) hadds hnew h)

end

end Handlers

end Plotnetcfg
