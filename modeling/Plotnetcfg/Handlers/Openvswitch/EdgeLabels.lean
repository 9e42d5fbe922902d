import Plotnetcfg.Handlers.Openvswitch.LinkFields
import Plotnetcfg.Handlers.Openvswitch.ReplySafety

/-! What the linking makes of the labels that connections have already. An interface has one
label, for its master and for its link, and the tag or the trunks of a port overwrite it. -/

namespace Plotnetcfg.Openvswitch

def portLabel (port : OvsPort) : Option CStr :=
  if port.tag ≠ 0 then some (cstr "tag " ++ decimal port.tag.toNat)
  else if port.trunksCount ≠ 0 then
    some (cstr "trunks " ++
      joinWith (cstr ", ") ((port.trunks.getD []).map fun vlan => decimal vlan.toNat))
  else none

theorem unwritten_edgeLabel : Unwritten IfEntry.edgeLabel :=
  ⟨fun _ _ => rfl, fun _ _ _ => rfl, fun _ _ _ => rfl, fun _ _ => rfl, fun _ _ => rfl,
    fun _ _ _ _ => rfl⟩

/-- The interface `x` is not one that `malloc` will return, and has a label or none. -/
abbrev HasLabel (x : IfPtr) (label : Option CStr) : OvsState → Prop :=
  HasField IfEntry.edgeLabel x label False

theorem labelPortOrIface_edgeLabel (port : OvsPort) (x : IfEntry) :
    (labelPortOrIface port x).edgeLabel = (portLabel port).or x.edgeLabel := by
  unfold labelPortOrIface portLabel
  rw [addConfig_field unwritten_edgeLabel]
  split_ifs
  · rfl
  · rfl
  · rfl

section
variable {env : OvsEnv} {root : NsPtr} {br : OvsBridge} {port : OvsPort} {iface main : OvsIf}
  {x : IfPtr} {label : Option CStr} {s s' : OvsState} {E : OvsState → Prop}

/-! ## Calls that write no label -/

theorem linkPatch_hasLabel (iface : OvsIf) (link : IfPtr) :
    Prog.Runs (HasLabel x label) (linkPatch iface link) (fun _ => HasLabel x label)
      (HasLabel x label) := by
  unfold linkPatch
  apply Prog.Triple.bind (Q := fun _ => HasLabel x label) (Prog.Triple.get fun _ => id)
  intro t
  have hsearch : Prog.Runs (HasLabel x label) (onWorld (matchIf
      { netnsList := some t.world.nsList } (linkPatchSearch iface))) (fun _ => HasLabel x label)
      (HasLabel x label) := by
    apply Prog.Triple.zoom
    intro u hu
    have hcb : ∀ e, Prog.Runs (· = u.world) (linkPatchSearch iface e)
        (fun res w => (res < 0 → w = u.world) ∧ w = u.world) fun w => w = u.world := by
      intro e
      apply (linkPatchSearch_triple iface e).weaken (fun _ => id)
      exact fun _ _ h => ⟨fun _ => h.2, h.2⟩
    have hsame := matchIf_triple (fun _ => True) { netnsList := some t.world.nsList } hcb
      (fun _ _ _ _ _ _ => trivial) fun _ _ => trivial
    apply (hsame.weakenError fun _ _ h => ?_).weaken (fun _ => id)
    · rintro _ _ ⟨-, rfl⟩
      exact hu
    · obtain rfl := h
      exact hu
  apply Prog.Triple.bind hsearch
  intro desc
  apply Prog.Triple.ite
  · intro _
    apply modifyWorld_hasField
    · intro w
      rw [ifAddWarning_ifs]
      split_ifs <;> rfl
    · exact fun _ => rfl
  · intro _
    cases matchFound desc with
    | none => exact Prog.Triple.pure fun _ => id
    | some found =>
      apply modifyWorld_hasField
      · intro w
        obtain ⟨p, h⟩ := peerSet_ifs w x (some link) (some found)
        rw [h]
      · exact fun w => (peerSet_lists w (some link) (some found)).2.2

/-! ## Interfaces and ports -/

theorem decorate_hasLabel (master : Option IfPtr) (link : IfPtr) {after : Option CStr}
    (hafter : after = if port.ifaceCount = 1 ∧ link = x then (portLabel port).or label else label) :
    Prog.Runs (HasLabel x label) (do
      modifyWorld (masterSet master link)
      modifyWorld (·.modifyIf link (labelIface iface))
      modifyWorld (·.modifyIf link fun y =>
        if port.ifaceCount = 1 then labelPortOrIface port y else y)
      if ifaceIsTunnel iface then linkTunnel env iface link
      else if iface.type = cstr "patch" then linkPatch iface link
      else pure ())
      (fun _ => HasLabel x after) (HasLabel x after) := by
  apply Prog.Triple.bind (masterSet_hasField unwritten_edgeLabel master link)
  intro _
  apply Prog.Triple.bind (modifyIf_hasField link (labelIface_field unwritten_edgeLabel iface))
  intro _
  have hlabel : Prog.Runs (HasLabel x label) (modifyWorld (·.modifyIf link fun y =>
      if port.ifaceCount = 1 then labelPortOrIface port y else y))
      (fun _ => HasLabel x after) (HasLabel x after) := by
    unfold modifyWorld onWorld
    apply Prog.Triple.zoom
    intro s hs
    apply Prog.Triple.modify
    rintro _ rfl
    refine ⟨?_, hs.fresh⟩
    show ((s.world.modifyIf link _).ifs x).edgeLabel = after
    rw [hafter]
    rw [World.modifyIf_ifs]
    by_cases hx : x = link
    · subst hx
      rw [if_pos rfl]
      by_cases hcount : port.ifaceCount = 1
      · rw [if_pos hcount, labelPortOrIface_edgeLabel, hs.value]
        exact (if_pos ⟨hcount, rfl⟩).symm
      · rw [if_neg hcount, hs.value]
        exact (if_neg fun h => hcount h.1).symm
    · rw [if_neg hx, hs.value]
      exact (if_neg fun h => hx h.2.symm).symm
  apply Prog.Triple.bind hlabel
  intro _
  apply Prog.Triple.ite
  · exact fun _ => linkTunnel_hasField unwritten_edgeLabel iface link
  intro _
  apply Prog.Triple.ite
  · exact fun _ => linkPatch_hasLabel iface link
  · exact fun _ => Prog.Triple.pure fun _ => id

theorem linkPortIface_hasLabel (hcount : port.ifaceCount ≠ 1) (master : Option IfPtr) :
    Prog.Runs (HasLabel x label) (linkPortIface env root br port master iface)
      (fun _ => HasLabel x label) (HasLabel x label) := by
  unfold linkPortIface
  apply Prog.Triple.bind (linkIface_hasField unwritten_edgeLabel br iface false)
  intro _
  apply Prog.Triple.bind (linkedIface_hasField unwritten_edgeLabel False.elim br iface)
  intro link
  exact decorate_hasLabel master link (if_neg fun h => hcount h.1).symm

theorem portMaster_hasLabel (br : OvsBridge) (main : OvsIf) (port : OvsPort) :
    Prog.Runs (HasLabel x label) (portMaster root br main port) (fun _ => HasLabel x label)
      (HasLabel x label) := by
  unfold portMaster
  apply Prog.Triple.bind (Q := fun _ => HasLabel x label) (Prog.Triple.get fun _ => id)
  intro t
  apply Prog.Triple.ite
  · intro _
    apply Prog.Triple.bind (createIface_hasField unwritten_edgeLabel False.elim port.name br.name)
    intro e
    apply Prog.Triple.of_and
    intro hne
    apply Prog.Triple.bind (masterSet_hasField unwritten_edgeLabel _ e)
    intro _
    have hother : Prog.Runs (HasLabel x label)
        (modifyWorld (·.modifyIf e (labelPortOrIface port))) (fun _ => HasLabel x label)
        (HasLabel x label) := by
      apply modifyWorld_hasField
      · intro w
        rw [World.modifyIf_ifs, if_neg fun heq => hne heq.symm]
      · exact fun _ => rfl
    exact Prog.Triple.bind hother fun _ => Prog.Triple.pure fun _ => id
  · exact fun _ => Prog.Triple.pure fun _ => id

/-- From `s` the turn of the port calls `label_port_or_iface` for `x`. -/
def LabelCall (env : OvsEnv) (root : NsPtr) (br : OvsBridge) (port : OvsPort) (s : OvsState)
    (x : IfPtr) : Prop :=
  ∃ iface t u, port.ifaces = [iface] ∧ linkIface env root br iface false s = some (.ok (), t) ∧
    linkedIface root br iface t = some (.ok x, u)

def PortLabels (env : OvsEnv) (root : NsPtr) (x : IfPtr) (br : OvsBridge) (port : OvsPort)
    (s : OvsState) (o : Option CStr) : Prop :=
  LabelCall env root br port s x ∧ o = portLabel port ∨ ¬ LabelCall env root br port s x ∧ o = none

theorem labelCall_iff (hifaces : port.ifaces = [iface]) (e : IfPtr) :
    LabelCall env root br port s e ↔ ∃ t u,
      linkIface env root br iface false s = some (.ok (), t) ∧
        linkedIface root br iface t = some (.ok e, u) := by
  constructor
  · rintro ⟨iface', t, u, hifaces', hrest⟩
    obtain rfl : iface = iface' := by simpa using hifaces.symm.trans hifaces'
    exact ⟨t, u, hrest⟩
  · rintro ⟨t, u, hrest⟩
    exact ⟨iface, t, u, hifaces, hrest⟩

theorem PortLabels.eq_none {o : Option CStr} (ho : PortLabels env root x br port s o)
    (hno : ¬ LabelCall env root br port s x) : o = none := by
  rcases ho with ⟨hcall, -⟩ | ⟨-, hnone⟩
  · exact absurd hcall hno
  · exact hnone

section
variable {t : OvsState} (hifaces : port.ifaces = [iface])
  (hsearch : linkIface env root br iface false s = some (.ok (), t))
include hifaces hsearch

/-- The entry that gets the label is the one that the search has led to. -/
theorem LabelCall.linked (h : LabelCall env root br port s x) :
    ∃ u, linkedIface root br iface t = some (.ok x, u) := by
  obtain ⟨t', u, hok, hlinked⟩ := (labelCall_iff hifaces x).mp h
  rw [hsearch] at hok
  obtain ⟨-, rfl⟩ := Prod.mk.inj (Option.some.inj hok)
  exact ⟨u, hlinked⟩

theorem PortLabels.shown {o : Option CStr} (ho : PortLabels env root x br port s o) {e : IfPtr}
    {u : OvsState} (hlinked : linkedIface root br iface t = some (.ok e, u)) :
    o.or (s.world.ifs x).edgeLabel = if port.ifaceCount = 1 ∧ e = x then
      (portLabel port).or (s.world.ifs x).edgeLabel else (s.world.ifs x).edgeLabel := by
  have hcount : port.ifaceCount = 1 := by rw [port.counted, hifaces]; rfl
  by_cases hx : e = x
  · subst hx
    rcases ho with ⟨-, rfl⟩ | ⟨hno, -⟩
    · rw [if_pos ⟨hcount, rfl⟩]
    · exact absurd ((labelCall_iff hifaces e).mpr ⟨t, u, hsearch, hlinked⟩) hno
  · have hno : ¬ LabelCall env root br port s x := by
      intro h
      obtain ⟨u', hlinked'⟩ := h.linked hifaces hsearch
      rw [hlinked] at hlinked'
      obtain ⟨heq, -⟩ := Prod.mk.inj (Option.some.inj hlinked')
      exact hx (Except.ok.inj heq)
    rw [if_neg fun h => hx h.2, ho.eq_none hno]
    rfl

end

/-- The turn of a port with one interface, which gets the label if the turn gets that far. -/
theorem linkPort_labels_sole {r : Except Int Unit} {o : Option CStr} (hold : x ∉ s.world.free)
    (hifaces : port.ifaces = [iface]) (ho : PortLabels env root x br port s o)
    (hrun : linkPort env root br main port s = some (r, s')) :
    HasLabel x (o.or (s.world.ifs x).edgeLabel) s' := by
  have hs : HasLabel x (s.world.ifs x).edgeLabel s := ⟨rfl, hold⟩
  have hcount : port.ifaceCount = 1 := by rw [port.counted, hifaces]; rfl
  have hmaster : portMaster root br main port s = some (.ok (s.link main.ptr), s) :=
    portMaster_sole (by omega) s
  unfold linkPort at hrun
  rw [Prog.bind_ok s hmaster, hifaces, Prog.forEach_singleton] at hrun
  unfold linkPortIface at hrun
  rcases hsearch : linkIface env root br iface false s with _ | ⟨e | u, t⟩
  · rw [Prog.bind_fault s hsearch] at hrun
    cases hrun
  · rw [Prog.bind_error s hsearch] at hrun
    obtain ⟨-, rfl⟩ := Prod.mk.inj (Option.some.inj hrun)
    have hno : ¬ LabelCall env root br port s x := by
      intro h
      obtain ⟨t', u, hok, -⟩ := (labelCall_iff hifaces x).mp h
      rw [hsearch] at hok
      cases hok
    rw [ho.eq_none hno]
    exact linkIface_hasField unwritten_edgeLabel br iface false s hs _ _ hsearch
  rw [Prog.bind_ok s hsearch] at hrun
  have ht := linkIface_hasField unwritten_edgeLabel br iface false s hs _ _ hsearch
  rcases hlinked : linkedIface root br iface t with _ | ⟨e | e, v⟩
  · rw [Prog.bind_fault t hlinked] at hrun
    cases hrun
  · rw [Prog.bind_error t hlinked] at hrun
    obtain ⟨-, rfl⟩ := Prod.mk.inj (Option.some.inj hrun)
    have hno : ¬ LabelCall env root br port s x := by
      intro h
      obtain ⟨u', hlinked'⟩ := h.linked hifaces hsearch
      rw [hlinked] at hlinked'
      cases hlinked'
    rw [ho.eq_none hno]
    exact linkedIface_hasField unwritten_edgeLabel False.elim br iface t ht _ _ hlinked
  rw [Prog.bind_ok t hlinked] at hrun
  have hv := linkedIface_hasField unwritten_edgeLabel False.elim br iface t ht _ _ hlinked
  have hend := decorate_hasLabel (s.link main.ptr) e (ho.shown hifaces hsearch hlinked) v hv r s' hrun
  cases r with
  | ok u => exact hend
  | error err => exact hend

theorem linkPort_labels {r : Except Int Unit} {o : Option CStr} (hold : x ∉ s.world.free)
    (ho : PortLabels env root x br port s o)
    (hrun : linkPort env root br main port s = some (r, s')) :
    HasLabel x (o.or (s.world.ifs x).edgeLabel) s' := by
  by_cases hsole : ∃ iface, port.ifaces = [iface]
  · obtain ⟨iface, hifaces⟩ := hsole
    exact linkPort_labels_sole hold hifaces ho hrun
  have hno : ¬ LabelCall env root br port s x := by
    rintro ⟨iface, -, -, hifaces, -⟩
    exact hsole ⟨iface, hifaces⟩
  have hcount : port.ifaceCount ≠ 1 := by
    intro hone
    rw [port.counted] at hone
    exact hsole (List.length_eq_one_iff.mp hone)
  obtain rfl := ho.eq_none hno
  have hkeep : Prog.Runs (HasLabel x (s.world.ifs x).edgeLabel) (linkPort env root br main port)
      (fun _ => HasLabel x (s.world.ifs x).edgeLabel)
      (HasLabel x (s.world.ifs x).edgeLabel) := by
    unfold linkPort
    apply Prog.Triple.bind (portMaster_hasLabel br main port)
    intro master
    exact Prog.Triple.forEach fun iface _ => linkPortIface_hasLabel hcount master
  have hend := hkeep s ⟨rfl, hold⟩ r s' hrun
  cases r with
  | ok u => exact hend
  | error err => exact hend

/-! ## The whole linking -/

/-- What the turn of the bridge writes to the label of `x`: its ports are linked if its main
interface is found. -/
def BridgeLabels (env : OvsEnv) (root : NsPtr) (x : IfPtr) (br : OvsBridge) (s : OvsState)
    (o : Option CStr) : Prop :=
  (∃ main t, MainIface br main ∧ linkIface env root br main true s = some (.ok (), t) ∧
    Prog.LastWrite (linkPort env root br main) (PortLabels env root x br) br.ports t o) ∨
  (∀ main t, MainIface br main → linkIface env root br main true s ≠ some (.ok (), t)) ∧ o = none

def LastLabel (env : OvsEnv) (root : NsPtr) (x : IfPtr) (brList : List OvsBridge) (s : OvsState)
    (o : Option CStr) : Prop :=
  Prog.LastWrite (linkBridge env root) (BridgeLabels env root x) brList s o

theorem linkBridge_labels {r : Except Int Unit} {o : Option CStr} (hold : x ∉ s.world.free)
    (ho : BridgeLabels env root x br s o) (hrun : linkBridge env root br s = some (r, s')) :
    HasLabel x (o.or (s.world.ifs x).edgeLabel) s' := by
  have hs : HasLabel x (s.world.ifs x).edgeLabel s := ⟨rfl, hold⟩
  rcases ho with ⟨main, t, hmain, hfound, hlast⟩ | ⟨hlost, rfl⟩
  · have ht := linkIface_hasField unwritten_edgeLabel br main true s hs _ _ hfound
    have hattempt : Prog.attempt (linkIface env root br main true) s =
        some (.ok (.ok ()), t) := by
      unfold Prog.attempt
      rw [hfound]
      rfl
    rw [linkBridge_main env root hmain, Prog.bind_ok s hattempt] at hrun
    obtain ⟨hfresh, hlabel⟩ := hlast.shows
      (I := fun s => x ∉ s.world.free) (g := fun s => (s.world.ifs x).edgeLabel)
      (fun port t o r t' hfree ho hrun => by
        have hport := linkPort_labels hfree ho hrun
        exact ⟨hport.fresh, hport.value⟩) ht.fresh hrun
    exact ⟨hlabel.trans (by rw [ht.value]), hfresh⟩
  · by_cases hmain : ∃ main, MainIface br main
    · obtain ⟨main, hmain⟩ := hmain
      rw [linkBridge_main env root hmain] at hrun
      rcases hsearch : linkIface env root br main true s with _ | ⟨e | u, t⟩
      · have hattempt : Prog.attempt (linkIface env root br main true) s = none := by
          unfold Prog.attempt
          rw [hsearch]
          rfl
        rw [Prog.bind_fault s hattempt] at hrun
        cases hrun
      · have hattempt : Prog.attempt (linkIface env root br main true) s =
            some (.ok (.error e), t) := by
          unfold Prog.attempt
          rw [hsearch]
          rfl
        rw [Prog.bind_ok s hattempt] at hrun
        have ht := linkIface_hasField unwritten_edgeLabel br main true s hs _ _ hsearch
        have hsame : s' = t := by
          dsimp only at hrun
          split_ifs at hrun
          · exact (Prod.mk.inj (Option.some.inj hrun)).2.symm
          · exact (Prod.mk.inj (Option.some.inj hrun)).2.symm
        rw [hsame]
        exact ht
      · exact absurd hsearch (hlost main t hmain)
    · obtain ⟨text, hskipped⟩ := linkBridge_skipped env root (not_exists.mp hmain)
      rw [hskipped] at hrun
      have hend := labelAdd_hasField (E := fun _ => False) root text s hs r s' hrun
      cases r with
      | ok u => exact hend
      | error e => exact hend.elim

theorem exists_portLabels (s : OvsState) (x : IfPtr) (br : OvsBridge) (port : OvsPort) :
    ∃ o, PortLabels env root x br port s o := by
  by_cases hcall : LabelCall env root br port s x
  · exact ⟨_, .inl ⟨hcall, rfl⟩⟩
  · exact ⟨none, .inr ⟨hcall, rfl⟩⟩

theorem exists_bridgeLabels {r : Except Int Unit}
    (hrun : linkBridge env root br s = some (r, s')) : ∃ o, BridgeLabels env root x br s o := by
  by_cases hfound : ∃ main t, MainIface br main ∧
      linkIface env root br main true s = some (.ok (), t)
  · obtain ⟨main, t, hmain, hfound⟩ := hfound
    have hattempt : Prog.attempt (linkIface env root br main true) s =
        some (.ok (.ok ()), t) := by
      unfold Prog.attempt
      rw [hfound]
      rfl
    rw [linkBridge_main env root hmain, Prog.bind_ok s hattempt] at hrun
    obtain ⟨o, ho⟩ := Prog.exists_lastWrite (W := PortLabels env root x br)
      (fun port s _ _ _ => exists_portLabels s x br port) hrun
    exact ⟨o, .inl ⟨main, t, hmain, hfound, ho⟩⟩
  · refine ⟨none, .inr ⟨fun main t hmain h => hfound ⟨main, t, hmain, h⟩, rfl⟩⟩

/-- An interface that had a link, and has the same after the linking, has the same label on it. -/
def KeepsLabels (s s' : OvsState) : Prop :=
  ∀ x ∈ s.world.listed, ∀ l, (s.world.ifs x).link = some l → (s'.world.ifs x).link = some l →
    (s'.world.ifs x).edgeLabel = (s.world.ifs x).edgeLabel

/-- The labels of links stay as they are exactly when the last tag or trunks that are written to
one are those it shows already. -/
theorem linkIfaces_keepsLabels {brList : List OvsBridge} {r : Except Int Unit}
    (hfresh : ∀ e ∈ s.world.free, e ∉ s.world.listed)
    (hrun : linkIfaces env root brList s = some (r, s')) :
    KeepsLabels s s' ↔ ∀ x ∈ s.world.listed, ∀ l, (s.world.ifs x).link = some l →
      (s'.world.ifs x).link = some l → ∀ text, LastLabel env root x brList s (some text) →
        (s.world.ifs x).edgeLabel = some text := by
  have hshows : ∀ x ∈ s.world.listed, ∀ o, LastLabel env root x brList s o →
      (s'.world.ifs x).edgeLabel = o.or (s.world.ifs x).edgeLabel := by
    intro x hx o ho
    have hold : x ∉ s.world.free := fun hmem => hfresh x hmem hx
    exact (ho.shows (I := fun s => x ∉ s.world.free) (g := fun s => (s.world.ifs x).edgeLabel)
      (fun br t o r t' hfree ho hrun => by
        have hbridge := linkBridge_labels hfree ho hrun
        exact ⟨hbridge.fresh, hbridge.value⟩) hold hrun).2
  constructor
  · intro hkeeps x hx l hbefore hafter text hlast
    rw [← hkeeps x hx l hbefore hafter, hshows x hx _ hlast]
    rfl
  · intro hsame x hx l hbefore hafter
    obtain ⟨o, ho⟩ := Prog.exists_lastWrite (W := BridgeLabels env root x)
      (fun br s _ _ hrun => exists_bridgeLabels hrun) hrun
    rw [hshows x hx o ho]
    cases o with
    | none => rfl
    | some text => rw [hsame x hx l hbefore hafter text ho]; rfl

theorem LastLabel.eq_none {brList : List OvsBridge} {o : Option CStr}
    (h : LastLabel env root x brList s o)
    (hports : ∀ br ∈ brList, ∀ port ∈ br.ports, portLabel port = none) : o = none := by
  apply Prog.LastWrite.eq_none h
  rintro br hbr s o (⟨main, t, -, -, hlast⟩ | ⟨-, hnone⟩)
  · apply hlast.eq_none
    rintro port hport s o (⟨-, rfl⟩ | ⟨-, hnone⟩)
    · exact hports br hbr port hport
    · exact hnone
  · exact hnone

end

def vlanWorld : World where
  ifs e := match e with
    | 0 => { ifName := cstr "br0", driver := some (cstr "openvswitch") }
    | 1 => { ifName := cstr "eth0", driver := some (cstr "e1000e"), revLink := [2] }
    | _ =>
      { ifName := cstr "eth0.5", driver := some (cstr "vlan"), link := some 1,
        edgeLabel := some (cstr "tag 5") }
  nss _ := { ifaces := [0, 1, 2] }
  nsList := [0]
  free := []

/-- The bridge with the VLAN device as a port, which has a tag of the bridge or none. -/
def vlanBridge (tag : UInt32) : OvsBridge :=
  let main : OvsPort :=
    { name := cstr "br0"
      ifaces := [{ ptr := 0, name := cstr "br0", type := cstr "internal" }]
      ifaceCount := 1 }
  let port : OvsPort :=
    { name := cstr "eth0.5"
      ifaces := [{ ptr := 1, name := cstr "eth0.5", type := [] }]
      ifaceCount := 1
      tag := tag }
  { name := cstr "br0", dpType := .system, ports := [port], system := some main }

def vlanEnv : OvsEnv := { checkVport := fun _ _ _ => true, inetPton := fun _ _ => none }

def vlanState : OvsState := { world := vlanWorld, link := fun _ => none, next := 2 }

theorem linkIfaces_keepsLabels_vlan : ∃ r s',
    linkIfaces vlanEnv 0 [vlanBridge 0] vlanState = some (r, s') ∧ KeepsLabels vlanState s' := by
  obtain ⟨⟨r, s'⟩, hrun⟩ : ∃ x, linkIfaces vlanEnv 0 [vlanBridge 0] vlanState = some x :=
    Option.isSome_iff_exists.mp (by decide +kernel)
  refine ⟨r, s', hrun, (linkIfaces_keepsLabels (by decide) hrun).mpr ?_⟩
  intro x _ l _ _ text hlast
  have hnone := hlast.eq_none (by decide)
  cases hnone

/-- The tag of the port replaces that of the VLAN device on the link to the device below. -/
theorem linkIfaces_relabels : ¬ ∀ (env : OvsEnv) (root : NsPtr) (brList : List OvsBridge)
    (r : Except Int Unit) (s s' : OvsState), (∀ e ∈ s.world.free, e ∉ s.world.listed) →
      linkIfaces env root brList s = some (r, s') → KeepsLabels s s' := by
  intro h
  have hends : ((linkIfaces vlanEnv 0 [vlanBridge 7] vlanState).any fun r =>
      decide (r.1.isOk = true ∧ (r.2.world.ifs 2).link = some 1 ∧
        (r.2.world.ifs 2).edgeLabel = some (cstr "tag 7"))) = true := by decide +kernel
  obtain ⟨⟨r, s'⟩, hrun, hs'⟩ := (Option.any_eq_true _ _).mp hends
  obtain ⟨-, hlink, hlabel⟩ := of_decide_eq_true hs'
  have hkept := h vlanEnv 0 [vlanBridge 7] r vlanState s' (by decide) hrun 2 (by decide) 1 rfl hlink
  have hlabel : (s'.world.ifs 2).edgeLabel = some (cstr "tag 7") := hlabel
  rw [hkept] at hlabel
  exact absurd hlabel (by decide)

end Plotnetcfg.Openvswitch
