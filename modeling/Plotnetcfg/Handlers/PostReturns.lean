import Plotnetcfg.Handlers.FillRuns
import Plotnetcfg.Handlers.PostTurns

/-! `master_resolve` and `if_handler_post` as wholes: the first one always gets to its end, and when
the second one does. -/

namespace Plotnetcfg.Handlers

/-! ## The loop -/

structure Posted (s₀ : ScanState) (done : List IfPtr) (s : ScanState) : Prop where
  sound : Sound s
  priv : s.priv = s₀.priv
  frame : s₀.world.Frame s.world
  peerIndex : ∀ x, (s.world.ifs x).peerIndex = (s₀.world.ifs x).peerIndex
  revMaster : ∀ x, (s.world.ifs x).revMaster = (s₀.world.ifs x).revMaster
  activeSlave : ∀ x ∉ done, (s.world.ifs x).activeSlave = (s₀.world.ifs x).activeSlave
  paired : ∀ x, (s.world.ifs x).peer = none → (s₀.world.ifs x).peer = none
  lone : ∀ x, (s₀.world.ifs x).peer = none → (s₀.world.ifs x).peerIndex = 0 →
    (s₀.world.ifs x).driver = some (cstr "veth") → (s.world.ifs x).peer = none

section
variable {s₀ s s' : ScanState} {done : List IfPtr} {e : IfPtr}

theorem Posted.start (hs : Sound s) : Posted s [] s :=
  ⟨hs, rfl, .refl _, fun _ => rfl, fun _ => rfl, fun _ _ => rfl, fun _ => id, fun _ h _ _ => h⟩

/-- An interface needs in its turn what it needed before the first one. -/
theorem Posted.needs_iff (h : Posted s₀ done s) (he : e ∉ done) :
    PostNeeds s e ↔ PostNeeds s₀ e := by
  have hdriver := (h.frame.kept e).driver
  have hactive := h.activeSlave e he
  constructor
  · intro hneeds
    refine ⟨fun hd hpeer => ?_, ?_, ?_, ?_, ?_⟩
    · intro hzero
      have hlone := h.lone e hpeer hzero hd
      exact hneeds.veth (hdriver.trans hd) hlone ((h.peerIndex e).trans hzero)
    · rw [← hdriver, ← h.priv]
      exact hneeds.bond
    · rw [← hdriver, ← hactive, ← h.priv, ← h.revMaster]
      exact hneeds.team
    · rw [← hdriver, ← h.priv]
      exact hneeds.vxlan
    · rw [← hdriver, ← h.priv]
      exact hneeds.tunnel
  · intro hneeds
    refine ⟨fun hd hpeer => ?_, ?_, ?_, ?_, ?_⟩
    · rw [h.peerIndex]
      exact hneeds.veth (hdriver.symm.trans hd) (h.paired e hpeer)
    · rw [hdriver, h.priv]
      exact hneeds.bond
    · rw [hdriver, hactive, h.priv, h.revMaster]
      exact hneeds.team
    · rw [hdriver, h.priv]
      exact hneeds.vxlan
    · rw [hdriver, h.priv]
      exact hneeds.tunnel

theorem postPeers_cases {w : World} (hnodup : w.listed.Nodup) (e : IfPtr) :
    postPeers w e = w.peers ∨ ∃ y, w.peers e = none ∧ 0 < w.peerWeight e y ∧
      postPeers w e = Matching.rematch w.peers (some e) (some y) := by
  unfold postPeers
  split_ifs with hpeer
  · exact .inl rfl
  cases hchoice : w.peerChoice e with
  | none => exact .inl rfl
  | some y =>
    have hchosen := (Tally.choice_eq_some (hnodup.filter _)).mp hchoice
    exact .inr ⟨y, Option.not_isSome_iff_eq_none.mp hpeer, hchosen.2.1, rfl⟩

theorem peerWeight_needs {w : World} {e y : IfPtr} (h : 0 < w.peerWeight e y) :
    (w.ifs y).peerIndex = (w.ifs e).ifIndex ∧ (w.peers y = none ∨ w.peers y = some e) := by
  unfold World.peerWeight at h
  split_ifs at h with hdriver hpeer
  · exact absurd h (lt_irrefl 0)
  · exact absurd h (lt_irrefl 0)
  · refine ⟨(World.pairWeight_pos.mp h).2, ?_⟩
    rw [not_and_or, Option.not_isSome_iff_eq_none, not_not] at hpeer
    exact hpeer

/-- The turn of an interface leaves no other one without peer, and gives none to a virtual
ethernet device that has no index of one. -/
theorem PostTurn.peer_iff (hs : Sound s) (he : e ∈ s.world.listed) (hneeds : PostNeeds s e)
    (h : PostTurn e s s') {x : IfPtr} :
    ((s'.world.ifs x).peer = none → (s.world.ifs x).peer = none) ∧
      ((s.world.ifs x).peer = none → (s.world.ifs x).peerIndex = 0 →
        (s.world.ifs x).driver = some (cstr "veth") → (s'.world.ifs x).peer = none) := by
  have hpeers := congrFun h.peers x
  by_cases hveth : (s.world.ifs e).driver = some (cstr "veth")
  swap
  · rw [if_neg hveth] at hpeers
    rw [show (s'.world.ifs x).peer = (s.world.ifs x).peer from hpeers]
    exact ⟨id, fun hnone _ _ => hnone⟩
  rw [if_pos hveth] at hpeers
  rcases postPeers_cases hs.scanned.nodup e with hsame | ⟨y, hfree, hpos, hnew⟩
  · rw [hsame] at hpeers
    rw [show (s'.world.ifs x).peer = (s.world.ifs x).peer from hpeers]
    exact ⟨id, fun hnone _ _ => hnone⟩
  obtain ⟨hindex, hmine⟩ := peerWeight_needs hpos
  rw [hnew] at hpeers
  unfold Matching.rematch at hpeers
  split_ifs at hpeers with hx hy
  · obtain rfl := Option.some.inj hx
    have hsome : (s'.world.ifs e).peer = some y := hpeers
    refine ⟨fun hnone => ?_, fun hnone hzero _ => ?_⟩
    · rw [hsome] at hnone
      cases hnone
    · exact absurd hzero (hneeds.veth hveth hnone)
  · obtain rfl := Option.some.inj hy
    have hsome : (s'.world.ifs y).peer = some e := hpeers
    refine ⟨fun hnone => ?_, fun _ hzero _ => ?_⟩
    · rw [hsome] at hnone
      cases hnone
    · rw [hzero] at hindex
      exact absurd hindex.symm (hs.indexed e he hveth)
  · cases hold : s.world.peers x with
    | none =>
      rw [hold] at hpeers
      exact ⟨fun _ => hold, fun _ _ _ => hpeers⟩
    | some z =>
      -- nobody else had one of the two for a peer
      have hback := hs.symmetric x z hold
      rw [hold] at hpeers
      dsimp only at hpeers
      have hkeep : ¬ (some e = some z ∨ some y = some z) := by
        rintro (hz | hz)
        · obtain rfl := Option.some.inj hz
          rw [hfree] at hback
          cases hback
        · obtain rfl := Option.some.inj hz
          rcases hmine with hnone | hmine
          · rw [hnone] at hback
            cases hback
          · rw [hmine] at hback
            exact hx hback
      rw [if_neg hkeep] at hpeers
      have hsame : (s'.world.ifs x).peer = (s.world.ifs x).peer := hpeers.trans hold.symm
      rw [hsame]
      exact ⟨id, fun hnone _ _ => hnone⟩

theorem Posted.turn (h : Posted s₀ done s) (he : e ∈ s₀.world.listed) (hneeds : PostNeeds s e)
    (hturn : PostTurn e s s') : Posted s₀ (done ++ [e]) s' := by
  have hlisted : e ∈ s.world.listed := by rwa [h.frame.listed]
  have hpeer := fun x => hturn.peer_iff h.sound hlisted hneeds (x := x)
  have hindex := hturn.field IfEntry.peerIndex fun _ => rfl
  refine ⟨?_, hturn.priv.trans h.priv, h.frame.trans hturn.frame,
    fun x => (hindex x).trans (h.peerIndex x), fun x => (hturn.revMaster x).trans (h.revMaster x),
    fun x hx => ?_, fun x hx => h.paired x ((hpeer x).1 hx), fun x hnone hzero hd => ?_⟩
  · apply h.sound.turned hturn.toTurned
    rw [hturn.peers]
    split_ifs
    · exact postPeers_symmetric h.sound.symmetric e
    · exact h.sound.symmetric
  · rw [List.mem_append, List.mem_singleton, not_or] at hx
    rw [hturn.activeSlave x fun hand => hx.2 hand.1, h.activeSlave x hx.1]
  · exact (hpeer x).2 (h.lone x hnone hzero hd) ((h.peerIndex x).trans hzero)
      ((h.frame.kept x).driver.trans hd)

theorem postTurns_returnsIff (env : HandlerEnv) (hs : Sound s) {pre post : List IfPtr}
    (hsplit : s.world.listed = pre ++ post) :
    Prog.ReturnsIff (Prog.forEach pre (postTurn env)) s (∀ e ∈ pre, PostNeeds s e)
      fun _ => Posted s pre := by
  have hnodup := hs.scanned.nodup
  rw [hsplit] at hnodup
  apply Prog.ReturnsIff.forEach _ (Posted.start hs)
  intro before e behind t hpre ht
  have hlisted : e ∈ s.world.listed := by
    rw [hsplit, hpre]
    simp
  have hnew : e ∉ before := by
    rw [hpre] at hnodup
    have hdisjoint := (List.nodup_append.mp (List.nodup_append.mp hnodup).1).2.2
    exact fun hmem => hdisjoint e hmem e List.mem_cons_self rfl
  have hlisted' : e ∈ t.world.listed := by rwa [ht.frame.listed]
  have hturn := postTurn_returnsIff env ht.sound hlisted'
  exact (hturn.strengthen fun hneeds _ _ h => ht.turn hlisted hneeds h).congr (ht.needs_iff hnew)

end

/-! ## After the handler of Open vSwitch -/

/-- Every interface that the scan found has its driver and its index, and a local address in its
block has its bytes. -/
structure Identified (s : ScanState) : Prop where
  driver : ∀ e ∈ s.world.listed, (s.world.ifs e).driver ≠ none
  ifIndex : ∀ e ∈ s.world.listed, (s.world.ifs e).ifIndex ≠ 0
  bytes : ∀ e ∈ s.world.listed, ∀ data, blockAddr (s.priv e) = some data → data.raw.isSome = true

section
variable {input : PostInput} {w v v' : World}

theorem PostStep.paired (hfits : input.Fits v) (hstep : PostStep input v v') (h : v.Paired) :
    v'.Paired := by
  have hlisted := (hstep.extends hfits).listed
  have hsame : (∀ x, (v'.ifs x).peer = (v.ifs x).peer) → v'.Paired := fun hpeer =>
    peerInvariant_paired.congr (fun x => .inl (hpeer x)) hlisted h
  cases hstep with
  | label e hf => exact hsame fun x => label_field IfEntry.peer (fun _ => rfl) hf e x v
  | warn => exact hsame fun _ => rfl
  | @resolve rel e found =>
    cases rel with
    | master => exact hsame fun x => masterSet_peer v x found e
    | link => exact hsame fun x => linkSet_peer v x found (some e)
  | @tunnel e found => exact hsame fun x => linkSet_peer v x (some found) (some e)
  | unlink e => exact hsame fun x => linkSet_peer v x none (some e)
  | @physfn e found =>
    apply hsame
    intro x
    rw [modifyIf_field IfEntry.peer]
    exact fun _ => rfl
  | @pair e found he hfound =>
    apply peerInvariant_paired.peerSet _ _ h
    · rintro x hx
      obtain rfl := Option.some.inj hx
      exact he
    · rintro x hx
      obtain rfl := Option.some.inj hx
      exact hfound
  | @enslave e master => exact hsame fun x => masterSet_peer v x master e
  | @create e _ hadds _ hnew =>
    apply peerInvariant_paired.congr _ hlisted h
    intro x
    by_cases hx : x = e
    · subst hx
      obtain ⟨name, -, brName, hifs⟩ := hnew
      have hfresh : x ∉ v.listed := hfits.scanned.fresh x (by rw [hadds.free]; exact List.mem_cons_self)
      refine .inr ⟨hfresh, ?_⟩
      rw [World.peers, hifs]
      rfl
    · refine .inl ?_
      rw [World.peers, World.peers, hadds.ifs x hx]

theorem PostRun.paired (hfits : input.Fits w) (hrun : PostRun input w v) (h : w.Paired) :
    v.Paired := by
  induction hrun with
  | refl => exact h
  | tail hrun hstep ih => exact hstep.paired (hfits.extends (PostRun.extends hfits hrun)) ih

end

theorem Collected.sound {s s₂ : ScanState} (h : Collected s.world) (hid : Identified s)
    {input : PostInput} (hroot : input.root ∈ s.world.nsList)
    (hrun : PostRun input (matchAllNetnsid s.world) s₂.world) (hpriv : s₂.priv = s.priv) :
    Sound s₂ := by
  have hfits := h.fits hroot
  have hext := hrun.extends hfits
  have hpaired := (matchAllNetnsid_keeps peerInvariant_paired h.scanned (.of_no_peers h.peer)).2
  -- an interface is one of the scan, or it has been created
  have hcases : ∀ e ∈ s₂.world.listed, e ∈ s.world.listed ∧
      (s₂.world.ifs e).unrelated = ((matchAllNetnsid s.world).ifs e).unrelated ∨
      (s₂.world.ifs e).Created input.root input.names := by
    intro e he
    by_cases hold : e ∈ (matchAllNetnsid s.world).listed
    · exact .inl ⟨h.mem_listed.mp hold, hext.kept e hold⟩
    · exact .inr (hext.created e he hold)
  have hcreated : ∀ {x : IfEntry}, x.Created input.root input.names → x.driver = none ∧
      x.ifIndex = 0 ∧ x.linkNet = none := by
    rintro x ⟨name, -, brName, hx⟩
    have hdriver := congrArg IfEntry.driver hx
    have hindex := congrArg IfEntry.ifIndex hx
    have hnet := congrArg IfEntry.linkNet hx
    exact ⟨hdriver, hindex, hnet⟩
  have hkept : ∀ {α : Type} (field : IfEntry → α), (∀ x, field x.unrelated = field x) → ∀ e,
      (s₂.world.ifs e).unrelated = ((matchAllNetnsid s.world).ifs e).unrelated →
      field (s₂.world.ifs e) = field ((matchAllNetnsid s.world).ifs e) := by
    intro α field hfield e hunrelated
    rw [← hfield, hunrelated, hfield]
  have hmatched : ∀ e, ((matchAllNetnsid s.world).ifs e).driver = (s.world.ifs e).driver ∧
      ((matchAllNetnsid s.world).ifs e).ifIndex = (s.world.ifs e).ifIndex := by
    intro e
    obtain ⟨_, _, _, _, he⟩ := h.matched.ifs e
    rw [he]
    exact ⟨rfl, rfl⟩
  refine ⟨hext.scanned, fun e he => ?_, fun e he hdriver => ?_, fun e he hdriver => ?_,
    fun e he hdriver => ?_, (hrun.paired hfits hpaired).symmetric⟩
  · have hns := hext.scanned.ns_mem he
    rcases hcases e he with ⟨hold, hunrelated⟩ | hnew
    · rw [hkept IfEntry.linkNet (fun _ => rfl) e hunrelated, h.linkNet_eq hold]
      cases htarget : s.world.netTarget e with
      | none => exact hns
      | some n =>
        rw [hext.nsList, h.frame.nsList]
        exact netTarget_mem h hold htarget
    · rw [(hcreated hnew).2.2]
      exact hns
  · rcases hcases e he with ⟨hold, -⟩ | hnew
    · rw [hpriv]
      exact hid.bytes e hold
    · exact absurd (hcreated hnew).1 hdriver
  · rcases hcases e he with ⟨hold, hunrelated⟩ | hnew
    · rw [hkept IfEntry.driver (fun _ => rfl) e hunrelated, (hmatched e).1] at hdriver
      exact absurd hdriver (hid.driver e hold)
    · exact (hcreated hnew).2.1
  · rcases hcases e he with ⟨hold, hunrelated⟩ | hnew
    · rw [hkept IfEntry.ifIndex (fun _ => rfl) e hunrelated, (hmatched e).2]
      exact hid.ifIndex e hold
    · rw [(hcreated hnew).1] at hdriver
      cases hdriver

/-! ## The report -/

/-- All interfaces have had their turns with every matching callback, and each turn was that of
one interface alone. -/
structure Finishes (env : HandlerEnv) (s : ScanState) : Prop where
  returns : ∃ s', ifHandlerPost (ifHandlers env) s = some (.ok (), s')
  turns : ∀ pre e post, s.world.listed = pre ++ e :: post → ∃ t t',
    Prog.forEach pre (postTurn env) s = some (.ok (), t) ∧ postTurn env e t = some (.ok (), t') ∧
      PostTurn e t t'

theorem finishes_iff (env : HandlerEnv) {s : ScanState} (hs : Sound s) :
    Finishes env s ↔ ∀ e ∈ s.world.listed, PostNeeds s e := by
  have hall := postTurns_returnsIff env hs (List.append_nil s.world.listed).symm
  constructor
  · rintro ⟨⟨s', hrun⟩, -⟩
    rw [ifHandlerPost_eq] at hrun
    exact hall.needed () s' hrun
  · intro hneeds
    obtain ⟨_, s', hrun, -⟩ := hall.returns hneeds
    refine ⟨⟨s', (ifHandlerPost_eq env s).trans hrun⟩, fun pre e post hsplit => ?_⟩
    obtain ⟨t, t', hpre, hturn⟩ := Prog.forEach_reached hrun hsplit
    have hposted := (postTurns_returnsIff env hs hsplit).post hpre
    have hlisted : e ∈ t.world.listed := by
      rw [hposted.frame.listed, hsplit]
      simp
    exact ⟨t, t', hpre, hturn, (postTurn_returnsIff env hposted.sound hlisted).post hturn⟩

/-- What `netns_fill_list` makes of a scan is not lost: `master_resolve` returns, and resolves every
interface or warns of it, and when `if_handler_post` is reached, it returns too. -/
def NeverAborts (ovs : Openvswitch.OvsEnv) (env : HandlerEnv) (root : NsPtr)
    (answer : Option (Except CStr Json)) (s : ScanState) : Prop :=
  ∃ s₁, fillListResolve s = some (.ok (), s₁) ∧
    (matchAllNetnsid s.world).ResolvedUpTo (matchAllNetnsid s.world).listed s₁.world ∧
    ∀ s₂, onWorld (ovsGlobalPost ovs root answer) s₁ = some (.ok (), s₂) → Finishes env s₂

theorem fillListResolve_returns {s : ScanState} (h : Collected s.world) :
    Prog.Returns fillListResolve s fun _ s₁ =>
      (matchAllNetnsid s.world).ResolvedUpTo (matchAllNetnsid s.world).listed s₁.world := by
  have hscanned := h.scanned.frame h.frame
  unfold fillListResolve
  apply Prog.Returns.bind (modifyWorld_returns matchAllNetnsid)
  rintro _ _ rfl
  have hhomed : (matchAllNetnsid s.world).Homed :=
    ⟨hscanned.nsNodup, hscanned.nodup, hscanned.home⟩
  apply (onWorld_returns (masterResolve_returns hhomed)).weaken
  exact fun _ _ hresolved => hresolved.1

/-- The report of a scan is never lost exactly when every interface has what its post callbacks
need, whenever `if_handler_post` is reached. -/
theorem neverAborts_iff (ovs : Openvswitch.OvsEnv) (env : HandlerEnv) {root : NsPtr}
    {answer : Option (Except CStr Json)} {s : ScanState} (h : Collected s.world)
    (hroot : root ∈ s.world.nsList) (hid : Identified s) :
    NeverAborts ovs env root answer s ↔ ∀ s₁ s₂, fillListResolve s = some (.ok (), s₁) →
      onWorld (ovsGlobalPost ovs root answer) s₁ = some (.ok (), s₂) →
      ∀ e ∈ s₂.world.listed, PostNeeds s₂ e := by
  obtain ⟨_, s₁, hresolve, hresolved⟩ := fillListResolve_returns h
  have hsound : ∀ s₂, onWorld (ovsGlobalPost ovs root answer) s₁ = some (.ok (), s₂) →
      Sound s₂ := by
    intro s₂ hglobal
    obtain ⟨bridges, -, hposting⟩ := ovsGlobalPost_posting h hroot hresolve
      (fillMakes_any ovs env root answer s).join s₁ rfl _ s₂ hglobal
    exact h.sound hid hroot hposting.run hposting.priv
  constructor
  · rintro ⟨s₁', hresolve', -, hfinishes⟩ s₃ s₂ hresolve₃ hglobal
    rw [hresolve₃] at hresolve'
    obtain ⟨-, rfl⟩ := Prod.mk.inj (Option.some.inj hresolve')
    rw [hresolve₃] at hresolve
    obtain ⟨-, rfl⟩ := Prod.mk.inj (Option.some.inj hresolve)
    exact (finishes_iff env (hsound s₂ hglobal)).mp (hfinishes s₂ hglobal)
  · intro hneeds
    refine ⟨s₁, hresolve, hresolved, fun s₂ hglobal => ?_⟩
    exact (finishes_iff env (hsound s₂ hglobal)).mpr (hneeds s₁ s₂ hresolve hglobal)

def loneVeth (peerIndex : UInt32) : ScanState where
  world :=
    { ifs := fun _ =>
        { ifName := cstr "veth0", ifIndex := 2, driver := some (cstr "veth"), peerIndex := peerIndex }
      nss := fun _ => { ifaces := [0] }
      nsList := [0]
      free := [] }
  priv := fun _ => .unset

theorem loneVeth_collected (peerIndex : UInt32) : Collected (loneVeth peerIndex).world := by
  have hone : ([0] : List Nat).Nodup := List.nodup_singleton 0
  have hscanned : (loneVeth peerIndex).world.Scanned := by
    refine ⟨hone, hone, fun n hn e _ => ?_, fun _ _ i hi => absurd hi List.not_mem_nil,
      fun _ _ _ ha => absurd ha List.not_mem_nil, fun e he => absurd he List.not_mem_nil,
      List.nodup_nil⟩
    show (0 : NsPtr) = n
    exact (List.mem_singleton.mp hn).symm
  have hentries : ∀ e, (loneVeth peerIndex).world.ifs e ∈ [(loneVeth peerIndex).world.ifs 0] :=
    fun _ => List.mem_cons_self
  apply Collected.of_entries hscanned hentries
  intro x hx
  rw [List.mem_singleton] at hx
  subst hx
  exact ⟨⟨rfl, rfl, rfl, rfl⟩, ⟨rfl, rfl, rfl⟩, rfl⟩

theorem loneVeth_identified (peerIndex : UInt32) : Identified (loneVeth peerIndex) :=
  ⟨fun _ _ => Option.some_ne_none _, fun _ _ => by show (2 : UInt32) ≠ 0; decide,
    fun _ _ _ hdata => by cases hdata⟩

/-- A peer that is nowhere is only warned of. -/
theorem neverAborts_loneVeth : NeverAborts default plainEnv 0 none (loneVeth 7) := by
  apply (neverAborts_iff default plainEnv (loneVeth_collected 7) List.mem_cons_self
    (loneVeth_identified 7)).mpr
  intro s₁ s₂ hresolve hglobal e he
  obtain ⟨s, hrun, hends⟩ : ∃ s, fillListResolve (loneVeth 7) = some (.ok (), s) ∧
      decide (s.world.listed = [0] ∧ (s.world.ifs 0).driver = some (cstr "veth") ∧
        (s.world.ifs 0).peerIndex = 7) = true := exists_of_ends (by decide +kernel)
  obtain ⟨hlisted, hdriver, hindex⟩ := of_decide_eq_true hends
  rw [hresolve] at hrun
  obtain ⟨-, rfl⟩ := Prod.mk.inj (Option.some.inj hrun)
  -- without a reply nothing happens in between
  obtain ⟨-, rfl⟩ := Prod.mk.inj (Option.some.inj hglobal)
  have he : e ∈ s₁.world.listed := he
  rw [hlisted, List.mem_singleton] at he
  subst he
  apply (postNeeds_veth hdriver).mpr
  intro _ hzero
  have hzero : (s₁.world.ifs 0).peerIndex = 0 := hzero
  rw [hindex] at hzero
  exact absurd hzero (by decide)

def givesUp (r : Option (Except Stop Unit × ScanState)) : Bool :=
  match r with
  | some (.error (.err code), _) => code = ENOENT
  | _ => false

/-- When the driver does not tell the index of the peer either, everything is lost. -/
theorem loneVeth_aborts : ¬ ∀ (ovs : Openvswitch.OvsEnv) (env : HandlerEnv) (root : NsPtr)
    (answer : Option (Except CStr Json)) (s : ScanState), Collected s.world →
      root ∈ s.world.nsList → Identified s → NeverAborts ovs env root answer s := by
  intro h
  obtain ⟨s₁, hresolve, -, hfinishes⟩ := h default plainEnv 0 none (loneVeth 0)
    (loneVeth_collected 0) List.mem_cons_self (loneVeth_identified 0)
  have hglobal : onWorld (ovsGlobalPost default 0 none) s₁ = some (.ok (), s₁) := rfl
  obtain ⟨s', hpost⟩ := (hfinishes s₁ hglobal).returns
  have hrun : fillListPost default plainEnv 0 none (loneVeth 0) = some (.ok (), s') := by
    unfold fillListPost
    rw [Prog.bind_ok _ hresolve, Prog.bind_ok _ hglobal, hpost]
  have hgives : givesUp (fillListPost default plainEnv 0 none (loneVeth 0)) = true := by
    decide +kernel
  rw [hrun] at hgives
  cases hgives

end Plotnetcfg.Handlers
