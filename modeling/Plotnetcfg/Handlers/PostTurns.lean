import Plotnetcfg.Handlers.Collected
import Plotnetcfg.Handlers.FillList
import Plotnetcfg.Handlers.PrivateUse

/-! The turn of one interface in `if_handler_post`: when its post callbacks return, and that a
partner that they do not find comes to a warning of this interface. -/

namespace Plotnetcfg.Handlers

/-! ## What a turn does -/

structure Warns (e : IfPtr) (warnings : List CStr) (w w' : World) : Prop where
  listed : ∀ n, (w'.nss n).warnings =
    (w.nss n).warnings ++ if n = (w.ifs e).ns then warnings else []
  counted : ∀ x, (w'.ifs x).warnings =
    (w.ifs x).warnings + if x = e then warnings.length else 0

/-- What the callbacks of `e` leave alone, and that `e` gets `n` warnings. `acts` says that they
may choose the active slave. -/
structure Turned (e : IfPtr) (acts : Prop) (n : Nat) (s s' : ScanState) : Prop where
  priv : s'.priv = s.priv
  frame : s.world.Frame s'.world
  kept : ∀ x, (s'.world.ifs x).unrelated = (s.world.ifs x).unrelated
  revMaster : ∀ x, (s'.world.ifs x).revMaster = (s.world.ifs x).revMaster
  activeSlave : ∀ x, ¬ (x = e ∧ acts) →
    (s'.world.ifs x).activeSlave = (s.world.ifs x).activeSlave
  warned : ∃ warnings, Warns e warnings s.world s'.world ∧ warnings.length = n

structure Quiet (e : IfPtr) (acts : Prop) (s s' : ScanState) : Prop extends
    Turned e acts 0 s s' where
  peers : s'.world.peers = s.world.peers
  physfn : ∀ x, (s'.world.ifs x).physfn = (s.world.ifs x).physfn

section
variable {e : IfPtr} {acts acts' : Prop} {n m : Nat} {s s' s'' : ScanState}

theorem warns_nil (e : IfPtr) {w w' : World} (hnss : ∀ n, (w'.nss n).warnings = (w.nss n).warnings)
    (hifs : ∀ x, (w'.ifs x).warnings = (w.ifs x).warnings) : Warns e [] w w' := by
  refine ⟨fun n => ?_, fun x => ?_⟩
  · rw [hnss]
    split_ifs <;> simp
  · rw [hifs]
    split_ifs <;> simp

theorem ifAddWarning_warns (e : IfPtr) (text : CStr) (w : World) :
    Warns e [ifstr w e ++ cstr ": " ++ text] w (ifAddWarning e text w) := by
  refine ⟨fun n => ?_, fun x => ?_⟩
  · unfold ifAddWarning
    rw [World.modifyNs_nss]
    split_ifs with hn
    · subst hn
      rfl
    · simp
  · rw [ifAddWarning_ifs]
    split_ifs
    · rfl
    · simp

theorem Turned.refl (e : IfPtr) (acts : Prop) (s : ScanState) : Turned e acts 0 s s :=
  ⟨rfl, .refl _, fun _ => rfl, fun _ => rfl, fun _ _ => rfl,
    [], warns_nil e (fun _ => rfl) fun _ => rfl, rfl⟩

theorem Turned.trans (h : Turned e acts n s s') (h' : Turned e acts m s' s'') :
    Turned e acts (n + m) s s'' where
  priv := h'.priv.trans h.priv
  frame := h.frame.trans h'.frame
  kept x := (h'.kept x).trans (h.kept x)
  revMaster x := (h'.revMaster x).trans (h.revMaster x)
  activeSlave x hx := (h'.activeSlave x hx).trans (h.activeSlave x hx)
  warned := by
    obtain ⟨ws, hws, hlen⟩ := h.warned
    obtain ⟨ws', hws', hlen'⟩ := h'.warned
    have hns : (s'.world.ifs e).ns = (s.world.ifs e).ns := (h.frame.kept e).ns
    refine ⟨ws ++ ws', ⟨fun k => ?_, fun x => ?_⟩, by rw [List.length_append, hlen, hlen']⟩
    · rw [hws'.listed, hws.listed, hns]
      split_ifs <;> simp
    · rw [hws'.counted, hws.counted]
      split_ifs <;> simp [Nat.add_assoc]

theorem Turned.mono (h : Turned e acts n s s') (hacts : acts → acts') : Turned e acts' n s s' :=
  { h with activeSlave := fun x hx => h.activeSlave x fun hand => hx ⟨hand.1, hacts hand.2⟩ }

theorem Quiet.refl (e : IfPtr) (acts : Prop) (s : ScanState) : Quiet e acts s s :=
  ⟨.refl e acts s, rfl, fun _ => rfl⟩

theorem Quiet.trans (h : Quiet e acts s s') (h' : Quiet e acts s' s'') : Quiet e acts s s'' :=
  ⟨h.toTurned.trans h'.toTurned, h'.peers.trans h.peers,
    fun x => (h'.physfn x).trans (h.physfn x)⟩

theorem Quiet.mono (h : Quiet e acts s s') (hacts : acts → acts') : Quiet e acts' s s' :=
  ⟨h.toTurned.mono hacts, h.peers, h.physfn⟩

theorem quiet_modifyIf (s : ScanState) (x : IfPtr) {f : IfEntry → IfEntry}
    (hf : ∀ y, (f y).unlabelled = y.unlabelled) (hwarnings : ∀ y, (f y).warnings = y.warnings)
    (hactive : x = e ∧ acts ∨ ∀ y, (f y).activeSlave = y.activeSlave) :
    Quiet e acts s { s with world := s.world.modifyIf x f } := by
  have hkeep : ∀ {α : Type} (field : IfEntry → α), (∀ y, field y.unlabelled = field y) → ∀ z,
      field ((s.world.modifyIf x f).ifs z) = field (s.world.ifs z) :=
    fun field hfield z => label_field field hfield hf x z s.world
  have hkept : ∀ y : IfEntry, y.Kept (f y) := by
    intro y
    have hy := kept_of_unrelated (IfEntry.unrelated_of_unlabelled (hf y))
    exact hy
  have hwarned : Warns e [] s.world (s.world.modifyIf x f) :=
    warns_nil e (fun _ => rfl) fun z => modifyIf_field IfEntry.warnings hwarnings x z s.world
  refine ⟨⟨rfl, .modifyIf s.world x hkept, fun z => ?_, hkeep IfEntry.revMaster fun _ => rfl,
    fun z hz => ?_, [], hwarned, rfl⟩, funext (hkeep IfEntry.peer fun _ => rfl),
    hkeep IfEntry.physfn fun _ => rfl⟩
  · exact modifyIf_unrelated (fun y => IfEntry.unrelated_of_unlabelled (hf y)) x z s.world
  · rcases hactive with ⟨rfl, hacts⟩ | hsame
    · show ((s.world.modifyIf x f).ifs z).activeSlave = _
      rw [World.modifyIf_ifs, if_neg fun hzx => hz ⟨hzx, hacts⟩]
    · exact modifyIf_field IfEntry.activeSlave hsame x z s.world

theorem quiet_linkSet (s : ScanState) (e found x : IfPtr) (acts : Prop) :
    Quiet e acts s { s with world := linkSet (some found) (some x) s.world } := by
  have hifs := fun z => linkSet_ifs s.world z (some found) (some x)
  have hnss : (linkSet (some found) (some x) s.world).nss = s.world.nss :=
    (linkSet_lists s.world _ _).1
  have hwarned : Warns e [] s.world (linkSet (some found) (some x) s.world) := by
    apply warns_nil
    · intro n
      rw [hnss]
    · intro z
      obtain ⟨l, rev, h⟩ := hifs z
      rw [h]
  have hframe := linkSet_frame s.world (some found) (some x)
  have hpeers : (linkSet (some found) (some x) s.world).peers = s.world.peers :=
    funext fun z => linkSet_peer s.world z (some found) (some x)
  refine ⟨⟨rfl, hframe, fun z => ?_, fun z => ?_, fun z _ => ?_, [], hwarned, rfl⟩, hpeers,
    fun z => ?_⟩
  · exact upperSet_ifs .link (some found) x z s.world
  · exact (linkSet_master s.world z (some found) x).2
  · obtain ⟨l, rev, h⟩ := hifs z
    dsimp only
    rw [h]
  · obtain ⟨l, rev, h⟩ := hifs z
    dsimp only
    rw [h]

/-- What the searches of the callbacks rely on. -/
structure Sound (s : ScanState) : Prop where
  scanned : s.world.Scanned
  netns : ∀ e ∈ s.world.listed,
    (s.world.ifs e).linkNet.getD (s.world.ifs e).ns ∈ s.world.nsList
  bytes : ∀ e ∈ s.world.listed, (s.world.ifs e).driver ≠ none → ∀ data,
    blockAddr (s.priv e) = some data → data.raw.isSome = true
  driverless : ∀ e ∈ s.world.listed, (s.world.ifs e).driver = none → (s.world.ifs e).ifIndex = 0
  indexed : ∀ e ∈ s.world.listed, (s.world.ifs e).driver = some (cstr "veth") →
    (s.world.ifs e).ifIndex ≠ 0
  symmetric : Matching.Symmetric s.world.peers

theorem Turned.field {α : Type} (h : Turned e acts n s s') (field : IfEntry → α)
    (hfield : ∀ y, field y.unrelated = field y) (x : IfPtr) :
    field (s'.world.ifs x) = field (s.world.ifs x) := by
  rw [← hfield, h.kept, hfield]

theorem Sound.turned (hs : Sound s) (h : Turned e acts n s s')
    (hsymmetric : Matching.Symmetric s'.world.peers) : Sound s' where
  scanned := hs.scanned.frame h.frame
  netns x hx := by
    rw [h.frame.listed] at hx
    rw [h.field IfEntry.linkNet fun _ => rfl, h.field IfEntry.ns fun _ => rfl, h.frame.nsList]
    exact hs.netns x hx
  bytes x hx := by
    rw [h.frame.listed] at hx
    rw [h.field IfEntry.driver fun _ => rfl, h.priv]
    exact hs.bytes x hx
  driverless x hx := by
    rw [h.frame.listed] at hx
    rw [h.field IfEntry.driver fun _ => rfl, h.field IfEntry.ifIndex fun _ => rfl]
    exact hs.driverless x hx
  indexed x hx := by
    rw [h.frame.listed] at hx
    rw [h.field IfEntry.driver fun _ => rfl, h.field IfEntry.ifIndex fun _ => rfl]
    exact hs.indexed x hx
  symmetric := hsymmetric

theorem Sound.quiet (hs : Sound s) (h : Quiet e acts s s') : Sound s' := by
  apply hs.turned h.toTurned
  rw [h.peers]
  exact hs.symmetric

end

/-! ## What the callbacks need -/

/-- What the post callbacks of `e` need to return: a virtual ethernet device without peer has the
index of one, the block is that of the driver, and the active port of a team with slaves is a
string. -/
structure PostNeeds (s : ScanState) (e : IfPtr) : Prop where
  veth : (s.world.ifs e).driver = some (cstr "veth") → (s.world.ifs e).peer = none →
    (s.world.ifs e).peerIndex ≠ 0
  bond : (s.world.ifs e).driver = some (cstr "bonding") → ∃ priv, s.priv e = .live (.bond priv)
  team : (s.world.ifs e).driver = some (cstr "team") → (s.world.ifs e).activeSlave = none →
    ∃ port, s.priv e = .live (.team port) ∧
      ∀ jport, port = some jport → (s.world.ifs e).revMaster ≠ [] →
        (jsonStringValue (some jport)).isSome = true
  vxlan : (s.world.ifs e).driver = some (cstr "vxlan") → ∃ priv, s.priv e = .live (.vxlan priv)
  tunnel : ∀ d ∈ tunnelDrivers, (s.world.ifs e).driver = some d →
    ∃ addr, s.priv e = .live (.tunnel addr)

section
variable {e : IfPtr} {s s' : ScanState}

theorem derefPrivate_returnsIff {α : Type} (view : Private → Option α) :
    Prog.ReturnsIff (derefPrivate view e) s
      (∃ priv a, s.priv e = .live priv ∧ view priv = some a)
      fun a s' => (∃ priv, s.priv e = .live priv ∧ view priv = some a) ∧ s' = s := by
  constructor
  · rintro ⟨priv, a, hlive, hview⟩
    apply (derefPrivate_returns hlive hview).weaken
    rintro _ s' ⟨rfl, rfl⟩
    exact ⟨⟨priv, hlive, hview⟩, rfl⟩
  · intro a s' hrun
    have hget : (Prog.get : HandlerProg ScanState) s = some (.ok s, s) := rfl
    rw [derefPrivate, Prog.bind_ok s hget] at hrun
    cases hblock : s.priv e with
    | unset =>
      rw [hblock] at hrun
      cases hrun
    | released =>
      rw [hblock] at hrun
      cases hrun
    | live priv =>
      rw [hblock] at hrun
      dsimp only at hrun
      cases hview : view priv with
      | none =>
        rw [hview] at hrun
        cases hrun
      | some b => exact ⟨priv, b, rfl, hview⟩

theorem addConfig_quiet (acts : Prop) (key value : CStr) :
    Prog.Returns (addConfig e key value) s fun _ s' => Quiet e acts s s' := by
  apply (modifyWorld_returns _).weaken
  rintro _ _ rfl
  exact quiet_modifyIf s e (fun _ => rfl) (fun _ => rfl) (.inr fun _ => rfl)

theorem markSlave_quiet (slave : IfPtr) (key : CStr) (active : Bool) :
    Quiet e True s { s with world := markSlave e slave key active s.world } := by
  unfold markSlave
  split_ifs
  · have hactive : Quiet e True s { s with
        world := s.world.modifyIf e fun x => { x with activeSlave := some slave } } :=
      quiet_modifyIf s e (fun _ => rfl) (fun _ => rfl) (.inl ⟨rfl, trivial⟩)
    exact hactive.trans (quiet_modifyIf _ e (fun _ => rfl) (fun _ => rfl) (.inr fun _ => rfl))
  · exact quiet_modifyIf s slave (fun _ => rfl) (fun _ => rfl) (.inr fun _ => rfl)

theorem bondPost_returnsIff : Prog.ReturnsIff (bondPost e) s
    (∃ priv, s.priv e = .live (.bond priv)) fun _ s' => Quiet e True s s' := by
  have hblock : (∃ priv a, s.priv e = .live priv ∧ bondPriv priv = some a) ↔
      ∃ priv, s.priv e = .live (.bond priv) := by
    constructor
    · rintro ⟨priv, a, hlive, hview⟩
      cases priv with
      | bond priv => exact ⟨priv, hlive⟩
      | _ => cases hview
    · rintro ⟨priv, hlive⟩
      exact ⟨_, priv, hlive, rfl⟩
  unfold bondPost
  apply (Prog.ReturnsIff.bind_returns (derefPrivate_returnsIff bondPriv) ?_).congr hblock
  rintro priv s₀ ⟨-, hs₀⟩
  rw [hs₀]
  have hlabel : Prog.Returns (withSome (bondModeLabel priv) (addConfig e (cstr "mode"))) s
      fun _ s' => Quiet e True s s' :=
    withSome_returns (fun _ _ => addConfig_quiet True _ _) (.refl e True s)
  apply Prog.Returns.bind hlabel
  intro _ s₁ h₁
  split_ifs
  · have hmark : ∀ slave ∈ (s₁.world.ifs e).revMaster, ∀ s₂, Quiet e True s s₂ →
        Prog.Returns (do
          let s ← Prog.get
          modifyWorld (markSlave e slave (cstr "active slave")
            (matchActiveSlave priv (s.world.ifs slave)))) s₂ fun _ s' => Quiet e True s s' := by
      intro slave _ s₂ h₂
      apply Prog.Returns.bind (Q := fun _ s' => s' = s₂) ⟨s₂, s₂, rfl, rfl⟩
      rintro s₃ _ rfl
      apply (modifyWorld_returns _).weaken
      rintro _ _ rfl
      exact h₂.trans (markSlave_quiet slave _ _)
    have hloop := Prog.Returns.forEach hmark h₁
    obtain ⟨_, s₂, hrun, h₂⟩ := hloop
    exact ⟨_, s₂, hrun, h₂⟩
  · exact Prog.Returns.pure h₁

theorem teamPost_returnsIff : Prog.ReturnsIff (teamPost e) s
    ((s.world.ifs e).activeSlave = none → ∃ port, s.priv e = .live (.team port) ∧
      ∀ jport, port = some jport → (s.world.ifs e).revMaster ≠ [] →
        (jsonStringValue (some jport)).isSome = true) fun _ s' => Quiet e True s s' := by
  unfold teamPost
  apply Prog.ReturnsIff.get_bind
  split_ifs with hactive
  · have hsome : (s.world.ifs e).activeSlave ≠ none := Option.isSome_iff_ne_none.mp hactive
    exact Prog.ReturnsIff.pure (fun hnone => absurd hnone hsome) (Quiet.refl e True s)
  have hnone : (s.world.ifs e).activeSlave = none := Option.not_isSome_iff_eq_none.mp hactive
  -- the slaves are marked if the name of the active port can be read
  have hmark : ∀ port : Option Json, Prog.ReturnsIff (withSome port fun jport =>
      Prog.forEach (s.world.ifs e).revMaster fun slave => do
        let s ← Prog.get
        let activeName ← Prog.deref (jsonStringValue (some jport))
        modifyWorld (markSlave e slave (cstr "active port")
          ((s.world.ifs slave).ifName = activeName))) s
      (∀ jport, port = some jport → (s.world.ifs e).revMaster ≠ [] →
        (jsonStringValue (some jport)).isSome = true) fun _ s' => Quiet e True s s' := by
    intro port
    cases port with
    | none => exact Prog.ReturnsIff.pure nofun (Quiet.refl e True s)
    | some jport =>
      have hloop := Prog.ReturnsIff.forEach (s := s) (I := fun _ s' => Quiet e True s s')
        (l := (s.world.ifs e).revMaster)
        (C := fun _ => (jsonStringValue (some jport)).isSome = true)
        (f := fun slave => do
          let s ← Prog.get
          let activeName ← Prog.deref (jsonStringValue (some jport))
          modifyWorld (markSlave e slave (cstr "active port")
            ((s.world.ifs slave).ifName = activeName))) ?_ (Quiet.refl e True s)
      · apply hloop.congr
        constructor
        · intro h _ hjport hne
          obtain rfl := Option.some.inj hjport
          obtain ⟨slave, hslave⟩ := List.exists_mem_of_ne_nil _ hne
          exact h slave hslave
        · intro h slave hslave
          exact h jport rfl (List.ne_nil_of_mem hslave)
      · intro _ slave _ s₁ _ h₁
        apply Prog.ReturnsIff.get_bind
        apply Prog.ReturnsIff.bind_returns (Prog.ReturnsIff.deref _)
        rintro activeName _ ⟨-, rfl⟩
        apply (modifyWorld_returns _).weaken
        rintro _ _ rfl
        exact h₁.trans (markSlave_quiet slave _ _)
  have hblock : ((∃ priv a, s.priv e = .live priv ∧ teamPriv priv = some a) ∧
      ∀ port, s.priv e = .live (.team port) → ∀ jport, port = some jport →
        (s.world.ifs e).revMaster ≠ [] → (jsonStringValue (some jport)).isSome = true) ↔
      ((s.world.ifs e).activeSlave = none → ∃ port, s.priv e = .live (.team port) ∧
        ∀ jport, port = some jport → (s.world.ifs e).revMaster ≠ [] →
          (jsonStringValue (some jport)).isSome = true) := by
    constructor
    · rintro ⟨⟨priv, a, hlive, hview⟩, hstring⟩ -
      cases priv with
      | team port => exact ⟨port, hlive, hstring port hlive⟩
      | _ => cases hview
    · intro h
      obtain ⟨port, hlive, hstring⟩ := h hnone
      refine ⟨⟨_, port, hlive, rfl⟩, fun port' hlive' => ?_⟩
      rw [hlive] at hlive'
      obtain rfl := Private.team.inj (Block.live.inj hlive')
      exact hstring
  apply (Prog.ReturnsIff.bind (derefPrivate_returnsIff teamPriv) ?_).congr hblock
  rintro port s₀ ⟨⟨priv, hlive, hview⟩, hs₀⟩
  rw [hs₀]
  cases priv with
  | team port' =>
    obtain rfl := Option.some.inj hview
    apply (hmark port').congr
    constructor
    · intro h port hport
      rw [hlive] at hport
      obtain rfl := Private.team.inj (Block.live.inj hport)
      exact h
    · exact fun h => h port' hlive
  | _ => cases hview

theorem linkLocal_quiet (hs : Sound s) (he : e ∈ s.world.listed) {data : Addr}
    (hdata : data.raw.isSome = true) :
    Prog.Returns (linkLocal e data) s fun _ s' => Quiet e False s s' := by
  unfold linkLocal
  apply Prog.Returns.get_bind
  have haddr : ∀ x ∈ (s.world.nss ((s.world.ifs e).linkNet.getD (s.world.ifs e).ns)).ifaces,
      ∀ a ∈ (s.world.ifs x).addr, a.addr.raw.isSome = true :=
    fun x hx => hs.scanned.addr x (World.mem_listed.mpr ⟨_, hs.netns e he, hx⟩)
  have hfind := (safe_tunnelFindAddr hdata haddr).exists_ok (tunnelFindAddr_holder data _) rfl
  apply Prog.Returns.bind (onWorld_returns hfind)
  rintro found s₁ ⟨⟨-, hworld⟩, hs₁⟩
  have hsame : s₁ = s := by
    rw [hs₁, hworld]
  rw [hsame]
  apply withSome_returns
  · intro ife _
    apply Prog.Returns.bind (modifyWorld_returns _)
    intro _ s₂ hs₂
    have hlinked : Quiet e False s s₂ := by
      rw [hs₂]
      exact quiet_linkSet s e ife e False
    apply (modifyWorld_returns _).weaken
    rintro _ _ rfl
    exact hlinked.trans (quiet_modifyIf s₂ e (fun _ => rfl) (fun _ => rfl) (.inr fun _ => rfl))
  · exact .refl e False s

theorem tunnelPost_returnsIff (hs : Sound s) (he : e ∈ s.world.listed)
    (hdriver : (s.world.ifs e).driver ≠ none) :
    Prog.ReturnsIff (tunnelPost e) s (∃ addr, s.priv e = .live (.tunnel addr))
      fun _ s' => Quiet e False s s' := by
  have hblock : (∃ priv a, s.priv e = .live priv ∧ tunnelPriv priv = some a) ↔
      ∃ addr, s.priv e = .live (.tunnel addr) := by
    constructor
    · rintro ⟨priv, a, hlive, hview⟩
      cases priv with
      | tunnel addr => exact ⟨addr, hlive⟩
      | _ => cases hview
    · rintro ⟨addr, hlive⟩
      exact ⟨_, addr, hlive, rfl⟩
  unfold tunnelPost
  apply (Prog.ReturnsIff.bind_returns (derefPrivate_returnsIff tunnelPriv) ?_).congr hblock
  rintro addr s₀ ⟨⟨priv, hlive, hview⟩, hs₀⟩
  rw [hs₀]
  split_ifs with hfamily
  · apply linkLocal_quiet hs he
    apply hs.bytes e he hdriver
    cases priv with
    | tunnel addr' =>
      obtain rfl := Option.some.inj hview
      rw [hlive]
      exact if_pos hfamily
    | _ => cases hview
  · exact Prog.Returns.pure (.refl e False s)

theorem vxlanPost_returnsIff (hs : Sound s) (he : e ∈ s.world.listed)
    (hdriver : (s.world.ifs e).driver ≠ none) :
    Prog.ReturnsIff (vxlanPost e) s (∃ priv, s.priv e = .live (.vxlan priv))
      fun _ s' => Quiet e False s s' := by
  have hblock : (∃ priv a, s.priv e = .live priv ∧ vxlanPriv priv = some a) ↔
      ∃ priv, s.priv e = .live (.vxlan priv) := by
    constructor
    · rintro ⟨priv, a, hlive, hview⟩
      cases priv with
      | vxlan priv => exact ⟨priv, hlive⟩
      | _ => cases hview
    · rintro ⟨priv, hlive⟩
      exact ⟨_, priv, hlive, rfl⟩
  unfold vxlanPost
  apply (Prog.ReturnsIff.bind_returns (derefPrivate_returnsIff vxlanPriv) ?_).congr hblock
  rintro vxlan s₀ ⟨⟨priv, hlive, hview⟩, hs₀⟩
  rw [hs₀]
  have haddr : blockAddr (s.priv e) = vxlan.localAddr := by
    cases priv with
    | vxlan v =>
      obtain rfl := Option.some.inj hview
      rw [hlive]
      rfl
    | _ => cases hview
  apply Prog.Returns.bind (Q := fun _ s' => Quiet e False s s')
  · apply withSome_returns
    · intro localAddr hlocal
      apply Prog.Returns.bind (addConfig_quiet False _ _)
      intro _ s₁ h₁
      have he₁ : e ∈ s₁.world.listed := by rwa [h₁.frame.listed]
      have hdata := hs.bytes e he hdriver localAddr (haddr.trans hlocal)
      apply (linkLocal_quiet (hs.quiet h₁) he₁ hdata).weaken
      exact fun _ _ h₂ => h₁.trans h₂
    · exact .refl e False s
  · intro _ s₁ h₁
    apply withSome_returns
    · intro group _
      apply (addConfig_quiet False _ _).weaken
      exact fun _ _ h₂ => h₁.trans h₂
    · exact h₁

end

/-! ## The callbacks that look for a partner -/

def MissesPhysfn (e : IfPtr) (w w' : World) : Prop :=
  (w.ifs e).physfn = none ∧ (w.ifs e).pciPhysfnPath ≠ none ∧ (w'.ifs e).physfn = none

instance (e : IfPtr) (w w' : World) : Decidable (MissesPhysfn e w w') :=
  inferInstanceAs (Decidable (_ ∧ _ ∧ _))

def MissesPeer (e : IfPtr) (w w' : World) : Prop :=
  (w.ifs e).driver = some (cstr "veth") ∧ (w.ifs e).peer = none ∧ (w'.ifs e).peer = none

instance (e : IfPtr) (w w' : World) : Decidable (MissesPeer e w w') :=
  inferInstanceAs (Decidable (_ ∧ _ ∧ _))

def physfnMisses (e : IfPtr) (w w' : World) : Nat := if MissesPhysfn e w w' then 1 else 0

def peerMisses (e : IfPtr) (w w' : World) : Nat := if MissesPeer e w w' then 1 else 0

section
variable {e : IfPtr} {s : ScanState}

theorem turned_addWarning (s : ScanState) (e : IfPtr) (text : CStr) :
    Turned e False 1 s { s with world := ifAddWarning e text s.world } := by
  have hifs : ∀ {α : Type} (field : IfEntry → α),
      (∀ (y : IfEntry) n, field { y with warnings := n } = field y) → ∀ x,
      field ((ifAddWarning e text s.world).ifs x) = field (s.world.ifs x) := by
    intro α field hfield x
    rw [ifAddWarning_ifs]
    split_ifs
    · exact hfield _ _
    · rfl
  exact ⟨rfl, ifAddWarning_frame e text s.world, hifs IfEntry.unrelated fun _ _ => rfl,
    hifs IfEntry.revMaster fun _ _ => rfl, fun x _ => hifs IfEntry.activeSlave (fun _ _ => rfl) x,
    _, ifAddWarning_warns e text s.world, rfl⟩

theorem turned_physfn (s : ScanState) (e : IfPtr) (found : Option IfPtr) {w' : World}
    (hw' : w' = s.world.modifyIf e fun x => { x with physfn := found }) :
    Turned e False 0 s { s with world := w' } ∧ w'.peers = s.world.peers ∧
      (w'.ifs e).physfn = found := by
  have hkeep : ∀ {α : Type} (field : IfEntry → α),
      (∀ y : IfEntry, field { y with physfn := found } = field y) → ∀ x,
      field (w'.ifs x) = field (s.world.ifs x) := by
    intro α field hfield x
    rw [hw']
    exact modifyIf_field field hfield e x s.world
  have hframe : s.world.Frame w' := by
    rw [hw']
    exact .modifyIf s.world e fun _ => ⟨rfl, rfl, rfl, rfl⟩
  have hnss : w'.nss = s.world.nss := by
    rw [hw']
    rfl
  have hwarned : Warns e [] s.world w' :=
    warns_nil e (fun n => by rw [hnss]) (hkeep IfEntry.warnings fun _ => rfl)
  refine ⟨⟨rfl, hframe, hkeep IfEntry.unrelated fun _ => rfl, hkeep IfEntry.revMaster fun _ => rfl,
    fun x _ => hkeep IfEntry.activeSlave (fun _ => rfl) x, [], hwarned, rfl⟩,
    funext (hkeep IfEntry.peer fun _ => rfl), ?_⟩
  rw [hw', World.modifyIf_ifs, if_pos rfl]

def physfnScore (e : IfPtr) (w : World) (x : IfPtr) : Int :=
  if (w.ifs x).pciPath.isSome ∧ (w.ifs x).pciPath = (w.ifs e).pciPhysfnPath then 1 else 0

theorem physfnScore_le (e : IfPtr) (w : World) (x : IfPtr) :
    0 ≤ physfnScore e w x ∧ physfnScore e w x ≤ 1 := by
  unfold physfnScore
  split_ifs <;> decide

theorem matchPhysfn_scores (e : IfPtr) (w : World) :
    Scores (matchPhysfn e) w (physfnScore e w) := by
  intro x
  unfold physfnScore
  show (if (w.ifs x).pciPath.isSome ∧ (w.ifs x).pciPath = (w.ifs e).pciPhysfnPath then
    (pure 1 : Prog Int World Int) else pure 0) w = some (.ok (if (w.ifs x).pciPath.isSome ∧
      (w.ifs x).pciPath = (w.ifs e).pciPhysfnPath then 1 else 0), w)
  split_ifs <;> rfl

theorem iovPost_returns : Prog.Returns (iovPost e) s fun _ s' =>
    Turned e False (physfnMisses e s.world s'.world) s s' ∧ s'.world.peers = s.world.peers := by
  unfold iovPost
  apply Prog.Returns.get_bind
  dsimp only
  split_ifs with hdone
  · apply Prog.Returns.pure
    have hquiet : ¬ MissesPhysfn e s.world s.world := by
      rintro ⟨hnone, hpath, -⟩
      rcases hdone with hsome | hdone
      · rw [hnone] at hsome
        cases hsome
      · exact hpath hdone
    rw [physfnMisses, if_neg hquiet]
    exact ⟨.refl e False s, rfl⟩
  rw [not_or, Option.not_isSome_iff_eq_none] at hdone
  obtain ⟨desc, hsearch, -⟩ := matchIf_find (matchPhysfn_scores e s.world)
    (physfnScore_le e s.world)
    (show MatchDesc.Initialised
      { mode := .first, netnsList := some s.world.nsList, exclude := some e } from ⟨rfl, nofun⟩) rfl
  have hreturns : Prog.Returns (matchIf
      { mode := .first, netnsList := some s.world.nsList, exclude := some e } (matchPhysfn e))
      s.world fun _ w => w = s.world := ⟨desc, _, hsearch, rfl⟩
  apply Prog.Returns.bind (onWorld_returns hreturns)
  rintro d s₁ ⟨hworld, hs₁⟩
  have hsame : s₁ = s := by
    rw [hs₁, hworld]
  rw [hsame]
  apply Prog.Returns.bind (modifyWorld_returns _)
  intro _ s₂ hs₂
  have hworld₂ := congrArg ScanState.world hs₂
  obtain ⟨hset, hpeers, hphysfn⟩ := turned_physfn s e (matchFound d) hworld₂
  have hstate : s₂ = { s with world := s₂.world } := by
    rw [hs₂]
  rw [← hstate] at hset
  split_ifs with hfound
  · have hfound := Option.isNone_iff_eq_none.mp hfound
    apply (modifyWorld_returns _).weaken
    rintro _ _ rfl
    have hmissed : MissesPhysfn e s.world
        (ifAddWarning e (cstr "failed to find the iov physfn") s₂.world) := by
      refine ⟨hdone.1, hdone.2, ?_⟩
      rw [ifAddWarning_ifs, if_pos rfl]
      exact hphysfn.trans hfound
    rw [physfnMisses, if_pos hmissed]
    exact ⟨hset.trans (turned_addWarning s₂ e _), (ifAddWarning_ends _ e _).2.trans hpeers⟩
  · apply Prog.Returns.pure
    have hmissed : ¬ MissesPhysfn e s.world s₂.world := by
      rintro ⟨-, -, hnone⟩
      rw [hphysfn] at hnone
      exact hfound (Option.isNone_iff_eq_none.mpr hnone)
    rw [physfnMisses, if_neg hmissed]
    exact ⟨hset, hpeers⟩

theorem turned_peerSet (s : ScanState) (e found : IfPtr) :
    Turned e False 0 s { s with world := peerSet (some e) (some found) s.world } ∧
      ∀ x, ((peerSet (some e) (some found) s.world).ifs x).physfn = (s.world.ifs x).physfn := by
  have hkeep : ∀ {α : Type} (field : IfEntry → α),
      (∀ (y : IfEntry) p, field { y with peer := p } = field y) → ∀ x,
      field ((peerSet (some e) (some found) s.world).ifs x) = field (s.world.ifs x) := by
    intro α field hfield x
    obtain ⟨p, hp⟩ := peerSet_ifs s.world x (some e) (some found)
    rw [hp, hfield]
  have hnss := (peerSet_lists s.world (some e) (some found)).1
  have hwarned : Warns e [] s.world (peerSet (some e) (some found) s.world) :=
    warns_nil e (fun n => by rw [hnss]) (hkeep IfEntry.warnings fun _ _ => rfl)
  have hframe := peerSet_frame s.world (some e) (some found)
  exact ⟨⟨rfl, hframe, hkeep IfEntry.unrelated fun _ _ => rfl,
    hkeep IfEntry.revMaster fun _ _ => rfl,
    fun x _ => hkeep IfEntry.activeSlave (fun _ _ => rfl) x, [], hwarned, rfl⟩,
    hkeep IfEntry.physfn fun _ _ => rfl⟩

theorem safe_matchPeer (hs : Sound s) (hindex : (s.world.ifs e).peerIndex ≠ 0) {x : IfPtr}
    (hx : x ∈ s.world.listed) : Prog.Safe (matchPeer e x) s.world := by
  unfold matchPeer
  rw [Prog.safe_get_bind]
  by_cases hother : (s.world.ifs x).ifIndex ≠ (s.world.ifs e).peerIndex ∨
      (s.world.ifs x).peerIndex ≠ (s.world.ifs e).ifIndex
  · rw [if_pos hother]
    exact Prog.safe_pure _ _
  rw [if_neg hother]
  rw [not_or, not_not, not_not] at hother
  -- an interface without driver has no index
  have hdriver : (s.world.ifs x).driver ≠ none := by
    intro hnone
    apply hindex
    rw [← hother.1, hs.driverless x hx hnone]
  obtain ⟨driver, hdriver⟩ := Option.ne_none_iff_exists'.mp hdriver
  rw [Prog.safe_deref_bind]
  refine ⟨driver, hdriver, ?_⟩
  split_ifs <;> exact Prog.safe_pure _ _

theorem searchPeer_returns (hs : Sound s) (hindex : (s.world.ifs e).peerIndex ≠ 0) :
    Prog.Returns (matchIf { exclude := some e, netnsList := some s.world.nsList } (matchPeer e))
      s.world fun d w => d.tally = s.world.peerTally e ∧ w = s.world := by
  have hcallback : SafeCallback (matchPeer e) (· = s.world)
      fun x => Prog.Safe (matchPeer e x) s.world := by
    refine ⟨fun x => matchPeer_triple e x, ?_⟩
    rintro x _ rfl
    rfl
  have hifaces : ∀ w, w = s.world → ∀ n, (w.nss n).ifaces = (s.world.nss n).ifaces := by
    rintro _ rfl n
    rfl
  have hsafe : Prog.Safe (matchIf { exclude := some e, netnsList := some s.world.nsList }
      (matchPeer e)) s.world := by
    have hnetns : (none : Option (List NsPtr)) = some s.world.nsList → (none : Option NsPtr).isSome :=
      nofun
    apply (safe_matchIf hcallback hifaces rfl (fun h => hnetns h.symm) rfl).mpr
    intro n hn x hx _
    exact safe_matchPeer hs hindex (World.mem_listed.mpr ⟨n, hn, hx⟩)
  have hrun := matchIf_tally (matchPeer_weighs s.world e)
    { exclude := some e, netnsList := some s.world.nsList } rfl rfl
  obtain ⟨d, w, hsearch, htallied, hw⟩ := hsafe.exists_ok hrun rfl
  exact ⟨d, w, hsearch, htallied.tally, hw⟩

theorem vethPost_returnsIff (hs : Sound s) (hdriver : (s.world.ifs e).driver = some (cstr "veth")) :
    Prog.ReturnsIff (onWorld (vethPost e)) s
      ((s.world.ifs e).peer = none → (s.world.ifs e).peerIndex ≠ 0) fun _ s' =>
        Turned e False (peerMisses e s.world s'.world) s s' ∧
          s'.world.peers = postPeers s.world e ∧
            ∀ x, (s'.world.ifs x).physfn = (s.world.ifs x).physfn := by
  -- the same in terms of the topology alone
  let After := fun w => Turned e False (peerMisses e s.world w) s { s with world := w } ∧
    w.peers = postPeers s.world e ∧ ∀ x, (w.ifs x).physfn = (s.world.ifs x).physfn
  have hworld : Prog.ReturnsIff (vethPost e) s.world
      ((s.world.ifs e).peer = none → (s.world.ifs e).peerIndex ≠ 0) fun _ w => After w := by
    unfold vethPost
    apply Prog.ReturnsIff.get_bind
    have hpost : postPeers s.world e = postPeers s.world e := rfl
    conv at hpost =>
      rhs
      rw [postPeers]
    have hpeers : s.world.peers e = (s.world.ifs e).peer := rfl
    rw [hpeers] at hpost
    by_cases hpeer : (s.world.ifs e).peer.isSome
    · rw [if_pos hpeer] at hpost ⊢
      have hsome := Option.isSome_iff_ne_none.mp hpeer
      apply Prog.ReturnsIff.pure (fun hnone => absurd hnone hsome)
      have hmissed : ¬ MissesPeer e s.world s.world := fun h => hsome h.2.1
      refine ⟨?_, hpost.symm, fun _ => rfl⟩
      rw [peerMisses, if_neg hmissed]
      exact .refl e False s
    rw [if_neg hpeer] at hpost ⊢
    have hnone : (s.world.ifs e).peer = none := Option.not_isSome_iff_eq_none.mp hpeer
    by_cases hindex : (s.world.ifs e).peerIndex = 0
    · rw [if_pos hindex]
      exact (Prog.ReturnsIff.throw _).congr (iff_of_false id fun h => h hnone hindex)
    rw [if_neg hindex]
    apply Prog.ReturnsIff.of_returns fun _ => hindex
    have hwarn : ∀ text, s.world.peerChoice e = none →
        Prog.Returns (Prog.modify (ifAddWarning e text) : Prog Int World Unit) s.world
          fun _ w => After w := by
      intro text hchoice
      refine ⟨(), _, rfl, ?_, ?_, fun x => ?_⟩
      · have hmissed : MissesPeer e s.world (ifAddWarning e text s.world) := by
          refine ⟨hdriver, hnone, ?_⟩
          rw [ifAddWarning_ifs, if_pos rfl]
          exact hnone
        rw [peerMisses, if_pos hmissed]
        exact turned_addWarning s e text
      · rw [(ifAddWarning_ends s.world e text).2, hpost, hchoice]
      · rw [ifAddWarning_ifs]
        split_ifs <;> rfl
    apply Prog.Returns.bind (searchPeer_returns hs hindex)
    rintro d w ⟨htally, hw⟩
    rw [hw]
    have hchoice : s.world.peerChoice e =
        if (s.world.peerTally e).Tied then none else (s.world.peerTally e).winner := rfl
    simp only [matchAmbiguous_iff, matchFound_eq, htally]
    by_cases htied : (s.world.peerTally e).Tied
    · rw [if_pos htied] at hchoice ⊢
      exact hwarn _ hchoice
    · rw [if_neg htied] at hchoice ⊢
      cases hwinner : (s.world.peerTally e).winner with
      | none => exact hwarn _ (hchoice.trans hwinner)
      | some x =>
        rw [hchoice.trans hwinner] at hpost
        have hpeers : (peerSet (some e) (some x) s.world).peers = postPeers s.world e :=
          (peerSet_peers hs.symmetric _ _).trans hpost.symm
        obtain ⟨hturned, hphysfn⟩ := turned_peerSet s e x
        refine ⟨(), _, rfl, ?_, hpeers, hphysfn⟩
        have hmissed : ¬ MissesPeer e s.world (peerSet (some e) (some x) s.world) := by
          rintro ⟨-, -, hmiss⟩
          have hfound := congrFun hpeers e
          rw [World.peers, hmiss, hpost] at hfound
          dsimp only at hfound
          rw [Matching.rematch_first] at hfound
          cases hfound
        rw [peerMisses, if_neg hmissed]
        exact hturned
  apply (onWorld_returnsIff hworld).weaken
  rintro _ s' ⟨hafter, hs'⟩
  obtain ⟨hturned, hrest⟩ := hafter
  rw [← hs'] at hturned
  exact ⟨hturned, hrest⟩

end

/-! ## The turn of an interface -/

/-- The turn of `e`: it gets one warning for each partner that is missed, and no other interface
gets one. -/
structure PostTurn (e : IfPtr) (s s' : ScanState) : Prop extends
    Turned e True (physfnMisses e s.world s'.world + peerMisses e s.world s'.world) s s' where
  peers : s'.world.peers =
    if (s.world.ifs e).driver = some (cstr "veth") then postPeers s.world e else s.world.peers

def Needs (s : ScanState) (e : IfPtr) (h : IfHandler) : Prop :=
  h.driver.isSome = true → h.post.isSome = true → driverMatch h (s.world.ifs e) = true →
    PostNeeds s e

section
variable {e : IfPtr} {s t : ScanState} {d : CStr}

section
variable (hdriver : (s.world.ifs e).driver = some d)
include hdriver

theorem other_driver {d' : CStr} (hne : d ≠ d') {C : Prop} :
    (s.world.ifs e).driver = some d' → C := by
  intro hother
  rw [hdriver] at hother
  exact absurd (Option.some.inj hother) hne

theorem other_tunnel (hd : d ∉ tunnelDrivers) {C : CStr → Prop} :
    ∀ d' ∈ tunnelDrivers, (s.world.ifs e).driver = some d' → C d' := by
  intro d' hd' hother
  rw [hdriver] at hother
  obtain rfl := Option.some.inj hother
  exact absurd hd' hd

end

theorem postNeeds_bond (hdriver : (s.world.ifs e).driver = some (cstr "bonding")) :
    PostNeeds s e ↔ ∃ priv, s.priv e = .live (.bond priv) := by
  constructor
  · exact fun h => h.bond hdriver
  · exact fun h => ⟨other_driver hdriver (by decide), fun _ => h,
      other_driver hdriver (by decide), other_driver hdriver (by decide),
      other_tunnel hdriver (by decide)⟩

theorem postNeeds_team (hdriver : (s.world.ifs e).driver = some (cstr "team")) :
    PostNeeds s e ↔ ((s.world.ifs e).activeSlave = none →
      ∃ port, s.priv e = .live (.team port) ∧
        ∀ jport, port = some jport → (s.world.ifs e).revMaster ≠ [] →
          (jsonStringValue (some jport)).isSome = true) := by
  constructor
  · exact fun h => h.team hdriver
  · exact fun h => ⟨other_driver hdriver (by decide), other_driver hdriver (by decide),
      fun _ => h, other_driver hdriver (by decide), other_tunnel hdriver (by decide)⟩

theorem postNeeds_veth (hdriver : (s.world.ifs e).driver = some (cstr "veth")) :
    PostNeeds s e ↔ ((s.world.ifs e).peer = none → (s.world.ifs e).peerIndex ≠ 0) := by
  constructor
  · exact fun h => h.veth hdriver
  · exact fun h => ⟨fun _ => h, other_driver hdriver (by decide),
      other_driver hdriver (by decide), other_driver hdriver (by decide),
      other_tunnel hdriver (by decide)⟩

theorem postNeeds_vxlan (hdriver : (s.world.ifs e).driver = some (cstr "vxlan")) :
    PostNeeds s e ↔ ∃ priv, s.priv e = .live (.vxlan priv) := by
  constructor
  · exact fun h => h.vxlan hdriver
  · exact fun h => ⟨other_driver hdriver (by decide), other_driver hdriver (by decide),
      other_driver hdriver (by decide), fun _ => h, other_tunnel hdriver (by decide)⟩

theorem postNeeds_tunnel (hd : d ∈ tunnelDrivers) (hdriver : (s.world.ifs e).driver = some d) :
    PostNeeds s e ↔ ∃ addr, s.priv e = .live (.tunnel addr) := by
  have hnot : ∀ d' ∉ tunnelDrivers, d ≠ d' := by
    rintro d' hd' rfl
    exact hd' hd
  constructor
  · exact fun h => h.tunnel d hd hdriver
  · exact fun h => ⟨other_driver hdriver (hnot _ (by decide)),
      other_driver hdriver (hnot _ (by decide)), other_driver hdriver (hnot _ (by decide)),
      other_driver hdriver (hnot _ (by decide)), fun _ _ _ => h⟩

theorem callback_returnsIff {h : IfHandler} (hh : h.post.isSome = true → h.driver.isSome = true)
    {R : ScanState → Prop} (hdriver : (t.world.ifs e).driver = (s.world.ifs e).driver)
    (hskip : h.post = none ∨ (s.world.ifs e).driver ≠ h.driver → R t)
    (hpost : ∀ f d, h.post = some f → h.driver = some d → (s.world.ifs e).driver = some d →
      Prog.ReturnsIff (f e) t (PostNeeds s e) fun _ => R) :
    Prog.ReturnsIff (ifHandlerCallback (·.post) e h) t (Needs s e h) fun _ => R := by
  unfold ifHandlerCallback
  apply Prog.ReturnsIff.get_bind
  dsimp only
  cases hf : h.post with
  | none =>
    have hneeds : Needs s e h := by
      intro _ hsome
      rw [hf] at hsome
      cases hsome
    split_ifs
    · exact Prog.ReturnsIff.pure hneeds (hskip (.inl hf))
    · exact Prog.ReturnsIff.pure hneeds (hskip (.inl hf))
  | some f =>
    have hsome : h.post.isSome = true := by
      rw [hf]
      rfl
    obtain ⟨d, hd⟩ := Option.isSome_iff_exists.mp (hh hsome)
    have hmatch : ∀ x : IfEntry, driverMatch h x = true ↔ x.driver = some d := by
      intro x
      unfold driverMatch
      rw [hd]
      exact decide_eq_true_iff
    have hsame : driverMatch h (t.world.ifs e) = true ↔ (s.world.ifs e).driver = some d := by
      rw [hmatch, hdriver]
    split_ifs with hmine
    · apply (hpost f d hf hd (hsame.mp hmine)).congr
      constructor
      · exact fun hneeds _ _ _ => hneeds
      · exact fun hneeds => hneeds (hh hsome) hsome ((hmatch _).mpr (hsame.mp hmine))
    · have hother : (s.world.ifs e).driver ≠ h.driver := by
        intro hmine'
        exact hmine (hsame.mpr (hmine'.trans hd))
      apply Prog.ReturnsIff.pure _ (hskip (.inr hother))
      intro _ _ hmine'
      exact absurd (hsame.mpr ((hmatch _).mp hmine')) hmine

/-- A handler of one of the tunnel drivers, or one without post callback. -/
def QuietHandler (h : IfHandler) : Prop :=
  ∀ f, h.post = some f →
    h.driver = some (cstr "vxlan") ∧ f = vxlanPost ∨ ∃ d ∈ tunnelDrivers, h.driver = some d ∧ f = tunnelPost

theorem quietHandlers_returnsIff {l : List IfHandler} (hl : ∀ h ∈ l, QuietHandler h)
    (ht : Sound t) (he : e ∈ t.world.listed) (hpriv : t.priv = s.priv)
    (hdriver : (t.world.ifs e).driver = (s.world.ifs e).driver) :
    Prog.ReturnsIff (Prog.forEach l (ifHandlerCallback (·.post) e)) t (∀ h ∈ l, Needs s e h)
      fun _ t' => Quiet e False t t' := by
  apply Prog.ReturnsIff.forEach (I := fun _ t' => Quiet e False t t') ?_ (.refl e False t)
  intro pre h post t₁ hsplit h₁
  have hquiet : QuietHandler h := by
    apply hl
    rw [hsplit]
    exact List.mem_append_right pre List.mem_cons_self
  have hs₁ : Sound t₁ := ht.quiet h₁
  have he₁ : e ∈ t₁.world.listed := by rwa [h₁.frame.listed]
  have hpriv₁ : t₁.priv = s.priv := h₁.priv.trans hpriv
  have hdriver₁ : (t₁.world.ifs e).driver = (s.world.ifs e).driver :=
    (h₁.frame.kept e).driver.trans hdriver
  apply callback_returnsIff _ hdriver₁ fun _ => h₁
  · intro f d hf hd hmine
    have hdriver₂ : (t₁.world.ifs e).driver ≠ none := by
      rw [hdriver₁, hmine]
      exact Option.some_ne_none d
    rcases hquiet f hf with ⟨hvxlan, rfl⟩ | ⟨d', hd', htunnel, rfl⟩
    · obtain rfl := Option.some.inj (hvxlan.symm.trans hd)
      rw [postNeeds_vxlan hmine, ← hpriv₁]
      exact (vxlanPost_returnsIff hs₁ he₁ hdriver₂).weaken fun _ _ h₂ => h₁.trans h₂
    · obtain rfl := Option.some.inj (htunnel.symm.trans hd)
      rw [postNeeds_tunnel hd' hmine, ← hpriv₁]
      exact (tunnelPost_returnsIff hs₁ he₁ hdriver₂).weaken fun _ _ h₂ => h₁.trans h₂
  · intro hsome
    obtain ⟨f, hf⟩ := Option.isSome_iff_exists.mp hsome
    rcases hquiet f hf with ⟨hvxlan, -⟩ | ⟨d', -, htunnel, -⟩
    · rw [hvxlan]
      rfl
    · rw [htunnel]
      rfl

theorem iovCallback_returns (env : HandlerEnv) : Prog.Returns
    (ifHandlerCallback (·.post) e (hIov env)) t fun _ t' =>
      Turned e False (physfnMisses e t.world t'.world) t t' ∧ t'.world.peers = t.world.peers := by
  unfold ifHandlerCallback
  apply Prog.Returns.get_bind
  have hmatch : driverMatch (hIov env) (t.world.ifs e) = true := rfl
  rw [if_pos hmatch]
  exact iovPost_returns

end

/-- The handlers with a post callback that looks for no partner and chooses no slave, and those
without one, by their place among the others. -/
def handlersBeforeIov (env : HandlerEnv) : List IfHandler :=
  [hBridge env, hGeneve, hGre, hGretap, hErspan, hIp6gre, hIp6gretap, hIp6erspan]

def handlersBeforeTeam : List IfHandler := [hIpip, hSit, hIp6tnl, hMacsec]

def handlersBehindVeth : List IfHandler := [hVlan, hVti4, hVti6, hVxlan, hXfrm]

theorem ifHandlers_split (env : HandlerEnv) : ifHandlers env =
    hBond env :: (handlersBeforeIov env ++ hIov env ::
      (handlersBeforeTeam ++ hTeam env :: hVeth env :: handlersBehindVeth)) := rfl

theorem quietHandlers (env : HandlerEnv) {h : IfHandler}
    (hh : h ∈ handlersBeforeIov env ++ handlersBeforeTeam ++ handlersBehindVeth) :
    QuietHandler h := by
  have htunnel : ∀ {h : IfHandler} {d : CStr}, h.driver = some d → d ∈ tunnelDrivers →
      h.post = some tunnelPost → QuietHandler h := by
    intro h d hd hmem hpost f hf
    rw [hpost] at hf
    exact .inr ⟨d, hmem, hd, (Option.some.inj hf).symm⟩
  have hnone : ∀ {h : IfHandler}, h.post = none → QuietHandler h := by
    intro h hpost f hf
    rw [hpost] at hf
    cases hf
  simp only [handlersBeforeIov, handlersBeforeTeam, handlersBehindVeth, List.cons_append,
    List.nil_append, List.mem_cons, List.not_mem_nil, or_false] at hh
  rcases hh with rfl | rfl | rfl | rfl | rfl | rfl | rfl | rfl | rfl | rfl | rfl | rfl | rfl |
    rfl | rfl | rfl | rfl
  · exact hnone rfl
  · exact hnone rfl
  -- gre
  · exact htunnel rfl (by decide) rfl
  · exact htunnel rfl (by decide) rfl
  · exact htunnel rfl (by decide) rfl
  · exact htunnel rfl (by decide) rfl
  · exact htunnel rfl (by decide) rfl
  · exact htunnel rfl (by decide) rfl
  -- ipxipy
  · exact htunnel rfl (by decide) rfl
  · exact htunnel rfl (by decide) rfl
  · exact htunnel rfl (by decide) rfl
  · exact hnone rfl
  · exact hnone rfl
  -- vti
  · exact htunnel rfl (by decide) rfl
  · exact htunnel rfl (by decide) rfl
  · rintro f hf
    exact .inl ⟨rfl, (Option.some.inj hf).symm⟩
  · exact hnone rfl

theorem exists_tunnelHandler (env : HandlerEnv) {d : CStr} (hd : d ∈ tunnelDrivers) :
    ∃ h ∈ handlersBeforeIov env ++ handlersBeforeTeam ++ handlersBehindVeth,
      h.driver = some d ∧ h.post.isSome = true := by
  have hmem : ∀ (pre : List IfHandler) (h : IfHandler) (post : List IfHandler),
      handlersBeforeIov env ++ handlersBeforeTeam ++ handlersBehindVeth = pre ++ h :: post →
      h ∈ handlersBeforeIov env ++ handlersBeforeTeam ++ handlersBehindVeth := by
    intro pre h post hsplit
    rw [hsplit]
    exact List.mem_append_right pre List.mem_cons_self
  simp only [tunnelDrivers, List.mem_cons, List.not_mem_nil, or_false] at hd
  rcases hd with rfl | rfl | rfl | rfl | rfl | rfl | rfl | rfl | rfl | rfl | rfl
  · exact ⟨hGre, hmem [_, _] _ _ rfl, rfl, rfl⟩
  · exact ⟨hGretap, hmem [_, _, _] _ _ rfl, rfl, rfl⟩
  · exact ⟨hErspan, hmem [_, _, _, _] _ _ rfl, rfl, rfl⟩
  · exact ⟨hIp6gre, hmem [_, _, _, _, _] _ _ rfl, rfl, rfl⟩
  · exact ⟨hIp6gretap, hmem [_, _, _, _, _, _] _ _ rfl, rfl, rfl⟩
  · exact ⟨hIp6erspan, hmem [_, _, _, _, _, _, _] _ _ rfl, rfl, rfl⟩
  · exact ⟨hIpip, hmem [_, _, _, _, _, _, _, _] _ _ rfl, rfl, rfl⟩
  · exact ⟨hSit, hmem [_, _, _, _, _, _, _, _, _] _ _ rfl, rfl, rfl⟩
  · exact ⟨hIp6tnl, hmem [_, _, _, _, _, _, _, _, _, _] _ _ rfl, rfl, rfl⟩
  · exact ⟨hVti4, hmem [_, _, _, _, _, _, _, _, _, _, _, _, _] _ _ rfl, rfl, rfl⟩
  · exact ⟨hVti6, hmem [_, _, _, _, _, _, _, _, _, _, _, _, _, _] _ _ rfl, rfl, rfl⟩

theorem needs_iff (env : HandlerEnv) {s : ScanState} {e : IfPtr} :
    (Needs s e (hBond env) ∧ (∀ h ∈ handlersBeforeIov env, Needs s e h) ∧ Needs s e (hIov env) ∧
      (∀ h ∈ handlersBeforeTeam, Needs s e h) ∧ Needs s e (hTeam env) ∧ Needs s e (hVeth env) ∧
        ∀ h ∈ handlersBehindVeth, Needs s e h) ↔ PostNeeds s e := by
  constructor
  · rintro ⟨hbond, hbefore, -, hmid, hteam, hveth, hbehind⟩
    have hall : ∀ h ∈ handlersBeforeIov env ++ handlersBeforeTeam ++ handlersBehindVeth,
        Needs s e h := by
      intro h hh
      rcases List.mem_append.mp hh with hh | hh
      · exact (List.mem_append.mp hh).elim (hbefore h) (hmid h)
      · exact hbehind h hh
    refine ⟨fun hd => ?_, fun hd => ?_, fun hd => ?_, fun hd => ?_, fun d hmem hd => ?_⟩
    · exact (hveth rfl rfl (decide_eq_true hd)).veth hd
    · exact (hbond rfl rfl (decide_eq_true hd)).bond hd
    · exact (hteam rfl rfl (decide_eq_true hd)).team hd
    · have hvxlan : Needs s e hVxlan := hbehind hVxlan (by simp [handlersBehindVeth])
      exact (hvxlan rfl rfl (decide_eq_true hd)).vxlan hd
    · obtain ⟨h, hh, hdriver, hpost⟩ := exists_tunnelHandler env hmem
      have hmatch : driverMatch h (s.world.ifs e) = true := by
        unfold driverMatch
        rw [hdriver]
        exact decide_eq_true hd
      exact (hall h hh (by rw [hdriver]; rfl) hpost hmatch).tunnel d hmem hd
  · intro h
    exact ⟨fun _ _ _ => h, fun _ _ _ _ _ => h, fun _ _ _ => h, fun _ _ _ _ _ => h,
      fun _ _ _ => h, fun _ _ _ => h, fun _ _ _ _ _ => h⟩

section
variable {e : IfPtr} {s t t' : ScanState} {acts : Prop} {n : Nat}

theorem physfnMisses_congr {w w' v v' : World} (h : (w.ifs e).physfn = (v.ifs e).physfn)
    (hpath : (w.ifs e).pciPhysfnPath = (v.ifs e).pciPhysfnPath)
    (h' : (w'.ifs e).physfn = (v'.ifs e).physfn) : physfnMisses e w w' = physfnMisses e v v' := by
  have hiff : MissesPhysfn e w w' ↔ MissesPhysfn e v v' := by
    unfold MissesPhysfn
    rw [h, hpath, h']
  unfold physfnMisses
  simp only [hiff]

theorem peerMisses_congr {w w' v v' : World} (h : (w.ifs e).peer = (v.ifs e).peer)
    (hdriver : (w.ifs e).driver = (v.ifs e).driver) (h' : (w'.ifs e).peer = (v'.ifs e).peer) :
    peerMisses e w w' = peerMisses e v v' := by
  have hiff : MissesPeer e w w' ↔ MissesPeer e v v' := by
    unfold MissesPeer
    rw [h, hdriver, h']
  unfold peerMisses
  simp only [hiff]

theorem postPeers_symmetric {w : World} (hw : Matching.Symmetric w.peers) (e : IfPtr) :
    Matching.Symmetric (postPeers w e) := by
  unfold postPeers
  split_ifs
  · exact hw
  · cases w.peerChoice e with
    | none => exact hw
    | some x => exact hw.rematch (some e) (some x)

theorem postPeers_congr (h : Turned e acts n s t) (hpeers : t.world.peers = s.world.peers) :
    postPeers t.world e = postPeers s.world e := by
  have hpeer : ∀ x, (t.world.ifs x).peer = (s.world.ifs x).peer := congrFun hpeers
  have hweight : t.world.peerWeight e = s.world.peerWeight e := by
    funext x
    unfold World.peerWeight World.pairWeight
    simp only [hpeer, h.field IfEntry.driver fun _ => rfl, h.field IfEntry.ns fun _ => rfl,
      h.field IfEntry.ifIndex fun _ => rfl, h.field IfEntry.peerIndex fun _ => rfl]
  have hchoice : t.world.peerChoice e = s.world.peerChoice e := by
    unfold World.peerChoice World.peerTally
    rw [hweight, h.frame.listed]
  unfold postPeers
  rw [hpeers, hchoice]

structure BeforeVeth (e : IfPtr) (acts : Prop) (s t : ScanState) : Prop extends
    Turned e acts (physfnMisses e s.world t.world) s t where
  peers : t.world.peers = s.world.peers

theorem BeforeVeth.quiet (h : BeforeVeth e acts s t) (h' : Quiet e acts t t') :
    BeforeVeth e acts s t' := by
  refine ⟨?_, h'.peers.trans h.peers⟩
  have hmisses : physfnMisses e s.world t'.world = physfnMisses e s.world t.world :=
    physfnMisses_congr rfl rfl (h'.physfn e)
  rw [hmisses]
  exact h.toTurned.trans h'.toTurned

theorem PostTurn.quiet (h : PostTurn e s t) (h' : Quiet e True t t') : PostTurn e s t' := by
  refine ⟨?_, h'.peers.trans h.peers⟩
  have hphysfn : physfnMisses e s.world t'.world = physfnMisses e s.world t.world :=
    physfnMisses_congr rfl rfl (h'.physfn e)
  have hpeer : peerMisses e s.world t'.world = peerMisses e s.world t.world :=
    peerMisses_congr rfl rfl (congrFun h'.peers e)
  rw [hphysfn, hpeer]
  exact h.toTurned.trans h'.toTurned

theorem Sound.unpaired (hs : Sound s) (h : Turned e acts n s t)
    (hpeers : t.world.peers = s.world.peers) : Sound t := by
  apply hs.turned h
  rw [hpeers]
  exact hs.symmetric

theorem Turned.driver (h : Turned e acts n s t) :
    (t.world.ifs e).driver = (s.world.ifs e).driver := (h.frame.kept e).driver

theorem Turned.mem_listed (h : Turned e acts n s t) (he : e ∈ s.world.listed) :
    e ∈ t.world.listed := by rwa [h.frame.listed]

theorem hBond_returnsIff (env : HandlerEnv) :
    Prog.ReturnsIff (ifHandlerCallback (·.post) e (hBond env)) s (Needs s e (hBond env))
      fun _ t => Quiet e ((s.world.ifs e).driver = some (cstr "bonding")) s t := by
  apply callback_returnsIff (fun _ => rfl) rfl fun _ => .refl e _ s
  intro f d hf hd hmine
  obtain rfl := Option.some.inj hf
  obtain rfl := Option.some.inj hd
  rw [postNeeds_bond hmine]
  exact bondPost_returnsIff.weaken fun _ _ h => h.mono fun _ => hmine

theorem hIov_returnsIff (env : HandlerEnv) (h : Quiet e acts s t) :
    Prog.ReturnsIff (ifHandlerCallback (·.post) e (hIov env)) t (Needs s e (hIov env))
      fun _ t => BeforeVeth e acts s t := by
  apply Prog.ReturnsIff.of_returns fun hnone => by cases hnone
  apply (iovCallback_returns env).weaken
  rintro _ t' ⟨hturned, hpeers⟩
  refine ⟨?_, hpeers.trans h.peers⟩
  have hmisses : physfnMisses e s.world t'.world = 0 + physfnMisses e t.world t'.world := by
    rw [Nat.zero_add]
    exact physfnMisses_congr (h.physfn e).symm
      (h.field IfEntry.pciPhysfnPath (fun _ => rfl) e).symm rfl
  rw [hmisses]
  exact h.toTurned.trans (hturned.mono False.elim)

theorem hTeam_returnsIff (env : HandlerEnv)
    (h : BeforeVeth e ((s.world.ifs e).driver = some (cstr "bonding")) s t) :
    Prog.ReturnsIff (ifHandlerCallback (·.post) e (hTeam env)) t (Needs s e (hTeam env))
      fun _ t => BeforeVeth e True s t := by
  have h' : BeforeVeth e True s t := ⟨h.toTurned.mono fun _ => trivial, h.peers⟩
  apply callback_returnsIff (fun _ => rfl) h.toTurned.driver fun _ => h'
  intro f d hf hd hmine
  obtain rfl := Option.some.inj hf
  obtain rfl := Option.some.inj hd
  -- a team is no bond, so that it has not yet got its active slave
  have hactive : (t.world.ifs e).activeSlave = (s.world.ifs e).activeSlave := by
    apply h.activeSlave
    rintro ⟨-, hbonding⟩
    exact other_driver hmine (by decide) hbonding
  rw [postNeeds_team hmine, ← hactive, ← h.revMaster, ← h.priv]
  exact teamPost_returnsIff.weaken fun _ _ hquiet => h'.quiet hquiet

theorem hVeth_returnsIff (env : HandlerEnv) (hs : Sound s) (h : BeforeVeth e True s t) :
    Prog.ReturnsIff (ifHandlerCallback (·.post) e (hVeth env)) t (Needs s e (hVeth env))
      fun _ t => PostTurn e s t := by
  have hdriver := h.toTurned.driver
  apply callback_returnsIff (fun _ => rfl) hdriver
  · rintro (hnone | hother)
    · cases hnone
    have hmissed : peerMisses e s.world t.world = 0 := if_neg fun h => hother h.1
    refine ⟨?_, h.peers.trans (if_neg hother).symm⟩
    rw [hmissed]
    exact h.toTurned
  · intro f d hf hd hmine
    obtain rfl := Option.some.inj hf
    obtain rfl := Option.some.inj hd
    have hpeer : (t.world.ifs e).peer = (s.world.ifs e).peer := congrFun h.peers e
    have hindex := h.field IfEntry.peerIndex (fun _ => rfl) e
    rw [postNeeds_veth hmine, ← hpeer, ← hindex]
    apply (vethPost_returnsIff (hs.unpaired h.toTurned h.peers) (hdriver.trans hmine)).weaken
    rintro _ t' ⟨hturned, hpeers, hphysfn⟩
    refine ⟨?_, ?_⟩
    · have hmisses : physfnMisses e s.world t'.world = physfnMisses e s.world t.world :=
        physfnMisses_congr rfl rfl (hphysfn e)
      have hmisses' : peerMisses e s.world t'.world = peerMisses e t.world t'.world :=
        peerMisses_congr hpeer.symm hdriver.symm rfl
      rw [hmisses, hmisses']
      exact h.toTurned.trans (hturned.mono False.elim)
    · rw [hpeers, postPeers_congr h.toTurned h.peers, if_pos hmine]

/-- The turn of an interface returns exactly when its callbacks have what they need. -/
theorem postTurn_returnsIff (env : HandlerEnv) (hs : Sound s) (he : e ∈ s.world.listed) :
    Prog.ReturnsIff (postTurn env e) s (PostNeeds s e) fun _ s' => PostTurn e s s' := by
  unfold postTurn
  rw [ifHandlers_split, Prog.forEach_cons, Prog.forEach_append, Prog.forEach_cons,
    Prog.forEach_append, Prog.forEach_cons, Prog.forEach_cons]
  apply Prog.ReturnsIff.congr _ (needs_iff env)
  apply (hBond_returnsIff env).bind
  intro _ t₁ h₁
  have hbefore := quietHandlers_returnsIff (s := s) (l := handlersBeforeIov env)
    (fun h hh => quietHandlers env (by simp [hh])) (hs.quiet h₁) (h₁.toTurned.mem_listed he) h₁.priv
    h₁.toTurned.driver
  apply hbefore.bind
  intro _ t₂ h₂
  apply (hIov_returnsIff env (h₁.trans (h₂.mono False.elim))).bind
  intro _ t₃ h₃
  have hmid := quietHandlers_returnsIff (s := s) (l := handlersBeforeTeam)
    (fun h hh => quietHandlers env (by simp [hh])) (hs.unpaired h₃.toTurned h₃.peers)
    (h₃.toTurned.mem_listed he) h₃.priv h₃.toTurned.driver
  apply hmid.bind
  intro _ t₄ h₄
  apply (hTeam_returnsIff env (h₃.quiet (h₄.mono False.elim))).bind
  intro _ t₅ h₅
  apply (hVeth_returnsIff env hs h₅).bind
  intro _ t₆ h₆
  have hsound : Sound t₆ := by
    apply hs.turned h₆.toTurned
    rw [h₆.peers]
    split_ifs
    · exact postPeers_symmetric hs.symmetric e
    · exact hs.symmetric
  have hbehind := quietHandlers_returnsIff (s := s) (l := handlersBehindVeth)
    (fun h hh => quietHandlers env (by simp [hh])) hsound (h₆.toTurned.mem_listed he) h₆.priv
    h₆.toTurned.driver
  exact hbehind.weaken fun _ _ h => h₆.quiet (h.mono False.elim)

end

end Plotnetcfg.Handlers
