import Plotnetcfg.Handlers.Openvswitch.LinkRuns
import Plotnetcfg.Handlers.PostRuns

/-! `netns_fill_list` after `match_all_netnsid` as a run of steps: the resolution of masters and
links, the handler of Open vSwitch and the post callbacks of all interfaces. -/

namespace Plotnetcfg.Handlers

section
variable {input : PostInput} {w₀ : World}

/-! ## Resolving -/

theorem resolveIndex_run (rel : RevLists.Rel) {e : IfPtr} {w : World} (he : e ∈ w.listed) :
    Prog.Runs (· = w) (resolveIndex rel (matchIndex rel e) e w.nsList)
      (fun _ w' => PostRun input w w') fun _ => False := by
  unfold resolveIndex
  apply Prog.Triple.bind (Q := fun w₁ w' => w₁ = w ∧ w' = w) (Prog.Triple.get fun _ hw => ⟨hw, hw⟩)
  intro w₁
  apply Prog.Triple.of_and
  rintro rfl
  apply Prog.Triple.ite
  · rintro ⟨-, hindex⟩
    have hdesc : MatchDesc.Initialised { netnsList := some w₁.nsList, exclude := some e } :=
      ⟨rfl, nofun⟩
    apply Prog.Triple.bind (matchIf_found (matchIndex_weighs w₁ rel e) hdesc)
    intro desc
    apply Prog.Triple.of_and
    intro hfound
    -- a warning leaves the index and the lists alone
    apply Prog.Triple.bind (Q := fun _ w' => PostRun input w₁ w' ∧ w₁.Indexed w')
    · have hwarn : ∀ text, Prog.Runs (· = w₁)
          (Prog.modify (ifAddWarning e text) : Prog Int World Unit)
          (fun _ w' => PostRun input w₁ w' ∧ w₁.Indexed w') fun _ => False := by
        intro text
        apply Prog.Triple.modify
        rintro v rfl
        exact ⟨ifAddWarning_run e text v, ifAddWarning_indexed e text v⟩
      apply Prog.Triple.ite
      · exact fun _ => hwarn _
      intro _
      apply Prog.Triple.ite
      · exact fun _ => hwarn _
      · intro _
        apply Prog.Triple.pure
        rintro _ rfl
        exact ⟨.refl, .refl _⟩
    intro _
    apply Prog.Triple.modify
    rintro w' ⟨hrun, hindexed⟩
    apply hrun.tail
    apply PostStep.resolve
    · rwa [hindexed.frame.listed]
    · rwa [hindexed.index]
    · intro x hx
      obtain ⟨hlisted, hne⟩ := mem_visited (hfound x hx).1
      exact ⟨by rwa [hindexed.frame.listed], hne⟩
  · intro _
    apply Prog.Triple.pure
    rintro _ rfl
    exact .refl

theorem masterResolve_run (hfits : input.Fits w₀) :
    Prog.Runs (· = w₀) masterResolve (fun _ w => PostRun input w₀ w) fun _ => False := by
  unfold masterResolve
  apply Prog.Triple.bind (Q := fun w₁ w => w₁ = w₀ ∧ w = w₀)
    (Prog.Triple.get fun _ hw => ⟨hw, hw⟩)
  intro w₁
  apply Prog.Triple.of_and
  rintro rfl
  have hloop : Prog.Runs (PostRun input w₁) (Prog.forEach w₁.nsList fun ns => do
      let w' ← Prog.get
      Prog.forEach (w'.nss ns).ifaces fun entry => process entry w₁.nsList)
      (fun _ w => PostRun input w₁ w) fun _ => False := by
    apply Prog.Triple.forEach
    intro ns hns
    apply Prog.Triple.bind (Q := fun w₂ w => w = w₂ ∧ PostRun input w₁ w)
      (Prog.Triple.get fun _ hw => ⟨rfl, hw⟩)
    rintro w₂ w ⟨rfl, hw⟩
    have hext := hw.extends hfits
    have hlisted : ∀ e ∈ (w.nss ns).ifaces, e ∈ w.listed := fun e he =>
      World.mem_listed.mpr ⟨ns, by rwa [hext.nsList], he⟩
    have hinner : Prog.Runs (fun v => PostRun input w₁ v ∧ w.Extends input.root input.names v)
        (Prog.forEach (w.nss ns).ifaces fun entry => process entry w₁.nsList)
        (fun _ v => PostRun input w₁ v ∧ w.Extends input.root input.names v) fun _ => False := by
      apply Prog.Triple.forEach
      intro e he
      have hboth : ∀ rel, Prog.Runs (fun v => PostRun input w₁ v ∧ w.Extends input.root input.names v)
          (resolveIndex rel (matchIndex rel e) e w₁.nsList)
          (fun _ v => PostRun input w₁ v ∧ w.Extends input.root input.names v) fun _ => False := by
        rintro rel v ⟨hv, hvext⟩ r v' hrun
        have hvlist : v.nsList = w₁.nsList := hvext.nsList.trans hext.nsList
        have hev := hvext.listed e (hlisted e he)
        rw [← hvlist] at hrun
        have hpost := @resolveIndex_run input rel e v hev v rfl r v' hrun
        cases r with
        | error err => exact hpost
        | ok u =>
          have hfits' := hfits.extends (hv.extends hfits)
          exact ⟨hv.trans hpost, hvext.trans (hpost.extends hfits')⟩
      exact Prog.Triple.bind (hboth .master) fun _ => hboth .link
    have hstart : PostRun input w₁ w ∧ w.Extends input.root input.names w := ⟨hw, .refl hext.scanned⟩
    exact (hinner.weaken (fun _ => id) fun _ _ h => h.1) w hstart
  exact hloop.weaken (fun w hw => hw ▸ .refl) fun _ _ => id

/-! ## The handler of Open vSwitch -/

/-- The bridges that the handler is given; none, if there is no reply that can be parsed. -/
def Reported (root : NsPtr) (answer : Option (Except CStr Json))
    (bridges : List Openvswitch.OvsBridge) : Prop :=
  bridges = [] ∨ ∃ reply w s, answer = some reply ∧
    Openvswitch.parse root reply (Openvswitch.postState w) = some (.ok bridges, s)

theorem handleReply_run (hfits : input.Fits w₀) (reply : Except CStr Json)
    (hcalls : ∀ bridges t j u, Openvswitch.parse input.root reply (Openvswitch.postState w₀) =
        some (.ok bridges, t) → Openvswitch.JoinCall input.ovs input.root bridges t j u →
      j.Makes input.calls input.ovs u.world) :
    Prog.Runs (· = Openvswitch.postState w₀)
      (Openvswitch.handleReply input.ovs input.root reply)
      (fun _ s => ∃ bridges, Reported input.root (some reply) bridges ∧
        PostRun { input with bridges := bridges } w₀ s.world)
      fun s => ∃ bridges, Reported input.root (some reply) bridges ∧
        PostRun { input with bridges := bridges } w₀ s.world := by
  have hparse := Openvswitch.parse_keeps (I := fun s => (∀ ptr, s.link ptr = none) ∧
      ∀ bridges, PostRun { input with bridges := bridges } w₀ s.world)
    (fun s hs => ⟨fun ptr => by dsimp only; rw [Function.update_apply]; split_ifs <;>
      first | rfl | exact hs.1 ptr, hs.2⟩)
    input.root (fun s text hs => ⟨hs.1, fun bridges => (hs.2 bridges).tail (.warn _ text)⟩) reply
  have hstart : (∀ ptr, (Openvswitch.postState w₀).link ptr = none) ∧
      ∀ bridges, PostRun { input with bridges := bridges } w₀ (Openvswitch.postState w₀).world :=
    ⟨fun _ => rfl, fun _ => .refl⟩
  unfold Openvswitch.handleReply
  apply Prog.Triple.bind (Q := fun bridges s =>
    Openvswitch.parse input.root reply (Openvswitch.postState w₀) = some (.ok bridges, s) ∧
    ((∀ ptr, s.link ptr = none) ∧ ∀ b, PostRun { input with bridges := b } w₀ s.world) ∧
      Openvswitch.Allocated s.next (Openvswitch.allIfaces bridges))
  · rintro _ rfl r s hrun
    have hpost := hparse _ hstart r s hrun
    cases r with
    | error err => exact ⟨[], .inl rfl, hpost.2 []⟩
    | ok bridges => exact ⟨hrun, hpost⟩
  intro bridges
  have hreported : ∀ s, Openvswitch.parse input.root reply (Openvswitch.postState w₀) =
      some (.ok bridges, s) → Reported input.root (some reply) bridges :=
    fun s hparsed => .inr ⟨reply, w₀, s, rfl, hparsed⟩
  apply Prog.Triple.ite
  · intro _
    apply Prog.Triple.pure
    rintro s ⟨hparsed, ⟨-, hrun⟩, -⟩
    exact ⟨bridges, hreported s hparsed, hrun bridges⟩
  · intro _
    rintro s ⟨hparsed, ⟨hlink, hrun⟩, hallocated⟩ r s' hlinked
    have hlinking : Openvswitch.Linking { input with bridges := bridges } w₀ s := by
      refine ⟨hrun bridges, fun i hi e he => ?_⟩
      rw [hlink] at he
      cases he
    have hfits' : PostInput.Fits { input with bridges := bridges } w₀ :=
      ⟨hfits.scanned, hfits.root, hfits.linkNet⟩
    have hpost := Openvswitch.linkIfaces_linking hfits' hallocated.nodup hlinking
      (fun j u => hcalls bridges s j u hparsed) s rfl r s' hlinked
    cases r with
    | error err => exact ⟨bridges, hreported s hparsed, hpost.run⟩
    | ok u => exact ⟨bridges, hreported s hparsed, hpost.run⟩

theorem ovsGlobalPost_run (hfits : input.Fits w₀) (answer : Option (Except CStr Json))
    (hcalls : ∀ reply bridges t j u, answer = some reply →
        Openvswitch.parse input.root reply (Openvswitch.postState w₀) = some (.ok bridges, t) →
        Openvswitch.JoinCall input.ovs input.root bridges t j u →
      j.Makes input.calls input.ovs u.world) :
    Prog.Runs (· = w₀) (ovsGlobalPost input.ovs input.root answer)
      (fun _ w => ∃ bridges, Reported input.root answer bridges ∧
        PostRun { input with bridges := bridges } w₀ w)
      fun w => ∃ bridges, Reported input.root answer bridges ∧
        PostRun { input with bridges := bridges } w₀ w := by
  rintro v rfl r w hrun
  unfold ovsGlobalPost at hrun
  cases answer with
  | none =>
    obtain ⟨rfl, rfl⟩ := Prod.mk.inj (Option.some.inj hrun)
    exact ⟨[], .inl rfl, .refl⟩
  | some reply =>
    cases hreply : Openvswitch.handleReply input.ovs input.root reply
        (Openvswitch.postState v) with
    | none => simp [hreply] at hrun
    | some rs =>
      obtain ⟨r₁, s⟩ := rs
      have hpost := handleReply_run hfits reply (fun bridges t j u => hcalls reply bridges t j u rfl)
        _ rfl r₁ s hreply
      simp only [hreply, Option.map_some, Option.some.injEq] at hrun
      cases r₁ with
      | ok u =>
        obtain ⟨rfl, rfl⟩ := Prod.mk.inj hrun
        exact hpost
      | error err =>
        obtain ⟨hr, rfl⟩ := Prod.mk.inj hrun
        cases r <;> exact hpost

end

/-! ## The whole -/

section
variable (ovs : Openvswitch.OvsEnv) (env : HandlerEnv) (root : NsPtr)
  (answer : Option (Except CStr Json)) (s : ScanState)

def FillJoin (j : Openvswitch.Join) (u : Openvswitch.OvsState) : Prop :=
  ∃ s₁ reply bridges t, fillListResolve s = some (.ok (), s₁) ∧ answer = some reply ∧
    Openvswitch.parse root reply (Openvswitch.postState s₁.world) = some (.ok bridges, t) ∧
    Openvswitch.JoinCall ovs root bridges t j u

def FillCallback (h : IfHandler) (entry : IfPtr) (t : ScanState) : Prop :=
  ∃ s₁ s₂, fillListResolve s = some (.ok (), s₁) ∧
    onWorld (ovsGlobalPost ovs root answer) s₁ = some (.ok (), s₂) ∧ PostCallback env s₂ h entry t

/-- The calls that `netns_fill_list` makes to relate what it has searched for are among `calls`. -/
structure FillMakes (calls : PostCalls) : Prop where
  join : ∀ j u, FillJoin ovs root answer s j u → j.Makes calls ovs u.world
  callback : ∀ h entry t, FillCallback ovs env root answer s h entry t →
    CallbackMakes h entry t calls

theorem fillMakes_any : FillMakes ovs env root answer s .any :=
  ⟨fun _ _ _ => ⟨fun _ => trivial, fun _ _ => trivial, fun _ _ => trivial⟩,
    fun _ _ _ _ => ⟨fun _ _ _ _ _ => trivial, fun _ _ _ => trivial⟩⟩

end

section
variable {s : ScanState} (hs : Collected s.world) {root : NsPtr} (hroot : root ∈ s.world.nsList)
include hs hroot

theorem fillListResolve_posting (ovs : Openvswitch.OvsEnv) (calls : PostCalls) :
    Prog.Triple (· = s) fillListResolve
      (fun _ s' => ∀ bridges,
        Posting ⟨ovs, root, s.priv, bridges, calls⟩ (matchAllNetnsid s.world) s')
      fun _ _ => False := by
  unfold fillListResolve
  apply Prog.Triple.bind (Q := fun _ s' => s' = { s with world := matchAllNetnsid s.world })
  · unfold modifyWorld onWorld
    apply Prog.Triple.zoom
    rintro _ rfl
    apply Prog.Triple.mapError
    apply Prog.Triple.modify
    rintro _ rfl
    rfl
  intro _
  unfold onWorld
  apply Prog.Triple.zoom
  rintro _ rfl
  apply Prog.Triple.mapError
  rintro _ rfl r w hrun
  have hsteps := fun bridges =>
    masterResolve_run (hs.fits hroot : PostInput.Fits ⟨ovs, root, s.priv, bridges, calls⟩ _) _ rfl r w hrun
  cases r with
  | error err => exact hsteps []
  | ok u => exact fun bridges => ⟨hsteps bridges, rfl⟩

theorem ovsGlobalPost_posting {ovs : Openvswitch.OvsEnv} {answer : Option (Except CStr Json)}
    {calls : PostCalls} {s₁ : ScanState} (hresolve : fillListResolve s = some (.ok (), s₁))
    (hjoin : ∀ j u, FillJoin ovs root answer s j u → j.Makes calls ovs u.world) :
    Prog.Triple (· = s₁) (onWorld (ovsGlobalPost ovs root answer))
      (fun _ s' => ∃ bridges, Reported root answer bridges ∧
        Posting ⟨ovs, root, s.priv, bridges, calls⟩ (matchAllNetnsid s.world) s')
      fun _ s' => ∃ bridges, Reported root answer bridges ∧
        PostRun ⟨ovs, root, s.priv, bridges, calls⟩ (matchAllNetnsid s.world) s'.world := by
  have hposting := fillListResolve_posting hs hroot ovs calls s rfl _ s₁ hresolve
  unfold onWorld
  apply Prog.Triple.zoom
  rintro _ rfl
  apply Prog.Triple.mapError
  have hfits : PostInput.Fits ⟨ovs, root, s.priv, [], calls⟩ _ := hs.fits hroot
  have hglobal := ovsGlobalPost_run (hfits.extends ((hposting []).run.extends hfits)) answer
    fun reply bridges t j u hreply hparsed hcall =>
      hjoin j u ⟨_, reply, bridges, t, hresolve, hreply, hparsed, hcall⟩
  apply (hglobal.weakenError fun err w => ?_).weaken (fun _ => id) fun _ w => ?_
  · rintro ⟨bridges, hreported, hsteps⟩
    exact ⟨bridges, hreported, (hposting bridges).run.trans hsteps⟩
  · rintro ⟨bridges, hreported, hsteps⟩
    exact ⟨bridges, hreported, (hposting bridges).run.trans hsteps, (hposting bridges).priv⟩

/-- After `match_all_netnsid`, `netns_fill_list` goes by steps, also where it gives up, and relates
interfaces by the calls that it gets to. -/
theorem fillListPost_steps {env : HandlerEnv} {ovs : Openvswitch.OvsEnv}
    {answer : Option (Except CStr Json)} {calls : PostCalls}
    (hcalls : FillMakes ovs env root answer s calls) {r : Except Stop Unit} {s' : ScanState}
    (hrun : fillListPost ovs env root answer s = some (r, s')) :
    ∃ bridges, Reported root answer bridges ∧
      PostRun ⟨ovs, root, s.priv, bridges, calls⟩ (matchAllNetnsid s.world) s'.world := by
  have htriple : Prog.Runs (· = s) (fillListPost ovs env root answer)
      (fun _ s' => ∃ bridges, Reported root answer bridges ∧
        PostRun ⟨ovs, root, s.priv, bridges, calls⟩ (matchAllNetnsid s.world) s'.world)
      fun s' => ∃ bridges, Reported root answer bridges ∧
        PostRun ⟨ovs, root, s.priv, bridges, calls⟩ (matchAllNetnsid s.world) s'.world := by
    unfold fillListPost
    apply Prog.Triple.bind (Q := fun _ s₁ => fillListResolve s = some (.ok (), s₁))
    · rintro _ rfl r s₁ hresolve
      have hposting := fillListResolve_posting hs hroot ovs calls _ rfl r s₁ hresolve
      cases r with
      | error err => exact hposting.elim
      | ok u => exact hresolve
    rintro _ s₁ hresolve
    have hglobal : Prog.Triple (· = s₁) (onWorld (ovsGlobalPost ovs root answer))
        (fun _ s₂ => onWorld (ovsGlobalPost ovs root answer) s₁ = some (.ok (), s₂) ∧
          ∃ bridges, Reported root answer bridges ∧
            Posting ⟨ovs, root, s.priv, bridges, calls⟩ (matchAllNetnsid s.world) s₂)
        fun _ s' => ∃ bridges, Reported root answer bridges ∧
          PostRun ⟨ovs, root, s.priv, bridges, calls⟩ (matchAllNetnsid s.world) s'.world := by
      rintro _ rfl r s₂ hrun
      have hposting := ovsGlobalPost_posting hs hroot hresolve hcalls.join _ rfl r s₂ hrun
      cases r with
      | error err => exact hposting
      | ok u => exact ⟨hrun, hposting⟩
    refine Prog.Triple.bind hglobal (fun _ => ?_) s₁ rfl
    rintro s₂ ⟨hrun₂, bridges, hreported, hposting⟩ r s'' hrun
    let input : PostInput := ⟨ovs, root, s.priv, bridges, calls⟩
    have hfits : input.Fits (matchAllNetnsid s.world) := hs.fits hroot
    have hposted := ifHandlerPost_posts (hfits.extends (hposting.run.extends hfits))
      hposting.priv (fun h entry t hcall => hcalls.callback h entry t ⟨s₁, s₂, hresolve, hrun₂, hcall⟩)
      s₂ rfl r s'' hrun
    cases r with
    | ok u => exact ⟨bridges, hreported, hposting.run.trans hposted.run⟩
    | error stop => exact ⟨bridges, hreported, hposting.run.trans hposted.run⟩
  have hpost := htriple s rfl r s' hrun
  cases r with
  | ok u => exact hpost
  | error stop => exact hpost

theorem fillListPost_run {env : HandlerEnv} {ovs : Openvswitch.OvsEnv}
    {answer : Option (Except CStr Json)} {r : Except Stop Unit} {s' : ScanState}
    (hrun : fillListPost ovs env root answer s = some (r, s')) :
    ∃ bridges, Reported root answer bridges ∧
      PostRun ⟨ovs, root, s.priv, bridges, .any⟩ (matchAllNetnsid s.world) s'.world :=
  fillListPost_steps hs hroot (fillMakes_any ovs env root answer s) hrun

theorem FillCallback.posting {env : HandlerEnv} {ovs : Openvswitch.OvsEnv}
    {answer : Option (Except CStr Json)} {h : IfHandler} {entry : IfPtr} {t : ScanState}
    (hcall : FillCallback ovs env root answer s h entry t) :
    ∃ bridges, Reported root answer bridges ∧
      Posting ⟨ovs, root, s.priv, bridges, .any⟩ (matchAllNetnsid s.world) t ∧
      entry ∈ t.world.listed := by
  obtain ⟨s₁, s₂, hresolve, hglobal, hcall⟩ := hcall
  obtain ⟨bridges, hreported, hposting⟩ := ovsGlobalPost_posting hs hroot hresolve
    (fillMakes_any ovs env root answer s).join s₁ rfl _ s₂ hglobal
  let input : PostInput := ⟨ovs, root, s.priv, bridges, .any⟩
  have hfits : input.Fits (matchAllNetnsid s.world) := hs.fits hroot
  obtain ⟨ht, hentry⟩ :=
    hcall.posting (hfits.extends (hposting.run.extends hfits)) hposting.priv rfl
  exact ⟨bridges, hreported, hposting.trans ht, hentry⟩

/-- Without an answer nothing is created. -/
theorem FillCallback.listed {env : HandlerEnv} {ovs : Openvswitch.OvsEnv} {h : IfHandler}
    {entry : IfPtr} {t : ScanState} (hcall : FillCallback ovs env root none s h entry t) :
    entry ∈ s.world.listed := by
  obtain ⟨bridges, rfl | ⟨_, _, _, hnone, -⟩, hposting, hentry⟩ := hcall.posting hs hroot
  · have hext := hposting.run.extends (hs.fits hroot)
    by_contra hnew
    obtain ⟨name, hname, -⟩ := hext.created entry hentry fun h => hnew (hs.mem_listed.mp h)
    cases hname
  · cases hnone

theorem FillCallback.peerIndex {env : HandlerEnv} {ovs : Openvswitch.OvsEnv}
    {answer : Option (Except CStr Json)} {h : IfHandler} {entry : IfPtr} {t : ScanState}
    (hcall : FillCallback ovs env root answer s h entry t) (hentry : entry ∈ s.world.listed) :
    (t.world.ifs entry).peerIndex = (s.world.ifs entry).peerIndex := by
  obtain ⟨bridges, -, hposting, -⟩ := hcall.posting hs hroot
  have hext := hposting.run.extends (hs.fits hroot)
  have hkept := congrArg IfEntry.peerIndex (hext.kept entry (hs.mem_listed.mpr hentry))
  obtain ⟨_, _, _, _, hifs⟩ := hs.matched.ifs entry
  rw [hifs] at hkept
  exact hkept

/-- A callback of a scanned tunnel finds what one would in the scanned topology. -/
theorem FillCallback.found {env : HandlerEnv} {ovs : Openvswitch.OvsEnv}
    {answer : Option (Except CStr Json)} {h : IfHandler} {entry found : IfPtr} {t : ScanState}
    (hcall : FillCallback ovs env root answer s h entry t) (hentry : entry ∈ s.world.listed)
    {data : Addr} {w : World} (hsearch : LocalSearch h entry t data w)
    (hfound : FoundIn ((w.ifs entry).linkNet.getD (w.ifs entry).ns) data w found) :
    blockAddr (s.priv entry) = some data ∧
      s.world.addrHolder ((s.world.netTarget entry).getD (s.world.ifs entry).ns) data =
        some found := by
  obtain ⟨bridges, -, hposting, -⟩ := hcall.posting hs hroot
  let input : PostInput := ⟨ovs, root, s.priv, bridges, .any⟩
  have hfits : input.Fits (matchAllNetnsid s.world) := hs.fits hroot
  obtain ⟨hblock, hrun⟩ : blockAddr (s.priv entry) = some data ∧
      PostRun input (matchAllNetnsid s.world) w := by
    have hblocks : t.priv = s.priv := hposting.priv
    rw [← hblocks]
    cases hsearch with
    | tunnel _ hpriv hfamily =>
      rw [hpriv]
      exact ⟨if_pos hfamily, hposting.run⟩
    | vxlan _ hpriv hlocal =>
      rw [hpriv]
      exact ⟨hlocal, hposting.run.tail (.label entry fun _ => rfl)⟩
  have hext := hrun.extends hfits
  have hmatched := hs.mem_listed.mpr hentry
  obtain ⟨_, _, _, _, hifs⟩ := hs.matched.ifs entry
  rw [hext.linkNet hmatched, hext.ns hmatched, hs.linkNet_eq hentry, hifs] at hfound
  have hmem : (s.world.netTarget entry).getD (s.world.ifs entry).ns ∈ s.world.nsList := by
    cases hnet : s.world.netTarget entry with
    | none => exact hs.scanned.ns_mem hentry
    | some n => exact netTarget_mem hs hentry hnet
  obtain ⟨hholder, -⟩ := tunnelFindAddr_holder data _ _ rfl _ _ hfound
  have hmem' : (s.world.netTarget entry).getD (s.world.ifs entry).ns ∈
      (matchAllNetnsid s.world).nsList := by rwa [hs.frame.nsList]
  rw [hext.addrHolder hfits.scanned hmem', addrHolder_matched hs] at hholder
  exact ⟨hblock, hholder.symm⟩

/-- Without an answer and without peers it is the tunnels alone that search. -/
theorem FillMakes.ofTunnels {env : HandlerEnv} {ovs : Openvswitch.OvsEnv} {calls : PostCalls}
    (hzero : ∀ e ∈ s.world.listed, (s.world.ifs e).peerIndex = 0)
    (htunnel : ∀ e ∈ s.world.listed, ∀ data found, blockAddr (s.priv e) = some data →
      s.world.addrHolder ((s.world.netTarget e).getD (s.world.ifs e).ns) data = some found →
      calls.tunnel e found) : FillMakes ovs env root none s calls where
  join j u hjoin := by
    obtain ⟨_, _, _, _, _, hnone, _⟩ := hjoin
    cases hnone
  callback h entry t hcall := by
    have hlisted := hcall.listed hs hroot
    refine ⟨fun data w found hsearch hfound => ?_, fun found _ hpeer => ?_⟩
    · obtain ⟨hlocal, hholder⟩ := hcall.found hs hroot hlisted hsearch hfound
      exact htunnel entry hlisted data found hlocal hholder
    · have hindex := (hcall.peerIndex hs hroot hlisted).trans (hzero entry hlisted)
      exact absurd hindex hpeer.2.1

end

end Plotnetcfg.Handlers
