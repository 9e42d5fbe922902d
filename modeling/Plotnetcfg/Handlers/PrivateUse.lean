import Plotnetcfg.Handlers.PrivateData

/-! The callbacks that come after `fill_if_link`, and `if_handler_cleanup`: they use the private
data of an interface as long as the block is one that its driver's callbacks can use. -/

namespace Plotnetcfg.Handlers

open Plotnetcfg.Netlink Bytes

section
variable {e x : IfPtr} {d : Option CStr} {B : Block → Prop}

def Keeps (e : IfPtr) (d : Option CStr) (B : Block → Prop) (p : HandlerProg Unit) : Prop :=
  Prog.Runs (Owns e d B) p (fun _ => Owns e d B) (Owns e d B)

theorem keeps_pure : Keeps e d B (pure ()) := Prog.Triple.pure fun _ => id

/-! ## Callbacks that do not look at the block -/

section
variable (env : HandlerEnv)

theorem bridgeScan_keeps : Keeps e d B (bridgeScan env x) := by
  refine Prog.Triple.bind get_owns fun s => Prog.Triple.ite (fun _ => keeps_pure) fun _ => ?_
  refine Prog.Triple.ite (fun _ => ?_) fun _ => ?_
  · exact Prog.Triple.ite (fun _ => keeps_pure) fun _ => Prog.Triple.throw fun _ => id
  · refine Prog.Triple.bind (Prog.Triple.deref fun _ _ _ => id) fun ifindex => ?_
    exact modifyIf_owns x fun _ => rfl

theorem iovScan_keeps : Keeps e d B (iovScan env x) := by
  refine Prog.Triple.bind allocate_keeps fun _ => Prog.Triple.bind get_owns fun s => ?_
  have hnone : ∀ errno : Errno, Keeps e d B (if errno = ENOENT then pure () else fail errno) :=
    fun errno => Prog.Triple.ite (fun _ => keeps_pure) fun _ => Prog.Triple.throw fun _ => id
  dsimp only
  cases env.sysfsLink (cstr "class/net/" ++ (s.world.ifs x).ifName ++ cstr "/device") with
  | error errno => exact hnone errno
  | ok resolved =>
    refine Prog.Triple.bind (modifyIf_owns x fun _ => rfl) fun _ => ?_
    refine Prog.Triple.bind allocate_keeps fun _ => ?_
    cases env.sysfsLink
        (cstr "class/net/" ++ (s.world.ifs x).ifName ++ cstr "/device" ++ cstr "/physfn") with
    | error errno => exact hnone errno
    | ok resolved => exact modifyIf_owns x fun _ => rfl

theorem matchPhysfn_triple {I E : World → Prop} (entry physfn : IfPtr) :
    Prog.Runs I (matchPhysfn entry physfn) (fun res w => 0 ≤ res ∧ I w) E := by
  refine Prog.Triple.bind (Q := fun _ => I) (Prog.Triple.get fun _ => id) fun w₀ => ?_
  refine Prog.Triple.ite (fun _ => ?_) fun _ => ?_
  · exact Prog.Triple.pure fun w hw => ⟨by decide, hw⟩
  · exact Prog.Triple.pure fun w hw => ⟨le_refl 0, hw⟩

theorem matchIf_keeps {I : World → Prop} {desc : MatchDesc} {callback : MatchCallback}
    (h : ∀ e, Prog.Runs I (callback e) (fun res w => 0 ≤ res ∧ I w) I) :
    Prog.Runs I (matchIf desc callback) (fun _ => I) I := by
  refine (matchIf_triple (fun _ => True) desc (fun e => ?_) (fun _ _ _ _ _ _ => trivial)
    fun _ _ => trivial).weaken (fun _ => id) fun _ _ => And.right
  exact (h e).weaken (fun _ => id) fun res w hw => ⟨fun hneg => absurd hw.1 (not_le.mpr hneg), hw.2⟩

theorem addWarning_keeps (text : CStr) : Keeps e d B (modifyWorld (ifAddWarning x text)) :=
  frame_owns fun w => ifAddWarning_frame x text w

theorem iovPost_keeps : Keeps e d B (iovPost x) := by
  refine Prog.Triple.bind get_owns fun s => Prog.Triple.ite (fun _ => keeps_pure) fun _ => ?_
  refine Prog.Triple.bind (Q := fun _ => Owns e d B)
    (onWorld_owns (matchIf_keeps (matchPhysfn_triple x))) fun desc => ?_
  refine Prog.Triple.bind (modifyIf_owns x fun _ => rfl) fun _ => ?_
  exact Prog.Triple.ite (fun _ => addWarning_keeps _) fun _ => keeps_pure

theorem vethScan_keeps (peer : CStr → UInt32) : Keeps e d B (modifyWorld (vethScan peer x)) := by
  refine modifyIf_owns x fun y => ?_
  split_ifs <;> rfl

theorem vethPost_driver :
    Prog.Runs (fun w : World => (w.ifs e).driver = d) (vethPost x)
      (fun _ w => (w.ifs e).driver = d) fun w => (w.ifs e).driver = d := by
  have hframe : ∀ f : World → World, (∀ w : World, w.Frame (f w)) →
      Prog.Runs (fun w : World => (w.ifs e).driver = d) (Prog.modify f : Prog Int World Unit)
        (fun _ w => (w.ifs e).driver = d) fun w => (w.ifs e).driver = d :=
    fun f hf => Prog.Triple.modify fun w hw => ((hf w).kept e).driver.trans hw
  refine Prog.Triple.bind (Q := fun _ w => (w.ifs e).driver = d) (Prog.Triple.get fun _ => id)
    fun w => ?_
  refine Prog.Triple.ite (fun _ => Prog.Triple.pure fun _ => id) fun _ => ?_
  refine Prog.Triple.ite (fun _ => Prog.Triple.throw fun _ => id) fun _ => ?_
  refine Prog.Triple.bind (matchIf_keeps (matchPeer_triple x)) fun desc => ?_
  refine Prog.Triple.ite (fun _ => hframe _ fun w => ifAddWarning_frame x _ w) fun _ => ?_
  cases matchFound desc with
  | none => exact hframe _ fun w => ifAddWarning_frame x _ w
  | some found => exact hframe _ fun w => peerSet_frame w _ _

theorem vethPost_keeps : Keeps e d B (onWorld (vethPost x)) := onWorld_owns vethPost_driver

/-! ## Callbacks that use the block -/

theorem linkLocal_keeps (localAddr : Addr) : Keeps e d B (linkLocal x localAddr) := by
  refine Prog.Triple.bind get_owns fun s => ?_
  refine Prog.Triple.bind (Q := fun _ => Owns e d B)
    (onWorld_owns (tunnelFindAddr_triple localAddr _)) fun ife => withSome_owns fun ife => ?_
  refine Prog.Triple.bind (frame_owns fun w => linkSet_frame w _ _) fun _ => ?_
  exact modifyIf_owns x fun _ => rfl

theorem tunnelPost_keeps (hx : x = e → ∀ b, B b → IsTunnel b) : Keeps e d B (tunnelPost x) := by
  refine Prog.Triple.bind (derefPrivate_owns (fun h b hb => ?_) fun _ => id) fun localAddr => ?_
  · obtain ⟨addr, rfl⟩ := hx h b hb
    exact ⟨_, rfl, rfl⟩
  · exact Prog.Triple.ite (fun _ => linkLocal_keeps _) fun _ => keeps_pure

theorem vxlanPost_keeps (hx : x = e → ∀ b, B b → IsVxlan b) : Keeps e d B (vxlanPost x) := by
  refine Prog.Triple.bind (derefPrivate_owns (fun h b hb => ?_) fun _ => id) fun priv => ?_
  · obtain ⟨priv, rfl⟩ := hx h b hb
    exact ⟨_, rfl, rfl⟩
  · refine Prog.Triple.bind (withSome_owns fun localAddr => ?_) fun _ =>
      withSome_owns fun group => addConfig_owns x _ _
    exact Prog.Triple.bind (addConfig_owns x _ _) fun _ => linkLocal_keeps _

theorem bondGetSysfs_owns (prop : CStr) :
    Prog.Runs (Owns e d B) (bondGetSysfs env x prop) (fun _ => Owns e d B) (Owns e d B) := by
  refine Prog.Triple.bind malloc_owns fun ok => Prog.Triple.ite (fun _ => ?_) fun _ =>
    Prog.Triple.pure fun _ => id
  refine Prog.Triple.bind get_owns fun s => ?_
  refine Prog.Triple.ite (fun _ => Prog.Triple.pure fun _ => id) fun _ => ?_
  refine Prog.Triple.ite (fun _ => ?_) fun _ => Prog.Triple.pure fun _ => id
  exact fun s _ r s' hrun => by cases hrun

theorem bondScan_keeps (hx : x = e → ∀ b, B b → IsBond b)
    (hpriv : ∀ priv, x = e → B (.live (.bond priv))) : Keeps e d B (bondScan env x) := by
  refine Prog.Triple.bind (Q := fun _ => Owns e d B) ?_ fun _ => ?_
  · refine Prog.Triple.bind (bondDeref_owns hx) fun priv => ?_
    refine Prog.Triple.ite (fun _ => ?_) fun _ => keeps_pure
    exact Prog.Triple.bind (bondGetSysfs_owns env _) fun r => bondWrite_owns hx hpriv _
  · refine Prog.Triple.bind (bondDeref_owns hx) fun priv => ?_
    refine Prog.Triple.ite (fun _ => ?_) fun _ => keeps_pure
    exact Prog.Triple.bind (bondGetSysfs_owns env _) fun r => bondWrite_owns hx hpriv _

theorem markSlave_keeps (slave : IfPtr) (key : CStr) (active : World → Bool) :
    Keeps e d B (modifyWorld fun w => markSlave x slave key (active w) w) := by
  refine modifyWorld_owns fun w => ?_
  unfold markSlave ifAddState IfEntry.addProperty
  split_ifs <;> simp only [World.modifyIf_ifs] <;> split_ifs <;> rfl

theorem bondPost_keeps (hx : x = e → ∀ b, B b → IsBond b) : Keeps e d B (bondPost x) := by
  refine Prog.Triple.bind (bondDeref_owns hx) fun priv => ?_
  refine Prog.Triple.bind (withSome_owns fun name => addConfig_owns x _ _) fun _ => ?_
  refine Prog.Triple.ite (fun _ => ?_) fun _ => keeps_pure
  refine Prog.Triple.bind get_owns fun s => Prog.Triple.forEach fun slave _ => ?_
  exact Prog.Triple.bind get_owns fun s => markSlave_keeps _ _ fun _ => _

def IsTeam (b : Block) : Prop := ∃ port, b = .live (.team port)

theorem teamDeref_owns (hx : x = e → ∀ b, B b → IsTeam b) :
    Prog.Runs (Owns e d B) (derefPrivate teamPriv x) (fun _ => Owns e d B) (Owns e d B) := by
  refine derefPrivate_owns (fun h b hb => ?_) fun _ => id
  obtain ⟨port, rfl⟩ := hx h b hb
  exact ⟨_, rfl, rfl⟩

theorem teamScan_keeps (hx : x = e → ∀ b, B b → IsTeam b)
    (hpriv : ∀ port, x = e → B (.live (.team port))) : Keeps e d B (teamScan env x) := by
  refine Prog.Triple.bind get_owns fun s => ?_
  cases env.teamd (s.world.ifs x) with
  | warning text => exact addWarning_keeps text
  | state runnerName activePort =>
    refine Prog.Triple.bind (addConfig_owns x _ _) fun _ => withSome_owns fun jport => ?_
    refine writePrivate_owns (fun h b hb => ?_) (hpriv _) fun _ => id
    obtain ⟨port, rfl⟩ := hx h b hb
    exact ⟨_, rfl⟩

theorem teamPost_keeps (hx : x = e → ∀ b, B b → IsTeam b) : Keeps e d B (teamPost x) := by
  refine Prog.Triple.bind get_owns fun s => Prog.Triple.ite (fun _ => keeps_pure) fun _ => ?_
  refine Prog.Triple.bind (teamDeref_owns hx) fun activePortName => withSome_owns fun jport => ?_
  refine Prog.Triple.forEach fun slave _ => Prog.Triple.bind get_owns fun s => ?_
  refine Prog.Triple.bind (Prog.Triple.deref fun _ _ _ => id) fun activeName => ?_
  exact markSlave_keeps _ _ fun _ => _

/-! ## What the handlers' callbacks keep -/

theorem handler_driver {h : IfHandler} {driver : CStr} (hh : h.driver = some driver)
    (hd : h.driver = none ∨ h.driver = d) : d = some driver := by
  rcases hd with hd | hd
  · rw [hh] at hd
    cases hd
  · rw [← hd, hh]

theorem scan_keeps {h : IfHandler} (hmem : h ∈ ifHandlers env) {f : IfPtr → HandlerProg Unit}
    (hf : h.scan = some f) (hd : x = e → h.driver = none ∨ h.driver = d) :
    Keeps e d (Ready d) (f x) := by
  simp only [ifHandlers, List.mem_cons, List.not_mem_nil, or_false] at hmem
  rcases hmem with rfl | rfl | rfl | rfl | rfl | rfl | rfl | rfl | rfl | rfl | rfl | rfl | rfl |
    rfl | rfl | rfl | rfl | rfl | rfl | rfl | rfl <;> cases hf
  · refine bondScan_keeps env (fun hx b hb => hb.bond (handler_driver rfl (hd hx)))
      fun priv hx => ?_
    rw [handler_driver rfl (hd hx)]
    exact ready_bond ⟨priv, rfl⟩
  · exact bridgeScan_keeps env
  · exact iovScan_keeps env
  · refine teamScan_keeps env (fun hx b hb => hb.team (handler_driver rfl (hd hx)))
      fun port hx => ?_
    rw [handler_driver rfl (hd hx)]
    exact ready_team ⟨port, rfl⟩
  · exact vethScan_keeps _

theorem tunnelHandler_keeps {driver : CStr} (hdriver : driver ∈ tunnelDrivers)
    (hd : x = e → some driver = none ∨ some driver = d) : Keeps e d (Ready d) (tunnelPost x) := by
  refine tunnelPost_keeps fun hx b hb => hb.tunnel driver hdriver ?_
  exact ((hd hx).resolve_left nofun).symm

theorem post_keeps {h : IfHandler} (hmem : h ∈ ifHandlers env) {f : IfPtr → HandlerProg Unit}
    (hf : h.post = some f) (hd : x = e → h.driver = none ∨ h.driver = d) :
    Keeps e d (Ready d) (f x) := by
  simp only [ifHandlers, List.mem_cons, List.not_mem_nil, or_false] at hmem
  rcases hmem with rfl | rfl | rfl | rfl | rfl | rfl | rfl | rfl | rfl | rfl | rfl | rfl | rfl |
    rfl | rfl | rfl | rfl | rfl | rfl | rfl | rfl <;> cases hf
  · exact bondPost_keeps fun hx b hb => hb.bond (handler_driver rfl (hd hx))
  -- gre
  · exact tunnelHandler_keeps (by decide) hd
  · exact tunnelHandler_keeps (by decide) hd
  · exact tunnelHandler_keeps (by decide) hd
  · exact tunnelHandler_keeps (by decide) hd
  · exact tunnelHandler_keeps (by decide) hd
  · exact tunnelHandler_keeps (by decide) hd
  · exact iovPost_keeps
  -- ipxipy
  · exact tunnelHandler_keeps (by decide) hd
  · exact tunnelHandler_keeps (by decide) hd
  · exact tunnelHandler_keeps (by decide) hd
  · exact teamPost_keeps fun hx b hb => hb.team (handler_driver rfl (hd hx))
  · exact vethPost_keeps
  -- vti
  · exact tunnelHandler_keeps (by decide) hd
  · exact tunnelHandler_keeps (by decide) hd
  · exact vxlanPost_keeps fun hx b hb => hb.vxlan (handler_driver rfl (hd hx))

theorem ifHandlerScan_keeps : Keeps e d (Ready d) (ifHandlerScan (ifHandlers env) x) :=
  Prog.Triple.forEach fun _ hmem => ifHandlerCallback_owns fun _ hf => scan_keeps env hmem hf

theorem ifHandlerPost_keeps : Keeps e d (Ready d) (ifHandlerPost (ifHandlers env)) := by
  refine Prog.Triple.bind get_owns fun s => Prog.Triple.forEach fun ns _ => ?_
  refine Prog.Triple.bind get_owns fun s => Prog.Triple.forEach fun entry _ => ?_
  exact Prog.Triple.forEach fun _ hmem => ifHandlerCallback_owns fun _ hf => post_keeps env hmem hf

/-! ## `if_handler_cleanup` -/

theorem derefPrivate_run {α : Type} (view : Private → Option α) {s : ScanState} {priv : Private}
    {a : α} (hlive : s.priv e = .live priv) (ha : view priv = some a) :
    derefPrivate view e s = some (.ok a, s) := by
  unfold derefPrivate
  rw [Prog.bind_ok s (Prog.get_apply s)]
  simp only [hlive, ha, Prog.pure_apply]

theorem cleanup_run {h : IfHandler} (hmem : h ∈ ifHandlers env) {f : IfPtr → HandlerProg Unit}
    (hf : h.cleanup = some f) {s : ScanState} (hs : Owns e d (Ready d) s)
    (hd : h.driver = none ∨ h.driver = d) : f e s = some (.ok (), s) := by
  simp only [ifHandlers, List.mem_cons, List.not_mem_nil, or_false] at hmem
  rcases hmem with rfl | rfl | rfl | rfl | rfl | rfl | rfl | rfl | rfl | rfl | rfl | rfl | rfl |
    rfl | rfl | rfl | rfl | rfl | rfl | rfl | rfl <;> cases hf
  · obtain ⟨priv, hpriv⟩ := hs.block.bond (handler_driver rfl hd)
    exact Prog.bind_ok s (derefPrivate_run bondPriv hpriv rfl) _
  · rfl
  · obtain ⟨port, hport⟩ := hs.block.team (handler_driver rfl hd)
    exact Prog.bind_ok s (derefPrivate_run teamPriv hport rfl) _

theorem forEach_cleanup_run {s : ScanState} (hs : Owns e d (Ready d) s) (handlers : List IfHandler)
    (hsub : ∀ h ∈ handlers, h ∈ ifHandlers env) :
    Prog.forEach handlers (ifHandlerCallback (·.cleanup) e) s = some (.ok (), s) := by
  induction handlers with
  | nil => rfl
  | cons h handlers ih =>
    have hstep : ifHandlerCallback (·.cleanup) e h s = some (.ok (), s) := by
      unfold ifHandlerCallback
      rw [Prog.bind_ok s (Prog.get_apply s)]
      by_cases hmatch : driverMatch h (s.world.ifs e) = true
      · rw [if_pos hmatch]
        dsimp only
        cases hf : h.cleanup with
        | none => rfl
        | some f =>
          exact cleanup_run env (hsub h List.mem_cons_self) hf hs
            (hs.driver ▸ driverMatch_driver hmatch)
      · rw [if_neg hmatch]
        rfl
    rw [Prog.forEach_cons, Prog.bind_ok s hstep]
    exact ih fun k hk => hsub k (List.mem_cons_of_mem h hk)

def Block.freed : Block → Block
  | .unset => .unset
  | _ => .released

theorem freePrivate_run {s : ScanState} (h : s.priv e ≠ .released) :
    ∃ s', freePrivate e s = some (.ok (), s') ∧ s'.misused = s.misused ∧
      s'.priv e = (s.priv e).freed := by
  unfold freePrivate
  rw [Prog.bind_ok s (Prog.get_apply s)]
  cases hpriv : s.priv e with
  | unset => exact ⟨s, rfl, rfl, hpriv⟩
  | live priv => exact ⟨_, rfl, rfl, Function.update_self ..⟩
  | released => exact absurd hpriv h

theorem ifHandlerCleanup_run {s : ScanState} (hs : Owns e d (Ready d) s) :
    ∃ s', ifHandlerCleanup (ifHandlers env) e s = some (.ok (), s') ∧ e ∉ s'.misused ∧
      s'.priv e = (s.priv e).freed := by
  obtain ⟨s', hrun, hmisused, hfreed⟩ := freePrivate_run hs.block.notReleased
  refine ⟨s', ?_, hmisused ▸ hs.intact, hfreed⟩
  unfold ifHandlerCleanup
  rwa [Prog.bind_ok s (forEach_cleanup_run env hs _ fun _ => id)]

/-! ## From `fill_if_link` to the cleanup -/

/-- What can happen between `fill_if_link` and the cleanup of an interface: the handlers' scans
and posts, also those that end early, and whatever leaves its driver and its block alone. -/
inductive Later (entry : IfPtr) (s : ScanState) : ScanState → Prop
  | refl : Later entry s s
  | other {s₁ s₂ : ScanState} (h : Later entry s s₁)
      (hdriver : (s₂.world.ifs entry).driver = (s₁.world.ifs entry).driver)
      (hpriv : s₂.priv entry = s₁.priv entry)
      (hmisused : entry ∈ s₂.misused ↔ entry ∈ s₁.misused) : Later entry s s₂
  | scan {s₁ s₂ : ScanState} (h : Later entry s s₁) (x : IfPtr) (r : Except Stop Unit)
      (hrun : ifHandlerScan (ifHandlers env) x s₁ = some (r, s₂)) : Later entry s s₂
  | post {s₁ s₂ : ScanState} (h : Later entry s s₁) (r : Except Stop Unit)
      (hrun : ifHandlerPost (ifHandlers env) s₁ = some (r, s₂)) : Later entry s s₂

theorem Keeps.run {p : HandlerProg Unit} (hp : Keeps e d B p) {s s' : ScanState}
    (hs : Owns e d B s) {r : Except Stop Unit} (hrun : p s = some (r, s')) : Owns e d B s' := by
  have hpost := hp s hs r s' hrun
  cases r with
  | ok u => exact hpost
  | error stop => exact hpost

theorem Later.owns {s s' : ScanState} (h : Later env e s s') (hs : Owns e d (Ready d) s) :
    Owns e d (Ready d) s' := by
  induction h with
  | refl => exact hs
  | other h hdriver hpriv hmisused ih =>
    exact ⟨hdriver.trans ih.driver, hpriv ▸ ih.block, fun hmem => ih.intact (hmisused.mp hmem)⟩
  | scan h x r hrun ih => exact (ifHandlerScan_keeps env).run ih hrun
  | post h _ hrun ih => exact (ifHandlerPost_keeps env).run ih hrun

def IfHandler.DerefsPrivate (h : IfHandler) (entry : IfPtr) : Prop :=
  ∃ f, (h.post = some f ∨ h.cleanup = some f) ∧ ∃ s r s',
    s.priv entry = .unset ∧ entry ∉ s.misused ∧ f entry s = some (r, s') ∧ entry ∈ s'.misused

structure PrivateValid (entry : IfPtr) (s : ScanState) : Prop where
  notReleased : s.priv entry ≠ .released
  live : ∀ h ∈ ifHandlers env, driverMatch h (s.world.ifs entry) = true → h.DerefsPrivate entry →
    ∃ priv, s.priv entry = .live priv
  unused : ∀ s', Later env entry s s' → entry ∉ s'.misused
  freedOnce : ∀ s', Later env entry s s' → ∃ s'',
    ifHandlerCleanup (ifHandlers env) entry s' = some (.ok (), s'') ∧ entry ∉ s''.misused ∧
      s''.priv entry = (s'.priv entry).freed

/-- The driver's handler depends on `IFLA_INFO_DATA`, and the message has none. -/
def DataMissing (entry : IfPtr) (msg : NlMsg) : Prop :=
  ∃ ifi tb, linkOf msg = some (ifi, tb) ∧ linkDriver env entry ifi tb ∈ dataDrivers ∧
    infoData (linkinfoOf tb) = none

instance (entry : IfPtr) (msg : NlMsg) : Decidable (DataMissing env entry msg) :=
  match hlink : linkOf msg with
  | none => .isFalse fun ⟨_, _, h, _⟩ => by simp [hlink] at h
  | some (ifi, tb) =>
    decidable_of_iff (linkDriver env entry ifi tb ∈ dataDrivers ∧ infoData (linkinfoOf tb) = none)
      ⟨fun h => ⟨ifi, tb, hlink, h⟩, fun ⟨_, _, h, h'⟩ => by
        obtain ⟨rfl, rfl⟩ := Prod.mk.inj (Option.some.inj (hlink.symm.trans h))
        exact h'⟩

/-- A callback that keeps what is known of an interface without a block does not use it. -/
theorem not_derefsPrivate {h : IfHandler}
    (hkeeps : ∀ f, h.post = some f ∨ h.cleanup = some f → ∀ d, Keeps e d (· = .unset) (f e)) :
    ¬ h.DerefsPrivate e := by
  rintro ⟨f, hf, s, r, s', hunset, hintact, hrun, hmem⟩
  exact ((hkeeps f hf _).run ⟨rfl, hunset, hintact⟩ hrun).intact hmem

theorem ready_live {h : IfHandler} (hmem : h ∈ ifHandlers env) (hd : h.driver = none ∨ h.driver = d)
    (hderef : h.DerefsPrivate e) {b : Block} (hb : Ready d b) : ∃ priv, b = .live priv := by
  have htunnel : ∀ driver ∈ tunnelDrivers, some driver = none ∨ some driver = d →
      ∃ priv, b = .live priv := by
    intro driver hdriver hd
    obtain ⟨addr, haddr⟩ := hb.tunnel driver hdriver (hd.resolve_left nofun).symm
    exact ⟨_, haddr⟩
  have hnone : ∀ {h : IfHandler}, h.post = none → h.cleanup = none → ¬ h.DerefsPrivate e := by
    intro h hpost hcleanup
    refine not_derefsPrivate fun f hf => ?_
    rw [hpost, hcleanup] at hf
    rcases hf with hf | hf <;> cases hf
  simp only [ifHandlers, List.mem_cons, List.not_mem_nil, or_false] at hmem
  rcases hmem with rfl | rfl | rfl | rfl | rfl | rfl | rfl | rfl | rfl | rfl | rfl | rfl | rfl |
    rfl | rfl | rfl | rfl | rfl | rfl | rfl | rfl
  · obtain ⟨priv, hpriv⟩ := hb.bond (handler_driver rfl hd)
    exact ⟨_, hpriv⟩
  · exact absurd hderef (hnone rfl rfl)
  · exact absurd hderef (hnone rfl rfl)
  -- gre
  · exact htunnel _ (by decide) hd
  · exact htunnel _ (by decide) hd
  · exact htunnel _ (by decide) hd
  · exact htunnel _ (by decide) hd
  · exact htunnel _ (by decide) hd
  · exact htunnel _ (by decide) hd
  -- iov
  · refine absurd hderef (not_derefsPrivate fun f hf d => ?_)
    rcases hf with hf | hf <;> cases hf
    · exact iovPost_keeps
    · exact keeps_pure
  -- ipxipy
  · exact htunnel _ (by decide) hd
  · exact htunnel _ (by decide) hd
  · exact htunnel _ (by decide) hd
  · exact absurd hderef (hnone rfl rfl)
  · obtain ⟨port, hport⟩ := hb.team (handler_driver rfl hd)
    exact ⟨_, hport⟩
  -- veth
  · refine absurd hderef (not_derefsPrivate fun f hf d => ?_)
    rcases hf with hf | hf <;> cases hf
    exact vethPost_keeps
  · exact absurd hderef (hnone rfl rfl)
  -- vti
  · exact htunnel _ (by decide) hd
  · exact htunnel _ (by decide) hd
  · obtain ⟨priv, hpriv⟩ := hb.vxlan (handler_driver rfl hd)
    exact ⟨_, hpriv⟩
  · exact absurd hderef (hnone rfl rfl)

theorem Owns.privateValid {s : ScanState} (hs : Owns e d (Ready d) s) : PrivateValid env e s where
  notReleased := hs.block.notReleased
  live _ hmem hmatch hderef :=
    ready_live env hmem (hs.driver ▸ driverMatch_driver hmatch) hderef hs.block
  unused _ hlater := (hlater.owns env hs).intact
  freedOnce _ hlater := ifHandlerCleanup_run env (hlater.owns env hs)

/-- `vti_post` follows the pointer, and no one has allocated a block. -/
theorem vti_derefsPrivate {h : IfHandler} (hpost : h.post = some vtiPost) :
    h.DerefsPrivate e :=
  ⟨vtiPost, .inl hpost, ⟨⟨fun _ => {}, fun _ => {}, [], []⟩, fun _ => .unset, [], []⟩, _, _, rfl,
    nofun, rfl, List.mem_cons_self⟩

theorem not_privateValid {driver : CStr} {linkinfo : Option Attrs} (hdriver : driver ∈ dataDrivers)
    (hdata : infoData linkinfo = none) {s : ScanState}
    (hs : Owns e (some driver) (Filled driver linkinfo) s) : ¬ PrivateValid env e s := by
  intro hvalid
  have hfilled := hs.block
  rw [Filled, if_pos ⟨hdriver, hdata⟩] at hfilled
  have hvti : ∀ h ∈ ifHandlers env, h.post = some vtiPost → h.driver = some driver →
      s.priv e ≠ .unset := by
    intro h hmem hpost hh hunset
    have hmatch : driverMatch h (s.world.ifs e) = true := by simp [driverMatch, hh, hs.driver]
    obtain ⟨priv, hpriv⟩ := hvalid.live h hmem hmatch (vti_derefsPrivate hpost)
    rw [hunset] at hpriv
    cases hpriv
  by_cases hown : driver = cstr "vxlan" ∨ driver = cstr "geneve"
  · rw [if_pos hown] at hfilled
    exact hvalid.notReleased hfilled
  · rw [if_neg hown] at hfilled
    simp only [dataDrivers, List.mem_cons, List.not_mem_nil, or_false] at hdriver
    rcases hdriver with rfl | rfl | rfl | rfl
    · exact hown (.inl rfl)
    · exact hown (.inr rfl)
    · exact hvti hVti4 (by simp [ifHandlers]) rfl rfl hfilled
    · exact hvti hVti6 (by simp [ifHandlers]) rfl rfl hfilled

theorem DataMissing.not_privateValid {msg : NlMsg} (hmissing : DataMissing env e msg)
    {s s' : ScanState} (hs : Owns e d (· = .unset) s)
    (hfill : fillIfLink env e msg s = some (.ok (), s')) : ¬ PrivateValid env e s' := by
  obtain ⟨ifi, tb, hlink, hs'⟩ := fillIfLink_owns env msg s hs (.ok ()) s' hfill
  obtain ⟨ifi', tb', hlink', hdriver, hdata⟩ := hmissing
  obtain ⟨rfl, rfl⟩ := Prod.mk.inj (Option.some.inj (hlink.symm.trans hlink'))
  exact Handlers.not_privateValid env hdriver hdata hs'

/-- A new entry that `fill_if_link` has filled has valid private data unless its handler depends
on data that the message lacks. -/
theorem fillIfLink_privateValid_iff (entry : IfPtr) (msg : NlMsg) {s s' : ScanState}
    (hunset : s.priv entry = .unset) (hintact : entry ∉ s.misused)
    (hfill : fillIfLink env entry msg s = some (.ok (), s')) :
    PrivateValid env entry s' ↔ ¬ DataMissing env entry msg := by
  have hs : Owns entry (s.world.ifs entry).driver (· = .unset) s := ⟨rfl, hunset, hintact⟩
  constructor
  · exact fun hvalid hmissing => hmissing.not_privateValid env hs hfill hvalid
  · intro hmissing
    obtain ⟨ifi, tb, hlink, hs'⟩ := fillIfLink_owns env msg s hs (.ok ()) s' hfill
    refine Owns.privateValid env (hs'.imp fun b hb => ?_)
    rwa [Filled, if_neg fun h => hmissing ⟨ifi, tb, hlink, h⟩] at hb

end

end

/-! ## Two messages -/

def attrBytes (type : Nat) (payload : List UInt8) : List UInt8 :=
  leBytes 2 (NLA_HDRLEN + payload.length) ++ leBytes 2 type ++ payload ++
    zeros (AlignedRecords.align payload.length - payload.length)

def linkMsg (attrs : List UInt8) : NlMsg where
  buf := leBytes 4 (32 + attrs.length) ++ leBytes 2 RTM_NEWLINK ++ zeros 10 ++
    (zeros 4 ++ leBytes 4 7 ++ zeros 8) ++ attrs
  start := NLMSG_HDRLEN

/-- The answers about a host where drivers give no information of their own. -/
def plainEnv : HandlerEnv where
  sysfsFile _ := { errno := 2 }
  sysfsLink _ := .error ENOENT
  teamd _ := .warning []
  ethtoolDriver _ := none
  ethtoolVethPeer _ := 0

def newEntry : ScanState where
  world := ⟨fun _ => {}, fun _ => { ifaces := [0] }, [0], []⟩
  priv := fun _ => .unset

def infoMsg (kind : String) (data : Option (List UInt8)) : NlMsg :=
  linkMsg (attrBytes IFLA_IFNAME (cstr "tun0" ++ [0]) ++
    attrBytes IFLA_LINKINFO (attrBytes IFLA_INFO_KIND (cstr kind ++ [0]) ++
      (data.map (attrBytes IFLA_INFO_DATA)).getD []))

def greMsg : NlMsg := infoMsg "gre" (some (attrBytes IFLA_GRE_LOCAL [10, 0, 0, 1]))

/-- A VXLAN interface of which the kernel says nothing but its kind. -/
def vxlanMsg : NlMsg := infoMsg "vxlan" none

def succeeds (r : Option (Except Stop Unit × ScanState)) : Bool := r.any fun r => r.1.isOk

theorem exists_of_succeeds {r : Option (Except Stop Unit × ScanState)} (h : succeeds r = true) :
    ∃ s', r = some (.ok (), s') := by
  cases r with
  | none => cases h
  | some r =>
    obtain ⟨r, s'⟩ := r
    cases r with
    | error stop => cases h
    | ok u => exact ⟨s', rfl⟩

theorem exists_of_ends {r : Option (Except Stop Unit × ScanState)} {p : ScanState → Bool}
    (h : (r.any fun r => r.1.isOk && p r.2) = true) : ∃ s', r = some (.ok (), s') ∧ p s' = true := by
  obtain ⟨⟨_ | u, s'⟩, rfl, hr⟩ := (Option.any_eq_true _ _).mp h
  · cases hr
  · exact ⟨s', rfl, hr⟩

theorem greMsg_privateValid : ∃ s', fillIfLink plainEnv 0 greMsg newEntry = some (.ok (), s') ∧
    PrivateValid plainEnv 0 s' := by
  obtain ⟨s', hfill⟩ : ∃ s', fillIfLink plainEnv 0 greMsg newEntry = some (.ok (), s') :=
    exists_of_succeeds (by decide +kernel)
  exact ⟨s', hfill, (fillIfLink_privateValid_iff plainEnv 0 greMsg rfl List.not_mem_nil hfill).mpr
    (by decide +kernel)⟩

theorem vxlanMsg_not_privateValid : ¬ ∀ (env : HandlerEnv) (entry : IfPtr) (msg : NlMsg)
    (s s' : ScanState), s.priv entry = .unset → entry ∉ s.misused →
      fillIfLink env entry msg s = some (.ok (), s') → PrivateValid env entry s' := by
  intro h
  obtain ⟨s', hfill⟩ : ∃ s', fillIfLink plainEnv 0 vxlanMsg newEntry = some (.ok (), s') :=
    exists_of_succeeds (by decide +kernel)
  have hmissing : DataMissing plainEnv 0 vxlanMsg := by decide +kernel
  exact hmissing.not_privateValid plainEnv (d := none) ⟨rfl, rfl, List.not_mem_nil⟩ hfill
    (h plainEnv 0 vxlanMsg newEntry s' rfl List.not_mem_nil hfill)

end Plotnetcfg.Handlers
