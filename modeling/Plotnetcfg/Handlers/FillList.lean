import Plotnetcfg.Core.Names
import Plotnetcfg.Core.Resolve
import Plotnetcfg.Handlers.Devices
import Plotnetcfg.Handlers.Openvswitch.ReplySafety

/-! What `netns_fill_list` does after the scan. Apart from the handler of Open vSwitch no step of
it changes a name or a list. -/

namespace Plotnetcfg.Handlers

/-- `ovs_global_post`. `answer` is the reply, if ovsdb could be asked; only a lack of memory is
fatal. -/
def ovsGlobalPost (ovs : Openvswitch.OvsEnv) (root : NsPtr) (answer : Option (Except CStr Json)) :
    Prog Int World Unit := fun w =>
  match answer with
  | none => some (.ok (), w)
  | some answer =>
    (Openvswitch.handleReply ovs root answer (Openvswitch.postState w)).map fun (r, s) =>
      match r with
      | .error err => (if err = ENOMEM then .error err else .ok (), s.world)
      | .ok () => (.ok (), s.world)

section
variable (ovs : Openvswitch.OvsEnv) (env : HandlerEnv) (root : NsPtr)
  (answer : Option (Except CStr Json))

/-- `netns_fill_list` between the scan and the handler of Open vSwitch. -/
def fillListResolve : HandlerProg Unit := do
  modifyWorld matchAllNetnsid
  onWorld masterResolve

/-- `netns_fill_list` after the scan. -/
def fillListPost : HandlerProg Unit := do
  fillListResolve
  onWorld (ovsGlobalPost ovs root answer)
  ifHandlerPost (ifHandlers env)

end

/-! ## Programs that change no name -/

def KeepsNames {α : Type} (p : HandlerProg α) : Prop :=
  ∀ w, Prog.Triple (fun s => Named w s.world) p (fun _ s => Named w s.world)
    fun _ s => Named w s.world

section
variable {α β : Type}

theorem KeepsNames.pure (a : α) : KeepsNames (pure a : HandlerProg α) :=
  fun _ => Prog.Triple.pure fun _ => id

theorem KeepsNames.get : KeepsNames (Prog.get : HandlerProg ScanState) :=
  fun _ => Prog.Triple.get fun _ => id

theorem KeepsNames.deref (x : Option α) : KeepsNames (Prog.deref x : HandlerProg α) :=
  fun _ => Prog.Triple.deref fun _ _ _ => id

theorem KeepsNames.bind {p : HandlerProg α} {f : α → HandlerProg β} (hp : KeepsNames p)
    (hf : ∀ a, KeepsNames (f a)) : KeepsNames (p >>= f) :=
  fun w => Prog.Triple.bind (hp w) fun a => hf a w

theorem KeepsNames.ite {c : Prop} [Decidable c] {p q : HandlerProg α} (hp : KeepsNames p)
    (hq : KeepsNames q) : KeepsNames (if c then p else q) :=
  fun w => Prog.Triple.ite (fun _ => hp w) fun _ => hq w

theorem KeepsNames.forEach {l : List β} {f : β → HandlerProg Unit} (hf : ∀ x, KeepsNames (f x)) :
    KeepsNames (Prog.forEach l f) := fun w => Prog.Triple.forEach fun x _ => hf x w

theorem KeepsNames.withSome {x : Option α} {f : α → HandlerProg Unit}
    (hf : ∀ a, KeepsNames (f a)) : KeepsNames (withSome x f) := by
  cases x with
  | none => exact .pure ()
  | some a => exact hf a

theorem KeepsNames.onWorld {p : Prog Int World α}
    (hp : ∀ w, Prog.Runs (Named w) p (fun _ => Named w) (Named w)) : KeepsNames (onWorld p) := by
  intro w
  unfold Handlers.onWorld
  apply Prog.Triple.zoom
  intro s hs
  apply Prog.Triple.mapError
  rintro _ rfl r w' hrun
  have hpost := hp w _ hs r w' hrun
  cases r with
  | ok a => exact hpost
  | error err => exact hpost

theorem KeepsNames.modifyWorld {f : World → World} (hf : ∀ w, Named w (f w)) :
    KeepsNames (modifyWorld f) :=
  .onWorld fun _ => Prog.Triple.modify fun w' hw => hw.trans (hf w')

theorem KeepsNames.derefPrivate (view : Private → Option α) (entry : IfPtr) :
    KeepsNames (derefPrivate view entry) := by
  have hmisuse : KeepsNames (misuse entry : HandlerProg α) := by
    intro w s hs r s' hrun
    obtain ⟨rfl, rfl⟩ := Prod.mk.inj (Option.some.inj hrun)
    exact hs
  apply KeepsNames.bind .get
  intro s
  split
  · split
    · exact .pure _
    · exact hmisuse
  · exact hmisuse

end

theorem modifyIf_keepsNames (entry : IfPtr) {f : IfEntry → IfEntry}
    (hf : ∀ x : IfEntry, Labels x (f x)) : KeepsNames (modifyWorld (·.modifyIf entry f)) :=
  .modifyWorld fun w => modifyIf_named w entry hf

theorem addConfig_keepsNames (entry : IfPtr) (key value : CStr) :
    KeepsNames (addConfig entry key value) :=
  modifyIf_keepsNames entry fun _ => ⟨⟨rfl, rfl, rfl, rfl⟩, rfl, rfl, rfl⟩

theorem ifAddWarning_keepsNames (entry : IfPtr) (text : CStr) :
    KeepsNames (modifyWorld (ifAddWarning entry text)) :=
  .modifyWorld fun w => (ifAddWarning_steady w entry text).toNamed

theorem matchIf_named (desc : MatchDesc) {callback : MatchCallback} (w : World)
    (hcb : ∀ e, Prog.Runs (Named w) (callback e) (fun res w' => 0 ≤ res ∧ Named w w') (Named w)) :
    Prog.Runs (Named w) (matchIf desc callback) (fun _ => Named w) (Named w) := by
  apply (matchIf_triple (fun _ => True) desc (fun e => ?_) (fun _ _ _ _ _ _ => trivial)
    fun _ _ => trivial).weaken (fun _ => id) fun _ _ => And.right
  exact (hcb e).weaken (fun _ => id) fun _ _ h => ⟨fun hneg => absurd hneg (not_lt.mpr h.1), h.2⟩

/-! ## Resolving -/

theorem matchNetnsidEntry_named (ns : NsPtr) (entry : IfPtr) (w : World) :
    Named w (matchNetnsidEntry ns entry w) := by
  have hnet : ∀ (w : World) (f : IfEntry → Option NsPtr),
      Named w (w.modifyIf entry fun x => { x with linkNet := f x }) :=
    fun w f => modifyIf_named w entry fun _ => ⟨⟨rfl, rfl, rfl, rfl⟩, rfl, rfl, rfl⟩
  -- the lower device, then the peer
  let w₁ := if 0 ≤ (w.ifs entry).linkNetnsid then
      if (w.ifs entry).linkIndex ≠ 0 then
        linkSet (matchIfNetnsid (w.ifs entry).linkIndex (w.ifs entry).linkNetnsid (w.nss ns) w)
          (some entry) w
      else w.modifyIf entry fun x => { x with linkNet := matchNetnsid x.linkNetnsid (w.nss ns) }
    else w
  have hlink : Named w w₁ := by
    simp only [w₁]
    split_ifs
    · exact (linkSet_steady w _ _).toNamed
    · exact hnet w _
    · exact .refl w
  show Named w (if 0 ≤ (w₁.ifs entry).peerNetnsid then peerSet (some entry)
    (matchIfNetnsid (w₁.ifs entry).peerIndex (w₁.ifs entry).peerNetnsid (w₁.nss ns) w₁) w₁ else w₁)
  split_ifs
  · exact hlink.trans (peerSet_steady w₁ _ _).toNamed
  · exact hlink

theorem matchAllNetnsid_named (w : World) : Named w (matchAllNetnsid w) := by
  unfold matchAllNetnsid
  apply List.foldlRecOn (motive := fun w' => Named w w') w.nsList _ (.refl w)
  intro w₁ hw₁ ns _
  apply List.foldlRecOn (motive := fun w' => Named w w') (w₁.nss ns).ifaces _ hw₁
  intro w₂ hw₂ entry _
  exact hw₂.trans (matchNetnsidEntry_named ns entry w₂)

theorem matchIndex_named (rel : RevLists.Rel) (slave entry : IfPtr) (w : World) :
    Prog.Runs (Named w) (matchIndex rel slave entry) (fun res w' => 0 ≤ res ∧ Named w w')
      (Named w) := by
  apply Prog.Triple.bind (Q := fun _ => Named w) (Prog.Triple.get fun _ => id)
  intro w₁
  apply Prog.Triple.ite
  · exact fun _ => Prog.Triple.pure fun _ hw => ⟨le_refl 0, hw⟩
  intro _
  apply Prog.Triple.ite
  · exact fun _ => Prog.Triple.pure fun _ hw => ⟨by decide, hw⟩
  · exact fun _ => Prog.Triple.pure fun _ hw => ⟨by decide, hw⟩

theorem resolveIndex_named (rel : RevLists.Rel) (entry : IfPtr) (netnsList : List NsPtr)
    (w : World) :
    Prog.Runs (Named w) (resolveIndex rel (matchIndex rel entry) entry netnsList)
      (fun _ => Named w) (Named w) := by
  have hwarn : ∀ text, Prog.Runs (Named w)
      (Prog.modify (ifAddWarning entry text) : Prog Int World Unit) (fun _ => Named w) (Named w) :=
    fun text => Prog.Triple.modify fun w' hw => hw.trans (ifAddWarning_steady w' entry text).toNamed
  have hset : ∀ upper (w' : World), Named w' (upperSet rel upper entry w') := by
    intro upper w'
    cases rel with
    | master => exact (masterSet_enslaves w' upper entry).toNamed
    | link => exact (linkSet_steady w' upper (some entry)).toNamed
  unfold resolveIndex
  apply Prog.Triple.bind (Q := fun _ => Named w) (Prog.Triple.get fun _ => id)
  intro w₁
  apply Prog.Triple.ite
  · intro _
    apply Prog.Triple.bind (matchIf_named _ w fun e => matchIndex_named rel entry e w)
    intro desc
    apply Prog.Triple.bind (Q := fun _ => Named w)
    · apply Prog.Triple.ite
      · exact fun _ => hwarn _
      intro _
      apply Prog.Triple.ite
      · exact fun _ => hwarn _
      · exact fun _ => Prog.Triple.pure fun _ => id
    · exact fun _ => Prog.Triple.modify fun w' hw => hw.trans (hset _ w')
  · exact fun _ => Prog.Triple.pure fun _ => id

theorem masterResolve_named (w : World) :
    Prog.Runs (Named w) masterResolve (fun _ => Named w) (Named w) := by
  unfold masterResolve
  apply Prog.Triple.bind (Q := fun _ => Named w) (Prog.Triple.get fun _ => id)
  intro w₁
  apply Prog.Triple.forEach
  intro ns _
  apply Prog.Triple.bind (Q := fun _ => Named w) (Prog.Triple.get fun _ => id)
  intro w₂
  apply Prog.Triple.forEach
  intro entry _
  exact Prog.Triple.bind (resolveIndex_named .master entry _ w)
    fun _ => resolveIndex_named .link entry _ w

theorem fillListResolve_keepsNames : KeepsNames fillListResolve :=
  .bind (.modifyWorld matchAllNetnsid_named) fun _ => .onWorld masterResolve_named

/-! ## Handlers of interfaces -/

theorem markSlave_named (entry slave : IfPtr) (key : CStr) (active : Bool) (w : World) :
    Named w (markSlave entry slave key active w) := by
  have hset : ∀ (w : World) x, Named w (w.modifyIf entry fun y => { y with activeSlave := x }) :=
    fun w x => modifyIf_named w entry fun _ => ⟨⟨rfl, rfl, rfl, rfl⟩, rfl, rfl, rfl⟩
  have hstate : ∀ (w : World) value, Named w (ifAddState entry key value w) :=
    fun w value => modifyIf_named w entry fun _ => ⟨⟨rfl, rfl, rfl, rfl⟩, rfl, rfl, rfl⟩
  unfold markSlave
  split_ifs
  · exact (hset w _).trans (hstate _ _)
  · exact modifyIf_named w slave fun _ => ⟨⟨rfl, rfl, rfl, rfl⟩, rfl, rfl, rfl⟩

theorem bondPost_keepsNames (entry : IfPtr) : KeepsNames (bondPost entry) := by
  apply KeepsNames.bind (.derefPrivate bondPriv entry)
  intro priv
  apply KeepsNames.bind (.withSome fun _ => addConfig_keepsNames entry _ _)
  intro _
  apply KeepsNames.ite
  · apply KeepsNames.bind .get
    intro s
    apply KeepsNames.forEach
    intro slave
    exact .bind .get fun _ => .modifyWorld fun w => markSlave_named entry slave _ _ w
  · exact .pure ()

theorem teamPost_keepsNames (entry : IfPtr) : KeepsNames (teamPost entry) := by
  apply KeepsNames.bind .get
  intro s
  apply KeepsNames.ite
  · exact .pure ()
  apply KeepsNames.bind (.derefPrivate teamPriv entry)
  intro activePortName
  apply KeepsNames.withSome
  intro jport
  apply KeepsNames.forEach
  intro slave
  apply KeepsNames.bind .get
  intro s'
  apply KeepsNames.bind (.deref _)
  exact fun _ => .modifyWorld fun w => markSlave_named entry slave _ _ w

theorem iovPost_keepsNames (entry : IfPtr) : KeepsNames (iovPost entry) := by
  have hcb : ∀ w e, Prog.Runs (Named w) (matchPhysfn entry e) (fun res w' => 0 ≤ res ∧ Named w w')
      (Named w) := by
    intro w e
    apply Prog.Triple.bind (Q := fun _ => Named w) (Prog.Triple.get fun _ => id)
    intro w₁
    apply Prog.Triple.ite
    · exact fun _ => Prog.Triple.pure fun _ hw => ⟨by decide, hw⟩
    · exact fun _ => Prog.Triple.pure fun _ hw => ⟨le_refl 0, hw⟩
  apply KeepsNames.bind .get
  intro s
  apply KeepsNames.ite
  · exact .pure ()
  apply KeepsNames.bind (.onWorld fun w => matchIf_named _ w (hcb w))
  intro desc
  apply KeepsNames.bind
  · exact modifyIf_keepsNames entry fun _ => ⟨⟨rfl, rfl, rfl, rfl⟩, rfl, rfl, rfl⟩
  intro _
  exact .ite (ifAddWarning_keepsNames entry _) (.pure ())

theorem linkLocal_keepsNames (entry : IfPtr) (localAddr : Addr) :
    KeepsNames (linkLocal entry localAddr) := by
  apply KeepsNames.bind .get
  intro s
  apply KeepsNames.bind (.onWorld fun w => tunnelFindAddr_triple localAddr _)
  intro ife
  apply KeepsNames.withSome
  intro ife
  apply KeepsNames.bind (.modifyWorld fun w => (linkSet_steady w _ _).toNamed)
  exact fun _ => modifyIf_keepsNames entry fun _ => ⟨⟨rfl, rfl, rfl, rfl⟩, rfl, rfl, rfl⟩

theorem tunnelPost_keepsNames (entry : IfPtr) : KeepsNames (tunnelPost entry) :=
  .bind (.derefPrivate tunnelPriv entry) fun localAddr =>
    .ite (linkLocal_keepsNames entry localAddr) (.pure ())

theorem vxlanPost_keepsNames (entry : IfPtr) : KeepsNames (vxlanPost entry) := by
  apply KeepsNames.bind (.derefPrivate vxlanPriv entry)
  intro priv
  apply KeepsNames.bind
  · apply KeepsNames.withSome
    intro localAddr
    exact .bind (addConfig_keepsNames entry _ _) fun _ => linkLocal_keepsNames entry localAddr
  · exact fun _ => .withSome fun _ => addConfig_keepsNames entry _ _

theorem vethPost_named (entry : IfPtr) (w : World) :
    Prog.Runs (Named w) (vethPost entry) (fun _ => Named w) (Named w) := by
  have hwarn : ∀ text, Prog.Runs (Named w)
      (Prog.modify (ifAddWarning entry text) : Prog Int World Unit) (fun _ => Named w) (Named w) :=
    fun text => Prog.Triple.modify fun w' hw => hw.trans (ifAddWarning_steady w' entry text).toNamed
  unfold vethPost
  apply Prog.Triple.bind (Q := fun _ => Named w) (Prog.Triple.get fun _ => id)
  intro w₁
  apply Prog.Triple.ite
  · exact fun _ => Prog.Triple.pure fun _ => id
  intro _
  apply Prog.Triple.ite
  · exact fun _ => Prog.Triple.throw fun _ => id
  intro _
  apply Prog.Triple.bind (matchIf_named _ w fun e => matchPeer_triple entry e)
  intro desc
  apply Prog.Triple.ite
  · exact fun _ => hwarn _
  intro _
  cases matchFound desc with
  | none => exact hwarn _
  | some found =>
    exact Prog.Triple.modify fun w' hw => hw.trans (peerSet_steady w' _ _).toNamed

theorem post_keepsNames (env : HandlerEnv) (entry : IfPtr) {h : IfHandler}
    (hmem : h ∈ ifHandlers env) {f : IfPtr → HandlerProg Unit} (hf : h.post = some f) :
    KeepsNames (f entry) := by
  simp only [ifHandlers, List.mem_cons, List.not_mem_nil, or_false] at hmem
  rcases hmem with rfl | rfl | rfl | rfl | rfl | rfl | rfl | rfl | rfl | rfl | rfl | rfl | rfl |
    rfl | rfl | rfl | rfl | rfl | rfl | rfl | rfl <;> cases hf
  · exact bondPost_keepsNames entry
  -- gre
  · exact tunnelPost_keepsNames entry
  · exact tunnelPost_keepsNames entry
  · exact tunnelPost_keepsNames entry
  · exact tunnelPost_keepsNames entry
  · exact tunnelPost_keepsNames entry
  · exact tunnelPost_keepsNames entry
  · exact iovPost_keepsNames entry
  -- ipxipy
  · exact tunnelPost_keepsNames entry
  · exact tunnelPost_keepsNames entry
  · exact tunnelPost_keepsNames entry
  · exact teamPost_keepsNames entry
  · exact .onWorld fun w => vethPost_named entry w
  -- vti
  · exact tunnelPost_keepsNames entry
  · exact tunnelPost_keepsNames entry
  · exact vxlanPost_keepsNames entry

theorem postCallback_keepsNames (env : HandlerEnv) (entry : IfPtr) {h : IfHandler}
    (hh : h ∈ ifHandlers env) : KeepsNames (ifHandlerCallback (·.post) entry h) := by
  apply KeepsNames.bind .get
  intro s
  apply KeepsNames.ite
  · dsimp only
    split
    · exact post_keepsNames env entry hh (by assumption)
    · exact .pure ()
  · exact .pure ()

theorem ifHandlerPost_keepsNames (env : HandlerEnv) :
    KeepsNames (ifHandlerPost (ifHandlers env)) := by
  apply KeepsNames.bind .get
  intro s
  apply KeepsNames.forEach
  intro ns
  apply KeepsNames.bind .get
  intro s'
  apply KeepsNames.forEach
  intro entry w
  exact Prog.Triple.forEach fun h hh => postCallback_keepsNames env entry hh w

def postTurn (env : HandlerEnv) (entry : IfPtr) : HandlerProg Unit :=
  Prog.forEach (ifHandlers env) (ifHandlerCallback (·.post) entry)

theorem postTurn_keepsNames (env : HandlerEnv) (entry : IfPtr) : KeepsNames (postTurn env entry) :=
  fun w => Prog.Triple.forEach fun _ hh => postCallback_keepsNames env entry hh w

/-- `if_handler_post` is one loop over all listed interfaces. -/
theorem ifHandlerPost_eq (env : HandlerEnv) (s : ScanState) :
    ifHandlerPost (ifHandlers env) s = Prog.forEach s.world.listed (postTurn env) s := by
  have hkeeps : ∀ n ∈ s.world.nsList, ∀ e ∈ (s.world.nss n).ifaces,
      Prog.Triple (fun t => Named s.world t.world) (postTurn env e)
        (fun _ t => Named s.world t.world) fun _ t => Named s.world t.world :=
    fun _ _ e _ => postTurn_keepsNames env e s.world
  have hifaces : ∀ t : ScanState, Named s.world t.world → ∀ n,
      (t.world.nss n).ifaces = (s.world.nss n).ifaces := fun t ht n => ht.frame.ifaces n
  exact Prog.Triple.forEach_flatMap hifaces s.world.nsList hkeeps s (.refl s.world)

end Plotnetcfg.Handlers
