import Plotnetcfg.Handlers.Openvswitch.PatchPairs
import Plotnetcfg.Handlers.Openvswitch.Verdict
import Plotnetcfg.Handlers.Openvswitch.Vport

/-! What speaks for an interface that the linking takes for one of a bridge. -/

namespace Plotnetcfg.Openvswitch

open Netlink Bytes AlignedRecords

def datapathDriver : OvsDpType → CStr
  | .system => cstr "openvswitch"
  | .netdev => cstr "tun"

structure Accepts (env : OvsEnv) (dpType : OvsDpType) (master : Option IfPtr) (iface : OvsIf)
    (w : World) (e : IfPtr) : Prop where
  name : iface.name = (w.ifs e).ifName
  here : masterElsewhere dpType master e w = false
  driver : iface.type = cstr "internal" → (w.ifs e).driver = some (datapathDriver dpType)
  netdev : dpType = .netdev → iface.type = cstr "internal"
  vport : dpType = .system → notVport env master e w = false

section
variable {env : OvsEnv} {root : NsPtr} {br : OvsBridge} {iface : OvsIf} {s s' : OvsState}

theorem linkIfaceSearch_accepts (env : OvsEnv) (dpType : OvsDpType) (master : Option IfPtr)
    (iface : OvsIf) (w : World) (e : IfPtr) :
    Prog.Runs (· = w) (linkIfaceSearch env dpType master iface e)
      (fun weight _ => 0 < weight → Accepts env dpType master iface w e) fun _ => True := by
  have hzero : Prog.Runs (· = w) (pure 0 : Prog Int World Int)
      (fun weight _ => 0 < weight → Accepts env dpType master iface w e) fun _ => True :=
    Prog.Triple.pure fun _ _ h => absurd h (by decide)
  have hweight : Accepts env dpType master iface w e →
      ∀ {P : World → Prop} {weight : Int}, Prog.Runs P (pure weight : Prog Int World Int)
        (fun weight _ => 0 < weight → Accepts env dpType master iface w e) fun _ => True :=
    fun haccepts _ _ => Prog.Triple.pure fun _ _ _ => haccepts
  have hderef : Prog.Runs (· = w) (Prog.deref (w.ifs e).driver : Prog Int World CStr)
      (fun driver w' => (w.ifs e).driver = some driver ∧ w' = w) fun _ => True :=
    Prog.Triple.deref fun driver hdriver w' hw => ⟨hdriver, hw⟩
  unfold linkIfaceSearch
  apply Prog.Triple.bind (Q := fun w₁ w' => w₁ = w ∧ w' = w) (Prog.Triple.get fun _ hw => ⟨hw, hw⟩)
  intro w₁
  apply Prog.Triple.of_and
  intro hw₁
  rw [hw₁]
  apply Prog.Triple.ite
  · exact fun _ => hzero
  intro hhere
  have hhere : masterElsewhere dpType master e w = false := eq_false_of_ne_true hhere
  apply Prog.Triple.ite
  · exact fun _ => hzero
  intro hname
  have hname : iface.name = (w.ifs e).ifName := not_not.mp hname
  cases dpType with
  | system =>
    apply Prog.Triple.ite
    · intro _
      apply Prog.Triple.bind hderef
      intro driver
      apply Prog.Triple.of_and
      intro hdriver
      apply Prog.Triple.ite
      · exact fun _ => hzero
      intro hsame
      apply Prog.Triple.ite
      · exact fun _ => hzero
      · intro hvport
        refine hweight ⟨hname, hhere, fun _ => ?_, nofun, fun _ => eq_false_of_ne_true hvport⟩
        rw [hdriver, not_not.mp hsame]
        rfl
    · intro htype
      apply Prog.Triple.ite
      · exact fun _ => hzero
      · exact fun hvport => hweight ⟨hname, hhere, fun h => absurd h htype, nofun,
          fun _ => eq_false_of_ne_true hvport⟩
  | netdev =>
    apply Prog.Triple.ite
    · intro htype
      apply Prog.Triple.bind hderef
      intro driver
      apply Prog.Triple.of_and
      intro hdriver
      apply Prog.Triple.ite
      · exact fun _ => hzero
      intro hsame
      have haccepts : Accepts env .netdev master iface w e := by
        refine ⟨hname, hhere, fun _ => ?_, fun _ => htype, nofun⟩
        rw [hdriver, not_not.mp fun h => hsame (.inl h)]
        rfl
      apply Prog.Triple.bind (Q := fun _ _ => True) (Prog.Triple.modify fun _ _ => trivial)
      exact fun _ => hweight haccepts
    · exact fun _ => hzero

theorem accepts_of_weight {main : OvsIf} (hmain : br.system.bind (·.ifaces.head?) = some main)
    {e : IfPtr} (h : 0 < ifaceWeight env br iface s e) :
    Accepts env br.dpType (s.link main.ptr) iface s.world e := by
  unfold ifaceWeight at h
  rw [hmain] at h
  dsimp only at h
  rcases hrun : linkIfaceSearch env br.dpType (s.link main.ptr) iface e s.world with
    _ | ⟨err | weight, w⟩
  · rw [hrun] at h
    exact absurd h (lt_irrefl 0)
  · rw [hrun] at h
    exact absurd h (lt_irrefl 0)
  · rw [hrun] at h
    exact linkIfaceSearch_accepts env br.dpType (s.link main.ptr) iface s.world e s.world rfl _ _
      hrun h

end

/-! ## Over the whole linking -/

/-- What speaks for the interface `x` of the topology `w` being the interface `iface` of `br`:
its name and driver, and, in the kernel datapath, its master or the word of the kernel. For the
interface that stands for the bridge there is nothing more to check. -/
structure Vouched (vports : NsPtr → CStr → Prop) (w : World) (s : OvsState) (br : OvsBridge)
    (iface : OvsIf) (x : IfPtr) : Prop where
  name : (w.ifs x).ifName = iface.name
  driver : iface.type = cstr "internal" → (w.ifs x).driver = some (datapathDriver br.dpType)
  netdev : br.dpType = .netdev → iface.type = cstr "internal"
  system : br.dpType = .system → MainIface br iface ∨
    (∃ m, (w.ifs x).master = some m ∧ (w.ifs m).ifName = cstr "ovs-system") ∨
    (w.ifs x).master = none ∧ ∃ main e, MainIface br main ∧ s.link main.ptr = some e ∧
      vports (s.world.ifs e).ns iface.name

def VouchedFor (vports : NsPtr → CStr → Prop) (brList : List OvsBridge) (w : World) (s : OvsState)
    (x : IfPtr) : Prop :=
  ∃ br ∈ brList, ∃ iface ∈ br.ifaces, Vouched vports w s br iface x

structure Grows (s s' : OvsState) : Prop where
  link : ∀ ptr e, s.link ptr = some e → s'.link ptr = some e
  kept : ∀ x ∈ s.world.listed, x ∈ s'.world.listed ∧ (s.world.ifs x).Kept (s'.world.ifs x)

theorem Grows.refl (s : OvsState) : Grows s s := ⟨fun _ _ => id, fun _ hx => ⟨hx, .refl _⟩⟩

theorem Grows.trans {s s' s'' : OvsState} (h : Grows s s') (h' : Grows s' s'') : Grows s s'' where
  link ptr e he := h'.link ptr e (h.link ptr e he)
  kept x hx :=
    ⟨(h'.kept x (h.kept x hx).1).1, (h.kept x hx).2.trans (h'.kept x (h.kept x hx).1).2⟩

structure Vouching (vports : NsPtr → CStr → Prop) (root : NsPtr) (brList : List OvsBridge)
    (w : World) (s : OvsState) : Prop where
  inv : LinkInv (fun _ => True) root [] s
  kept : ∀ x ∈ w.listed, x ∈ s.world.listed ∧ (w.ifs x).Kept (s.world.ifs x)
  links : ∀ ptr x, s.link ptr = some x → x ∈ w.listed → VouchedFor vports brList w s x
  masters : ∀ x ∈ w.listed, (s.world.ifs x).master = (w.ifs x).master ∨
    VouchedFor vports brList w s x

section
variable {vports : NsPtr → CStr → Prop} {root : NsPtr} {brList : List OvsBridge} {w : World}
  {s s' : OvsState} {x : IfPtr}

theorem VouchedFor.grows (h : VouchedFor vports brList w s x)
    (hinv : LinkInv (fun _ => True) root [] s) (hgrows : Grows s s') :
    VouchedFor vports brList w s' x := by
  obtain ⟨br, hbr, iface, hiface, hvouched⟩ := h
  refine ⟨br, hbr, iface, hiface, hvouched.name, hvouched.driver, hvouched.netdev, fun hdp => ?_⟩
  rcases hvouched.system hdp with hmain | henslaved | ⟨hfree, main, e, hmain, hlink, hvport⟩
  · exact .inl hmain
  · exact .inr (.inl henslaved)
  · refine .inr (.inr ⟨hfree, main, e, hmain, hgrows.link _ _ hlink, ?_⟩)
    rw [(hgrows.kept e (hinv.links _ _ hlink)).2.ns]
    exact hvport

theorem Vouching.step (h : Vouching vports root brList w s) (hgrows : Grows s s')
    (hinv : LinkInv (fun _ => True) root [] s')
    (hlinks : ∀ ptr x, s'.link ptr = some x → x ∈ w.listed →
      s.link ptr = some x ∨ VouchedFor vports brList w s' x)
    (hmasters : ∀ x ∈ w.listed, (s'.world.ifs x).master = (s.world.ifs x).master ∨
      VouchedFor vports brList w s' x) : Vouching vports root brList w s' where
  inv := hinv
  kept x hx :=
    have hkept := hgrows.kept x (h.kept x hx).1
    ⟨hkept.1, (h.kept x hx).2.trans hkept.2⟩
  links ptr x hx hw := (hlinks ptr x hx hw).elim
    (fun hold => (h.links ptr x hold hw).grows h.inv hgrows) id
  masters x hx := by
    rcases hmasters x hx with hsame | hvouched
    · rw [hsame]
      exact (h.masters x hx).imp_right fun hvouched => hvouched.grows h.inv hgrows
    · exact .inr hvouched

end

/-! ## One interface after the other -/

def KernelName (name : CStr) : Prop := 0 ∉ name ∧ name.length < 16

/-- What is asked of the kernel is answered truly. -/
def SoundVports (env : OvsEnv) (vports : NsPtr → CStr → Prop) : Prop :=
  ∀ ns e w, KernelName (w.ifs e).ifName → env.checkVport ns e w = true →
    vports ns (w.ifs e).ifName

/-- The topology as it was collected from the kernel. -/
structure FromKernel (w : World) : Prop where
  names : ∀ x ∈ w.listed, KernelName (w.ifs x).ifName
  masters : ∀ x ∈ w.listed, ∀ m, (w.ifs x).master = some m → m ∈ w.listed

section
variable {env : OvsEnv} {vports : NsPtr → CStr → Prop} {root : NsPtr} {brList : List OvsBridge}
  {w : World} {s s' : OvsState} {br : OvsBridge} {iface main : OvsIf} {x : IfPtr}

theorem Vouching.accepts (h : Vouching vports root brList w s) (hw : FromKernel w)
    (hsound : SoundVports env vports) (hbr : br ∈ brList) (hiface : iface ∈ br.ifaces)
    (hmain : MainIface br main) (hsearch : iface = main ∨ (s.link main.ptr).isSome)
    (hx : x ∈ w.listed) (haccepts : Accepts env br.dpType (s.link main.ptr) iface s.world x) :
    VouchedFor vports brList w s x := by
  have hkept := (h.kept x hx).2
  rcases h.masters x hx with hsame | hvouched
  swap
  · exact hvouched
  refine ⟨br, hbr, iface, hiface, ?_, fun htype => ?_, haccepts.netdev, fun hdp => ?_⟩
  · rw [haccepts.name, hkept.ifName]
  · rw [← hkept.driver]
    exact haccepts.driver htype
  rcases hsearch with rfl | hlinked
  · exact .inl hmain
  obtain ⟨e, hlink⟩ := Option.isSome_iff_exists.mp hlinked
  have hhere := haccepts.here
  have hvport := haccepts.vport hdp
  rw [hdp, hlink] at hhere
  rw [hlink] at hvport
  right
  cases hmaster : (w.ifs x).master with
  | some m =>
    refine .inl ⟨m, rfl, ?_⟩
    unfold masterElsewhere at hhere
    rw [hsame, hmaster] at hhere
    rw [← (h.kept m (hw.masters x hx m hmaster)).2.ifName]
    simpa using hhere
  | none =>
    refine .inr ⟨rfl, main, e, hmain, hlink, ?_⟩
    unfold notVport at hvport
    dsimp only at hvport
    rw [hsame, hmaster] at hvport
    have hname : KernelName (s.world.ifs x).ifName := by
      rw [hkept.ifName]
      exact hw.names x hx
    rw [haccepts.name]
    exact hsound _ x s.world hname (by simpa using hvport)

/-- `link_iface` links what is vouched for, also where the match is ambiguous. -/
theorem linkIface_vouching (hw : FromKernel w) (hsound : SoundVports env vports)
    (hbr : br ∈ brList) (hiface : iface ∈ br.ifaces) (hmain : MainIface br main)
    (hsearch : iface = main ∨ (s.link main.ptr).isSome) (h : Vouching vports root brList w s)
    {required : Bool} {r : Except Int Unit}
    (hrun : linkIface env root br iface required s = some (r, s')) :
    Grows s s' ∧ Vouching vports root brList w s' := by
  cases hlink : s.link iface.ptr with
  | some e =>
    rw [linkIface_linked (by simp [hlink])] at hrun
    obtain ⟨-, rfl⟩ := Prod.mk.inj (Option.some.inj hrun)
    exact ⟨.refl s, h⟩
  | none =>
    have hlooked : Looked br iface s s' := by
      have hlooked := linkIface_looked env root br iface required s s rfl r s' hrun
      cases r with
      | error err => exact hlooked
      | ok u => exact hlooked.1
    have hinv : LinkInv (fun _ => True) root [] s' := by
      have hinv := linkIface_triple peerInvariant_true env br iface required s h.inv r s' hrun
      cases r <;> exact hinv
    have hgrows : Grows s s' := by
      refine ⟨fun ptr e he => ?_, fun x hx => ⟨?_, hlooked.world.frame.kept x⟩⟩
      · rw [hlooked.link ptr ?_]
        · exact he
        · rintro rfl
          rw [hlink] at he
          cases he
      · rw [hlooked.world.frame.listed]
        exact hx
    refine ⟨hgrows, h.step hgrows hinv (fun ptr x hx hlisted => ?_) fun x hx => ?_⟩
    · by_cases hptr : ptr = iface.ptr
      · have hmapping := linkIface_mapping hlink h.inv.scanned.nodup hrun
        have hwinner : (ifaceTally env br iface s).winner = some x := by
          rw [← hx, hptr, hmapping.link, Function.update_self]
        have hsystem : br.system.bind (·.ifaces.head?) = some main := by
          obtain ⟨system, hsystem, hsole⟩ := hmain
          rw [hsystem, Option.bind_some, hsole]
          rfl
        have hweight := (Tally.winner_eq_some.mp hwinner).1
        have hvouched := h.accepts hw hsound hbr hiface hmain hsearch hlisted
          (accepts_of_weight hsystem hweight)
        exact .inr (hvouched.grows h.inv hgrows)
      · rw [hlooked.link ptr hptr] at hx
        exact .inl hx
    · exact .inl (hlooked.world.master x)

theorem Vouching.created (h : Vouching vports root brList w s) {t : OvsState} {e : IfPtr}
    {name brName : CStr} {m : Option IfPtr} (hcreate : Creates root name brName s t e)
    (henslaves : Enslaves t.world s'.world e m) (hinv : LinkInv (fun _ => True) root [] s')
    (hlink : ∀ ptr, s'.link ptr = s.link ptr ∨ s.link ptr = none ∧ s'.link ptr = some e) :
    Grows s s' ∧ Vouching vports root brList w s' := by
  have hnew : e ∉ s.world.listed := by
    apply h.inv.scanned.fresh
    rw [hcreate.adds.free]
    exact List.mem_cons_self
  have hold : ∀ x ∈ s.world.listed, x ≠ e := by
    rintro x hx rfl
    exact hnew hx
  have hsame : ∀ x ∈ s.world.listed, t.world.ifs x = s.world.ifs x :=
    fun x hx => hcreate.adds.ifs x (hold x hx)
  have hgrows : Grows s s' := by
    refine ⟨fun ptr x hx => ?_, fun x hx => ⟨?_, ?_⟩⟩
    · rcases hlink ptr with hkept | ⟨hnone, -⟩
      · rw [hkept, hx]
      · rw [hnone] at hx
        cases hx
    · rw [henslaves.frame.listed]
      exact (World.Adds.mem_listed h.inv.scanned hcreate.adds h.inv.root).mpr (.inr hx)
    · rw [← hsame x hx]
      exact henslaves.frame.kept x
  refine ⟨hgrows, h.step hgrows hinv (fun ptr x hx hlisted => ?_) fun x hx => ?_⟩
  · rcases hlink ptr with hkept | ⟨-, hfresh⟩
    · exact .inl (hkept ▸ hx)
    · rw [hfresh] at hx
      obtain rfl := Option.some.inj hx
      exact absurd (h.kept e hlisted).1 hnew
  · have hlisted := (h.kept x hx).1
    rw [henslaves.master, if_neg (hold x hlisted), hsame x hlisted]
    exact .inl rfl

/-- An interface of a port is enslaved only if it was found, or there is none in the kernel. -/
theorem linkPortIface_vouching (hw : FromKernel w) (hsound : SoundVports env vports)
    (hbr : br ∈ brList) (hiface : iface ∈ br.ifaces) (hmain : MainIface br main)
    (hlinked : (s.link main.ptr).isSome) (h : Vouching vports root brList w s) {port : OvsPort}
    {master : Option IfPtr} {r : Except Int Unit}
    (hrun : linkPortIface env root br port master iface s = some (r, s')) :
    Grows s s' ∧ Vouching vports root brList w s' := by
  cases r with
  | error err =>
    have hstops := linkPortIface_stops env root br port master iface s s rfl _ s' hrun
    rcases hstops with hsearch | ⟨-, hsearch⟩
    · exact linkIface_vouching hw hsound hbr hiface hmain (.inr hlinked) h hsearch
    · exact linkIface_vouching hw hsound hbr hiface hmain (.inr hlinked) h hsearch
  | ok u =>
    obtain ⟨s₁, s₂, e, hturn⟩ :=
      linkPortIface_turn env root br port master iface s s rfl _ s' hrun
    have hinv := linkPortIface_triple peerInvariant_true env br port master iface s h.inv _ s' hrun
    obtain ⟨hgrows, h₁⟩ :=
      linkIface_vouching hw hsound hbr hiface hmain (.inr hlinked) h hturn.search
    have henslaves := hturn.enslaves
    cases hturn.obtains with
    | found hlink heq =>
      rw [heq] at henslaves
      have hgrows' : Grows s₁ s' := by
        refine ⟨fun ptr x hx => ?_, fun x hx => ⟨?_, henslaves.frame.kept x⟩⟩
        · rw [hturn.link, heq]
          exact hx
        · rw [henslaves.frame.listed]
          exact hx
      refine ⟨hgrows.trans hgrows', h₁.step hgrows' hinv (fun ptr x hx _ => ?_) fun x hx => ?_⟩
      · rw [hturn.link, heq] at hx
        exact .inl hx
      · rw [henslaves.master]
        split_ifs with hxe
        · subst hxe
          exact .inr ((h₁.links _ _ hlink hx).grows h₁.inv hgrows')
        · exact .inl rfl
    | @created t hlink hcreate heq =>
      have henslaves' : Enslaves t.world s'.world e master := by
        rw [heq] at henslaves
        exact henslaves
      have hlinks : ∀ ptr, s'.link ptr = s₁.link ptr ∨
          s₁.link ptr = none ∧ s'.link ptr = some e := by
        intro ptr
        rw [hturn.link, heq]
        dsimp only
        by_cases hptr : ptr = iface.ptr
        · rw [hptr, Function.update_self]
          exact .inr ⟨hlink, rfl⟩
        · rw [Function.update_of_ne hptr, hcreate.link]
          exact .inl rfl
      obtain ⟨hgrows', h'⟩ := h₁.created hcreate henslaves' hinv hlinks
      exact ⟨hgrows.trans hgrows', h'⟩

theorem portMaster_vouching (h : Vouching vports root brList w s) {port : OvsPort}
    {r : Except Int (Option IfPtr)} (hrun : portMaster root br main port s = some (r, s')) :
    Grows s s' ∧ Vouching vports root brList w s' := by
  have hturn := portMaster_turn root br main port s s rfl r s' hrun
  cases r with
  | error err =>
    rw [hturn]
    exact ⟨.refl s, h⟩
  | ok master =>
    have hinv := portMaster_triple peerInvariant_true br main port s h.inv _ s' hrun
    cases hturn with
    | sole _ heq =>
      rw [heq]
      exact ⟨.refl s, h⟩
    | several _ hcreate henslaves hlink =>
      exact h.created hcreate henslaves hinv fun ptr => .inl (congrFun hlink ptr)

def Mainly (vports : NsPtr → CStr → Prop) (root : NsPtr) (brList : List OvsBridge) (w : World)
    (main : OvsIf) (s : OvsState) : Prop :=
  Vouching vports root brList w s ∧ (s.link main.ptr).isSome

theorem Mainly.grows (h : Mainly vports root brList w main s)
    (hstep : Grows s s' ∧ Vouching vports root brList w s') :
    Mainly vports root brList w main s' := by
  obtain ⟨e, he⟩ := Option.isSome_iff_exists.mp h.2
  refine ⟨hstep.2, ?_⟩
  rw [hstep.1.link _ e he]
  rfl

theorem linkPort_vouching (hw : FromKernel w) (hsound : SoundVports env vports)
    (hbr : br ∈ brList) (hmain : MainIface br main) {port : OvsPort} (hport : port ∈ br.ports) :
    Prog.Runs (Mainly vports root brList w main) (linkPort env root br main port)
      (fun _ => Mainly vports root brList w main) (Mainly vports root brList w main) := by
  have hmaster : Prog.Runs (Mainly vports root brList w main) (portMaster root br main port)
      (fun _ => Mainly vports root brList w main) (Mainly vports root brList w main) := by
    intro s hs r s' hrun
    have hend := hs.grows (portMaster_vouching hs.1 hrun)
    cases r <;> exact hend
  apply Prog.Triple.bind hmaster
  intro master
  apply Prog.Triple.forEach
  intro iface hmem s hs r s' hrun
  have hiface : iface ∈ br.ifaces := by
    rw [hmain.ifaces]
    exact List.mem_cons_of_mem _ (List.mem_flatMap.mpr ⟨port, hport, hmem⟩)
  have hend := hs.grows (linkPortIface_vouching hw hsound hbr hiface hmain hs.2 hs.1 hrun)
  cases r <;> exact hend

theorem linkBridge_vouching (hw : FromKernel w) (hsound : SoundVports env vports)
    (hbr : br ∈ brList) :
    Prog.Runs (Vouching vports root brList w) (linkBridge env root br)
      (fun _ => Vouching vports root brList w) (Vouching vports root brList w) := by
  by_cases hmain : ∃ main, MainIface br main
  swap
  · obtain ⟨text, hskipped⟩ := linkBridge_skipped env root (not_exists.mp hmain)
    rw [hskipped]
    apply Prog.Triple.modify
    intro s hs
    have hsteady := labelAdd_steady s.world root text
    have hgrows : Grows s { s with world := s.world.modifyNs root (·.labelAdd text) } :=
      ⟨fun _ _ => id, fun x hx => ⟨by rwa [hsteady.frame.listed], hsteady.frame.kept x⟩⟩
    exact hs.step hgrows hs.inv.warned (fun ptr x hx _ => .inl hx) fun x _ => .inl (hsteady.master x)
  obtain ⟨main, hmain⟩ := hmain
  have hiface : main ∈ br.ifaces := by
    rw [hmain.ifaces]
    exact List.mem_cons_self
  rw [linkBridge_main env root hmain]
  have hlook : Prog.Runs (Vouching vports root brList w)
      (Prog.attempt (linkIface env root br main true))
      (fun r s => Vouching vports root brList w s ∧ (r = .ok () → (s.link main.ptr).isSome))
      (Vouching vports root brList w) := by
    apply Prog.Triple.attempt
    intro s hs r s' hrun
    have hend := (linkIface_vouching hw hsound hbr hiface hmain (.inl rfl) hs hrun).2
    have hlooked := linkIface_looked env root br main true s s rfl r s' hrun
    cases r with
    | error err => exact ⟨hend, nofun⟩
    | ok u => exact ⟨hend, fun _ => hlooked.2 rfl⟩
  apply Prog.Triple.bind hlook
  intro r
  cases r with
  | error err =>
    dsimp only
    split_ifs
    · exact Prog.Triple.pure fun _ hs => hs.1
    · exact Prog.Triple.throw fun _ hs => hs.1
  | ok u =>
    have hports : Prog.Runs (Mainly vports root brList w main)
        (Prog.forEach br.ports (linkPort env root br main))
        (fun _ => Mainly vports root brList w main) (Mainly vports root brList w main) :=
      Prog.Triple.forEach fun port hport => linkPort_vouching hw hsound hbr hmain hport
    intro s hs r s' hrun
    have hend := hports s ⟨hs.1, hs.2 rfl⟩ r s' hrun
    cases r <;> exact hend.1

theorem linkIfaces_vouching (hw : FromKernel w) (hsound : SoundVports env vports) :
    Prog.Runs (Vouching vports root brList w) (linkIfaces env root brList)
      (fun _ => Vouching vports root brList w) (Vouching vports root brList w) :=
  Prog.Triple.forEach fun _ hbr => linkBridge_vouching hw hsound hbr

end

/-! ## With the answers of the kernel -/

def vportOvsEnv (vportGenlId : UInt16) (calls : NsPtr → IfPtr → World → VportEnv)
    (inetPton : Int → CStr → Option (List UInt8)) : OvsEnv where
  checkVport ns e w := checkVport vportGenlId (calls ns e w) (w.ifs e).ifName
  inetPton := inetPton

section
variable {vports : NsPtr → CStr → Prop} {families : CStr → Option UInt16} {root : NsPtr}
  {brList : List OvsBridge} {w : World} {s s' : OvsState}

theorem soundVports {vportGenlId : UInt16} {calls : NsPtr → IfPtr → World → VportEnv}
    (inetPton : Int → CStr → Option (List UInt8))
    (hid : vportGenlId ≠ 0 → families OVS_VPORT_FAMILY = some vportGenlId)
    (hcalls : ∀ ns e w, AsksVport vportGenlId (calls ns e w) (w.ifs e).ifName families
      (vports ns)) : SoundVports (vportOvsEnv vportGenlId calls inetPton) vports := by
  intro ns e w hname hvport
  have hlength : (w.ifs e).ifName.length ≤ 65530 :=
    (Nat.le_of_lt hname.2).trans (by decide)
  exact checkVport_vouches hname.1 hlength hid (hcalls ns e w) hvport

theorem parse_vouching {answer : Except CStr Json} (hscan : w.Scanned) (hroot : root ∈ w.nsList)
    (hparse : parse root answer (postState w) = some (.ok brList, s)) :
    Vouching vports root brList w s := by
  let unlinked : OvsState → Prop := fun s => LinkInv (fun _ => True) root [] s ∧
    (∀ ptr, s.link ptr = none) ∧ s.world.ifs = w.ifs ∧ s.world.listed = w.listed
  have hcalloc : ∀ s, unlinked s →
      unlinked { s with link := Function.update s.link s.next none, next := s.next + 1 } := by
    rintro s ⟨hinv, hnone, hworld⟩
    refine ⟨hinv.callocIf, fun ptr => ?_, hworld⟩
    dsimp only
    rw [Function.update_apply, hnone, ite_self]
  have hwarn : ∀ s text, unlinked s →
      unlinked { s with world := s.world.modifyNs root (·.labelAdd text) } := by
    rintro s text ⟨hinv, hnone, hifs, hlisted⟩
    refine ⟨hinv.warned, hnone, hifs, ?_⟩
    rw [← hlisted]
    exact (labelAdd_steady s.world root text).frame.listed
  have hstart : unlinked (postState w) :=
    ⟨linkInv_postState hscan hroot, fun _ => rfl, rfl, rfl⟩
  have hpost : unlinked s ∧ Allocated s.next (allIfaces brList) :=
    parse_keeps hcalloc root hwarn answer (postState w)
      hstart (.ok brList) s hparse
  obtain ⟨⟨hinv, hnone, hifs, hlisted⟩, -⟩ := hpost
  refine ⟨hinv, fun x hx => ⟨hlisted ▸ hx, ?_⟩, fun ptr x hx _ => ?_, fun x _ => .inl ?_⟩
  · rw [hifs]
    exact .refl _
  · rw [hnone] at hx
    cases hx
  · rw [hifs]

/-- It is better to show an interface as unconnected than the other way round: no interface of the
kernel is linked or gets another master unless something speaks for it, whatever becomes of the
questions to the kernel and however the linking ends. -/
theorem linkIfaces_vouched {answer : Except CStr Json} {init : GenlEnv} {vportGenlId : UInt16}
    {calls : NsPtr → IfPtr → World → VportEnv}
    (inetPton : Int → CStr → Option (List UInt8)) (hscan : w.Scanned) (hroot : root ∈ w.nsList)
    (hkernel : FromKernel w) (hinit : AsksFamily init families OVS_VPORT_FAMILY)
    (hid : ovsGlobalInit init = some vportGenlId)
    (hcalls : ∀ ns e w, AsksVport vportGenlId (calls ns e w) (w.ifs e).ifName families (vports ns))
    (hparse : parse root answer (postState w) = some (.ok brList, s)) {r : Except Int Unit}
    (hrun : linkIfaces (vportOvsEnv vportGenlId calls inetPton) root brList s = some (r, s')) :
    ∀ x ∈ w.listed, ((∃ ptr, s'.link ptr = some x) ∨ (s'.world.ifs x).master ≠ (w.ifs x).master) →
      VouchedFor vports brList w s' x := by
  obtain ⟨id, hid', hfamily⟩ := ovsGlobalInit_told hinit
  obtain rfl := Option.some.inj (hid'.symm.trans hid)
  have hend := linkIfaces_vouching hkernel (soundVports inetPton hfamily hcalls) s
    (parse_vouching hscan hroot hparse) r s' hrun
  have hend : Vouching vports root brList w s' := by
    cases r <;> exact hend
  intro x hx htouched
  rcases htouched with ⟨ptr, hlink⟩ | hmaster
  · exact hend.links ptr x hlink hx
  · exact (hend.masters x hx).resolve_left hmaster

end

/-! A bond of the bridge `br0`, of which the kernel has one interface. It has no master there, as
with an old kernel, which is asked about it. -/

def oldKernelWorld : World where
  ifs
    | 1 => { ifIndex := 1, ifName := cstr "br0", driver := some (cstr "openvswitch") }
    | 2 => { ifIndex := 2, ifName := cstr "X", driver := some (cstr "virtio_net") }
    | _ => {}
  nss := fun _ => { ifaces := [1, 2] }
  nsList := [0]
  free := [3, 4, 5]

def familyMsg : Msg where
  type := 16
  flags := 0
  seq := 1
  pid := 7
  payload := [1, 2, 0, 0] ++ attrsBytes [(CTRL_ATTR_FAMILY_ID, leBytes 2 24)]
  pad := [0, 0]
  fits := by simp [attrsBytes, attrBytes]
  aligned := by simp [attrsBytes, attrBytes, align]

def vportMsg : Msg where
  type := 24
  flags := 0
  seq := 1
  pid := 9
  payload := [1, 1, 0, 0] ++ leBytes 4 5
  pad := []
  fits := by simp
  aligned := by simp [align]

def familyEvents : List NetEvent := [.kernel [familyMsg] (by decide) (by decide)]

def vportEvents : List NetEvent := [.kernel [vportMsg] (by decide) (by decide)]

def familyInit : GenlEnv where
  genlOpen := some ⟨7, 0⟩
  evs := familyEvents.map NetEvent.sock

def vportCalls (ns : NsPtr) (e : IfPtr) (w : World) : VportEnv where
  genlOpen := if ns = 0 ∧ (w.ifs e).ifName = cstr "X" then some ⟨9, 0⟩ else none
  evs := vportEvents.map NetEvent.sock

def vportFamilies (name : CStr) : Option UInt16 := if name = OVS_VPORT_FAMILY then some 24 else none

def kernelVports (ns : NsPtr) (name : CStr) : Prop := ns = 0 ∧ name = cstr "X"

def familySrc : NlMsg :=
  ⟨leBytes 4 34 ++ leBytes 2 16 ++ leBytes 2 1 ++ zeros 8 ++ [3, 1, 0, 0] ++
    attrBytes (CTRL_ATTR_FAMILY_NAME, OVS_VPORT_FAMILY ++ [0]), 0⟩

def vportSrc : NlMsg :=
  ⟨leBytes 4 30 ++ leBytes 2 24 ++ leBytes 2 1 ++ zeros 8 ++ [3, 1, 0, 0] ++ zeros 4 ++
    attrBytes (OVS_VPORT_ATTR_NAME, cstr "X" ++ [0]), 0⟩

theorem vportTrace_run : ∃ net, Net.Run (VportReply (vportFamilies OVS_VPORT_FAMILY)
    (kernelVports 0)) 9 [.send 1 vportSrc, .event (.datagram 0 (wire [vportMsg]))] net := by
  have hvport : requestedVport (vportFamilies OVS_VPORT_FAMILY) vportSrc = some (cstr "X") := by
    decide +kernel
  have hstart : Net.Run (VportReply (vportFamilies OVS_VPORT_FAMILY) (kernelVports 0)) 9 [] {} :=
    .start
  have hsend := hstart.step (.send {} 1 vportSrc)
  have hanswer := hsend.step (.reply _ vportSrc vportMsg (by simp [vportMsg]) rfl
    (.inr ⟨by decide, fun name hreq => ⟨rfl, (Option.some.inj (hvport.symm.trans hreq)).symm⟩⟩))
  exact ⟨_, hanswer.step (.event _ (.kernel [vportMsg] (by decide) (by decide))
    (by simp [NetEvent.msgs]))⟩

theorem vportCalls_ask (ns : NsPtr) (e : IfPtr) (w : World) :
    AsksVport 24 (vportCalls ns e w) (w.ifs e).ifName vportFamilies (kernelVports ns) := by
  intro s req hs hreq
  have hasked : ns = 0 ∧ (w.ifs e).ifName = cstr "X" := by
    by_contra hno
    have hclosed : (vportCalls ns e w).opened = none := by
      rw [GenlEnv.opened, vportCalls, if_neg hno]
      rfl
    rw [hclosed] at hs
    cases hs
  obtain ⟨rfl, hname⟩ := hasked
  have hopened : (vportCalls 0 e w).opened = some ⟨⟨9, 0⟩, vportEvents.map NetEvent.sock, []⟩ := by
    rw [GenlEnv.opened, vportCalls, if_pos ⟨rfl, hname⟩]
    rfl
  rw [hopened] at hs
  obtain rfl := Option.some.inj hs
  rw [hname] at hreq
  have hsrc : req.msg = vportSrc := by
    have hclosed : (vportRequest 24 { genlOpen := none, evs := [] } (cstr "X")).map OutMsg.msg =
        some vportSrc := by
      decide +kernel
    have hsame : vportRequest 24 (vportCalls 0 e w) (cstr "X") =
        vportRequest 24 { genlOpen := none, evs := [] } (cstr "X") := rfl
    rw [← hsame, hreq] at hclosed
    exact Option.some.inj hclosed
  have htrace : (Session.exchange ⟨⟨9, 0⟩, vportEvents.map NetEvent.sock, []⟩ {} vportSrc).trace =
      [.send 1 vportSrc, .event (.datagram 0 (wire [vportMsg]))] := rfl
  obtain ⟨net, hrun⟩ := vportTrace_run
  rw [← htrace] at hrun
  refine ⟨net, ?_⟩
  rw [hsrc]
  exact hrun

theorem familyInit_asks : AsksFamily familyInit vportFamilies OVS_VPORT_FAMILY := by
  intro s hs
  obtain rfl := Option.some.inj hs
  have htrace : (genlFamilyId familyInit OVS_VPORT_FAMILY
      ⟨⟨7, 0⟩, familyInit.evs, []⟩).2.trace =
        [.send 1 familySrc, .event (.datagram 0 (wire [familyMsg]))] := rfl
  rw [htrace]
  have hstart : Net.Run (Tells GENL_HDRLEN CTRL_ATTR_FAMILY_ID.toNat (familyValue vportFamilies)) 7
      [] {} := .start
  have hsend := hstart.step (.send {} 1 familySrc)
  have hanswer := hsend.step (.reply _ familySrc familyMsg (by simp [familyMsg]) rfl
    (.inr ⟨by decide, [1, 2, 0, 0], [(CTRL_ATTR_FAMILY_ID, leBytes 2 24)], by decide, by decide,
      by decide, by decide +kernel⟩))
  exact ⟨_, hanswer.step (.event _ (.kernel [familyMsg] (by decide) (by decide))
    (by simp [NetEvent.msgs]))⟩

theorem oldKernelWorld_scanned : oldKernelWorld.Scanned where
  nsNodup := List.nodup_singleton 0
  nodup := show [1, 2].Nodup by decide
  home := by
    intro n hn e he
    obtain rfl : n = 0 := List.mem_singleton.mp hn
    rcases List.mem_cons.mp he with rfl | he
    · rfl
    · obtain rfl := List.mem_singleton.mp he
      rfl
  ids := nofun
  addr := by
    intro e he
    rcases List.mem_cons.mp he with rfl | he
    · exact nofun
    · obtain rfl : e = 2 := List.mem_singleton.mp he
      exact nofun
  fresh := by
    intro e he hlisted
    have hnone : ∀ e ∈ [3, 4, 5], e ∉ [1, 2] := by decide
    exact hnone e he hlisted
  freeNodup := show [3, 4, 5].Nodup by decide

theorem oldKernelWorld_fromKernel : FromKernel oldKernelWorld where
  names := by
    intro x hx
    have hnames : ∀ x ∈ [1, 2], 0 ∉ (oldKernelWorld.ifs x).ifName ∧
        (oldKernelWorld.ifs x).ifName.length < 16 := by
      decide +kernel
    exact hnames x hx
  masters := by
    intro x hx m hm
    have hfree : ∀ x ∈ [1, 2], (oldKernelWorld.ifs x).master = none := by
      decide +kernel
    rw [hfree x hx] at hm
    cases hm

theorem linkIfaces_vouched_old : ∃ brList s s',
    linkIfaces (vportOvsEnv 24 vportCalls fun _ _ => none) 0 brList s = some (.ok (), s') ∧
      (s'.world.ifs 2).master ≠ (oldKernelWorld.ifs 2).master ∧
      VouchedFor kernelVports brList oldKernelWorld s' 2 := by
  have hcheck : ((replyRun (vportOvsEnv 24 vportCalls fun _ _ => none) 0 (bondReply "br0" "X")
      oldKernelWorld).any fun r =>
        decide ((r.2.2.world.ifs 2).master ≠ (oldKernelWorld.ifs 2).master)) = true := by
    decide +kernel
  obtain ⟨⟨brList, s, s'⟩, hreply, hall⟩ := (Option.any_eq_true _ _).mp hcheck
  obtain ⟨hparse, hrun⟩ := replyRun_eq_some hreply
  have hmaster := of_decide_eq_true hall
  have hid : ovsGlobalInit familyInit = some 24 := by
    decide +kernel
  refine ⟨brList, s, s', hrun, hmaster, ?_⟩
  exact linkIfaces_vouched (fun _ _ => none) oldKernelWorld_scanned (List.mem_singleton_self 0)
    oldKernelWorld_fromKernel familyInit_asks hid vportCalls_ask hparse hrun 2
    (show 2 ∈ [1, 2] by decide) (.inr hmaster)

end Plotnetcfg.Openvswitch
