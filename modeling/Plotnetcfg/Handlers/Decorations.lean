import Plotnetcfg.Netns.If

/-! What the callbacks of the handlers write while an interface is read: its labels, its paths and
the indexes of other interfaces, and nothing of any other interface. -/

namespace Plotnetcfg

structure IfIndexes where
  master : UInt32
  link : UInt32
  linkNetnsid : Int
  peer : UInt32
  peerNetnsid : Int

def IfIndexes.unlinked (i : IfIndexes) : IfIndexes := { i with link := 0 }

def IfEntry.indexes (x : IfEntry) : IfIndexes where
  master := x.masterIndex
  link := x.linkIndex
  linkNetnsid := x.linkNetnsid
  peer := x.peerIndex
  peerNetnsid := x.peerNetnsid

/-- An interface without what callbacks write. -/
def IfEntry.undecorated (x : IfEntry) : IfEntry :=
  { x with
    properties := []
    masterIndex := 0
    linkIndex := 0
    linkNetnsid := -1
    peerIndex := 0
    peerNetnsid := -1
    pciPath := none
    pciPhysfnPath := none
    edgeLabel := none
    warnings := 0 }

theorem IfEntry.field_eq {α : Type} {x y : IfEntry} (h : y.undecorated = x.undecorated)
    (field : IfEntry → α) (hfield : ∀ z, field z.undecorated = field z) : field y = field x := by
  rw [← hfield, h, hfield]

def NetnsEntry.unwarned (ns : NetnsEntry) : NetnsEntry := { ns with warnings := [] }

/-- The drivers whose netlink callback reads the index of the lower device. -/
def relinkedDrivers : List CStr :=
  [cstr "gre", cstr "gretap", cstr "erspan", cstr "ip6gre", cstr "ip6gretap", cstr "ip6erspan",
    cstr "ipip", cstr "sit", cstr "ip6tnl"]

def IfEntry.Relinked (x : IfEntry) : Prop := ∃ d ∈ relinkedDrivers, x.driver = some d

/-- The indexes are `i`, but for that of a lower device that a callback has read. -/
structure IfEntry.Points (x : IfEntry) (i : IfIndexes) : Prop where
  unlinked : x.indexes.unlinked = i.unlinked
  indexes : ¬ x.Relinked → x.indexes = i

theorem IfEntry.Points.of_eq {x : IfEntry} {i : IfIndexes} (h : x.indexes = i) : x.Points i :=
  ⟨by rw [h], fun _ => h⟩

theorem IfEntry.Points.trans {x y : IfEntry} {i : IfIndexes} (h : x.Points i)
    (hdriver : y.driver = x.driver) (h' : y.Points x.indexes) : y.Points i where
  unlinked := h'.unlinked.trans h.unlinked
  indexes hnot := by
    have hnot' : ¬ x.Relinked := by
      unfold IfEntry.Relinked at hnot ⊢
      rwa [← hdriver]
    rw [h'.indexes hnot, h.indexes hnot']

namespace World

/-- At most the interface `x` is another one in `w'`, and there may be more warnings. -/
structure Beside (x : IfPtr) (w w' : World) : Prop where
  others : ∀ e ≠ x, w'.ifs e = w.ifs e
  unwarned : ∀ n, (w'.nss n).unwarned = (w.nss n).unwarned
  nsList : w'.nsList = w.nsList
  free : w'.free = w.free

/-- Callbacks for `x` make `w'` of `w`. -/
structure Touched (x : IfPtr) (w w' : World) : Prop extends Beside x w w' where
  undecorated : (w'.ifs x).undecorated = (w.ifs x).undecorated

/-- They leave the indexes as they are. -/
structure Decorated (x : IfPtr) (w w' : World) : Prop extends Touched x w w' where
  points : (w'.ifs x).Points (w.ifs x).indexes

section
variable {x : IfPtr} {w w' w'' : World}

theorem Beside.refl (x : IfPtr) (w : World) : Beside x w w :=
  ⟨fun _ _ => rfl, fun _ => rfl, rfl, rfl⟩

theorem Beside.trans (h : Beside x w w') (h' : Beside x w' w'') : Beside x w w'' where
  others e he := (h'.others e he).trans (h.others e he)
  unwarned n := (h'.unwarned n).trans (h.unwarned n)
  nsList := h'.nsList.trans h.nsList
  free := h'.free.trans h.free

theorem Beside.modifyIf (w : World) (x : IfPtr) (f : IfEntry → IfEntry) :
    Beside x w (w.modifyIf x f) where
  others e he := by rw [modifyIf_ifs, if_neg he]
  unwarned _ := rfl
  nsList := rfl
  free := rfl

theorem Beside.ifaces (h : Beside x w w') (n : NsPtr) : (w'.nss n).ifaces = (w.nss n).ifaces := by
  have hifaces := congrArg NetnsEntry.ifaces (h.unwarned n)
  exact hifaces

theorem Touched.refl (x : IfPtr) (w : World) : Touched x w w := ⟨.refl x w, rfl⟩

theorem Touched.trans (h : Touched x w w') (h' : Touched x w' w'') : Touched x w w'' where
  toBeside := h.toBeside.trans h'.toBeside
  undecorated := h'.undecorated.trans h.undecorated

theorem Touched.field {α : Type} (h : Touched x w w') (field : IfEntry → α)
    (hfield : ∀ y, field y.undecorated = field y) (e : IfPtr) :
    field (w'.ifs e) = field (w.ifs e) := by
  by_cases he : e = x
  · rw [he]
    exact IfEntry.field_eq h.undecorated field hfield
  · rw [h.others e he]

theorem Touched.driver (h : Touched x w w') : (w'.ifs x).driver = (w.ifs x).driver :=
  h.field IfEntry.driver (fun _ => rfl) x

theorem Touched.modifyIf (w : World) (x : IfPtr) {f : IfEntry → IfEntry}
    (hf : (f (w.ifs x)).undecorated = (w.ifs x).undecorated) : Touched x w (w.modifyIf x f) where
  toBeside := .modifyIf w x f
  undecorated := by rw [modifyIf_ifs, if_pos rfl, hf]

theorem Decorated.refl (x : IfPtr) (w : World) : Decorated x w w := ⟨.refl x w, .of_eq rfl⟩

theorem Decorated.trans (h : Decorated x w w') (h' : Decorated x w' w'') : Decorated x w w'' where
  toTouched := h.toTouched.trans h'.toTouched
  points := h.points.trans h'.driver h'.points

end

end World

namespace Handlers

open Plotnetcfg.Netlink Bytes

def Decorates {α : Type} (w₀ : World) (x : IfPtr) (p : HandlerProg α) : Prop :=
  Prog.Runs (fun s => w₀.Decorated x s.world) p (fun _ s => w₀.Decorated x s.world)
    fun s => w₀.Decorated x s.world

section
variable {w₀ : World} {x : IfPtr} {α β : Type}

/-! ## Composition -/

theorem Decorates.pure (a : α) : Decorates w₀ x (pure a) := Prog.Triple.pure fun _ => id

theorem decorates_fail (code : Int) : Decorates w₀ x (fail code : HandlerProg α) :=
  Prog.Triple.throw fun _ => id

theorem decorates_throw (stop : Stop) : Decorates w₀ x (Prog.throw stop : HandlerProg α) :=
  Prog.Triple.throw fun _ => id

theorem decorates_get : Decorates w₀ x (Prog.get : HandlerProg ScanState) :=
  Prog.Triple.get fun _ => id

theorem decorates_deref (a : Option α) : Decorates w₀ x (Prog.deref a : HandlerProg α) :=
  Prog.Triple.deref fun _ _ _ => id

theorem decorates_fault : Decorates w₀ x (Prog.fault : HandlerProg α) := by
  intro s hs r s' hrun
  cases hrun

theorem Decorates.bind {p : HandlerProg α} {f : α → HandlerProg β} (hp : Decorates w₀ x p)
    (hf : ∀ a, Decorates w₀ x (f a)) : Decorates w₀ x (p >>= f) := Prog.Triple.bind hp hf

theorem Decorates.ite {c : Prop} [Decidable c] {p q : HandlerProg α} (hp : Decorates w₀ x p)
    (hq : Decorates w₀ x q) : Decorates w₀ x (if c then p else q) :=
  Prog.Triple.ite (fun _ => hp) fun _ => hq

theorem decorates_forEach {l : List β} {f : β → HandlerProg Unit}
    (hf : ∀ b ∈ l, Decorates w₀ x (f b)) : Decorates w₀ x (Prog.forEach l f) :=
  Prog.Triple.forEach hf

theorem Decorates.attempt {p : HandlerProg α} (hp : Decorates w₀ x p) :
    Decorates w₀ x (Prog.attempt p : HandlerProg (Except Stop α)) :=
  Prog.Triple.attempt (Q := fun _ (s : ScanState) => w₀.Decorated x s.world) hp

theorem Decorates.onError {p : HandlerProg α} {cleanup : Stop → HandlerProg Unit}
    (hp : Decorates w₀ x p) (hcleanup : ∀ stop, Decorates w₀ x (cleanup stop)) :
    Decorates w₀ x (Prog.onError p cleanup) :=
  Prog.Triple.onError hp hcleanup

theorem decorates_withSome {a : Option α} {f : α → HandlerProg Unit}
    (hf : ∀ a, Decorates w₀ x (f a)) : Decorates w₀ x (withSome a f) := by
  cases a with
  | none => exact Decorates.pure ()
  | some a => exact hf a

/-! ## Steps -/

theorem decorates_modify {f : ScanState → ScanState} (hf : ∀ s, (f s).world = s.world) :
    Decorates w₀ x (Prog.modify f) := by
  apply Prog.Triple.modify
  intro s hs
  rw [hf s]
  exact hs

theorem modifyWorld_run (f : World → World) (s : ScanState) :
    modifyWorld f s = some (.ok (), { s with world := f s.world }) := rfl

theorem modifyWorld_triple {P Q : World → Prop} {E : Stop → ScanState → Prop} {f : World → World}
    (hf : ∀ w, P w → Q (f w)) :
    Prog.Triple (fun s => P s.world) (modifyWorld f) (fun _ s => Q s.world) E := by
  intro s hs r s' hrun
  rw [modifyWorld_run] at hrun
  obtain ⟨rfl, rfl⟩ := Prod.mk.inj (Option.some.inj hrun)
  exact hf s.world hs

theorem decorates_modifyIf (x : IfPtr) {f : IfEntry → IfEntry}
    (hf : ∀ y, (f y).undecorated = y.undecorated ∧ (f y).indexes = y.indexes) :
    Decorates w₀ x (modifyWorld (·.modifyIf x f)) := by
  apply modifyWorld_triple
  intro w hw
  apply hw.trans
  refine ⟨.modifyIf w x (hf _).1, .of_eq ?_⟩
  rw [World.modifyIf_ifs, if_pos rfl, (hf _).2]

theorem decorates_addWarning (x : IfPtr) (text : CStr) :
    Decorates w₀ x (modifyWorld (ifAddWarning x text)) := by
  apply modifyWorld_triple
  intro w hw
  apply hw.trans
  have hifs := fun e => ifAddWarning_ifs x e text w
  refine ⟨⟨⟨fun e he => ?_, fun n => ?_, rfl, rfl⟩, ?_⟩, .of_eq ?_⟩
  · rw [hifs, if_neg he]
  · rw [ifAddWarning, World.modifyNs_nss]
    split_ifs
    · rfl
    · rfl
  · rw [hifs, if_pos rfl]
    rfl
  · rw [hifs, if_pos rfl]
    rfl

theorem decorates_addConfig (x : IfPtr) (key value : CStr) :
    Decorates w₀ x (addConfig x key value) :=
  decorates_modifyIf x fun _ => ⟨rfl, rfl⟩

theorem malloc_world {P : World → Prop} : Prog.Runs (fun s => P s.world) malloc
    (fun _ s => P s.world) fun s => P s.world := by
  intro s hs r s' hrun
  unfold malloc at hrun
  split at hrun
  · obtain ⟨rfl, rfl⟩ := Prod.mk.inj (Option.some.inj hrun)
    exact hs
  · obtain ⟨rfl, rfl⟩ := Prod.mk.inj (Option.some.inj hrun)
    exact hs

theorem allocate_world {P : World → Prop} : Prog.Runs (fun s => P s.world) allocate
    (fun _ s => P s.world) fun s => P s.world := by
  apply Prog.Triple.bind malloc_world
  intro ok
  apply Prog.Triple.ite
  · exact fun _ => Prog.Triple.pure fun _ => id
  · exact fun _ => Prog.Triple.throw fun _ => id

theorem decorates_malloc : Decorates w₀ x malloc := malloc_world

theorem decorates_allocate : Decorates w₀ x allocate := allocate_world

theorem decorates_misuse (x' : IfPtr) : Decorates w₀ x (misuse x' : HandlerProg α) := by
  intro s hs r s' hrun
  obtain ⟨rfl, rfl⟩ := Prod.mk.inj (Option.some.inj hrun)
  exact hs

theorem decorates_setBlock (x : IfPtr) (block : Block) : Decorates w₀ x (setBlock x block) :=
  decorates_modify fun _ => rfl

theorem decorates_derefPrivate (view : Private → Option α) (x : IfPtr) :
    Decorates w₀ x (derefPrivate view x) := by
  apply decorates_get.bind
  intro s
  cases s.priv x with
  | unset => exact decorates_misuse x
  | released => exact decorates_misuse x
  | live priv =>
    dsimp only
    cases view priv with
    | none => exact decorates_misuse x
    | some a => exact Decorates.pure a

theorem decorates_writePrivate (x : IfPtr) (priv : Private) :
    Decorates w₀ x (writePrivate x priv) := by
  apply decorates_get.bind
  intro s
  cases s.priv x with
  | live _ => exact decorates_setBlock x _
  | unset => exact decorates_misuse x
  | released => exact decorates_misuse x

theorem decorates_callocPrivate (x : IfPtr) (priv : Private) :
    Decorates w₀ x (callocPrivate x priv) :=
  decorates_allocate.bind fun _ => decorates_setBlock x _

theorem decorates_freePrivate (x : IfPtr) : Decorates w₀ x (freePrivate x) := by
  apply decorates_get.bind
  intro s
  cases s.priv x with
  | unset => exact Decorates.pure ()
  | live _ => exact decorates_setBlock x _
  | released => exact decorates_misuse x

theorem decorates_errPriv (x : IfPtr) (stop : Stop) : Decorates w₀ x (errPriv x stop) := by
  cases stop with
  | err code => exact decorates_freePrivate x
  | crash => exact Decorates.pure ()

/-! ## Netlink callbacks -/

theorem decorates_initAddr (family prefixlen : Int) (raw : List UInt8) :
    Decorates w₀ x (initAddr family prefixlen raw) := by
  apply decorates_malloc.bind
  intro mallocOk
  apply Decorates.bind
  · unfold mallocNext
    exact decorates_malloc.ite (Decorates.pure true)
  · exact fun strdupOk => (Decorates.pure _).ite (decorates_fail _)

theorem decorates_attrConfig (x : IfPtr) (key : CStr) (attr : Option (List UInt8))
    (value : List UInt8 → CStr) : Decorates w₀ x (attrConfig x key attr value) :=
  decorates_withSome fun _ => decorates_addConfig x key _

theorem decorates_remoteConfig (x : IfPtr) (key : CStr) (family : Int)
    (attr : Option (List UInt8)) : Decorates w₀ x (remoteConfig x key family attr) := by
  apply decorates_withSome
  intro a
  apply (decorates_initAddr family (-1) _).bind
  exact fun addr => (Decorates.pure ()).ite (decorates_addConfig x key _)

theorem decorates_localConfig (x : IfPtr) (family : Int) (attr : Option (List UInt8)) :
    Decorates w₀ x (localConfig x family attr) := by
  apply (decorates_writePrivate x _).bind
  intro _
  apply decorates_withSome
  intro a
  apply (decorates_initAddr family (-1) _).bind
  intro addr
  apply (decorates_writePrivate x _).bind
  exact fun _ => (Decorates.pure ()).ite (decorates_addConfig x _ _)

theorem decorates_keyConfig (x : IfPtr) (key : CStr) (attr : Option (List UInt8)) :
    Decorates w₀ x (keyConfig x key attr) :=
  decorates_withSome fun _ => (Decorates.pure ()).ite (decorates_addConfig x key _)

theorem decorates_portConfig (x : IfPtr) (default : UInt16) (attr : Option (List UInt8)) :
    Decorates w₀ x (portConfig x default attr) :=
  decorates_withSome fun _ => (Decorates.pure ()).ite (decorates_addConfig x _ _)

theorem decorates_setLinkIndex (hlink : (w₀.ifs x).Relinked) (attr : Option (List UInt8)) :
    Decorates w₀ x (setLinkIndex x attr) := by
  apply decorates_withSome
  intro a
  apply modifyWorld_triple
  intro w hw
  have htouched : w.Touched x (w.modifyIf x fun y =>
      { y with linkIndex := (nlaReadU8 a).toUInt32 }) := .modifyIf w x rfl
  apply hw.trans
  refine ⟨htouched, ?_, fun hnot => ?_⟩
  · rw [World.modifyIf_ifs, if_pos rfl]
    rfl
  · apply absurd _ hnot
    unfold IfEntry.Relinked
    rwa [htouched.driver, hw.driver]

theorem decorates_tunnelNetlink (x : IfPtr) (linkinfo : Option Attrs) (max : Nat)
    {body : Attrs → HandlerProg Unit} (hbody : ∀ tb, Decorates w₀ x (body tb)) :
    Decorates w₀ x (tunnelNetlink x linkinfo max body) := by
  unfold tunnelNetlink
  cases infoData linkinfo with
  | none => exact decorates_fail _
  | some data =>
    apply (decorates_callocPrivate x _).bind
    exact fun _ => (decorates_allocate.bind fun _ => hbody _).onError (decorates_errPriv x)

theorem decorates_greCommonNetlink (hlink : (w₀.ifs x).Relinked) (family : Int)
    (linkinfo : Option Attrs) :
    Decorates w₀ x (greCommonNetlink family x linkinfo) := by
  apply decorates_tunnelNetlink
  intro tb
  apply (decorates_localConfig x family _).bind
  intro _
  apply (decorates_remoteConfig x _ family _).bind
  intro _
  apply (decorates_setLinkIndex hlink _).bind
  exact fun _ => (decorates_keyConfig x _ _).bind fun _ => decorates_keyConfig x _ _

theorem decorates_ipxipyNetlink (hlink : (w₀.ifs x).Relinked) (family : Int)
    (linkinfo : Option Attrs) :
    Decorates w₀ x (ipxipyNetlink family x linkinfo) := by
  have hproto (a : List UInt8) : Decorates w₀ x (protoConfig x a) :=
    (decorates_addConfig x _ _).ite ((decorates_addConfig x _ _).ite
      ((decorates_addConfig x _ _).ite (Decorates.pure ())))
  apply decorates_tunnelNetlink
  intro tb
  apply (decorates_localConfig x family _).bind
  intro _
  apply (decorates_remoteConfig x _ family _).bind
  intro _
  apply (decorates_setLinkIndex hlink _).bind
  exact fun _ => (decorates_withSome hproto).ite (Decorates.pure ())

theorem decorates_vtiNetlink (family : Int) (x : IfPtr) (linkinfo : Option Attrs) :
    Decorates w₀ x (vtiNetlink family x linkinfo) := by
  apply decorates_tunnelNetlink
  intro tb
  apply (decorates_remoteConfig x _ family _).bind
  intro _
  apply (decorates_localConfig x family _).bind
  exact fun _ => (decorates_keyConfig x _ _).bind fun _ => decorates_keyConfig x _ _

theorem decorates_vxlanFillAddr (addr : Option Addr) (aiFamily : Int) (attr : Option (List UInt8)) :
    Decorates w₀ x (vxlanFillAddr addr aiFamily attr) := by
  unfold vxlanFillAddr
  split
  · apply decorates_allocate.bind
    exact fun _ => (decorates_initAddr aiFamily _ _).bind fun _ => Decorates.pure _
  · exact Decorates.pure _

theorem decorates_ownBlockNetlink (x : IfPtr) (zeroed : Private) (linkinfo : Option Attrs)
    (max : Nat) {body : Attrs → HandlerProg Unit} (hbody : ∀ tb, Decorates w₀ x (body tb)) :
    Decorates w₀ x (ownBlockNetlink x zeroed linkinfo max body) := by
  apply (decorates_callocPrivate x _).bind
  intro _
  apply Decorates.onError
  · cases infoData linkinfo with
    | none => exact decorates_fail _
    | some data => exact decorates_allocate.bind fun _ => hbody _
  · exact decorates_errPriv x

theorem decorates_vxlanNetlink (x : IfPtr) (linkinfo : Option Attrs) :
    Decorates w₀ x (vxlanNetlink x linkinfo) := by
  apply decorates_ownBlockNetlink
  intro tb
  apply (decorates_attrConfig x _ _ _).bind
  intro _
  apply (decorates_portConfig x _ _).bind
  intro _
  apply Decorates.ite
  · exact (decorates_writePrivate x _).bind fun _ => decorates_addConfig x _ _
  · apply (decorates_vxlanFillAddr _ _ _).bind
    intro _
    apply (decorates_vxlanFillAddr _ _ _).bind
    intro _
    apply (decorates_vxlanFillAddr _ _ _).bind
    intro _
    exact (decorates_vxlanFillAddr _ _ _).bind fun _ => decorates_writePrivate x _

theorem decorates_geneveNetlink (x : IfPtr) (linkinfo : Option Attrs) :
    Decorates w₀ x (geneveNetlink x linkinfo) := by
  apply decorates_ownBlockNetlink
  intro tb
  apply (decorates_attrConfig x _ _ _).bind
  intro _
  apply (decorates_portConfig x _ _).bind
  intro _
  apply (decorates_remoteConfig x _ _ _).bind
  exact fun _ => (decorates_remoteConfig x _ _ _).bind fun _ => decorates_attrConfig x _ _ _

theorem decorates_infoData {linkinfo : Option Attrs} {body : List UInt8 → HandlerProg Unit}
    (hbody : ∀ data, Decorates w₀ x (body data)) :
    Decorates w₀ x (match infoData linkinfo with
      | none => fail ENOENT
      | some data => do
        allocate
        body data) := by
  cases infoData linkinfo with
  | none => exact decorates_fail _
  | some data => exact decorates_allocate.bind fun _ => hbody data

theorem decorates_bondNetlink (x : IfPtr) (linkinfo : Option Attrs) :
    Decorates w₀ x (bondNetlink x linkinfo) := by
  apply decorates_infoData
  intro data
  have hwrite (f : BondPrivate → Private) :
      Decorates w₀ x (do let priv ← derefPrivate bondPriv x; writePrivate x (f priv)) :=
    (decorates_derefPrivate bondPriv x).bind fun _ => decorates_writePrivate x _
  apply (decorates_withSome fun _ => hwrite _).bind
  exact fun _ => decorates_withSome fun _ => hwrite _

theorem decorates_setEdgeLabel (x : IfPtr) (text : CStr) : Decorates w₀ x (setEdgeLabel x text) :=
  decorates_allocate.bind fun _ => decorates_modifyIf x fun _ => ⟨rfl, rfl⟩

theorem decorates_macsecNetlink (x : IfPtr) (linkinfo : Option Attrs) :
    Decorates w₀ x (macsecNetlink x linkinfo) := by
  apply decorates_infoData
  intro data
  cases nlaNestedAttrs data IFLA_MACSEC_MAX IFLA_MACSEC_SCI with
  | none => exact decorates_fail _
  | some a => exact decorates_setEdgeLabel x _

theorem decorates_vlanNetlink (x : IfPtr) (linkinfo : Option Attrs) :
    Decorates w₀ x (vlanNetlink x linkinfo) := by
  apply decorates_infoData
  intro data
  cases nlaNestedAttrs data IFLA_VLAN_MAX IFLA_VLAN_ID with
  | none => exact decorates_fail _
  | some a => exact (decorates_writePrivate x _).bind fun _ => decorates_setEdgeLabel x _

theorem decorates_xfrmNetlink (x : IfPtr) (linkinfo : Option Attrs) :
    Decorates w₀ x (xfrmNetlink x linkinfo) :=
  decorates_infoData fun _ => decorates_attrConfig x _ _ _

/-! ## Scans -/

variable (env : HandlerEnv)

theorem decorates_bondGetSysfs (x : IfPtr) (prop : CStr) :
    Decorates w₀ x (bondGetSysfs env x prop) := by
  apply decorates_malloc.bind
  intro _
  apply Decorates.ite
  · apply decorates_get.bind
    intro s
    exact (Decorates.pure _).ite (decorates_fault.ite (Decorates.pure _))
  · exact Decorates.pure _

theorem decorates_bondScan (x : IfPtr) : Decorates w₀ x (bondScan env x) := by
  have hmode : Decorates w₀ x (bondScanMode env x) := by
    apply (decorates_derefPrivate bondPriv x).bind
    intro priv
    apply Decorates.ite
    · exact (decorates_bondGetSysfs env x _).bind fun _ => decorates_writePrivate x _
    · exact Decorates.pure ()
  have hslave : Decorates w₀ x (bondScanSlave env x) := by
    apply (decorates_derefPrivate bondPriv x).bind
    intro priv
    apply Decorates.ite
    · exact (decorates_bondGetSysfs env x _).bind fun _ => decorates_writePrivate x _
    · exact Decorates.pure ()
  exact hmode.bind fun _ => hslave

theorem decorates_iovScan (x : IfPtr) : Decorates w₀ x (iovScan env x) := by
  have herror (errno : Errno) :
      Decorates w₀ x (if errno = ENOENT then pure () else fail errno : HandlerProg Unit) :=
    (Decorates.pure ()).ite (decorates_fail _)
  apply decorates_allocate.bind
  intro _
  apply decorates_get.bind
  intro s
  dsimp only
  split
  · exact herror _
  · apply Decorates.bind
    · exact decorates_modifyIf x fun _ => ⟨rfl, rfl⟩
    · intro _
      apply decorates_allocate.bind
      intro _
      split
      · exact herror _
      · exact decorates_modifyIf x fun _ => ⟨rfl, rfl⟩

theorem decorates_teamScan (x : IfPtr) : Decorates w₀ x (teamScan env x) := by
  apply decorates_get.bind
  intro s
  cases env.teamd (s.world.ifs x) with
  | warning text => exact decorates_addWarning x text
  | state runnerName activePort =>
    apply (decorates_addConfig x _ _).bind
    exact fun _ => decorates_withSome fun _ => decorates_writePrivate x _

/-- The index of the master, which older kernels have in a file of the port of a bridge. -/
def masterIndexOf (x : IfEntry) : UInt32 :=
  if x.masterIndex ≠ 0 then x.masterIndex
  else
    ((sysfsReadfile env (cstr "/class/net/" ++ x.ifName ++ cstr "/brport/bridge/ifindex")).2.map
      fun ifindex => UInt32.ofInt (atoi ifindex)).getD 0

def bridgedIndexes (x : IfEntry) : IfIndexes := { x.indexes with master := masterIndexOf env x }

/-- What is the link of other devices is the peer of a veth. -/
def pairedIndexes (ethtoolVethPeer : CStr → UInt32) (x : IfEntry) (i : IfIndexes) : IfIndexes :=
  if i.link ≠ 0 then
    { i with
      peer := i.link
      peerNetnsid := i.linkNetnsid
      link := 0
      linkNetnsid := -1 }
  else { i with peer := ethtoolVethPeer x.ifName }

theorem bridgeScan_touched (w : World) (x : IfPtr) :
    Prog.Runs (fun s => s.world = w) (bridgeScan env x)
      (fun _ s => w.Touched x s.world ∧ (s.world.ifs x).indexes = bridgedIndexes env (w.ifs x))
      fun s => w.Touched x s.world := by
  have hsame : ∀ s : ScanState, s.world = w → w.Touched x s.world := by
    rintro s rfl
    exact .refl x s.world
  apply Prog.Triple.bind (Q := fun (s₀ s : ScanState) => s₀.world = w ∧ s.world = w)
  · exact Prog.Triple.get fun s hs => ⟨hs, hs⟩
  intro s₀
  apply Prog.Triple.of_and
  intro hs₀
  rw [hs₀]
  have hkeep (hindex : masterIndexOf env (w.ifs x) = (w.ifs x).masterIndex) :
      Prog.Runs (fun s : ScanState => s.world = w) (pure () : HandlerProg Unit)
        (fun _ s => w.Touched x s.world ∧ (s.world.ifs x).indexes = bridgedIndexes env (w.ifs x))
        fun s => w.Touched x s.world := by
    apply Prog.Triple.pure
    intro s hs
    refine ⟨hsame _ hs, ?_⟩
    rw [hs, bridgedIndexes, hindex]
    rfl
  apply Prog.Triple.ite
  · intro hmaster
    apply hkeep
    rw [masterIndexOf, if_pos hmaster]
  intro hmaster
  have hmaster : (w.ifs x).masterIndex = 0 := not_not.mp hmaster
  rcases hread : sysfsReadfile env (cstr "/class/net/" ++ (w.ifs x).ifName ++
    cstr "/brport/bridge/ifindex") with ⟨len, ifindex⟩
  have hindex : masterIndexOf env (w.ifs x) =
      (ifindex.map fun ifindex => UInt32.ofInt (atoi ifindex)).getD 0 := by
    rw [masterIndexOf, if_neg (not_not.mpr hmaster), hread]
  apply Prog.Triple.ite
  · intro hlen
    apply Prog.Triple.ite
    · intro _
      apply hkeep
      -- there is no file, and so nothing that was read
      have hnone : ifindex = none := by
        unfold sysfsReadfile at hread
        dsimp only at hread
        split_ifs at hread
        · exact (Prod.mk.inj hread).2.symm
        · have hneg := (Prod.mk.inj hread).1
          omega
      rw [hindex, hnone, hmaster]
      rfl
    · exact fun _ => Prog.Triple.throw hsame
  · intro _
    apply Prog.Triple.bind (Q := fun i (s : ScanState) => ifindex = some i ∧ s.world = w)
    · exact Prog.Triple.deref fun i hi s hs => ⟨hi, hs⟩
    intro i
    apply Prog.Triple.of_and
    intro hi
    have hwrite (w' : World) (hw' : w' = w) : w.Touched x (w'.modifyIf x fun y =>
          { y with masterIndex := UInt32.ofInt (atoi i) }) ∧
        ((w'.modifyIf x fun y => { y with masterIndex := UInt32.ofInt (atoi i) }).ifs x).indexes =
          bridgedIndexes env (w.ifs x) := by
      subst hw'
      refine ⟨.modifyIf w' x rfl, ?_⟩
      rw [World.modifyIf_ifs, if_pos rfl, bridgedIndexes, hindex, hi]
      rfl
    exact modifyWorld_triple (P := (· = w)) (Q := fun w' => w.Touched x w' ∧
      (w'.ifs x).indexes = bridgedIndexes env (w.ifs x)) hwrite

theorem vethScan_touched (ethtoolVethPeer : CStr → UInt32) (x : IfPtr) (w : World) :
    w.Touched x (vethScan ethtoolVethPeer x w) ∧
      ((vethScan ethtoolVethPeer x w).ifs x).indexes =
        pairedIndexes ethtoolVethPeer (w.ifs x) (w.ifs x).indexes := by
  constructor
  · apply World.Touched.modifyIf
    split_ifs
    · rfl
    · rfl
  · rw [vethScan, World.modifyIf_ifs, if_pos rfl, pairedIndexes]
    by_cases hlink : (w.ifs x).linkIndex ≠ 0
    · have hlink' : (w.ifs x).indexes.link ≠ 0 := hlink
      rw [if_pos hlink, if_pos hlink']
      rfl
    · have hlink' : ¬ (w.ifs x).indexes.link ≠ 0 := hlink
      rw [if_neg hlink, if_neg hlink']
      rfl

/-! ## The loops over the handlers -/

theorem decorates_netlink {h : IfHandler} (hmem : h ∈ ifHandlers env)
    (hmatch : driverMatch h (w₀.ifs x) = true) {f : IfPtr → Option Attrs → HandlerProg Unit}
    (hf : h.netlink = some f) (linkinfo : Option Attrs) : Decorates w₀ x (f x linkinfo) := by
  have hlink {d : CStr} (hd : d ∈ relinkedDrivers) (hdriver : h.driver = some d) :
      (w₀.ifs x).Relinked := by
    rcases driverMatch_driver hmatch with hnone | hsame
    · rw [hdriver] at hnone
      cases hnone
    · exact ⟨d, hd, by rw [← hsame, hdriver]⟩
  simp only [ifHandlers, List.mem_cons, List.not_mem_nil, or_false] at hmem
  rcases hmem with rfl | rfl | rfl | rfl | rfl | rfl | rfl | rfl | rfl | rfl | rfl | rfl | rfl |
    rfl | rfl | rfl | rfl | rfl | rfl | rfl | rfl <;> cases hf
  · exact decorates_bondNetlink x linkinfo
  · exact decorates_geneveNetlink x linkinfo
  -- gre
  · exact decorates_greCommonNetlink (hlink (by decide) rfl) _ linkinfo
  · exact decorates_greCommonNetlink (hlink (by decide) rfl) _ linkinfo
  · exact decorates_greCommonNetlink (hlink (by decide) rfl) _ linkinfo
  · exact decorates_greCommonNetlink (hlink (by decide) rfl) _ linkinfo
  · exact decorates_greCommonNetlink (hlink (by decide) rfl) _ linkinfo
  · exact decorates_greCommonNetlink (hlink (by decide) rfl) _ linkinfo
  -- ipxipy
  · exact decorates_ipxipyNetlink (hlink (by decide) rfl) _ linkinfo
  · exact decorates_ipxipyNetlink (hlink (by decide) rfl) _ linkinfo
  · exact decorates_ipxipyNetlink (hlink (by decide) rfl) _ linkinfo
  · exact decorates_macsecNetlink x linkinfo
  · exact decorates_vlanNetlink x linkinfo
  -- vti
  · exact decorates_vtiNetlink _ x linkinfo
  · exact decorates_vtiNetlink _ x linkinfo
  · exact decorates_vxlanNetlink x linkinfo
  · exact decorates_xfrmNetlink x linkinfo

theorem decorates_ifHandlerCallback {callback : IfHandler → Option (IfPtr → HandlerProg Unit)}
    {h : IfHandler} (hcallback : driverMatch h (w₀.ifs x) = true →
      ∀ f, callback h = some f → Decorates w₀ x (f x)) :
    Decorates w₀ x (ifHandlerCallback callback x h) := by
  apply Prog.Triple.bind (Q := fun (s₀ s : ScanState) =>
    driverMatch h (s₀.world.ifs x) = driverMatch h (w₀.ifs x) ∧ w₀.Decorated x s.world)
  · apply Prog.Triple.get
    intro s hs
    refine ⟨?_, hs⟩
    unfold driverMatch
    rw [hs.driver]
  intro s₀
  apply Prog.Triple.of_and
  intro hsame
  rw [hsame]
  apply Prog.Triple.ite
  · intro hmatch
    cases hf : callback h with
    | none => exact Decorates.pure ()
    | some f => exact hcallback hmatch f hf
  · exact fun _ => Decorates.pure ()

theorem decorates_ifHandlerInit (x : IfPtr) (handlers : List IfHandler) :
    Decorates w₀ x (ifHandlerInit x handlers) := by
  induction handlers with
  | nil => exact Decorates.pure ()
  | cons h handlers ih =>
    unfold ifHandlerInit
    cases h.driver with
    | none => exact ih
    | some hDriver =>
      apply decorates_get.bind
      intro s
      apply (decorates_deref _).bind
      intro driver
      apply ih.ite
      cases h.privateSize with
      | none => exact Decorates.pure ()
      | some zeroed =>
        apply decorates_malloc.bind
        intro _
        apply (decorates_setBlock x _).ite
        exact (decorates_setBlock x _).bind fun _ => decorates_fail _

theorem decorates_ifHandlerNetlink (x : IfPtr) (linkinfo : Option Attrs) :
    Decorates w₀ x (ifHandlerNetlink (ifHandlers env) x linkinfo) := by
  apply decorates_forEach
  intro h hmem
  apply decorates_ifHandlerCallback
  intro hmatch f hf
  obtain ⟨netlink, hnetlink, rfl⟩ := Option.map_eq_some_iff.mp hf
  exact decorates_netlink env hmem hmatch hnetlink linkinfo

theorem decorates_fillIfHandlers (x : IfPtr) (linkinfo : Option Attrs) :
    Decorates w₀ x (fillIfHandlers env x linkinfo) := by
  apply (decorates_ifHandlerInit x _).bind
  intro _
  apply (decorates_ifHandlerNetlink env x linkinfo).attempt.bind
  intro r
  cases r with
  | ok u => exact Decorates.pure ()
  | error stop => exact (Decorates.pure ()).ite (decorates_throw stop)

/-! ## The scan of an interface -/

theorem Decorates.keeps {p : HandlerProg α} (hp : ∀ w, Decorates w x p) {R : World → Prop}
    (hR : ∀ w w', R w → w.Decorated x w' → R w') :
    Prog.Runs (fun s => R s.world) p (fun _ s => R s.world) fun s => R s.world := by
  intro s hs r s' hrun
  have hpost := hp s.world s (.refl x _) r s' hrun
  cases r with
  | ok a => exact hR _ _ hs hpost
  | error stop => exact hR _ _ hs hpost

def scannedIndexes (x : IfEntry) : IfIndexes :=
  if x.driver = some (cstr "veth") then
    pairedIndexes env.ethtoolVethPeer x (bridgedIndexes env x)
  else bridgedIndexes env x

theorem masterIndexOf_congr {x y : IfEntry} (hname : y.ifName = x.ifName)
    (hpoints : y.Points x.indexes) : masterIndexOf env y = masterIndexOf env x := by
  have hmaster : y.masterIndex = x.masterIndex := congrArg IfIndexes.master hpoints.unlinked
  rw [masterIndexOf, masterIndexOf, hname, hmaster]

theorem bridgedIndexes_congr {x y : IfEntry} (hname : y.ifName = x.ifName)
    (hpoints : y.Points x.indexes) :
    (bridgedIndexes env y).unlinked = (bridgedIndexes env x).unlinked ∧
      (¬ y.Relinked → bridgedIndexes env y = bridgedIndexes env x) := by
  rw [bridgedIndexes, bridgedIndexes, masterIndexOf_congr env hname hpoints]
  constructor
  · have hunlinked := congrArg (fun i : IfIndexes =>
      { i with master := masterIndexOf env x }) hpoints.unlinked
    exact hunlinked
  · intro hnot
    rw [hpoints.indexes hnot]

theorem not_relinked_veth {x : IfEntry} (hdriver : x.driver = some (cstr "veth")) :
    ¬ x.Relinked := by
  rintro ⟨d, hd, hsame⟩
  rw [hdriver] at hsame
  rw [← Option.some.inj hsame] at hd
  exact absurd hd (by decide)

theorem scannedIndexes_congr {x y z : IfEntry} (hname : y.ifName = x.ifName)
    (hdriver : y.driver = x.driver) (hpoints : y.Points x.indexes) (hz : z.driver = y.driver)
    (h : z.Points (scannedIndexes env y)) : z.Points (scannedIndexes env x) := by
  obtain ⟨hunlinked, hindexes⟩ := bridgedIndexes_congr env hname hpoints
  have hrelinked : z.Relinked ↔ y.Relinked := by
    unfold IfEntry.Relinked
    rw [hz]
  by_cases hveth : y.driver = some (cstr "veth")
  · have hsame : scannedIndexes env y = scannedIndexes env x := by
      rw [scannedIndexes, scannedIndexes, if_pos hveth, if_pos (hdriver ▸ hveth), pairedIndexes,
        pairedIndexes, hname, hindexes (not_relinked_veth hveth)]
    rwa [← hsame]
  · rw [scannedIndexes, if_neg hveth] at h
    rw [scannedIndexes, if_neg (hdriver ▸ hveth)]
    exact ⟨h.unlinked.trans hunlinked,
      fun hnot => (h.indexes hnot).trans (hindexes (mt hrelinked.mpr hnot))⟩

/-- `w'` is what callbacks have made of `w`; the indexes have become `i`. -/
def Indexed (x : IfPtr) (i : IfIndexes) (w w' : World) : Prop :=
  w.Touched x w' ∧ (w'.ifs x).Points i

def handlersBeforeVeth : List IfHandler :=
  [hGeneve, hGre, hGretap, hErspan, hIp6gre, hIp6gretap, hIp6erspan, hIov env, hIpip, hSit, hIp6tnl,
    hMacsec, hTeam env]

def handlersAfterVeth : List IfHandler := [hVlan, hVti4, hVti6, hVxlan, hXfrm]

theorem ifHandlers_indexes : ifHandlers env =
    [hBond env] ++ hBridge env :: (handlersBeforeVeth env ++ hVeth env :: handlersAfterVeth) := rfl

theorem decorates_scan {h : IfHandler}
    (hmem : h ∈ [hBond env] ++ handlersBeforeVeth env ++ handlersAfterVeth)
    {f : IfPtr → HandlerProg Unit} (hf : h.scan = some f) (x : IfPtr) : Decorates w₀ x (f x) := by
  simp only [handlersBeforeVeth, handlersAfterVeth, List.cons_append, List.nil_append,
    List.mem_cons, List.not_mem_nil, or_false] at hmem
  rcases hmem with rfl | rfl | rfl | rfl | rfl | rfl | rfl | rfl | rfl | rfl | rfl | rfl | rfl |
    rfl | rfl | rfl | rfl | rfl | rfl <;> cases hf
  · exact decorates_bondScan env x
  · exact decorates_iovScan env x
  · exact decorates_teamScan env x

theorem indexed_keeps {w : World} {i : IfIndexes} {l : List IfHandler}
    (hl : l ⊆ [hBond env] ++ handlersBeforeVeth env ++ handlersAfterVeth) :
    Prog.Runs (fun s => Indexed x i w s.world)
      (Prog.forEach l (ifHandlerCallback (·.scan) x)) (fun _ s => Indexed x i w s.world)
      fun s => w.Touched x s.world := by
  have hloop : ∀ w, Decorates w x (Prog.forEach l (ifHandlerCallback (·.scan) x)) := by
    intro w
    apply decorates_forEach
    intro h hmem
    apply decorates_ifHandlerCallback
    exact fun _ f hf => decorates_scan env (hl hmem) hf x
  apply (Decorates.keeps hloop (R := Indexed x i w) ?_).weakenError
  · exact fun _ _ hs => hs.1
  · rintro v v' ⟨htouched, hpoints⟩ hv
    exact ⟨htouched.trans hv.toTouched, hpoints.trans hv.driver hv.points⟩

theorem bridgeCallback_indexed (w : World) (x : IfPtr) :
    Prog.Runs (fun s => Indexed x (w.ifs x).indexes w s.world)
      (ifHandlerCallback (·.scan) x (hBridge env))
      (fun _ s => Indexed x (bridgedIndexes env (w.ifs x)) w s.world)
      fun s => w.Touched x s.world := by
  intro s hs r s' hrun
  have hpost := bridgeScan_touched env s.world x s rfl r s' hrun
  obtain ⟨htouched, hpoints⟩ := hs
  cases r with
  | error stop => exact htouched.trans hpost
  | ok u =>
    have hname : (s.world.ifs x).ifName = (w.ifs x).ifName :=
      htouched.field IfEntry.ifName (fun _ => rfl) x
    obtain ⟨hunlinked, hindexes⟩ := bridgedIndexes_congr env hname hpoints
    refine ⟨htouched.trans hpost.1, by rw [hpost.2, hunlinked], fun hnot => ?_⟩
    rw [hpost.2]
    apply hindexes
    unfold IfEntry.Relinked at hnot ⊢
    rwa [← hpost.1.driver]

theorem vethCallback_indexed (w : World) (x : IfPtr) :
    Prog.Runs (fun s => Indexed x (bridgedIndexes env (w.ifs x)) w s.world)
      (ifHandlerCallback (·.scan) x (hVeth env))
      (fun _ s => Indexed x (scannedIndexes env (w.ifs x)) w s.world)
      fun s => w.Touched x s.world := by
  apply Prog.Triple.bind (Q := fun (s₀ s : ScanState) =>
    driverMatch (hVeth env) (s₀.world.ifs x) = decide ((w.ifs x).driver = some (cstr "veth")) ∧
      Indexed x (bridgedIndexes env (w.ifs x)) w s.world)
  · apply Prog.Triple.get
    intro s hs
    refine ⟨?_, hs⟩
    rw [← hs.1.driver]
    rfl
  intro s₀
  apply Prog.Triple.of_and
  intro hmatch
  rw [hmatch]
  apply Prog.Triple.ite
  · intro hdriver
    have hdriver : (w.ifs x).driver = some (cstr "veth") := of_decide_eq_true hdriver
    have hwrite (v : World) (hv : Indexed x (bridgedIndexes env (w.ifs x)) w v) :
        Indexed x (scannedIndexes env (w.ifs x)) w (vethScan env.ethtoolVethPeer x v) := by
      obtain ⟨htouched, hindexes⟩ := vethScan_touched env.ethtoolVethPeer x v
      have hname : (v.ifs x).ifName = (w.ifs x).ifName :=
        hv.1.field IfEntry.ifName (fun _ => rfl) x
      have hveth : ¬ (v.ifs x).Relinked := not_relinked_veth (hv.1.driver.trans hdriver)
      refine ⟨hv.1.trans htouched, .of_eq ?_⟩
      rw [hindexes, hv.2.indexes hveth, scannedIndexes, if_pos hdriver, pairedIndexes,
        pairedIndexes, hname]
    exact modifyWorld_triple (P := Indexed x (bridgedIndexes env (w.ifs x)) w)
      (Q := Indexed x (scannedIndexes env (w.ifs x)) w) hwrite
  · intro hdriver
    apply Prog.Triple.pure
    intro s hs
    rwa [scannedIndexes, if_neg fun h => hdriver (decide_eq_true h)]

theorem ifHandlerScan_indexed (w : World) (x : IfPtr) :
    Prog.Runs (fun s => s.world = w) (ifHandlerScan (ifHandlers env) x)
      (fun _ s => Indexed x (scannedIndexes env (w.ifs x)) w s.world)
      fun s => w.Touched x s.world := by
  rw [ifHandlerScan, ifHandlers_indexes, Prog.forEach_append, Prog.forEach_cons (hBridge env),
    Prog.forEach_append, Prog.forEach_cons (hVeth env)]
  apply Prog.Triple.bind (Q := fun _ s => Indexed x (w.ifs x).indexes w s.world)
  · have hbond : Prog.Runs (fun s => Indexed x (w.ifs x).indexes w s.world)
        (Prog.forEach [hBond env] (ifHandlerCallback (·.scan) x))
        (fun _ s => Indexed x (w.ifs x).indexes w s.world) fun s => w.Touched x s.world :=
      indexed_keeps env fun h hh => List.mem_append_left _ (List.mem_append_left _ hh)
    apply hbond.weaken
    · rintro s rfl
      exact ⟨.refl x _, .of_eq rfl⟩
    · exact fun _ _ => id
  intro _
  apply Prog.Triple.bind (bridgeCallback_indexed env w x)
  intro _
  apply Prog.Triple.bind (Q := fun _ s => Indexed x (bridgedIndexes env (w.ifs x)) w s.world)
  · apply indexed_keeps env
    exact fun h hh => List.mem_append_left _ (List.mem_append_right _ hh)
  intro _
  apply Prog.Triple.bind (vethCallback_indexed env w x)
  intro _
  apply indexed_keeps env
  exact fun h hh => List.mem_append_right _ hh

end

end Handlers

end Plotnetcfg
