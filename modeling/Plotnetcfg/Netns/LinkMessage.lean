import Plotnetcfg.Handlers.Decorations

/-! What a message of the link dump tells about its interface. The callbacks of the handlers add to
it without changing it. -/

namespace Plotnetcfg

/-- The same address, where the text of an empty one may be missing. -/
structure MacAddr.Same (mac mac' : MacAddr) : Prop where
  len : mac.len = mac'.len
  raw : mac.raw = mac'.raw
  formatted : mac.formatted = mac'.formatted ∨ mac'.len = 0 ∧ mac.formatted = none

theorem MacAddr.Same.refl (mac : MacAddr) : mac.Same mac := ⟨rfl, rfl, .inl rfl⟩

namespace World

def setIf (w : World) (x : IfPtr) (y : IfEntry) : World := w.modifyIf x fun _ => y

theorem setIf_ifs (w : World) (x : IfPtr) (y : IfEntry) : (w.setIf x y).ifs x = y := by
  rw [setIf, modifyIf_ifs, if_pos rfl]

theorem setIf_self (w : World) (x : IfPtr) : w.setIf x (w.ifs x) = w := by
  have hifs : (fun e => if e = x then w.ifs x else w.ifs e) = w.ifs := by
    funext e
    split_ifs with he
    · rw [he]
    · rfl
  unfold setIf modifyIf
  rw [hifs]

theorem modifyIf_eq_setIf (w : World) (x : IfPtr) (f : IfEntry → IfEntry) :
    w.modifyIf x f = w.setIf x (f (w.ifs x)) := by
  unfold setIf modifyIf
  congr
  funext e
  split_ifs with he
  · rw [he]
  · rfl

theorem setIf_modifyIf (w : World) (x : IfPtr) (y : IfEntry) (f : IfEntry → IfEntry) :
    (w.setIf x y).modifyIf x f = w.setIf x (f y) := by
  unfold setIf modifyIf
  congr
  funext e
  dsimp only
  split_ifs
  · rfl
  · rfl

end World

namespace Handlers

open Plotnetcfg.Netlink Bytes

def xdpProgs (mode : Nat) (progIdNla : Option (List UInt8)) : List IfXdp :=
  match progIdNla with
  | none => []
  | some a =>
    if nlaReadU32 a = 0 then []
    else [⟨xdpModeName.getD mode (fits 16 (cstr "[" ++ decimal mode ++ cstr "]")), nlaReadU32 a⟩]

def xdpOf (xdpNla : Option (List UInt8)) : List IfXdp :=
  match xdpNla with
  | none => []
  | some a =>
    let tb := nlaNestedAttrs a IFLA_XDP_MAX
    let mode := ((tb IFLA_XDP_ATTACHED).map fun a => (nlaReadU8 a).toNat).getD XDP_ATTACHED_NONE
    if mode = XDP_ATTACHED_NONE then []
    else if mode = XDP_ATTACHED_MULTI then
      xdpProgs XDP_ATTACHED_DRV (tb IFLA_XDP_DRV_PROG_ID) ++
        xdpProgs XDP_ATTACHED_SKB (tb IFLA_XDP_SKB_PROG_ID) ++
        xdpProgs XDP_ATTACHED_HW (tb IFLA_XDP_HW_PROG_ID)
    else xdpProgs mode (tb IFLA_XDP_PROG_ID)

def macOf (mac : MacAddr) (attr : Option (List UInt8)) : MacAddr :=
  match attr with
  | none => mac
  | some a =>
    { len := nlaLen a
      raw := some ((nlaRead a).take (nlaLen a))
      formatted := some (macFormat ((nlaRead a).take (nlaLen a))) }

section
variable (env : HandlerEnv) (entry : IfPtr)

def linkEntry (ifi : List UInt8) (tb : Attrs) (ifname : List UInt8) (x : IfEntry) : IfEntry :=
  { fillFields ifi tb ifname x with
    driver := some (linkDriver env entry ifi tb)
    macAddr := macOf x.macAddr (tb IFLA_ADDRESS)
    xdp := x.xdp ++ xdpOf (tb IFLA_XDP) }

/-- `y` is what the message makes of `x`, but for what callbacks write. -/
structure LinkRead (msg : NlMsg) (x y : IfEntry) : Prop where
  type : nlmsgType msg.buf = RTM_NEWLINK
  fields : ∃ ifi tb ifname mac, linkOf msg = some (ifi, tb) ∧ tb IFLA_IFNAME = some ifname ∧
    mac.Same (macOf x.macAddr (tb IFLA_ADDRESS)) ∧
    y.undecorated = { (linkEntry env entry ifi tb ifname x).undecorated with macAddr := mac } ∧
    y.Points (linkEntry env entry ifi tb ifname x).indexes

end

section
variable {x : IfPtr} {w : World} {y : IfEntry}

theorem fillIfXdpProg_triple (mode : Nat) (progIdNla : Option (List UInt8)) :
    Prog.Runs (fun s => s.world = w.setIf x y) (fillIfXdpProg x mode progIdNla)
      (fun _ s => s.world = w.setIf x { y with xdp := y.xdp ++ xdpProgs mode progIdNla })
      fun _ => True := by
  have hnone (hempty : xdpProgs mode progIdNla = []) :
      Prog.Runs (fun s : ScanState => s.world = w.setIf x y) (pure () : HandlerProg Unit)
        (fun _ s => s.world = w.setIf x { y with xdp := y.xdp ++ xdpProgs mode progIdNla })
        fun _ => True := by
    apply Prog.Triple.pure
    intro s hs
    rw [hs, hempty, List.append_nil]
  cases progIdNla with
  | none => exact hnone rfl
  | some a =>
    apply Prog.Triple.ite
    · exact fun hzero => hnone (if_pos hzero)
    · intro hprog
      apply Prog.Triple.bind ((allocate_world (P := (· = w.setIf x y))).weakenError
        fun _ _ _ => trivial)
      intro _
      have hprogs : xdpProgs mode (some a) =
          [⟨xdpModeName.getD mode (fits 16 (cstr "[" ++ decimal mode ++ cstr "]")), nlaReadU32 a⟩] :=
        if_neg hprog
      rw [hprogs]
      apply modifyWorld_triple (P := (· = w.setIf x y)) (Q := (· = w.setIf x _))
      rintro _ rfl
      rw [World.setIf_modifyIf]

theorem fillIfXdp_triple (xdpNla : Option (List UInt8)) :
    Prog.Runs (fun s => s.world = w.setIf x y) (fillIfXdp x xdpNla)
      (fun _ s => s.world = w.setIf x { y with xdp := y.xdp ++ xdpOf xdpNla })
      fun _ => True := by
  have hnone (hempty : xdpOf xdpNla = []) :
      Prog.Runs (fun s : ScanState => s.world = w.setIf x y) (pure () : HandlerProg Unit)
        (fun _ s => s.world = w.setIf x { y with xdp := y.xdp ++ xdpOf xdpNla })
        fun _ => True := by
    apply Prog.Triple.pure
    intro s hs
    rw [hs, hempty, List.append_nil]
  cases xdpNla with
  | none => exact hnone rfl
  | some a =>
    apply Prog.Triple.bind ((allocate_world (P := (· = w.setIf x y))).weakenError
      fun _ _ _ => trivial)
    intro _
    unfold xdpOf at hnone ⊢
    dsimp only at hnone ⊢
    generalize nlaNestedAttrs a IFLA_XDP_MAX = tb at hnone ⊢
    generalize ((tb IFLA_XDP_ATTACHED).map fun a => (nlaReadU8 a).toNat).getD XDP_ATTACHED_NONE =
      mode at hnone ⊢
    apply Prog.Triple.ite
    · exact fun hmode => hnone (if_pos hmode)
    intro hmode
    rw [if_neg hmode]
    apply Prog.Triple.ite
    · intro hmulti
      rw [if_pos hmulti]
      apply Prog.Triple.bind (fillIfXdpProg_triple _ _)
      intro _
      apply Prog.Triple.bind (fillIfXdpProg_triple _ _)
      intro _
      apply (fillIfXdpProg_triple _ _).weaken
      · exact fun _ => id
      · intro _ s hs
        rw [hs]
        simp only [List.append_assoc]
    · intro hmulti
      rw [if_neg hmulti]
      exact fillIfXdpProg_triple _ _

theorem macAddrFillNetlink_triple (a : List UInt8) :
    Prog.Runs (fun s => s.world = w.setIf x y) (macAddrFillNetlink x a)
      (fun _ s => ∃ mac : MacAddr, mac.Same (macOf y.macAddr (some a)) ∧
        s.world = w.setIf x { y with macAddr := mac })
      fun _ => True := by
  have hset (mac mac' : MacAddr) {E : Stop → ScanState → Prop} :
      Prog.Triple (fun s => s.world = w.setIf x { y with macAddr := mac' })
        (modifyWorld (·.modifyIf x fun y => { y with macAddr := mac }))
        (fun _ s => s.world = w.setIf x { y with macAddr := mac }) E := by
    apply modifyWorld_triple (P := (· = w.setIf x _)) (Q := (· = w.setIf x _))
    rintro _ rfl
    rw [World.setIf_modifyIf]
  apply Prog.Triple.bind (hset { len := nlaLen a } y.macAddr)
  intro _
  apply Prog.Triple.bind ((allocate_world (P := (· = w.setIf x _))).weakenError
    fun _ _ _ => trivial)
  intro _
  apply Prog.Triple.bind ((malloc_world (P := (· = w.setIf x _))).weakenError fun _ _ _ => trivial)
  intro ok
  apply Prog.Triple.ite
  · intro _
    apply (hset _ _).weaken
    · exact fun _ => id
    · exact fun _ s hs => ⟨_, .refl _, hs⟩
  intro _
  apply Prog.Triple.ite
  · intro hempty
    apply (hset _ _).weaken
    · exact fun _ => id
    · intro _ s hs
      refine ⟨_, ⟨hempty.symm, ?_, .inr ⟨hempty, rfl⟩⟩, hs⟩
      rw [macOf, hempty, List.take_zero]
  · intro _ s _ r s' hrun
    cases hrun

theorem fillIfLink_read (env : HandlerEnv) (msg : NlMsg) :
    Prog.Runs (fun s => s.world = w) (fillIfLink env x msg)
      (fun _ s => LinkRead env x msg (w.ifs x) (s.world.ifs x) ∧
        ∃ y, (w.setIf x y).Decorated x s.world) fun _ => True := by
  have hallocate {y : IfEntry} : Prog.Runs (fun s => s.world = w.setIf x y) allocate
      (fun _ s => s.world = w.setIf x y) fun _ => True :=
    (allocate_world (P := (· = w.setIf x y))).weakenError fun _ _ _ => trivial
  unfold fillIfLink
  apply Prog.Triple.ite
  · exact fun _ => Prog.Triple.throw fun _ _ => trivial
  intro htype
  rcases hlink : linkOf msg with _ | ⟨ifi, tb⟩
  · exact Prog.Triple.throw fun _ _ => trivial
  apply Prog.Triple.bind ((allocate_world (P := (· = w))).weakenError fun _ _ _ => trivial)
  intro _
  rcases hname : tb IFLA_IFNAME with _ | ifname
  · exact Prog.Triple.throw fun _ _ => trivial
  apply Prog.Triple.onError (F := fun _ _ => True)
  swap
  · exact fun _ => Prog.Triple.const
  apply Prog.Triple.bind ((allocate_world (P := (· = w))).weakenError fun _ _ _ => trivial)
  intro _
  apply Prog.Triple.bind
  · apply modifyWorld_triple (P := (· = w))
      (Q := (· = w.setIf x (fillFields ifi tb ifname (w.ifs x))))
    rintro _ rfl
    exact World.modifyIf_eq_setIf _ x _
  intro _
  apply Prog.Triple.bind (Q := fun _ s =>
    s.world = w.setIf x (fillFields ifi tb ifname (w.ifs x)))
  · cases tb IFLA_LINKINFO with
    | none => exact Prog.Triple.pure fun _ => id
    | some a => exact hallocate
  intro _
  apply Prog.Triple.bind (Q := fun _ s => ∃ mac : MacAddr,
    mac.Same (macOf (w.ifs x).macAddr (tb IFLA_ADDRESS)) ∧
      s.world = w.setIf x { fillFields ifi tb ifname (w.ifs x) with macAddr := mac })
  · cases tb IFLA_ADDRESS with
    | none => exact Prog.Triple.pure fun s hs => ⟨_, .refl _, hs⟩
    | some a => exact macAddrFillNetlink_triple a
  rintro _ s ⟨mac, hmac, hs⟩ r s' hrun
  have hrest : Prog.Runs (fun s : ScanState =>
      s.world = w.setIf x { fillFields ifi tb ifname (w.ifs x) with macAddr := mac }) (do
        modifyWorld (·.modifyIf x fun y => { y with driver := some (linkDriver env x ifi tb) })
        fillIfXdp x (tb IFLA_XDP)
        fillIfHandlers env x (linkinfoOf tb))
      (fun _ s => (w.setIf x
        { linkEntry env x ifi tb ifname (w.ifs x) with macAddr := mac }).Decorated x s.world)
      fun _ => True := by
    apply Prog.Triple.bind
    · apply modifyWorld_triple (P := (· = w.setIf x _)) (Q := (· = w.setIf x _))
      rintro _ rfl
      exact World.setIf_modifyIf _ x _ _
    intro _
    apply Prog.Triple.bind (fillIfXdp_triple (tb IFLA_XDP))
    intro _
    apply ((decorates_fillIfHandlers env x (linkinfoOf tb)).weakenError
      fun _ _ _ => trivial).weaken
    · rintro s hs
      rw [hs]
      exact .refl x _
    · exact fun _ _ => id
  have hpost := hrest s hs r s' hrun
  cases r with
  | error stop => trivial
  | ok u =>
    refine ⟨⟨not_not.mp htype, ifi, tb, ifname, mac, hlink, hname, hmac, ?_, ?_⟩, _, hpost⟩
    · rw [hpost.undecorated, World.setIf_ifs]
      rfl
    · have hpoints := hpost.points
      rw [World.setIf_ifs] at hpoints
      exact hpoints

end

end Handlers

end Plotnetcfg
