import Plotnetcfg.Netns.LinkMessage

/-! What the handlers leave alone while the interfaces are read: the addresses of all interfaces
and the numbers by which they are told apart. -/

namespace Plotnetcfg.Handlers

open Plotnetcfg.Netlink Bytes

structure SameAddresses (w₀ w : World) : Prop where
  addr : ∀ e, (w.ifs e).addr = (w₀.ifs e).addr
  ifIndex : ∀ e, (w.ifs e).ifIndex = (w₀.ifs e).ifIndex
  ifaces : ∀ ns, (w.nss ns).ifaces = (w₀.nss ns).ifaces
  free : w.free = w₀.free

theorem SameAddresses.refl (w : World) : SameAddresses w w :=
  ⟨fun _ => rfl, fun _ => rfl, fun _ => rfl, rfl⟩

theorem SameAddresses.trans {w₁ w₂ w₃ : World} (h : SameAddresses w₁ w₂)
    (h' : SameAddresses w₂ w₃) : SameAddresses w₁ w₃ where
  addr e := (h'.addr e).trans (h.addr e)
  ifIndex e := (h'.ifIndex e).trans (h.ifIndex e)
  ifaces ns := (h'.ifaces ns).trans (h.ifaces ns)
  free := h'.free.trans h.free

theorem SameAddresses.of_touched {x : IfPtr} {w w' : World} (h : w.Touched x w') :
    SameAddresses w w' where
  addr := h.field IfEntry.addr fun _ => rfl
  ifIndex := h.field IfEntry.ifIndex fun _ => rfl
  ifaces := h.ifaces
  free := h.free

def Spares {α : Type} (w₀ : World) (p : HandlerProg α) : Prop :=
  Prog.Runs (fun s => SameAddresses w₀ s.world) p (fun _ s => SameAddresses w₀ s.world)
    fun s => SameAddresses w₀ s.world

section
variable {w₀ : World} (env : HandlerEnv)

theorem spares_ifHandlerScan (x : IfPtr) : Spares w₀ (ifHandlerScan (ifHandlers env) x) := by
  intro s hs r s' hrun
  have hpost := ifHandlerScan_indexed env s.world x s rfl r s' hrun
  cases r with
  | ok u => exact hs.trans (.of_touched hpost.1)
  | error stop => exact hs.trans (.of_touched hpost)

def linkIndexOf (msg : NlMsg) : UInt32 := ifiIndex (msg.buf.drop msg.start)

def withIndex (w : World) (x : IfPtr) (index : UInt32) : World :=
  w.modifyIf x fun y => { y with ifIndex := index }

theorem linkOf_index {msg : NlMsg} {ifi : List UInt8} {tb : Attrs} (h : linkOf msg = some (ifi, tb)) :
    ifiIndex ifi = linkIndexOf msg := by
  have hifi : ifi = msg.buf.drop msg.start := by
    unfold linkOf nlmsgGet at h
    split_ifs at h
    · cases h
    · exact (congrArg Prod.fst (Option.some.inj h)).symm
  rw [hifi, linkIndexOf]

theorem fillIfLink_triple (x : IfPtr) (msg : NlMsg) :
    Prog.Runs (fun s => SameAddresses w₀ s.world) (fillIfLink env x msg)
      (fun _ s => SameAddresses (withIndex w₀ x (linkIndexOf msg)) s.world) fun _ => True := by
  intro s hs r s' hrun
  have hpost := fillIfLink_read env msg s rfl r s' hrun
  cases r with
  | error stop => trivial
  | ok u =>
    obtain ⟨⟨-, ifi, tb, ifname, mac, hlink, -, -, hread, -⟩, y, hdecorated⟩ := hpost
    have haddr := congrArg IfEntry.addr hread
    have hindex := congrArg IfEntry.ifIndex hread
    have haddr : (s'.world.ifs x).addr = (s.world.ifs x).addr := haddr
    have hindex : (s'.world.ifs x).ifIndex = ifiIndex ifi := hindex
    have hothers : ∀ e ≠ x, s'.world.ifs e = s.world.ifs e := by
      intro e he
      rw [hdecorated.others e he, World.setIf, World.modifyIf_ifs, if_neg he]
    constructor
    · intro e
      rw [withIndex, World.modifyIf_ifs]
      split_ifs with he
      · rw [he, haddr, hs.addr]
      · rw [hothers e he, hs.addr]
    · intro e
      rw [withIndex, World.modifyIf_ifs]
      split_ifs with he
      · rw [he, hindex, linkOf_index hlink]
      · rw [hothers e he, hs.ifIndex]
    · exact fun n => (hdecorated.ifaces n).trans (hs.ifaces n)
    · exact hdecorated.free.trans hs.free

end

end Plotnetcfg.Handlers
