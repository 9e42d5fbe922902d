import Plotnetcfg.Core.Resolve
import Plotnetcfg.Handlers.Tunnels

/-! The lower device of a tunnel (`handlers/gre.c`, `handlers/ipxipy.c`): its index is an
attribute of four bytes, of which the netlink callback reads one. -/

namespace Plotnetcfg.Handlers

open Plotnetcfg.Netlink
open RevLists (Rel)

inductive ByteOrder where
  | little
  | big
deriving DecidableEq

def ByteOrder.bytes (order : ByteOrder) (v : UInt32) : List UInt8 :=
  match order with
  | .little => Bytes.leBytes 4 v.toNat
  | .big => (Bytes.leBytes 4 v.toNat).reverse

/-- The first byte of the integer in memory is all there is to it. -/
def ByteOrder.Narrow (order : ByteOrder) (v : UInt32) : Prop :=
  match order with
  | .little => v.toNat < 256
  | .big => v = 0

instance (order : ByteOrder) (v : UInt32) : Decidable (order.Narrow v) := by
  unfold ByteOrder.Narrow
  cases order <;> infer_instance

/-- A netlink callback that reads the index of the lower device, and where it finds it. -/
structure LowerDevice where
  netlink : IfPtr → Option Attrs → HandlerProg Unit
  max : Nat
  attr : Nat

def lowerDevices : List LowerDevice :=
  [⟨greNetlink, IFLA_GRE_MAX, IFLA_GRE_LINK⟩, ⟨gre6Netlink, IFLA_GRE_MAX, IFLA_GRE_LINK⟩,
    ⟨ipipNetlink, IFLA_IPTUN_MAX, IFLA_IPTUN_LINK⟩, ⟨sitNetlink, IFLA_IPTUN_MAX, IFLA_IPTUN_LINK⟩,
    ⟨ipxip6Netlink, IFLA_IPTUN_MAX, IFLA_IPTUN_LINK⟩]

def LowerDevice.Carries (dev : LowerDevice) (linkinfo : Attrs) (order : ByteOrder) (v : UInt32) :
    Prop :=
  ∃ data a rest, linkinfo IFLA_INFO_DATA = some data ∧ nlaNestedAttrs data dev.max dev.attr = some a ∧
    nlaRead a = order.bytes v ++ rest

/-! ## The bytes of an index -/

theorem nlaReadU8_bytes {order : ByteOrder} {v : UInt32} {a rest : List UInt8}
    (h : nlaRead a = order.bytes v ++ rest) :
    (nlaReadU8 a).toUInt32 = v ↔ order.Narrow v := by
  have hlt := v.toNat_lt
  have hfirst : (nlaReadU8 a).toUInt32.toNat =
      match order with
      | .little => v.toNat % 256
      | .big => v.toNat / 2 ^ 24 := by
    have hread : Bytes.uint NLA_HDRLEN 1 a = Bytes.readLE ((order.bytes v ++ rest).take 1) := by
      rw [← h]
      rfl
    unfold nlaReadU8
    rw [hread]
    cases order with
    | little =>
      show (UInt8.ofNat ((UInt8.ofNat v.toNat).toNat + 256 * 0)).toUInt32.toNat = _
      simp
    | big =>
      show (UInt8.ofNat ((UInt8.ofNat (v.toNat / 256 / 256 / 256)).toNat +
        256 * 0)).toUInt32.toNat = _
      simp
      omega
  rw [← UInt32.toNat_inj, hfirst]
  unfold ByteOrder.Narrow
  cases order with
  | little =>
    dsimp only
    omega
  | big =>
    rw [← UInt32.toNat_inj]
    dsimp only
    have hzero : (0 : UInt32).toNat = 0 := rfl
    omega

/-! ## The netlink callback -/

/-- What the pieces of the callback leave alone; allocations go on to succeed. -/
structure Reading (entry : IfPtr) (linkIndex : UInt32) (s : ScanState) : Prop where
  plenty : Plenty s
  live : ∃ priv, s.priv entry = .live priv
  linkIndex : (s.world.ifs entry).linkIndex = linkIndex

section
variable {entry : IfPtr} {i : UInt32} {s : ScanState}

theorem addConfig_reading (h : Reading entry i s) (key value : CStr) :
    Prog.Returns (addConfig entry key value) s fun _ => Reading entry i := by
  apply (modifyWorld_returns (s := s) (ifAddConfig entry key value)).weaken
  rintro _ s' rfl
  refine ⟨h.plenty, h.live, ?_⟩
  show ((s.world.modifyIf entry (·.addProperty .config key value)).ifs entry).linkIndex = i
  rw [World.modifyIf_ifs, if_pos rfl]
  exact h.linkIndex

theorem initAddr_reading (h : Reading entry i s) {family : Int}
    (hfamily : family = AF_INET ∨ family = AF_INET6) (prefixlen : Int) (raw : List UInt8) :
    Prog.Returns (initAddr family prefixlen raw) s fun _ => Reading entry i := by
  have herr : (addrInit family prefixlen raw true true).1 = 0 := by
    unfold addrInit inetNtop
    rcases hfamily with rfl | rfl
    · rfl
    · rfl
  have htail : ∀ s' : ScanState, Reading entry i s' →
      Reading entry i { s' with mallocs := s'.mallocs.tail } :=
    fun s' h' => ⟨h'.plenty.tail, h'.live, h'.linkIndex⟩
  unfold initAddr
  apply Prog.Returns.bind (malloc_returns h.plenty)
  rintro _ s₁ ⟨rfl, rfl⟩
  apply Prog.Returns.bind (malloc_returns h.plenty.tail)
  rintro _ s₂ ⟨rfl, rfl⟩
  dsimp only
  rw [if_pos herr]
  exact Prog.Returns.pure (htail _ (htail s h))

theorem localConfig_reading (h : Reading entry i s) {family : Int}
    (hfamily : family = AF_INET ∨ family = AF_INET6) (attr : Option (List UInt8)) :
    Prog.Returns (localConfig entry family attr) s fun _ => Reading entry i := by
  have hwrite : ∀ (s : ScanState) (priv : Private), Reading entry i s →
      Prog.Returns (writePrivate entry priv) s fun _ => Reading entry i := by
    intro s priv h
    obtain ⟨priv', hlive⟩ := h.live
    apply (writePrivate_returns hlive).weaken
    rintro _ s' rfl
    exact ⟨h.plenty, ⟨priv, Function.update_self ..⟩, h.linkIndex⟩
  unfold localConfig
  apply Prog.Returns.bind (hwrite s _ h)
  intro _ s₁ h₁
  apply withSome_returns
  · intro a _
    apply Prog.Returns.bind (initAddr_reading h₁ hfamily _ _)
    intro addr s₂ h₂
    apply Prog.Returns.bind (hwrite s₂ _ h₂)
    intro _ s₃ h₃
    split_ifs
    · exact Prog.Returns.pure h₃
    · exact addConfig_reading h₃ _ _
  · exact h₁

theorem remoteConfig_reading (h : Reading entry i s) {family : Int}
    (hfamily : family = AF_INET ∨ family = AF_INET6) (key : CStr) (attr : Option (List UInt8)) :
    Prog.Returns (remoteConfig entry key family attr) s fun _ => Reading entry i := by
  apply withSome_returns
  · intro a _
    apply Prog.Returns.bind (initAddr_reading h hfamily _ _)
    intro addr s₁ h₁
    split_ifs
    · exact Prog.Returns.pure h₁
    · exact addConfig_reading h₁ _ _
  · exact h

theorem keyConfig_reading (h : Reading entry i s) (key : CStr) (attr : Option (List UInt8)) :
    Prog.Returns (keyConfig entry key attr) s fun _ => Reading entry i := by
  apply withSome_returns
  · intro a _
    split_ifs
    · exact Prog.Returns.pure h
    · exact addConfig_reading h _ _
  · exact h

theorem setLinkIndex_reading (h : Reading entry i s) (a : List UInt8) :
    Prog.Returns (setLinkIndex entry (some a)) s fun _ =>
      Reading entry (nlaReadU8 a).toUInt32 := by
  let f : World → World := (·.modifyIf entry fun x =>
    { x with linkIndex := (nlaReadU8 a).toUInt32 })
  show Prog.Returns (modifyWorld f) s _
  apply (modifyWorld_returns f).weaken
  rintro _ s' rfl
  refine ⟨h.plenty, h.live, ?_⟩
  show ((f s.world).ifs entry).linkIndex = _
  rw [World.modifyIf_ifs, if_pos rfl]

theorem protoConfig_reading (h : Reading entry i s) (a : List UInt8) :
    Prog.Returns (protoConfig entry a) s fun _ => Reading entry i := by
  unfold protoConfig
  split_ifs
  · exact addConfig_reading h _ _
  · exact addConfig_reading h _ _
  · exact addConfig_reading h _ _
  · exact Prog.Returns.pure h

theorem tunnelNetlink_reading (h : Plenty s) {linkinfo : Attrs} {data : List UInt8}
    (hdata : linkinfo IFLA_INFO_DATA = some data) {max : Nat} {body : Attrs → HandlerProg Unit}
    (hbody : ∀ s j, Reading entry j s → Prog.Returns (body (nlaNestedAttrs data max)) s
      fun _ => Reading entry i) :
    Prog.Returns (tunnelNetlink entry (some linkinfo) max body) s fun _ => Reading entry i := by
  have hinfo : infoData (some linkinfo) = some data := hdata
  unfold tunnelNetlink
  rw [hinfo]
  dsimp only
  apply Prog.Returns.bind (Q := fun _ => Reading entry (s.world.ifs entry).linkIndex)
  · apply Prog.Returns.bind (allocate_returns h)
    rintro _ s₁ rfl
    apply (setBlock_returns entry _).weaken
    rintro _ s₂ rfl
    exact ⟨h.tail, ⟨_, Function.update_self ..⟩, rfl⟩
  · intro _ s₁ h₁
    apply Prog.Returns.onError
    apply Prog.Returns.bind (allocate_returns h₁.plenty)
    rintro _ s₂ rfl
    exact hbody _ _ ⟨h₁.plenty.tail, h₁.live, h₁.linkIndex⟩

theorem greCommonNetlink_reading (h : Plenty s) {family : Int}
    (hfamily : family = AF_INET ∨ family = AF_INET6) {linkinfo : Attrs} {data a : List UInt8}
    (hdata : linkinfo IFLA_INFO_DATA = some data)
    (hattr : nlaNestedAttrs data IFLA_GRE_MAX IFLA_GRE_LINK = some a) :
    Prog.Returns (greCommonNetlink family entry (some linkinfo)) s fun _ =>
      Reading entry (nlaReadU8 a).toUInt32 := by
  apply tunnelNetlink_reading h hdata
  intro s j h
  apply Prog.Returns.bind (localConfig_reading h hfamily _)
  intro _ s₁ h₁
  apply Prog.Returns.bind (remoteConfig_reading h₁ hfamily _ _)
  intro _ s₂ h₂
  rw [hattr]
  apply Prog.Returns.bind (setLinkIndex_reading h₂ a)
  intro _ s₃ h₃
  apply Prog.Returns.bind (keyConfig_reading h₃ _ _)
  exact fun _ s₄ h₄ => keyConfig_reading h₄ _ _

theorem ipxipyNetlink_reading (h : Plenty s) {family : Int}
    (hfamily : family = AF_INET ∨ family = AF_INET6) {linkinfo : Attrs} {data a : List UInt8}
    (hdata : linkinfo IFLA_INFO_DATA = some data)
    (hattr : nlaNestedAttrs data IFLA_IPTUN_MAX IFLA_IPTUN_LINK = some a) :
    Prog.Returns (ipxipyNetlink family entry (some linkinfo)) s fun _ =>
      Reading entry (nlaReadU8 a).toUInt32 := by
  apply tunnelNetlink_reading h hdata
  intro s j h
  apply Prog.Returns.bind (localConfig_reading h hfamily _)
  intro _ s₁ h₁
  apply Prog.Returns.bind (remoteConfig_reading h₁ hfamily _ _)
  intro _ s₂ h₂
  rw [hattr]
  apply Prog.Returns.bind (setLinkIndex_reading h₂ a)
  intro _ s₃ h₃
  split_ifs
  · exact withSome_returns (fun b _ => protoConfig_reading h₃ b) h₃
  · exact Prog.Returns.pure h₃

theorem lowerDevice_reading {dev : LowerDevice} (hdev : dev ∈ lowerDevices) (h : Plenty s)
    {linkinfo : Attrs} {data a : List UInt8} (hdata : linkinfo IFLA_INFO_DATA = some data)
    (hattr : nlaNestedAttrs data dev.max dev.attr = some a) :
    Prog.Returns (dev.netlink entry (some linkinfo)) s fun _ =>
      Reading entry (nlaReadU8 a).toUInt32 := by
  simp only [lowerDevices, List.mem_cons, List.not_mem_nil, or_false] at hdev
  rcases hdev with rfl | rfl | rfl | rfl | rfl
  · exact greCommonNetlink_reading h (.inl rfl) hdata hattr
  · exact greCommonNetlink_reading h (.inr rfl) hdata hattr
  · exact ipxipyNetlink_reading h (.inl rfl) hdata hattr
  · exact ipxipyNetlink_reading h (.inl rfl) hdata hattr
  · exact ipxipyNetlink_reading h (.inr rfl) hdata hattr

end

/-! ## The search for the lower device -/

structure OnlyWithIndex (w : World) (entry : IfPtr) (v : UInt32) (x : IfPtr) : Prop where
  listed : x ∈ w.listed
  other : x ≠ entry
  home : (w.ifs x).ns = (w.ifs entry).ns
  index : (w.ifs x).ifIndex = v
  only : ∀ y ∈ w.listed, y ≠ entry → (w.ifs y).ns = (w.ifs entry).ns →
    (w.ifs y).ifIndex = v → y = x

theorem masterResolve_links {w : World} (hw : w.Homed) {entry : IfPtr} (hentry : entry ∈ w.listed)
    {v : UInt32} (hv : v ≠ 0) (hindex : (w.ifs entry).linkIndex = v)
    (hunset : (w.ifs entry).link = none) {x : IfPtr} (hx : OnlyWithIndex w entry v x) :
    Prog.Returns masterResolve w fun _ w' => (w'.ifs entry).link = some x := by
  apply (masterResolve_returns hw).weaken
  intro _ w' hw'
  have hwants : w.Wants .link entry := by
    refine ⟨?_, ?_⟩
    · show (w.ifs entry).link.isNone
      rw [hunset]
      rfl
    · show (w.ifs entry).linkIndex ≠ 0
      rwa [hindex]
  have hcases : ∀ y, w.indexWeight .link entry y =
      if (w.ifs y).ifIndex ≠ v then 0 else if (w.ifs y).ns = (w.ifs entry).ns then 2 else 1 := by
    intro y
    rw [← hindex]
    rfl
  have hweight : w.indexWeight .link entry x = 2 := by
    rw [hcases, if_neg (by simp [hx.index]), if_pos hx.home]
  have hwinner : (w.indexTally .link entry).winner = some x := by
    have hmem : x ∈ w.listed.filter fun y => some entry ≠ some y := by
      rw [List.mem_filter]
      exact ⟨hx.listed, by simpa using hx.other.symm⟩
    apply (Tally.winner_unique (hw.nodup.filter _) hmem (by rw [hweight]; decide) ?_).1
    intro y hy hyx
    obtain ⟨hlisted, hne⟩ := List.mem_filter.mp hy
    have hother : y ≠ entry := by
      rintro rfl
      exact absurd rfl (of_decide_eq_true hne)
    rw [hweight, hcases]
    split_ifs with hi hn
    · decide
    · exact absurd (hx.only y hlisted hother hn (not_not.mp hi)) hyx
    · decide
  have hupper : (w'.ifs entry).upper .link = some x := by
    rw [hw'.upper, if_pos hentry, World.resolved, if_pos hwants, hwinner]
  exact hupper

/-- What the index of the lower device is for: the callback leaves it in the entry, and later
`master_resolve` links the tunnel to the interface that has it. -/
def FoundByIndex (entry : IfPtr) (v : UInt32) (s : ScanState) : Prop :=
  (s.world.ifs entry).linkIndex = v ∧
  ∀ w : World, w.Homed → entry ∈ w.listed →
    (w.ifs entry).linkIndex = (s.world.ifs entry).linkIndex → v ≠ 0 →
    (w.ifs entry).link = none → ∀ x, OnlyWithIndex w entry v x →
      Prog.Returns masterResolve w fun _ w' => (w'.ifs entry).link = some x

/-- The index is read as one byte: it arrives exactly when it is less than 256 on a little-endian
host, and only when it is 0 on a big-endian one. -/
theorem lowerDevice_found_iff {dev : LowerDevice} (hdev : dev ∈ lowerDevices) {order : ByteOrder}
    {v : UInt32} {linkinfo : Attrs} (hcarries : dev.Carries linkinfo order v) (entry : IfPtr)
    {s : ScanState} (hs : Plenty s) :
    Prog.Returns (dev.netlink entry (some linkinfo)) s (fun _ => FoundByIndex entry v) ↔
      order.Narrow v := by
  obtain ⟨data, a, rest, hdata, hattr, hbytes⟩ := hcarries
  have hreading : Prog.Returns (dev.netlink entry (some linkinfo)) s fun _ =>
      Reading entry (nlaReadU8 a).toUInt32 := lowerDevice_reading hdev hs hdata hattr
  constructor
  · rintro ⟨u, s', hrun, hfound, -⟩
    obtain ⟨u', s₁, hrun', hread⟩ := hreading
    rw [hrun] at hrun'
    obtain ⟨-, rfl⟩ := Prod.mk.inj (Option.some.inj hrun')
    exact (nlaReadU8_bytes hbytes).mp (hread.linkIndex.symm.trans hfound)
  · intro hnarrow
    apply hreading.weaken
    intro _ s' hread
    have hv : (s'.world.ifs entry).linkIndex = v :=
      hread.linkIndex.trans ((nlaReadU8_bytes hbytes).mpr hnarrow)
    refine ⟨hv, fun w hw hentry hindex hne hunset x hx => ?_⟩
    exact masterResolve_links hw hentry hne (hindex.trans hv) hunset hx

def linkAttr (v : UInt32) : List UInt8 :=
  Bytes.leBytes 2 12 ++ Bytes.leBytes 2 IFLA_INFO_DATA ++
    (Bytes.leBytes 2 8 ++ Bytes.leBytes 2 IFLA_GRE_LINK ++ ByteOrder.little.bytes v)

def linkOnly (v : UInt32) : Attrs := fun type =>
  if type = IFLA_INFO_DATA then some (linkAttr v) else none

def greDevice : LowerDevice := ⟨greNetlink, IFLA_GRE_MAX, IFLA_GRE_LINK⟩

def noInterfaces : ScanState where
  world := { ifs := fun _ => {}, nss := fun _ => {}, nsList := [], free := [] }
  priv := fun _ => .unset

theorem lowerDevice_found_seven :
    Prog.Returns (greNetlink 0 (some (linkOnly 7))) noInterfaces (fun _ => FoundByIndex 0 7) := by
  have hcarries : greDevice.Carries (linkOnly 7) .little 7 :=
    ⟨linkAttr 7, (linkAttr 7).drop 4, [], rfl, by decide, by decide⟩
  have hplenty : Plenty noInterfaces := nofun
  exact (lowerDevice_found_iff List.mem_cons_self hcarries 0 hplenty).mpr (by decide)

theorem lowerDevice_lost : greDevice.Carries (linkOnly 256) .little 256 ∧
    ∃ s', greNetlink 0 (some (linkOnly 256)) noInterfaces = some (.ok (), s') ∧
      (s'.world.ifs 0).linkIndex = 0 ∧ ¬ FoundByIndex 0 256 s' := by
  refine ⟨⟨linkAttr 256, (linkAttr 256).drop 4, [], rfl, by decide, by decide⟩, ?_⟩
  have hplenty : Plenty noInterfaces := nofun
  have hattr : nlaNestedAttrs (linkAttr 256) IFLA_GRE_MAX IFLA_GRE_LINK =
      some ((linkAttr 256).drop 4) := by
    decide
  have hreading : Prog.Returns (greNetlink 0 (some (linkOnly 256))) noInterfaces fun _ =>
      Reading 0 (nlaReadU8 ((linkAttr 256).drop 4)).toUInt32 :=
    greCommonNetlink_reading hplenty (.inl rfl) rfl hattr
  obtain ⟨u, s', hrun, hread⟩ := hreading
  have hindex : (s'.world.ifs 0).linkIndex = 0 := hread.linkIndex
  refine ⟨s', hrun, hindex, fun hfound => ?_⟩
  exact absurd (hindex.symm.trans hfound.1) (by decide)

end Plotnetcfg.Handlers
