import Plotnetcfg.Netns.If

/-! The private data of a handler over the life of an interface: what `fill_if_link` leaves in
`handler_private`, and how the callbacks that follow use it. -/

namespace Plotnetcfg.Handlers

open Plotnetcfg.Netlink

/-- The drivers whose handlers keep a local address in the block. -/
def tunnelDrivers : List CStr :=
  [cstr "gre", cstr "gretap", cstr "erspan", cstr "ip6gre", cstr "ip6gretap", cstr "ip6erspan",
    cstr "ipip", cstr "sit", cstr "ip6tnl", cstr "vti", cstr "vti6"]

structure Ready (driver : Option CStr) (b : Block) : Prop where
  notReleased : b ≠ .released
  bond : driver = some (cstr "bonding") → ∃ priv, b = .live (.bond priv)
  team : driver = some (cstr "team") → ∃ port, b = .live (.team port)
  vxlan : driver = some (cstr "vxlan") → ∃ priv, b = .live (.vxlan priv)
  tunnel : ∀ d ∈ tunnelDrivers, driver = some d → ∃ addr, b = .live (.tunnel addr)

section
variable {e x : IfPtr} {d : Option CStr} {B : Block → Prop} {E : Stop → ScanState → Prop}

/-! ## Addresses and labels -/

/-- The error exits that `fill_if_link` passes on. -/
def Fails (e : IfPtr) (d : Option CStr) (B : Block → Prop) (stop : Stop) (s : ScanState) : Prop :=
  stop ≠ .err ENOENT ∧ Owns e d B s

theorem fails_crash {s : ScanState} (h : Owns e d B s) : Fails e d B .crash s := ⟨nofun, h⟩

theorem fails_nomem {s : ScanState} (h : Owns e d B s) : Fails e d B (.err ENOMEM) s :=
  ⟨by decide, h⟩

theorem addrInit_err (family prefixlen : Int) (raw : List UInt8) (malloc strdup : Bool) :
    (addrInit family prefixlen raw malloc strdup).1 ≠ ENOENT := by
  have hnomem : (ENOMEM : Int) ≠ ENOENT := by decide
  have hfamily : (EAFNOSUPPORT : Int) ≠ ENOENT := by decide
  have hok : (0 : Int) ≠ ENOENT := by decide
  unfold addrInit inetNtop
  dsimp only
  split_ifs <;> first | exact hnomem | exact hfamily | exact hok

theorem initAddr_owns (family prefixlen : Int) (raw : List UInt8) :
    Prog.Triple (Owns e d B) (initAddr family prefixlen raw) (fun _ => Owns e d B)
      (Fails e d B) := by
  unfold initAddr
  refine Prog.Triple.bind malloc_owns fun mallocOk => ?_
  refine Prog.Triple.bind (Q := fun _ => Owns e d B) ?_ fun strdupOk => ?_
  · exact Prog.Triple.ite (fun _ => malloc_owns) fun _ => Prog.Triple.pure fun _ => id
  · refine Prog.Triple.ite (fun _ => Prog.Triple.pure fun _ => id) fun _ => ?_
    refine Prog.Triple.throw fun s hs => ⟨fun herr => ?_, hs⟩
    exact addrInit_err family prefixlen raw mallocOk strdupOk (Stop.err.inj herr)

theorem attrConfig_owns (key : CStr) (attr : Option (List UInt8)) (value : List UInt8 → CStr) :
    Prog.Triple (Owns e d B) (attrConfig x key attr value) (fun _ => Owns e d B) E :=
  withSome_owns fun _ => addConfig_owns x _ _

theorem remoteConfig_owns (key : CStr) (family : Int) (attr : Option (List UInt8)) :
    Prog.Triple (Owns e d B) (remoteConfig x key family attr) (fun _ => Owns e d B)
      (Fails e d B) := by
  refine withSome_owns fun a => Prog.Triple.bind (initAddr_owns _ _ _) fun addr => ?_
  exact Prog.Triple.ite (fun _ => Prog.Triple.pure fun _ => id) fun _ => addConfig_owns x _ _

theorem keyConfig_owns (key : CStr) (attr : Option (List UInt8)) :
    Prog.Triple (Owns e d B) (keyConfig x key attr) (fun _ => Owns e d B) E :=
  withSome_owns fun _ => Prog.Triple.ite (fun _ => Prog.Triple.pure fun _ => id) fun _ =>
    addConfig_owns x _ _

theorem portConfig_owns (default : UInt16) (attr : Option (List UInt8)) :
    Prog.Triple (Owns e d B) (portConfig x default attr) (fun _ => Owns e d B) E :=
  withSome_owns fun _ => Prog.Triple.ite (fun _ => Prog.Triple.pure fun _ => id) fun _ =>
    addConfig_owns x _ _

theorem setLinkIndex_owns (attr : Option (List UInt8)) :
    Prog.Triple (Owns e d B) (setLinkIndex x attr) (fun _ => Owns e d B) E :=
  withSome_owns fun _ => modifyIf_owns x fun _ => rfl

/-! ## Netlink callbacks that bring their own block -/

def IsTunnel (b : Block) : Prop := ∃ addr, b = .live (.tunnel addr)

theorem localConfig_owns (family : Int) (attr : Option (List UInt8)) :
    Prog.Triple (Owns e d IsTunnel) (localConfig e family attr) (fun _ => Owns e d IsTunnel)
      (Fails e d IsTunnel) := by
  have hwrite : ∀ addr, Prog.Triple (Owns e d IsTunnel) (writePrivate e (.tunnel addr))
      (fun _ => Owns e d IsTunnel) (Fails e d IsTunnel) := by
    refine fun addr => writePrivate_owns (fun _ b hb => ?_) (fun _ => ⟨addr, rfl⟩)
      fun _ => fails_crash
    obtain ⟨addr', rfl⟩ := hb
    exact ⟨_, rfl⟩
  refine Prog.Triple.bind (hwrite _) fun _ => withSome_owns fun a => ?_
  refine Prog.Triple.bind (initAddr_owns _ _ _) fun addr => ?_
  refine Prog.Triple.bind (hwrite addr) fun _ => ?_
  exact Prog.Triple.ite (fun _ => Prog.Triple.pure fun _ => id) fun _ => addConfig_owns e _ _

theorem callocPrivate_owns {B' : Block → Prop} {priv : Private} (hpriv : B' (.live priv)) :
    Prog.Triple (Owns e d B) (callocPrivate e priv) (fun _ => Owns e d B') (Fails e d B) :=
  Prog.Triple.bind (allocate_owns fun _ => fails_nomem) fun _ => setBlock_owns _ hpriv

theorem freePrivate_owns (hB : ∀ b, B b → ∃ priv, b = .live priv) :
    Prog.Triple (Owns e d B) (freePrivate e) (fun _ => Owns e d (· = .released)) E := by
  refine Prog.Triple.bind (Q := fun s₀ s => s = s₀ ∧ Owns e d B s)
    (Prog.Triple.get fun s hs => ⟨rfl, hs⟩) fun s₀ => ?_
  rintro s ⟨rfl, hs⟩
  obtain ⟨priv, hpriv⟩ := hB _ hs.block
  have hset : Prog.Triple (Owns e d B) (setBlock e .released)
      (fun _ => Owns e d (· = .released)) E := setBlock_owns _ rfl
  simp only [hpriv]
  exact hset s hs

/-- An error exit does not make an error one that is swallowed, and leaves the block freed. -/
theorem errPriv_owns (hB : ∀ b, B b → ∃ priv, b = .live priv) {C : Prop} (stop : Stop) :
    Prog.Triple (fun s => (stop = .err ENOENT → C) ∧ Owns e d B s) (errPriv e stop)
      (fun _ s => stop = .err ENOENT → C ∧ Owns e d (· = .released) s)
      fun stop s => stop = .err ENOENT → C ∧ Owns e d (· = .released) s := by
  refine Prog.Triple.of_and fun hC => ?_
  cases stop with
  | err code => exact (freePrivate_owns hB).weaken (fun _ => id) fun _ s hs herr => ⟨hC herr, hs⟩
  | crash => exact Prog.Triple.pure fun _ _ => nofun

theorem tunnelNetlink_owns {linkinfo : Option Attrs} {max : Nat} {body : Attrs → HandlerProg Unit}
    (hbody : ∀ tb, Prog.Triple (Owns e d IsTunnel) (body tb) (fun _ => Owns e d IsTunnel)
      (Fails e d IsTunnel)) :
    Prog.Triple (Owns e d B) (tunnelNetlink e linkinfo max body)
      (fun _ s => infoData linkinfo ≠ none ∧ Owns e d IsTunnel s)
      fun stop s => stop = .err ENOENT → infoData linkinfo = none ∧ Owns e d B s := by
  unfold tunnelNetlink
  cases hdata : infoData linkinfo with
  | none => exact Prog.Triple.throw fun s hs _ => ⟨rfl, hs⟩
  | some data =>
    refine Prog.Triple.bind (Q := fun _ => Owns e d IsTunnel) ?_ fun _ => ?_
    · exact (callocPrivate_owns ⟨_, rfl⟩).weakenError fun stop s h herr => absurd herr h.1
    · have hall : Prog.Triple (Owns e d IsTunnel) (do
          allocate
          body (nlaNestedAttrs data max)) (fun _ => Owns e d IsTunnel)
          fun stop s => (stop = .err ENOENT → False) ∧ Owns e d IsTunnel s :=
        (Prog.Triple.bind (allocate_owns fun _ => fails_nomem) fun _ =>
          hbody (nlaNestedAttrs data max)).weakenError fun _ _ => id
      refine ((hall.onError fun stop => ?_).weaken (fun _ => id) fun _ s hs => ⟨nofun, hs⟩)
      refine ((errPriv_owns (C := False) ?_ stop).weaken (fun _ => id) ?_).weakenError ?_
      · rintro _ ⟨addr, rfl⟩
        exact ⟨_, rfl⟩
      · exact fun _ s h herr => (h herr).1.elim
      · exact fun _ s h herr => (h herr).1.elim

theorem ownBlockNetlink_owns {zeroed : Private} {linkinfo : Option Attrs} {max : Nat}
    {body : Attrs → HandlerProg Unit} {A : Block → Prop} (hzeroed : A (.live zeroed))
    (hA : ∀ b, A b → ∃ priv, b = .live priv)
    (hbody : ∀ tb, Prog.Triple (Owns e d A) (body tb) (fun _ => Owns e d A) (Fails e d A)) :
    Prog.Triple (Owns e d B) (ownBlockNetlink e zeroed linkinfo max body)
      (fun _ s => infoData linkinfo ≠ none ∧ Owns e d A s)
      fun stop s => stop = .err ENOENT →
        infoData linkinfo = none ∧ Owns e d (· = .released) s := by
  unfold ownBlockNetlink
  refine Prog.Triple.bind (Q := fun _ => Owns e d A) ?_ fun _ => ?_
  · exact (callocPrivate_owns hzeroed).weakenError fun stop s h herr => absurd herr h.1
  · refine Prog.Triple.onError ?_ (errPriv_owns hA)
    cases hdata : infoData linkinfo with
    | none => exact Prog.Triple.throw fun s hs => ⟨fun _ => rfl, hs⟩
    | some data =>
      have hall := Prog.Triple.bind (allocate_owns fun _ => fails_nomem) fun _ =>
        hbody (nlaNestedAttrs data max)
      refine (hall.weaken (fun _ => id) fun _ s hs => ⟨nofun, hs⟩).weakenError ?_
      exact fun stop s h => ⟨fun herr => absurd herr h.1, h.2⟩

/-- What the netlink callbacks of `gre.c`, `ipxipy.c` and `vti.c` leave. -/
def TunnelPost (e : IfPtr) (d : Option CStr) (B : Block → Prop) (linkinfo : Option Attrs)
    (p : HandlerProg Unit) : Prop :=
  Prog.Triple (Owns e d B) p (fun _ s => infoData linkinfo ≠ none ∧ Owns e d IsTunnel s)
    fun stop s => stop = .err ENOENT → infoData linkinfo = none ∧ Owns e d B s

theorem greCommonNetlink_owns (family : Int) (linkinfo : Option Attrs) :
    TunnelPost e d B linkinfo (greCommonNetlink family e linkinfo) := by
  refine tunnelNetlink_owns fun greinfo => ?_
  refine Prog.Triple.bind (localConfig_owns family _) fun _ => ?_
  refine Prog.Triple.bind (remoteConfig_owns _ family _) fun _ => ?_
  refine Prog.Triple.bind (setLinkIndex_owns _) fun _ => ?_
  exact Prog.Triple.bind (keyConfig_owns _ _) fun _ => keyConfig_owns _ _

theorem ipxipyNetlink_owns (family : Int) (linkinfo : Option Attrs) :
    TunnelPost e d B linkinfo (ipxipyNetlink family e linkinfo) := by
  refine tunnelNetlink_owns fun info => ?_
  refine Prog.Triple.bind (localConfig_owns family _) fun _ => ?_
  refine Prog.Triple.bind (remoteConfig_owns _ family _) fun _ => ?_
  refine Prog.Triple.bind (setLinkIndex_owns _) fun _ => ?_
  refine Prog.Triple.ite (fun _ => withSome_owns fun a => ?_) fun _ => Prog.Triple.pure fun _ => id
  unfold protoConfig
  refine Prog.Triple.ite (fun _ => addConfig_owns e _ _) fun _ => ?_
  refine Prog.Triple.ite (fun _ => addConfig_owns e _ _) fun _ => ?_
  exact Prog.Triple.ite (fun _ => addConfig_owns e _ _) fun _ => Prog.Triple.pure fun _ => id

theorem vtiNetlink_owns (family : Int) (linkinfo : Option Attrs) :
    TunnelPost e d B linkinfo (vtiNetlink family e linkinfo) := by
  refine tunnelNetlink_owns fun vtiinfo => ?_
  refine Prog.Triple.bind (remoteConfig_owns _ family _) fun _ => ?_
  refine Prog.Triple.bind (localConfig_owns family _) fun _ => ?_
  exact Prog.Triple.bind (keyConfig_owns _ _) fun _ => keyConfig_owns _ _

def IsVxlan (b : Block) : Prop := ∃ priv, b = .live (.vxlan priv)

def IsGeneve (b : Block) : Prop := ∃ flags, b = .live (.geneve flags)

theorem vniConfig_owns (attr : Option (List UInt8)) :
    Prog.Triple (Owns e d B) (vniConfig x attr) (fun _ => Owns e d B) E := attrConfig_owns _ attr _

theorem vxlanFillAddr_owns (addr : Option Addr) (aiFamily : Int) (attr : Option (List UInt8)) :
    Prog.Triple (Owns e d B) (vxlanFillAddr addr aiFamily attr) (fun _ => Owns e d B)
      (Fails e d B) := by
  cases attr <;> cases addr
  case some.none a =>
    refine Prog.Triple.bind (allocate_owns fun _ => fails_nomem) fun _ => ?_
    exact Prog.Triple.bind (initAddr_owns _ _ _) fun _ => Prog.Triple.pure fun _ => id
  all_goals exact Prog.Triple.pure fun _ => id

theorem vxlanNetlink_owns (linkinfo : Option Attrs) :
    Prog.Triple (Owns e d B) (vxlanNetlink e linkinfo)
      (fun _ s => infoData linkinfo ≠ none ∧ Owns e d IsVxlan s)
      fun stop s => stop = .err ENOENT →
        infoData linkinfo = none ∧ Owns e d (· = .released) s := by
  have hlive : ∀ b, IsVxlan b → ∃ priv, b = .live priv := by
    rintro _ ⟨priv, rfl⟩
    exact ⟨_, rfl⟩
  have hwrite : ∀ priv, Prog.Triple (Owns e d IsVxlan) (writePrivate e (.vxlan priv))
      (fun _ => Owns e d IsVxlan) (Fails e d IsVxlan) := fun priv =>
    writePrivate_owns (fun _ => hlive) (fun _ => ⟨priv, rfl⟩) fun _ => fails_crash
  refine ownBlockNetlink_owns ⟨_, rfl⟩ hlive fun vxlaninfo => ?_
  refine Prog.Triple.bind (vniConfig_owns _) fun _ => ?_
  refine Prog.Triple.bind (portConfig_owns _ _) fun _ => ?_
  refine Prog.Triple.ite (fun _ => ?_) fun _ => ?_
  · exact Prog.Triple.bind (hwrite _) fun _ => addConfig_owns e _ _
  · refine Prog.Triple.bind (vxlanFillAddr_owns _ _ _) fun group => ?_
    refine Prog.Triple.bind (vxlanFillAddr_owns _ _ _) fun group => ?_
    refine Prog.Triple.bind (vxlanFillAddr_owns _ _ _) fun localAddr => ?_
    exact Prog.Triple.bind (vxlanFillAddr_owns _ _ _) fun localAddr => hwrite _

theorem geneveNetlink_owns (linkinfo : Option Attrs) :
    Prog.Triple (Owns e d B) (geneveNetlink e linkinfo)
      (fun _ s => infoData linkinfo ≠ none ∧ Owns e d IsGeneve s)
      fun stop s => stop = .err ENOENT →
        infoData linkinfo = none ∧ Owns e d (· = .released) s := by
  refine ownBlockNetlink_owns ⟨_, rfl⟩ ?_ fun geneveinfo => ?_
  · rintro _ ⟨flags, rfl⟩
    exact ⟨_, rfl⟩
  · refine Prog.Triple.bind (vniConfig_owns _) fun _ => ?_
    refine Prog.Triple.bind (portConfig_owns _ _) fun _ => ?_
    refine Prog.Triple.bind (remoteConfig_owns _ _ _) fun _ => ?_
    exact Prog.Triple.bind (remoteConfig_owns _ _ _) fun _ => attrConfig_owns _ _ _

/-! ## Netlink callbacks that use the block of `if_handler_init` -/

theorem allocate_keeps :
    Prog.Runs (Owns e d B) allocate (fun _ => Owns e d B) (Owns e d B) :=
  allocate_owns fun _ => id

def IsBond (b : Block) : Prop := ∃ priv, b = .live (.bond priv)

theorem bondDeref_owns (hx : x = e → ∀ b, B b → IsBond b) :
    Prog.Runs (Owns e d B) (derefPrivate bondPriv x) (fun _ => Owns e d B) (Owns e d B) := by
  refine derefPrivate_owns (fun h b hb => ?_) fun _ => id
  obtain ⟨priv, rfl⟩ := hx h b hb
  exact ⟨_, rfl, rfl⟩

theorem bondWrite_owns (hx : x = e → ∀ b, B b → IsBond b)
    (hpriv : ∀ priv, x = e → B (.live (.bond priv))) (priv : BondPrivate) :
    Prog.Runs (Owns e d B) (writePrivate x (.bond priv)) (fun _ => Owns e d B) (Owns e d B) := by
  refine writePrivate_owns (fun h b hb => ?_) (hpriv priv) fun _ => id
  obtain ⟨priv, rfl⟩ := hx h b hb
  exact ⟨_, rfl⟩

theorem bondNetlink_owns (linkinfo : Option Attrs) :
    Prog.Runs (Owns e d IsBond) (bondNetlink e linkinfo) (fun _ => Owns e d IsBond)
      (Owns e d IsBond) := by
  have hderef := bondDeref_owns (e := e) (d := d) (x := e) fun _ b hb => hb
  have hwrite := bondWrite_owns (e := e) (d := d) (x := e) (fun _ b hb => hb)
    fun priv _ => ⟨priv, rfl⟩
  unfold bondNetlink
  cases infoData linkinfo with
  | none => exact Prog.Triple.throw fun _ => id
  | some data =>
    refine Prog.Triple.bind allocate_keeps fun _ => ?_
    refine Prog.Triple.bind (withSome_owns fun a => Prog.Triple.bind hderef fun _ => hwrite _)
      fun _ => ?_
    exact withSome_owns fun a => Prog.Triple.bind hderef fun _ => hwrite _

theorem setEdgeLabel_owns (text : CStr) :
    Prog.Runs (Owns e d B) (setEdgeLabel x text) (fun _ => Owns e d B) (Owns e d B) :=
  Prog.Triple.bind allocate_keeps fun _ => modifyIf_owns x fun _ => rfl

theorem macsecNetlink_owns (linkinfo : Option Attrs) :
    Prog.Runs (Owns e d B) (macsecNetlink e linkinfo) (fun _ => Owns e d B) (Owns e d B) := by
  unfold macsecNetlink
  cases infoData linkinfo with
  | none => exact Prog.Triple.throw fun _ => id
  | some data =>
    refine Prog.Triple.bind allocate_keeps fun _ => ?_
    cases nlaNestedAttrs data IFLA_MACSEC_MAX IFLA_MACSEC_SCI with
    | none => exact Prog.Triple.throw fun _ => id
    | some a => exact setEdgeLabel_owns _

def IsVlan (b : Block) : Prop := ∃ tag, b = .live (.vlan tag)

theorem vlanNetlink_owns (linkinfo : Option Attrs) :
    Prog.Runs (Owns e d IsVlan) (vlanNetlink e linkinfo) (fun _ => Owns e d IsVlan)
      (Owns e d IsVlan) := by
  unfold vlanNetlink
  cases infoData linkinfo with
  | none => exact Prog.Triple.throw fun _ => id
  | some data =>
    refine Prog.Triple.bind allocate_keeps fun _ => ?_
    cases nlaNestedAttrs data IFLA_VLAN_MAX IFLA_VLAN_ID with
    | none => exact Prog.Triple.throw fun _ => id
    | some a =>
      refine Prog.Triple.bind (writePrivate_owns (fun _ b hb => ?_) (fun _ => ⟨_, rfl⟩)
        fun _ => id) fun _ => setEdgeLabel_owns _
      obtain ⟨tag, rfl⟩ := hb
      exact ⟨_, rfl⟩

theorem xfrmNetlink_owns (linkinfo : Option Attrs) :
    Prog.Runs (Owns e d B) (xfrmNetlink e linkinfo) (fun _ => Owns e d B) (Owns e d B) := by
  unfold xfrmNetlink
  cases infoData linkinfo with
  | none => exact Prog.Triple.throw fun _ => id
  | some data => exact Prog.Triple.bind allocate_keeps fun _ => attrConfig_owns _ _ _

/-! ## What all netlink callbacks leave -/

/-- The drivers whose handlers leave no usable block without `IFLA_INFO_DATA`. -/
def dataDrivers : List CStr := [cstr "vxlan", cstr "geneve", cstr "vti", cstr "vti6"]

instance (driver : CStr) : Decidable (driver ∈ dataDrivers) := by
  unfold dataDrivers
  infer_instance

def Filled (driver : CStr) (linkinfo : Option Attrs) (b : Block) : Prop :=
  if driver ∈ dataDrivers ∧ infoData linkinfo = none then
    if driver = cstr "vxlan" ∨ driver = cstr "geneve" then b = .released else b = .unset
  else Ready (some driver) b

theorem ready_tunnel {driver : CStr} (hdriver : driver ∈ tunnelDrivers) {b : Block}
    (hb : IsTunnel b) : Ready (some driver) b := by
  have hne : ∀ d ∈ tunnelDrivers, some d ≠ some (cstr "bonding") ∧ some d ≠ some (cstr "team") ∧
      some d ≠ some (cstr "vxlan") := by decide
  obtain ⟨hbond, hteam, hvxlan⟩ := hne driver hdriver
  refine ⟨?_, fun h => absurd h hbond, fun h => absurd h hteam, fun h => absurd h hvxlan,
    fun _ _ _ => hb⟩
  rintro rfl
  obtain ⟨addr, haddr⟩ := hb
  cases haddr

theorem ready_other {driver : CStr} (hdriver : driver ∉ cstr "bonding" :: cstr "team" ::
    cstr "vxlan" :: tunnelDrivers) {b : Block} (hb : b ≠ .released) : Ready (some driver) b := by
  refine ⟨hb, ?_, ?_, ?_, ?_⟩
  · rintro ⟨⟩
    exact absurd List.mem_cons_self hdriver
  · rintro ⟨⟩
    exact absurd (by simp) hdriver
  · rintro ⟨⟩
    exact absurd (by simp) hdriver
  · rintro d hd ⟨⟩
    exact absurd (by simp [hd]) hdriver

theorem ready_bond {b : Block} (hb : IsBond b) : Ready (some (cstr "bonding")) b := by
  have hne : ∀ d ∈ tunnelDrivers, some (cstr "bonding") ≠ some d := by decide
  refine ⟨?_, fun _ => hb, fun h => absurd h (by decide), fun h => absurd h (by decide),
    fun d hd h => absurd h (hne d hd)⟩
  rintro rfl
  obtain ⟨priv, hpriv⟩ := hb
  cases hpriv

theorem ready_vxlan {b : Block} (hb : IsVxlan b) : Ready (some (cstr "vxlan")) b := by
  have hne : ∀ d ∈ tunnelDrivers, some (cstr "vxlan") ≠ some d := by decide
  refine ⟨?_, fun h => absurd h (by decide), fun h => absurd h (by decide), fun _ => hb,
    fun d hd h => absurd h (hne d hd)⟩
  rintro rfl
  obtain ⟨priv, hpriv⟩ := hb
  cases hpriv

theorem ready_team {b : Block} (hb : ∃ port, b = .live (.team port)) :
    Ready (some (cstr "team")) b := by
  have hne : ∀ d ∈ tunnelDrivers, some (cstr "team") ≠ some d := by decide
  refine ⟨?_, fun h => absurd h (by decide), fun _ => hb, fun h => absurd h (by decide),
    fun d hd h => absurd h (hne d hd)⟩
  rintro rfl
  obtain ⟨priv, hpriv⟩ := hb
  cases hpriv

/-- What a netlink callback leaves from the block it is called with. -/
def LeavesFilled (e : IfPtr) (driver : CStr) (init : Block) (linkinfo : Option Attrs)
    (p : HandlerProg Unit) : Prop :=
  Prog.Triple (Owns e (some driver) (· = init)) p
    (fun _ => Owns e (some driver) (Filled driver linkinfo))
    fun stop s => stop = .err ENOENT → Owns e (some driver) (Filled driver linkinfo) s

theorem Owns.imp {B' : Block → Prop} {s : ScanState} (h : Owns e d B s) (hB : ∀ b, B b → B' b) :
    Owns e d B' s := ⟨h.driver, hB _ h.block, h.intact⟩

theorem tunnel_leavesFilled {driver : CStr} (hdriver : driver ∈ tunnelDrivers) {init : Block}
    {linkinfo : Option Attrs} (hinit : driver ∈ dataDrivers ∧ init = .unset ∨
      driver ∉ dataDrivers ∧ IsTunnel init) {p : HandlerProg Unit}
    (h : TunnelPost e (some driver) (· = init) linkinfo p) :
    LeavesFilled e driver init linkinfo p := by
  refine (h.weaken (fun _ => id) ?_).weakenError ?_
  · rintro _ s ⟨hdata, hs⟩
    refine hs.imp fun b hb => ?_
    rw [Filled, if_neg fun h => hdata h.2]
    exact ready_tunnel hdriver hb
  · intro stop s hs herr
    obtain ⟨hdata, hs⟩ := hs herr
    refine hs.imp ?_
    rintro _ rfl
    unfold Filled
    rcases hinit with ⟨hmem, rfl⟩ | ⟨hmem, hinit⟩
    · have hne : ∀ d ∈ tunnelDrivers, ¬ (d = cstr "vxlan" ∨ d = cstr "geneve") := by decide
      rw [if_pos ⟨hmem, hdata⟩, if_neg (hne driver hdriver)]
    · rw [if_neg fun h => hmem h.1]
      exact ready_tunnel hdriver hinit

theorem ownBlock_leavesFilled {driver : CStr}
    (hdriver : driver = cstr "vxlan" ∨ driver = cstr "geneve") {init : Block}
    {linkinfo : Option Attrs} {A : Block → Prop} (hA : ∀ b, A b → Ready (some driver) b)
    {p : HandlerProg Unit}
    (h : Prog.Triple (Owns e (some driver) (· = init)) p
      (fun _ s => infoData linkinfo ≠ none ∧ Owns e (some driver) A s)
      fun stop s => stop = .err ENOENT →
        infoData linkinfo = none ∧ Owns e (some driver) (· = .released) s) :
    LeavesFilled e driver init linkinfo p := by
  refine (h.weaken (fun _ => id) ?_).weakenError ?_
  · rintro _ s ⟨hdata, hs⟩
    refine hs.imp fun b hb => ?_
    rw [Filled, if_neg fun h => hdata h.2]
    exact hA b hb
  · intro stop s hs herr
    obtain ⟨hdata, hs⟩ := hs herr
    refine hs.imp ?_
    rintro _ rfl
    have hmem : driver ∈ dataDrivers := by
      rcases hdriver with rfl | rfl <;> decide
    rw [Filled, if_pos ⟨hmem, hdata⟩, if_pos hdriver]

theorem keeps_leavesFilled {driver : CStr} (hdriver : driver ∉ dataDrivers) {init : Block}
    {linkinfo : Option Attrs} {A : Block → Prop} (hinit : A init)
    (hA : ∀ b, A b → Ready (some driver) b) {p : HandlerProg Unit}
    (h : Prog.Runs (Owns e (some driver) A) p (fun _ => Owns e (some driver) A)
      (Owns e (some driver) A)) : LeavesFilled e driver init linkinfo p := by
  have hfilled : ∀ b, A b → Filled driver linkinfo b := by
    intro b hb
    rw [Filled, if_neg fun h => hdriver h.1]
    exact hA b hb
  refine (h.weaken (fun s hs => hs.imp ?_) fun _ s hs => hs.imp hfilled).weakenError
    fun _ s hs _ => hs.imp hfilled
  rintro _ rfl
  exact hinit

def initialBlock (h : IfHandler) : Block :=
  match h.privateSize with
  | some zeroed => .live zeroed
  | none => .unset

variable (env : HandlerEnv)

theorem netlink_leavesFilled {h : IfHandler} (hmem : h ∈ ifHandlers env) {driver : CStr}
    (hdriver : h.driver = some driver) {f : IfPtr → Option Attrs → HandlerProg Unit}
    (hf : h.netlink = some f) (linkinfo : Option Attrs) :
    LeavesFilled e driver (initialBlock h) linkinfo (f e linkinfo) := by
  have hgre : ∀ family (driver : CStr), driver ∈ tunnelDrivers → driver ∉ dataDrivers →
      LeavesFilled e driver (.live (.tunnel {})) linkinfo (greCommonNetlink family e linkinfo) :=
    fun family driver htunnel hdata =>
      tunnel_leavesFilled htunnel (.inr ⟨hdata, _, rfl⟩) (greCommonNetlink_owns family linkinfo)
  have hipxipy : ∀ family (driver : CStr), driver ∈ tunnelDrivers → driver ∉ dataDrivers →
      LeavesFilled e driver (.live (.tunnel {})) linkinfo (ipxipyNetlink family e linkinfo) :=
    fun family driver htunnel hdata =>
      tunnel_leavesFilled htunnel (.inr ⟨hdata, _, rfl⟩) (ipxipyNetlink_owns family linkinfo)
  have hvti : ∀ family (driver : CStr), driver ∈ tunnelDrivers → driver ∈ dataDrivers →
      LeavesFilled e driver .unset linkinfo (vtiNetlink family e linkinfo) :=
    fun family driver htunnel hdata =>
      tunnel_leavesFilled htunnel (.inl ⟨hdata, rfl⟩) (vtiNetlink_owns family linkinfo)
  simp only [ifHandlers, List.mem_cons, List.not_mem_nil, or_false] at hmem
  rcases hmem with rfl | rfl | rfl | rfl | rfl | rfl | rfl | rfl | rfl | rfl | rfl | rfl | rfl |
    rfl | rfl | rfl | rfl | rfl | rfl | rfl | rfl <;> cases hf <;> cases hdriver
  -- bond
  · exact keeps_leavesFilled (by decide) ⟨_, rfl⟩ (fun _ => ready_bond) (bondNetlink_owns linkinfo)
  -- geneve
  · refine ownBlock_leavesFilled (.inr rfl) (fun b hb => ready_other (by decide) ?_)
      (geneveNetlink_owns linkinfo)
    rintro rfl
    obtain ⟨flags, hflags⟩ := hb
    cases hflags
  -- gre
  · exact hgre _ _ (by decide) (by decide)
  · exact hgre _ _ (by decide) (by decide)
  · exact hgre _ _ (by decide) (by decide)
  · exact hgre _ _ (by decide) (by decide)
  · exact hgre _ _ (by decide) (by decide)
  · exact hgre _ _ (by decide) (by decide)
  -- ipxipy
  · exact hipxipy _ _ (by decide) (by decide)
  · exact hipxipy _ _ (by decide) (by decide)
  · exact hipxipy _ _ (by decide) (by decide)
  -- macsec
  · refine keeps_leavesFilled (A := (· = .unset)) (by decide) rfl ?_ (macsecNetlink_owns linkinfo)
    rintro _ rfl
    exact ready_other (by decide) nofun
  -- vlan
  · refine keeps_leavesFilled (by decide) ⟨_, rfl⟩ ?_ (vlanNetlink_owns linkinfo)
    rintro _ ⟨tag, rfl⟩
    exact ready_other (by decide) nofun
  -- vti
  · exact hvti _ _ (by decide) (by decide)
  · exact hvti _ _ (by decide) (by decide)
  -- vxlan
  · exact ownBlock_leavesFilled (.inl rfl) (fun _ => ready_vxlan) (vxlanNetlink_owns linkinfo)
  -- xfrm
  · refine keeps_leavesFilled (A := (· = .unset)) (by decide) rfl ?_ (xfrmNetlink_owns linkinfo)
    rintro _ rfl
    exact ready_other (by decide) nofun

/-! ## `fill_if_link` -/

omit env in
theorem setDriver_owns (driver : CStr) :
    Prog.Triple (Owns e d B)
      (modifyWorld (·.modifyIf e fun y => { y with driver := some driver }))
      (fun _ => Owns e (some driver) B) E := by
  unfold modifyWorld onWorld
  refine Prog.Triple.zoom fun s hs => Prog.Triple.mapError (Prog.Triple.modify ?_)
  rintro _ rfl
  refine ⟨?_, hs.block, hs.intact⟩
  rw [World.modifyIf_ifs, if_pos rfl]

omit env in
theorem ifHandlerInit_owns {driver : CStr} (handlers : List IfHandler) :
    Prog.Runs (Owns e (some driver) (· = .unset)) (ifHandlerInit e handlers)
      (fun _ => Owns e (some driver) (· =
        ((handlers.find? fun h => h.driver = some driver).map initialBlock).getD .unset))
      fun _ => True := by
  induction handlers with
  | nil => exact Prog.Triple.pure fun _ => id
  | cons h handlers ih =>
    unfold ifHandlerInit
    cases hh : h.driver with
    | none => simpa [hh] using ih
    | some hDriver =>
      refine Prog.Triple.bind (Q := fun s₀ s =>
        s = s₀ ∧ Owns e (some driver) (· = .unset) s) (Prog.Triple.get fun s hs => ⟨rfl, hs⟩)
        fun s₀ => ?_
      rintro s ⟨rfl, hs⟩
      simp only [hs.driver]
      refine Prog.Triple.bind (Q := fun d' s => d' = driver ∧ Owns e (some driver) (· = .unset) s)
        (Prog.Triple.deref fun d' hd' s hs => ⟨(Option.some.inj hd').symm, hs⟩)
        (fun d' => Prog.Triple.of_and ?_) s hs
      rintro rfl
      by_cases hne : hDriver ≠ d'
      · rw [if_pos hne, List.find?_cons_of_neg (by simpa [hh] using hne)]
        exact ih
      · obtain rfl := not_not.mp hne
        rw [if_neg hne, List.find?_cons_of_pos (by simp [hh])]
        simp only [Option.map_some, Option.getD_some, initialBlock]
        cases h.privateSize with
        | none => exact Prog.Triple.pure fun _ => id
        | some zeroed =>
          refine Prog.Triple.bind malloc_owns fun ok => Prog.Triple.ite (fun _ => ?_) fun _ => ?_
          · exact setBlock_owns _ rfl
          · refine Prog.Triple.bind (Q := fun _ _ => True) ?_ fun _ =>
              Prog.Triple.throw fun _ _ => trivial
            exact Prog.Triple.modify fun _ _ => trivial

omit env in
theorem forEach_callback_none {callback : IfHandler → Option (IfPtr → HandlerProg Unit)}
    {handlers : List IfHandler}
    (hnone : ∀ h ∈ handlers, h.driver = none ∨ h.driver = d → callback h = none) :
    Prog.Triple (Owns e d B) (Prog.forEach handlers (ifHandlerCallback callback e))
      (fun _ => Owns e d B) E := by
  refine Prog.Triple.forEach fun h hh => ifHandlerCallback_owns fun f hf hdriver => ?_
  rw [hnone h hh (hdriver rfl)] at hf
  cases hf

omit env in
theorem forEach_callback_one {callback : IfHandler → Option (IfPtr → HandlerProg Unit)}
    {driver : CStr} {A : Block → Prop} {handlers : List IfHandler} {h : IfHandler}
    (hnodup : (handlers.filterMap (·.driver)).Nodup) (hmem : h ∈ handlers)
    (hdriver : h.driver = some driver)
    (hnone : ∀ h ∈ handlers, h.driver = none → callback h = none)
    {f : IfPtr → HandlerProg Unit} (hf : callback h = some f)
    (hrun : Prog.Triple (Owns e (some driver) B) (f e) (fun _ => Owns e (some driver) A) E) :
    Prog.Triple (Owns e (some driver) B) (Prog.forEach handlers (ifHandlerCallback callback e))
      (fun _ => Owns e (some driver) A) E := by
  induction handlers with
  | nil => simp at hmem
  | cons g handlers ih =>
    have hnone' : ∀ h ∈ handlers, h.driver = none → callback h = none :=
      fun h hh => hnone h (List.mem_cons_of_mem g hh)
    by_cases hg : g.driver = some driver
    · have hother : ∀ k ∈ handlers, k.driver ≠ some driver := by
        intro k hk hkd
        rw [List.filterMap_cons_some hg, List.nodup_cons] at hnodup
        exact hnodup.1 (List.mem_filterMap.mpr ⟨k, hk, hkd⟩)
      obtain rfl : g = h := by
        rcases List.mem_cons.mp hmem with rfl | hmem
        · rfl
        · exact absurd hdriver (hother h hmem)
      refine Prog.Triple.bind (Q := fun _ => Owns e (some driver) A) ?_ fun _ =>
        forEach_callback_none fun k hk hkd => ?_
      · refine Prog.Triple.bind (Q := fun s₀ s => s = s₀ ∧ Owns e (some driver) B s)
          (Prog.Triple.get fun s hs => ⟨rfl, hs⟩) fun s₀ => ?_
        rintro s ⟨rfl, hs⟩
        rw [if_pos (by simp [driverMatch, hdriver, hs.driver])]
        simp only [hf]
        exact hrun s hs
      · exact hnone' k hk (hkd.resolve_right (hother k hk))
    · have hmem' : h ∈ handlers := by
        rcases List.mem_cons.mp hmem with rfl | hmem
        · exact absurd hdriver hg
        · exact hmem
      have hnodup' : (handlers.filterMap (·.driver)).Nodup :=
        hnodup.sublist ((List.sublist_cons_self g handlers).filterMap _)
      refine Prog.Triple.bind (Q := fun _ => Owns e (some driver) B)
        (ifHandlerCallback_owns fun k hk hkd => ?_) fun _ => ih hnodup' hmem' hnone'
      rcases hkd rfl with hkd | hkd
      · rw [hnone g List.mem_cons_self hkd] at hk
        cases hk
      · exact absurd hkd hg

def driverNames : List CStr :=
  [cstr "bonding", cstr "geneve", cstr "gre", cstr "gretap", cstr "erspan", cstr "ip6gre",
    cstr "ip6gretap", cstr "ip6erspan", cstr "ipip", cstr "sit", cstr "ip6tnl", cstr "macsec",
    cstr "team", cstr "veth", cstr "802.1Q VLAN Support", cstr "vti", cstr "vti6", cstr "vxlan",
    cstr "xfrm"]

theorem ifHandlers_drivers : (ifHandlers env).filterMap (·.driver) = driverNames := rfl

theorem netlink_of_driver {h : IfHandler} (hmem : h ∈ ifHandlers env)
    (hdriver : h.driver = none ∨ h.driver = some (cstr "team") ∨ h.driver = some (cstr "veth")) :
    h.netlink = none := by
  have hbond : ¬ ((hBond env).driver = none ∨ (hBond env).driver = some (cstr "team") ∨
      (hBond env).driver = some (cstr "veth")) := by
    dsimp only [hBond]
    decide
  simp only [ifHandlers, List.mem_cons, List.not_mem_nil, or_false] at hmem
  rcases hmem with rfl | rfl | rfl | rfl | rfl | rfl | rfl | rfl | rfl | rfl | rfl | rfl | rfl |
    rfl | rfl | rfl | rfl | rfl | rfl | rfl | rfl <;>
    first | rfl | exact absurd hdriver hbond | exact absurd hdriver (by decide)

theorem driver_of_no_netlink {h : IfHandler} (hmem : h ∈ ifHandlers env) {driver : CStr}
    (hdriver : h.driver = some driver) (hnone : h.netlink = none) :
    driver = cstr "team" ∧ initialBlock h = .live (.team none) ∨
      driver = cstr "veth" ∧ initialBlock h = .unset := by
  simp only [ifHandlers, List.mem_cons, List.not_mem_nil, or_false] at hmem
  rcases hmem with rfl | rfl | rfl | rfl | rfl | rfl | rfl | rfl | rfl | rfl | rfl | rfl | rfl |
    rfl | rfl | rfl | rfl | rfl | rfl | rfl | rfl <;> cases hdriver <;> try cases hnone
  · exact .inl ⟨rfl, rfl⟩
  · exact .inr ⟨rfl, rfl⟩

theorem filled_unset {driver : CStr} (hdriver : driver ∉ cstr "bonding" :: cstr "team" ::
    cstr "vxlan" :: tunnelDrivers ++ dataDrivers) (linkinfo : Option Attrs) :
    Filled driver linkinfo .unset := by
  rw [List.mem_append, not_or] at hdriver
  rw [Filled, if_neg fun h => hdriver.2 h.1]
  exact ready_other hdriver.1 nofun

theorem ifHandlerNetlink_leavesFilled (driver : CStr) (linkinfo : Option Attrs) :
    LeavesFilled e driver
      ((((ifHandlers env).find? fun h => h.driver = some driver).map initialBlock).getD .unset)
      linkinfo (ifHandlerNetlink (ifHandlers env) e linkinfo) := by
  have hnone : ∀ h ∈ ifHandlers env, h.driver = none →
      (h.netlink.map fun f entry => f entry linkinfo) = none := by
    intro h hmem hdriver
    rw [netlink_of_driver env hmem (.inl hdriver)]
    rfl
  unfold ifHandlerNetlink
  cases hfind : (ifHandlers env).find? fun h => h.driver = some driver with
  | none =>
    have hno : ∀ h ∈ ifHandlers env, h.driver ≠ some driver := by
      simpa using List.find?_eq_none.mp hfind
    have hnames : driver ∉ driverNames := by
      rw [← ifHandlers_drivers env]
      intro hmem
      obtain ⟨h, hmem, hdriver⟩ := List.mem_filterMap.mp hmem
      exact hno h hmem hdriver
    have hfilled : ∀ b, b = Block.unset → Filled driver linkinfo b := by
      have hsub : ∀ d ∈ cstr "bonding" :: cstr "team" :: cstr "vxlan" :: tunnelDrivers ++
          dataDrivers, d ∈ driverNames := by decide
      rintro _ rfl
      exact filled_unset (fun h => hnames (hsub driver h)) linkinfo
    have hskip : Prog.Runs (Owns e (some driver) (· = .unset)) (Prog.forEach (ifHandlers env)
        (ifHandlerCallback (fun h => h.netlink.map fun f entry => f entry linkinfo) e))
        (fun _ => Owns e (some driver) (· = .unset)) (Owns e (some driver) (· = .unset)) :=
      forEach_callback_none fun h hmem hdriver =>
        hnone h hmem (hdriver.resolve_right (hno h hmem))
    exact (hskip.weaken (fun _ => id) fun _ s hs => hs.imp hfilled).weakenError
      fun _ s hs _ => hs.imp hfilled
  | some h =>
    have hmem : h ∈ ifHandlers env := List.mem_of_find?_eq_some hfind
    have hdriver : h.driver = some driver := by simpa using List.find?_some hfind
    simp only [Option.map_some, Option.getD_some]
    cases hnetlink : h.netlink with
    | some f =>
      refine forEach_callback_one (h := h) ?_ hmem hdriver hnone (by rw [hnetlink]; rfl) ?_
      · rw [ifHandlers_drivers]
        decide
      · exact netlink_leavesFilled env hmem hdriver hnetlink linkinfo
    | none =>
      have hfilled : ∀ b, b = initialBlock h → Filled driver linkinfo b := by
        rintro _ rfl
        rcases driver_of_no_netlink env hmem hdriver hnetlink with ⟨rfl, hb⟩ | ⟨rfl, hb⟩
        · rw [hb, Filled, if_neg (by simp only [not_and]; exact fun h => absurd h (by decide))]
          exact ready_team ⟨_, rfl⟩
        · rw [hb]
          exact filled_unset (by decide) linkinfo
      have hskip : Prog.Runs (Owns e (some driver) (· = initialBlock h))
          (Prog.forEach (ifHandlers env)
            (ifHandlerCallback (fun h => h.netlink.map fun f entry => f entry linkinfo) e))
          (fun _ => Owns e (some driver) (· = initialBlock h))
          (Owns e (some driver) (· = initialBlock h)) := by
        refine forEach_callback_none fun k hk hkd => ?_
        rcases hkd with hkd | hkd
        · exact hnone k hk hkd
        · rcases driver_of_no_netlink env hmem hdriver hnetlink with ⟨rfl, -⟩ | ⟨rfl, -⟩
          · rw [netlink_of_driver env hk (.inr (.inl hkd))]
            rfl
          · rw [netlink_of_driver env hk (.inr (.inr hkd))]
            rfl
      exact (hskip.weaken (fun _ => id) fun _ s hs => hs.imp hfilled).weakenError
        fun _ s hs _ => hs.imp hfilled

theorem fillIfHandlers_owns (driver : CStr) (linkinfo : Option Attrs) :
    Prog.Runs (Owns e (some driver) (· = .unset)) (fillIfHandlers env e linkinfo)
      (fun _ => Owns e (some driver) (Filled driver linkinfo)) fun _ => True := by
  refine Prog.Triple.bind (ifHandlerInit_owns (ifHandlers env)) fun _ => ?_
  refine Prog.Triple.bind (Q := fun (r : Except Stop Unit) s => match r with
    | .ok _ => Owns e (some driver) (Filled driver linkinfo) s
    | .error stop => stop = .err ENOENT → Owns e (some driver) (Filled driver linkinfo) s)
    (Prog.Triple.attempt (ifHandlerNetlink_leavesFilled env driver linkinfo)) fun r => ?_
  cases r with
  | ok u => exact Prog.Triple.pure fun _ => id
  | error stop =>
    refine Prog.Triple.ite (fun herr => ?_) fun _ => Prog.Triple.throw fun _ _ => trivial
    exact Prog.Triple.pure fun s hs => hs herr

omit env in
theorem macAddrFillNetlink_owns (nla : List UInt8) :
    Prog.Runs (Owns e d B) (macAddrFillNetlink x nla) (fun _ => Owns e d B) fun _ => True := by
  have hset : ∀ mac : MacAddr, Prog.Runs (Owns e d B)
      (modifyWorld (·.modifyIf x fun y => { y with macAddr := mac })) (fun _ => Owns e d B)
      fun _ => True := fun mac => modifyIf_owns x fun _ => rfl
  refine Prog.Triple.bind (hset _) fun _ => ?_
  refine Prog.Triple.bind (allocate_owns fun _ _ => trivial) fun _ => ?_
  refine Prog.Triple.bind malloc_owns fun ok => ?_
  refine Prog.Triple.ite (fun _ => hset _) fun _ => Prog.Triple.ite (fun _ => hset _) fun _ => ?_
  exact fun s _ r s' hrun => by cases hrun

omit env in
theorem fillIfXdp_owns (attr : Option (List UInt8)) :
    Prog.Runs (Owns e d B) (fillIfXdp x attr) (fun _ => Owns e d B) fun _ => True := by
  have hprog : ∀ mode attr, Prog.Runs (Owns e d B) (fillIfXdpProg x mode attr)
      (fun _ => Owns e d B) fun _ => True := by
    refine fun mode attr => withSome_owns fun a => ?_
    refine Prog.Triple.ite (fun _ => Prog.Triple.pure fun _ => id) fun _ => ?_
    exact Prog.Triple.bind (allocate_owns fun _ _ => trivial) fun _ => modifyIf_owns x fun _ => rfl
  refine withSome_owns fun a => Prog.Triple.bind (allocate_owns fun _ _ => trivial) fun _ => ?_
  refine Prog.Triple.ite (fun _ => Prog.Triple.pure fun _ => id) fun _ => ?_
  refine Prog.Triple.ite (fun _ => ?_) fun _ => hprog _ _
  exact Prog.Triple.bind (hprog _ _) fun _ => Prog.Triple.bind (hprog _ _) fun _ => hprog _ _

/-- A new entry that was filled has its driver, and the block that the driver's handler leaves. -/
theorem fillIfLink_owns (msg : NlMsg) :
    Prog.Runs (Owns e d (· = .unset)) (fillIfLink env e msg)
      (fun _ s => ∃ ifi tb, linkOf msg = some (ifi, tb) ∧
        Owns e (some (linkDriver env e ifi tb))
          (Filled (linkDriver env e ifi tb) (linkinfoOf tb)) s) fun _ => True := by
  unfold fillIfLink
  refine Prog.Triple.ite (fun _ => Prog.Triple.throw fun _ _ => trivial) fun _ => ?_
  cases hlink : linkOf msg with
  | none => exact Prog.Triple.throw fun _ _ => trivial
  | some link =>
    obtain ⟨ifi, tb⟩ := link
    refine Prog.Triple.bind (allocate_owns fun _ _ => trivial) fun _ => ?_
    cases tb IFLA_IFNAME with
    | none => exact Prog.Triple.throw fun _ _ => trivial
    | some ifname =>
      refine (Prog.Triple.onError (?_ : Prog.Triple _ _ _ fun _ _ => True)
        fun stop => Prog.Triple.const).weaken (fun _ => id) fun _ s hs => ⟨ifi, tb, rfl, hs⟩
      refine Prog.Triple.bind (allocate_owns fun _ _ => trivial) fun _ => ?_
      refine Prog.Triple.bind (modifyIf_owns e fun _ => rfl) fun _ => ?_
      refine Prog.Triple.bind
        (withSome_owns fun _ => allocate_owns fun _ _ => trivial) fun _ => ?_
      refine Prog.Triple.bind (withSome_owns macAddrFillNetlink_owns) fun _ => ?_
      refine Prog.Triple.bind (setDriver_owns _) fun _ => ?_
      exact Prog.Triple.bind (fillIfXdp_owns _) fun _ => fillIfHandlers_owns env _ _

end

end Plotnetcfg.Handlers
