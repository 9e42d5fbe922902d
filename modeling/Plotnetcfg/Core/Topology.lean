import Plotnetcfg.Core.CString
import Plotnetcfg.Lib.Keyed
import Mathlib.Data.List.Basic

/-! The data the scan collects: interfaces, name spaces and routes. Structures refer to
each other by address, and `World` is the memory that holds them. -/

namespace Plotnetcfg

/-- The address of a `struct if_entry`; a null pointer is `none`. -/
abbrev IfPtr := Nat

abbrev NsPtr := Nat

/-- A network name space of the kernel, named by its inode number. -/
abbrev KernelNs := UInt32

structure Addr where
  family : Int := 0
  prefixlen : Int := 0
  formatted : Option CStr := none
  raw : Option (List UInt8) := none
deriving DecidableEq

structure MacAddr where
  len : Nat := 0
  raw : Option (List UInt8) := none
  formatted : Option CStr := none
deriving DecidableEq

structure IfAddr where
  addr : Addr
  peer : Addr
deriving DecidableEq

structure IfXdp where
  mode : CStr
  progId : UInt32
deriving DecidableEq

inductive PropType where
  | state
  | config
deriving DecidableEq

structure PropMask where
  state : Bool := true
  config : Bool := true
deriving DecidableEq

def labelPropMatchMask (type : PropType) (mask : PropMask) : Bool :=
  match type with
  | .state => mask.state
  | .config => mask.config

structure LabelProperty where
  type : PropType
  key : CStr
  value : CStr
deriving DecidableEq

structure IfFlags where
  loopback : Bool := false
  up : Bool := false
  hasLink : Bool := false
  internal : Bool := false
  linkWeak : Bool := false
  passiveSlave : Bool := false
deriving DecidableEq

structure IfEntry where
  ns : NsPtr := 0
  internalNs : Option CStr := none
  ifIndex : UInt32 := 0
  flags : IfFlags := {}
  mtu : Int := 0
  ifName : CStr := []
  driver : Option CStr := none
  subDriver : Option CStr := none
  properties : List LabelProperty := []
  macAddr : MacAddr := {}
  addr : List IfAddr := []
  xdp : List IfXdp := []
  masterIndex : UInt32 := 0
  master : Option IfPtr := none
  activeSlave : Option IfPtr := none
  linkIndex : UInt32 := 0
  linkNetnsid : Int := -1
  link : Option IfPtr := none
  peerIndex : UInt32 := 0
  peerNetnsid : Int := -1
  peer : Option IfPtr := none
  linkNet : Option NsPtr := none
  pciPath : Option CStr := none
  pciPhysfnPath : Option CStr := none
  physfn : Option IfPtr := none
  edgeLabel : Option CStr := none
  warnings : Nat := 0
  revMaster : List IfPtr := []
  revLink : List IfPtr := []
deriving DecidableEq

/-- What an interface is to the rest of the program: `y` is at home where `x` is, with its
addresses, its name and its driver. -/
structure IfEntry.Kept (x y : IfEntry) : Prop where
  ns : y.ns = x.ns
  addr : y.addr = x.addr
  ifName : y.ifName = x.ifName
  driver : y.driver = x.driver

theorem IfEntry.Kept.refl (x : IfEntry) : x.Kept x := ⟨rfl, rfl, rfl, rfl⟩

theorem IfEntry.Kept.trans {x y z : IfEntry} (h : x.Kept y) (h' : y.Kept z) : x.Kept z :=
  ⟨h'.ns.trans h.ns, h'.addr.trans h.addr, h'.ifName.trans h.ifName, h'.driver.trans h.driver⟩

structure RtMetric where
  type : Int
  value : Int
deriving DecidableEq

structure Route where
  iif : Option IfPtr := none
  oif : Option IfPtr := none
  metrics : List RtMetric := []
  dst : Addr := {}
  gw : Addr := {}
  prefsrc : Addr := {}
  src : Addr := {}
  iifindex : UInt32 := 0
  oifindex : UInt32 := 0
  priority : UInt32 := 0
  tableId : UInt8 := 0
  tos : UInt8 := 0
  protocol : UInt8 := 0
  type : UInt8 := 0
  family : UInt8 := 0
  scope : UInt8 := 0
deriving DecidableEq

structure Rtable where
  id : Int
  routes : List Route
deriving DecidableEq

structure NetnsId where
  ns : NsPtr
  id : Int
deriving DecidableEq

structure NetnsEntry where
  ifaces : List IfPtr := []
  warnings : List CStr := []
  kernelId : Int := 0
  name : Option CStr := none
  pid : Int := 0
  /-- The name space the open descriptor refers to. -/
  fd : KernelNs := 0
  ids : List NetnsId := []
  rtables : List Rtable := []
deriving DecidableEq

/-- `free` are the addresses `malloc` will hand out to the next calls of `if_create`;
when none is left it fails. -/
structure World where
  ifs : IfPtr → IfEntry
  nss : NsPtr → NetnsEntry
  nsList : List NsPtr
  free : List IfPtr

namespace World

def modifyIf (w : World) (e : IfPtr) (f : IfEntry → IfEntry) : World :=
  { w with ifs := fun x => if x = e then f (w.ifs x) else w.ifs x }

def modifyNs (w : World) (n : NsPtr) (f : NetnsEntry → NetnsEntry) : World :=
  { w with nss := fun x => if x = n then f (w.nss x) else w.nss x }

@[simp] theorem modifyIf_ifs (w : World) (e x : IfPtr) (f : IfEntry → IfEntry) :
    (w.modifyIf e f).ifs x = if x = e then f (w.ifs x) else w.ifs x := rfl

@[simp] theorem modifyIf_nss (w : World) (e : IfPtr) (f : IfEntry → IfEntry) :
    (w.modifyIf e f).nss = w.nss := rfl

@[simp] theorem modifyIf_nsList (w : World) (e : IfPtr) (f : IfEntry → IfEntry) :
    (w.modifyIf e f).nsList = w.nsList := rfl

@[simp] theorem modifyIf_free (w : World) (e : IfPtr) (f : IfEntry → IfEntry) :
    (w.modifyIf e f).free = w.free := rfl

@[simp] theorem modifyNs_ifs (w : World) (n : NsPtr) (f : NetnsEntry → NetnsEntry) :
    (w.modifyNs n f).ifs = w.ifs := rfl

@[simp] theorem modifyNs_nss (w : World) (n x : NsPtr) (f : NetnsEntry → NetnsEntry) :
    (w.modifyNs n f).nss x = if x = n then f (w.nss x) else w.nss x := rfl

@[simp] theorem modifyNs_nsList (w : World) (n : NsPtr) (f : NetnsEntry → NetnsEntry) :
    (w.modifyNs n f).nsList = w.nsList := rfl

@[simp] theorem modifyNs_free (w : World) (n : NsPtr) (f : NetnsEntry → NetnsEntry) :
    (w.modifyNs n f).free = w.free := rfl

def listed (w : World) : List IfPtr := w.nsList.flatMap fun n => (w.nss n).ifaces

@[simp] theorem modifyIf_listed (w : World) (e : IfPtr) (f : IfEntry → IfEntry) :
    (w.modifyIf e f).listed = w.listed := rfl

theorem mem_listed {w : World} {e : IfPtr} :
    e ∈ w.listed ↔ ∃ n ∈ w.nsList, e ∈ (w.nss n).ifaces := List.mem_flatMap

theorem listed_congr {w w' : World} (hlist : w'.nsList = w.nsList)
    (hifaces : ∀ n, (w'.nss n).ifaces = (w.nss n).ifaces) : w'.listed = w.listed := by
  simp only [listed, hlist, hifaces]

/-- `w'` has the lists and the name space ids of `w`, and what its interfaces are. -/
structure Frame (w w' : World) : Prop where
  nsList : w'.nsList = w.nsList
  ifaces : ∀ n, (w'.nss n).ifaces = (w.nss n).ifaces
  ids : ∀ n, (w'.nss n).ids = (w.nss n).ids
  free : w'.free = w.free
  kept : ∀ e, (w.ifs e).Kept (w'.ifs e)

namespace Frame

theorem refl (w : World) : Frame w w :=
  ⟨rfl, fun _ => rfl, fun _ => rfl, rfl, fun _ => .refl _⟩

theorem trans {w₁ w₂ w₃ : World} (h : Frame w₁ w₂) (h' : Frame w₂ w₃) : Frame w₁ w₃ where
  nsList := h'.nsList.trans h.nsList
  ifaces n := (h'.ifaces n).trans (h.ifaces n)
  ids n := (h'.ids n).trans (h.ids n)
  free := h'.free.trans h.free
  kept e := (h.kept e).trans (h'.kept e)

theorem listed {w w' : World} (h : Frame w w') : w'.listed = w.listed :=
  listed_congr h.nsList h.ifaces

theorem modifyIf (w : World) (e : IfPtr) {f : IfEntry → IfEntry}
    (hf : ∀ x : IfEntry, x.Kept (f x)) : Frame w (w.modifyIf e f) := by
  refine ⟨rfl, fun _ => rfl, fun _ => rfl, rfl, fun x => ?_⟩
  rw [modifyIf_ifs]
  split_ifs
  · exact hf _
  · exact .refl _

theorem modifyNs (w : World) (n : NsPtr) {f : NetnsEntry → NetnsEntry}
    (hifaces : ∀ x, (f x).ifaces = x.ifaces) (hids : ∀ x, (f x).ids = x.ids) :
    Frame w (w.modifyNs n f) := by
  refine ⟨rfl, fun x => ?_, fun x => ?_, rfl, fun _ => .refl _⟩
  · rw [modifyNs_nss]
    split_ifs
    · exact hifaces _
    · rfl
  · rw [modifyNs_nss]
    split_ifs
    · exact hids _
    · rfl

end Frame

/-- What a scan leaves: every interface is in one list, that of its name space, `malloc` will
return none of them, name space ids are of listed name spaces, and addresses have their bytes. -/
structure Scanned (w : World) : Prop where
  nsNodup : w.nsList.Nodup
  nodup : w.listed.Nodup
  home : ∀ n ∈ w.nsList, ∀ e ∈ (w.nss n).ifaces, (w.ifs e).ns = n
  ids : ∀ n ∈ w.nsList, ∀ i ∈ (w.nss n).ids, i.ns ∈ w.nsList
  addr : ∀ e ∈ w.listed, ∀ a ∈ (w.ifs e).addr, a.addr.raw.isSome
  fresh : ∀ e ∈ w.free, e ∉ w.listed
  freeNodup : w.free.Nodup

theorem Scanned.frame {w w' : World} (h : Scanned w) (hf : Frame w w') : Scanned w' where
  nsNodup := by rw [hf.nsList]; exact h.nsNodup
  nodup := by rw [hf.listed]; exact h.nodup
  home n hn e he := by
    rw [hf.nsList] at hn
    rw [hf.ifaces] at he
    rw [(hf.kept e).ns, h.home n hn e he]
  ids n hn i hi := by
    rw [hf.nsList] at hn ⊢
    rw [hf.ids] at hi
    exact h.ids n hn i hi
  addr e he a ha := by
    rw [hf.listed] at he
    rw [(hf.kept e).addr] at ha
    exact h.addr e he a ha
  fresh e he := by
    rw [hf.free] at he
    rw [hf.listed]
    exact h.fresh e he
  freeNodup := by rw [hf.free]; exact h.freeNodup

structure Adds (w w' : World) (root : NsPtr) (e : IfPtr) : Prop where
  nsList : w'.nsList = w.nsList
  ifaces : ∀ n, (w'.nss n).ifaces = if n = root then (w.nss n).ifaces ++ [e] else (w.nss n).ifaces
  ids : ∀ n, (w'.nss n).ids = (w.nss n).ids
  free : w.free = e :: w'.free
  ifs : ∀ x ≠ e, w'.ifs x = w.ifs x
  ns : (w'.ifs e).ns = root
  addr : (w'.ifs e).addr = []

section
variable {w w' : World} {root : NsPtr} {e : IfPtr} (h : Scanned w) (hadd : Adds w w' root e)
  (hroot : root ∈ w.nsList)
include h hadd hroot

theorem Adds.listed_perm : w'.listed.Perm (e :: w.listed) := by
  unfold listed
  rw [hadd.nsList]
  simp only [hadd.ifaces]
  exact Keyed.flatMap_append_perm (fun n => (w.nss n).ifaces) h.nsNodup hroot e

theorem Adds.mem_listed {x : IfPtr} : x ∈ w'.listed ↔ x = e ∨ x ∈ w.listed := by
  rw [(hadd.listed_perm h hroot).mem_iff, List.mem_cons]

theorem Adds.scanned : Scanned w' := by
  have hnew : e ∉ w.listed := h.fresh e (by rw [hadd.free]; exact List.mem_cons_self)
  obtain ⟨hfree, hfreeNodup⟩ := List.nodup_cons.mp (hadd.free ▸ h.freeNodup)
  have hne : ∀ x ∈ w.listed, x ≠ e := by
    rintro x hx rfl
    exact hnew hx
  refine ⟨hadd.nsList ▸ h.nsNodup, ?_, fun n hn x hx => ?_, fun n hn i hi => ?_,
    fun x hx a ha => ?_, fun x hx hmem => ?_, hfreeNodup⟩
  · rw [(hadd.listed_perm h hroot).nodup_iff, List.nodup_cons]
    exact ⟨hnew, h.nodup⟩
  · rw [hadd.nsList] at hn
    by_cases hxe : x = e
    · subst hxe
      rw [hadd.ifaces] at hx
      by_cases hnr : n = root
      · rw [hadd.ns, hnr]
      · rw [if_neg hnr] at hx
        exact absurd (World.mem_listed.mpr ⟨n, hn, hx⟩) hnew
    · rw [hadd.ifs x hxe]
      refine h.home n hn x ?_
      rw [hadd.ifaces] at hx
      split_ifs at hx
      · exact (List.mem_append.mp hx).resolve_right (by simpa using hxe)
      · exact hx
  · rw [hadd.nsList] at hn ⊢
    rw [hadd.ids] at hi
    exact h.ids n hn i hi
  · rcases (hadd.mem_listed h hroot).mp hx with rfl | hx
    · rw [hadd.addr] at ha
      cases ha
    · rw [hadd.ifs x (hne x hx)] at ha
      exact h.addr x hx a ha
  · rcases (hadd.mem_listed h hroot).mp hmem with rfl | hmem
    · exact hfree hx
    · exact h.fresh x (by rw [hadd.free]; exact List.mem_cons_of_mem e hx) hmem

end

theorem Scanned.ns_mem {w : World} (h : Scanned w) {e : IfPtr} (he : e ∈ w.listed) :
    (w.ifs e).ns ∈ w.nsList := by
  obtain ⟨n, hn, hmem⟩ := mem_listed.mp he
  rw [h.home n hn e hmem]
  exact hn

end World

/-! ## Names -/

def NAME_MAX : Nat := 255
def IFNAMSIZ : Nat := 16
def INTERNAL_NS_MAX : Nat := NAME_MAX
def NETNS_MAX : Nat := NAME_MAX + 1
def IFID_MAX : Nat := INTERNAL_NS_MAX + NETNS_MAX + IFNAMSIZ + 1

def nsid (ns : NetnsEntry) : CStr :=
  match ns.name with
  | none => cstr "/"
  | some name => fits (NETNS_MAX + 1) (name ++ cstr "/")

def ifid (w : World) (e : IfPtr) : CStr :=
  let entry := w.ifs e
  fits (IFID_MAX + 1)
    (nsid (w.nss entry.ns) ++ entry.internalNs.getD [] ++ cstr "/" ++ entry.ifName)

def ifstr (w : World) (e : IfPtr) : CStr :=
  let entry := w.ifs e
  fits (IFNAMSIZ + NAME_MAX + 2) <|
    match (w.nss entry.ns).name with
    | none => cstr "/" ++ entry.ifName
    | some name => name ++ cstr "/" ++ entry.ifName

def ifdrv (entry : IfEntry) : CStr :=
  match entry.driver, entry.subDriver with
  | none, _ => []
  | some driver, none => driver
  | some driver, some sub => fits 256 (driver ++ cstr "/" ++ sub)

/-! ## Labels and warnings -/

def NetnsEntry.labelAdd (ns : NetnsEntry) (text : CStr) : NetnsEntry :=
  { ns with warnings := ns.warnings ++ [text] }

/-- `if_add_warning`: counted on the interface, listed in its name space. -/
def ifAddWarning (e : IfPtr) (text : CStr) (w : World) : World :=
  let text := ifstr w e ++ cstr ": " ++ text
  (w.modifyIf e fun x => { x with warnings := x.warnings + 1 }).modifyNs (w.ifs e).ns
    (·.labelAdd text)

def IfEntry.addProperty (x : IfEntry) (type : PropType) (key value : CStr) : IfEntry :=
  { x with properties := x.properties ++ [⟨type, key, value⟩] }

def ifAddConfig (e : IfPtr) (key value : CStr) (w : World) : World :=
  w.modifyIf e (·.addProperty .config key value)

def ifAddState (e : IfPtr) (key value : CStr) (w : World) : World :=
  w.modifyIf e (·.addProperty .state key value)

/-- `if_create`: a zeroed entry with the two net name space ids unset. -/
def ifCreate (w : World) : Option (IfPtr × World) :=
  match w.free with
  | [] => none
  | e :: free => some (e, { w with free := free }.modifyIf e fun _ => {})

@[simp] theorem labelAdd_ifaces (ns : NetnsEntry) (text : CStr) :
    (ns.labelAdd text).ifaces = ns.ifaces := rfl

theorem ifAddWarning_frame (e : IfPtr) (text : CStr) (w : World) :
    World.Frame w (ifAddWarning e text w) := by
  unfold ifAddWarning
  refine World.Frame.trans ?_ (World.Frame.modifyNs _ _ (fun _ => rfl) fun _ => rfl)
  exact World.Frame.modifyIf _ _ fun _ => ⟨rfl, rfl, rfl, rfl⟩

@[simp] theorem ifAddWarning_listed (e : IfPtr) (text : CStr) (w : World) :
    (ifAddWarning e text w).listed = w.listed := (ifAddWarning_frame e text w).listed

theorem ifAddWarning_ifs (e x : IfPtr) (text : CStr) (w : World) :
    (ifAddWarning e text w).ifs x =
      if x = e then { w.ifs x with warnings := (w.ifs x).warnings + 1 } else w.ifs x := rfl

end Plotnetcfg
