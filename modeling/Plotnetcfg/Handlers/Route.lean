import Plotnetcfg.Netlink.Attr
import Plotnetcfg.Core.Addr
import Plotnetcfg.Lib.OrderedPartition

/-! The route handler (`handlers/route.c`): routes read from a dump, sorted into one table
for each routing table of the kernel. -/

namespace Plotnetcfg.Handlers

open Plotnetcfg.Netlink Bytes

def RTM_NEWROUTE : Nat := 24

def RTA_DST : Nat := 1
def RTA_SRC : Nat := 2
def RTA_IIF : Nat := 3
def RTA_OIF : Nat := 4
def RTA_GATEWAY : Nat := 5
def RTA_PRIORITY : Nat := 6
def RTA_PREFSRC : Nat := 7
def RTA_METRICS : Nat := 8
def RTA_TABLE : Nat := 15
def RTA_MAX : Nat := 30

def RTAX_CC_ALGO : Nat := 16

structure Rtmsg where
  family : UInt8
  dstLen : UInt8
  srcLen : UInt8
  tos : UInt8
  table : UInt8
  protocol : UInt8
  scope : UInt8
  type : UInt8

def RTMSG_LEN : Nat := 12

def rtmsgOf (b : List UInt8) : Rtmsg where
  family := UInt8.ofNat (uint 0 1 b)
  dstLen := UInt8.ofNat (uint 1 1 b)
  srcLen := UInt8.ofNat (uint 2 1 b)
  tos := UInt8.ofNat (uint 3 1 b)
  table := UInt8.ofNat (uint 4 1 b)
  protocol := UInt8.ofNat (uint 5 1 b)
  scope := UInt8.ofNat (uint 6 1 b)
  type := UInt8.ofNat (uint 7 1 b)

/-- A message of the dump, with the outcome of each allocation made for it: `malloc` and
`strdup` by the attribute the address is in, `metric` by position. -/
structure RouteItem where
  msg : NlMsg
  calloc : Bool := true
  attrs : Bool := true
  malloc : Nat → Bool := fun _ => true
  strdup : Nat → Bool := fun _ => true
  metric : Nat → Bool := fun _ => true
  rtable : Bool := true

def routeParseMetrics (alloc : Nat → Bool) : Nat → List (List UInt8) → Except Int (List RtMetric)
  | _, [] => .ok []
  | n, a :: as =>
    if RTAX_CC_ALGO ≤ nlaType a then routeParseMetrics alloc n as
    else if !alloc n then .error ENOMEM
    else (routeParseMetrics alloc (n + 1) as).map
      (⟨nlaType a, Int.bmod (nlaReadU32 a).toNat (2 ^ 32)⟩ :: ·)

/-- The address in an attribute; a failure of `addr_init` goes unnoticed. -/
def routeAddr (item : RouteItem) (tb : Nat → Option (List UInt8)) (attr : Nat)
    (family prefixlen : Int) : Addr :=
  match tb attr with
  | some a => (addrInit family prefixlen (nlaRead a) (item.malloc attr) (item.strdup attr)).2
  | none => {}

def kernelTable (tb : Nat → Option (List UInt8)) (rtmsg : Rtmsg) : Nat :=
  match tb RTA_TABLE with
  | some a => (nlaReadU32 a).toNat
  | none => rtmsg.table.toNat

def routeCreateNetlink (item : RouteItem) : Except Int Route :=
  if nlmsgType item.msg.buf ≠ RTM_NEWROUTE then .error ENOENT
  else match nlmsgGet item.msg RTMSG_LEN with
    | none => .error ENOENT
    | some (b, msg) =>
      let rtmsg := rtmsgOf b
      if !item.calloc then .error ENOMEM
      else if !item.attrs then .error ENOMEM
      else
        let tb := nlmsgAttrs msg RTA_MAX
        let family : Int := rtmsg.family.toNat
        let index (attr : Nat) : UInt32 := ((tb attr).map nlaReadU32).getD 0
        let metrics := match tb RTA_METRICS with
          | some a => routeParseMetrics item.metric 0 (nestedNlas a)
          | none => .ok []
        metrics.map fun metrics =>
          { metrics := metrics
            family := rtmsg.family
            protocol := rtmsg.protocol
            scope := rtmsg.scope
            tos := rtmsg.tos
            type := rtmsg.type
            -- the field is an `unsigned char`
            tableId := UInt8.ofNat (kernelTable tb rtmsg)
            src := routeAddr item tb RTA_SRC family rtmsg.srcLen.toNat
            dst := routeAddr item tb RTA_DST family rtmsg.dstLen.toNat
            gw := routeAddr item tb RTA_GATEWAY family (-1)
            prefsrc := routeAddr item tb RTA_PREFSRC family (-1)
            oifindex := index RTA_OIF
            iifindex := index RTA_IIF
            priority := index RTA_PRIORITY }

def findIfByIfindex (w : World) (list : List IfPtr) (ifindex : UInt32) : Option IfPtr :=
  list.find? fun e => (w.ifs e).ifIndex == ifindex

def rtableCreate (alloc : Bool) (id : UInt8) : Except Int Rtable :=
  if alloc then .ok ⟨id.toNat, []⟩ else .error ENOMEM

abbrev Tables := UInt8 → Option Rtable

def Tables.append (tables : Tables) (id : UInt8) (rt : Rtable) (r : Route) : Tables :=
  fun i => if i = id then some { rt with routes := rt.routes ++ [r] } else tables i

section
variable (w : World) (ns : NsPtr)

def scannedRoute (item : RouteItem) : Except Int Route :=
  (routeCreateNetlink item).map fun r =>
    { r with
      oif := findIfByIfindex w (w.nss ns).ifaces r.oifindex
      iif := findIfByIfindex w (w.nss ns).ifaces r.iifindex }

def scanRoutes : List RouteItem → Tables → Int × Tables
  | [], tables => (0, tables)
  | item :: items, tables =>
    match scannedRoute w ns item with
    | .error err => (err, tables)
    | .ok r =>
      match tables r.tableId with
      | some rt => scanRoutes items (tables.append r.tableId rt r)
      | none =>
        match rtableCreate item.rtable r.tableId with
        | .error err => (err, tables)
        | .ok rt => scanRoutes items (tables.append r.tableId rt r)

def slots : List UInt8 := (List.range 256).reverse.map UInt8.ofNat

/-- The outcomes of the calls `route_scan` makes before it has the dump. -/
structure RouteScanEnv where
  rtnlOpen : Int := 0
  nlmsgNew : Bool := true
  nlmsgPut : Int := 0
  exchange : Int := 0

/-- `route_scan`: the error code and the tables of the name space. -/
def routeScan (env : RouteScanEnv) (items : List RouteItem) : Int × List Rtable :=
  if env.rtnlOpen ≠ 0 then (env.rtnlOpen, [])
  else if !env.nlmsgNew then (ENOMEM, [])
  else if env.nlmsgPut ≠ 0 then (env.nlmsgPut, [])
  else if env.exchange ≠ 0 then (env.exchange, [])
  else
    let (err, tables) := scanRoutes w ns items fun _ => none
    if err ≠ 0 then (err, []) else (0, slots.filterMap tables)

end

/-! ## The tables after a scan -/

def RouteItem.table (item : RouteItem) : Nat :=
  match nlmsgGet item.msg RTMSG_LEN with
  | some (b, msg) => kernelTable (nlmsgAttrs msg RTA_MAX) (rtmsgOf b)
  | none => 0

/-- Each slot holds the routes with its table id, in order; the others are not in use. -/
def Tables.Holds (tables : Tables) (routes : List Route) : Prop :=
  ∀ i, tables i = if ∃ r ∈ routes, r.tableId = i then
    some ⟨i.toNat, routes.filter fun r => r.tableId = i⟩ else none

theorem Tables.holds_nil : Tables.Holds (fun _ => none) [] := by
  intro i
  simp

theorem Tables.Holds.append {tables : Tables} {routes : List Route} (h : tables.Holds routes)
    {r : Route} {rt : Rtable} (hid : rt.id = r.tableId.toNat)
    (hroutes : rt.routes = routes.filter fun x => x.tableId = r.tableId) :
    (tables.append r.tableId rt r).Holds (routes ++ [r]) := by
  intro i
  by_cases hi : i = r.tableId
  · subst hi
    simp [Tables.append, List.filter_append, hid, hroutes]
  · have hne : ¬ r.tableId = i := fun he => hi he.symm
    have hslot : tables.append r.tableId rt r i = tables i := if_neg hi
    rw [hslot, h i]
    simp [List.filter_append, hne]

section
variable {w : World} {ns : NsPtr}

theorem except_map_eq_ok {ε α β : Type} {f : α → β} {x : Except ε α} {b : β}
    (h : x.map f = .ok b) : ∃ a, x = .ok a ∧ f a = b := by
  cases x with
  | error e => cases h
  | ok a => exact ⟨a, rfl, Except.ok.inj h⟩

theorem except_map_eq_error {ε α β : Type} {f : α → β} {x : Except ε α} {e : ε}
    (h : x.map f = .error e) : x = .error e := by
  cases x with
  | error e' => exact congrArg _ (Except.error.inj h)
  | ok a => cases h

theorem routeParseMetrics_error {alloc : Nat → Bool} {n : Nat} {as : List (List UInt8)}
    {err : Int} (h : routeParseMetrics alloc n as = .error err) : err ≠ 0 := by
  induction as generalizing n with
  | nil => cases h
  | cons a as ih =>
    rw [routeParseMetrics] at h
    split_ifs at h
    · exact ih h
    · rw [← Except.error.inj h]
      decide
    · exact ih (except_map_eq_error h)

theorem routeCreateNetlink_error {item : RouteItem} {err : Int}
    (h : routeCreateNetlink item = .error err) : err ≠ 0 := by
  unfold routeCreateNetlink at h
  split at h
  · rw [← Except.error.inj h]
    decide
  · cases hget : nlmsgGet item.msg RTMSG_LEN with
    | none =>
      simp only [hget] at h
      rw [← Except.error.inj h]
      decide
    | some bm =>
      obtain ⟨b, msg⟩ := bm
      simp only [hget] at h
      cases hcalloc : item.calloc with
      | false =>
        simp only [hcalloc, Bool.not_false, if_true] at h
        rw [← Except.error.inj h]
        decide
      | true =>
        cases hattrs : item.attrs with
        | false =>
          simp only [hcalloc, hattrs, Bool.not_true, Bool.not_false, Bool.false_eq_true, if_false,
            if_true] at h
          rw [← Except.error.inj h]
          decide
        | true =>
          simp only [hcalloc, hattrs, Bool.not_true, Bool.false_eq_true, if_false] at h
          have hmetrics := except_map_eq_error h
          split at hmetrics
          · exact routeParseMetrics_error hmetrics
          · cases hmetrics

theorem routeCreateNetlink_tableId {item : RouteItem} {r : Route}
    (h : routeCreateNetlink item = .ok r) : r.tableId = UInt8.ofNat item.table := by
  unfold routeCreateNetlink at h
  unfold RouteItem.table
  split at h
  · simp at h
  · cases hget : nlmsgGet item.msg RTMSG_LEN with
    | none => simp [hget] at h
    | some bm =>
      obtain ⟨b, msg⟩ := bm
      simp only [hget] at h ⊢
      split at h
      · simp at h
      · split at h
        · simp at h
        · obtain ⟨metrics, -, rfl⟩ := except_map_eq_ok h
          rfl

theorem scannedRoute_tableId {item : RouteItem} {r : Route}
    (h : scannedRoute w ns item = .ok r) : r.tableId = UInt8.ofNat item.table := by
  obtain ⟨r', hr, rfl⟩ := except_map_eq_ok h
  have htable := routeCreateNetlink_tableId hr
  exact htable

def Scanned (w : World) (ns : NsPtr) (items : List RouteItem) (routes : List Route) : Prop :=
  List.Forall₂ (fun item r => scannedRoute w ns item = .ok r) items routes

/-- One more route goes to its slot, which is put in use if it was not. -/
theorem scanRoutes_holds {items : List RouteItem} {tables tables' : Tables}
    {routes : List Route} (hold : tables.Holds routes)
    (hrun : scanRoutes w ns items tables = (0, tables')) :
    ∃ routes', Scanned w ns items routes' ∧ tables'.Holds (routes ++ routes') := by
  induction items generalizing tables routes with
  | nil =>
    obtain rfl : tables = tables' := by simpa [scanRoutes] using hrun
    exact ⟨[], .nil, by simpa using hold⟩
  | cons item items ih =>
    rw [scanRoutes] at hrun
    cases hitem : scannedRoute w ns item with
    | error err =>
      simp only [hitem] at hrun
      have herr := routeCreateNetlink_error (except_map_eq_error hitem)
      exact absurd (congrArg Prod.fst hrun) herr
    | ok r =>
      simp only [hitem] at hrun
      have next {rt : Rtable} (hid : rt.id = r.tableId.toNat)
          (hroutes : rt.routes = routes.filter fun x => x.tableId = r.tableId)
          (hrest : scanRoutes w ns items (tables.append r.tableId rt r) = (0, tables')) :
          ∃ routes', Scanned w ns (item :: items) routes' ∧ tables'.Holds (routes ++ routes') := by
        obtain ⟨routes', hscanned, hhold⟩ := ih (hold.append hid hroutes) hrest
        exact ⟨r :: routes', .cons hitem hscanned, by simpa using hhold⟩
      have hslot := hold r.tableId
      cases htable : tables r.tableId with
      | some rt =>
        rw [htable] at hslot
        split_ifs at hslot
        obtain rfl := Option.some.inj hslot
        simp only [htable] at hrun
        exact next rfl rfl hrun
      | none =>
        rw [htable] at hslot
        split_ifs at hslot with hnone
        have hempty : routes.filter (fun x => x.tableId = r.tableId) = [] := by
          rw [List.filter_eq_nil_iff]
          intro x hx htx
          exact hnone ⟨x, hx, by simpa using htx⟩
        cases hrtable : item.rtable with
        | true =>
          simp only [htable, hrtable, rtableCreate, if_true] at hrun
          exact next rfl hempty.symm hrun
        | false =>
          simp [htable, hrtable, rtableCreate] at hrun

/-- The routes of a dump are partitioned by their kernel tables: `rtables` has one table for
each kernel table id of the dump, with this id, in descending order of the ids, and in it
the routes of the messages with this id, in dump order. -/
def RoutesPartitioned (w : World) (ns : NsPtr) (items : List RouteItem) (rtables : List Rtable) :
    Prop :=
  ∃ routes, Scanned w ns items routes ∧
    OrderedPartition (fun c : RouteItem × Route => (c.1.table : Int)) Prod.snd
      (items.zip routes) (rtables.map fun rt => (rt.id, rt.routes))

theorem mem_slots (i : UInt8) : i ∈ slots :=
  List.mem_map.mpr ⟨i.toNat, by simpa using i.toNat_lt, UInt8.ofNat_toNat⟩

theorem slots_descending : slots.Pairwise fun i j => (j.toNat : Int) < i.toNat := by
  unfold slots
  rw [List.pairwise_map, List.pairwise_reverse]
  refine List.pairwise_lt_range.imp_of_mem fun hi hj hij => ?_
  rw [List.mem_range] at hi hj
  rw [UInt8.toNat_ofNat', UInt8.toNat_ofNat', Nat.mod_eq_of_lt hi, Nat.mod_eq_of_lt hj]
  exact_mod_cast hij

theorem Tables.Holds.partition {items : List RouteItem} {routes : List Route} {tables : Tables}
    (hlen : items.length = routes.length) (h : tables.Holds routes) :
    OrderedPartition (fun c : RouteItem × Route => (c.2.tableId.toNat : Int)) Prod.snd
      (items.zip routes) ((slots.filterMap tables).map fun rt => (rt.id, rt.routes)) := by
  have hsnd : (items.zip routes).map Prod.snd = routes := List.map_snd_zip (by omega)
  have hgroups : (slots.filterMap tables).map (fun rt => (rt.id, rt.routes)) =
      slots.filterMap fun i => ((tables i).map Rtable.routes).map fun b => ((i.toNat : Int), b) := by
    rw [List.map_filterMap]
    refine List.filterMap_congr fun i _ => ?_
    rw [h i]
    split_ifs <;> rfl
  rw [hgroups]
  refine OrderedPartition.of_buckets slots_descending (fun c _ => ⟨_, mem_slots _, rfl⟩) ?_
  intro i _
  have hkey : ∀ r : Route, (r.tableId.toNat : Int) = i.toNat ↔ r.tableId = i := fun r => by
    rw [Nat.cast_inj, UInt8.toNat_inj]
  have hex : (∃ c ∈ items.zip routes, (c.2.tableId.toNat : Int) = i.toNat) ↔
      ∃ r ∈ routes, r.tableId = i := by
    conv_rhs => rw [← hsnd]
    simp only [hkey, List.mem_map, exists_exists_and_eq_and]
  have hfilter : ((items.zip routes).filter fun c => (c.2.tableId.toNat : Int) = i.toNat).map
      Prod.snd = routes.filter fun r => r.tableId = i := by
    conv_rhs => rw [← hsnd, List.filter_map]
    simp [hkey, Function.comp_def]
  rw [hfilter, h i]
  by_cases hi : ∃ r ∈ routes, r.tableId = i
  · rw [if_pos hi, if_pos (hex.mpr hi)]
    rfl
  · rw [if_neg hi, if_neg (mt hex.mp hi)]
    rfl

theorem Scanned.mem_zip {items : List RouteItem} {routes : List Route}
    (h : Scanned w ns items routes) {item : RouteItem} (hitem : item ∈ items) :
    ∃ r, (item, r) ∈ items.zip routes := by
  obtain ⟨n, hn, rfl⟩ := List.getElem_of_mem hitem
  have hn' : n < routes.length := h.length_eq ▸ hn
  exact ⟨routes[n], List.mem_iff_getElem.mpr ⟨n, by simp [hn, hn'], by simp⟩⟩

theorem Scanned.tableId {items : List RouteItem} {routes : List Route}
    (h : Scanned w ns items routes) {c : RouteItem × Route} (hc : c ∈ items.zip routes) :
    c.2.tableId = UInt8.ofNat c.1.table := by
  obtain ⟨n, hn, rfl⟩ := List.getElem_of_mem hc
  simp only [List.getElem_zip]
  exact scannedRoute_tableId (h.get _ _)

/-- A scan partitions the routes by their kernel tables exactly when no kernel table id
exceeds the `unsigned char` that holds it. -/
theorem routeScan_partitioned_iff (w : World) (ns : NsPtr) (env : RouteScanEnv)
    (items : List RouteItem) (h0 : (routeScan w ns env items).1 = 0) :
    RoutesPartitioned w ns items (routeScan w ns env items).2 ↔
      ∀ item ∈ items, item.table < 256 := by
  obtain ⟨tables, hrun, hresult⟩ : ∃ tables, scanRoutes w ns items (fun _ => none) = (0, tables) ∧
      (routeScan w ns env items).2 = slots.filterMap tables := by
    unfold routeScan at h0 ⊢
    split_ifs at h0 ⊢ with hopen hnew hput hexch
    · exact absurd h0 hopen
    · exact absurd h0 (by decide)
    · exact absurd h0 hput
    · exact absurd h0 hexch
    · by_cases hscan : (scanRoutes w ns items fun _ => none).1 = 0
      · have hno : ¬ (scanRoutes w ns items fun _ => none).1 ≠ 0 := fun h => h hscan
        simp only [if_neg hno]
        exact ⟨_, Prod.ext hscan rfl, rfl⟩
      · simp only [if_pos hscan] at h0
        exact absurd h0 hscan
  obtain ⟨routes, hscanned, hhold⟩ := scanRoutes_holds Tables.holds_nil hrun
  rw [List.nil_append] at hhold
  have hpart := hhold.partition hscanned.length_eq
  rw [hresult]
  constructor
  · rintro ⟨routes', hscanned', hkernel⟩ item hitem
    obtain ⟨r, hr⟩ := hscanned'.mem_zip hitem
    obtain ⟨g, hg, hid⟩ := hkernel.covers _ hr
    obtain ⟨rt, hrt, rfl⟩ := List.mem_map.mp hg
    obtain ⟨i, -, hi⟩ := List.mem_filterMap.mp hrt
    rw [hhold i] at hi
    split_ifs at hi
    obtain rfl := Option.some.inj hi
    have hlt := i.toNat_lt
    simp only at hid
    omega
  · intro hall
    refine ⟨routes, hscanned, hpart.congr_key fun c hc => ?_⟩
    have hlt := hall c.1 (List.of_mem_zip hc).1
    rw [hscanned.tableId hc, UInt8.toNat_ofNat', Nat.mod_eq_of_lt hlt]

end

def bareRoute (table : Nat) : RouteItem where
  msg := ⟨leBytes 4 36 ++ leBytes 2 RTM_NEWROUTE ++ zeros 10 ++
    [2, 0, 0, 0, 0, 3, 0, 1, 0, 0, 0, 0] ++
    leBytes 2 8 ++ leBytes 2 RTA_TABLE ++ leBytes 4 table, 16⟩

def bareWorld : World := ⟨fun _ => {}, fun _ => {}, [0], []⟩

theorem routeScan_partitioned_main :
    RoutesPartitioned bareWorld 0 [bareRoute 254] (routeScan bareWorld 0 {} [bareRoute 254]).2 ↔
      ∀ item ∈ [bareRoute 254], item.table < 256 :=
  routeScan_partitioned_iff bareWorld 0 {} [bareRoute 254] (by decide +kernel)

/-- A route of table 510 ends up in the main table. -/
theorem routeScan_not_partitioned :
    (routeScan bareWorld 0 {} [bareRoute 254, bareRoute 510]).1 = 0 ∧
    ¬ RoutesPartitioned bareWorld 0 [bareRoute 254, bareRoute 510]
      (routeScan bareWorld 0 {} [bareRoute 254, bareRoute 510]).2 := by
  refine ⟨by decide +kernel, ?_⟩
  rintro ⟨routes, hscanned, hpart⟩
  have hids : (routeScan bareWorld 0 {} [bareRoute 254, bareRoute 510]).2.map Rtable.id = [254] := by
    decide +kernel
  have htable : (bareRoute 510).table = 510 := by decide +kernel
  obtain ⟨r, hr⟩ := hscanned.mem_zip (List.mem_cons_of_mem _ List.mem_cons_self)
  obtain ⟨g, hg, hid⟩ := hpart.covers _ hr
  obtain ⟨rt, hrt, rfl⟩ := List.mem_map.mp hg
  have hmem := List.mem_map_of_mem (f := Rtable.id) hrt
  rw [hids, List.mem_singleton] at hmem
  simp only [htable] at hid
  omega

end Plotnetcfg.Handlers
