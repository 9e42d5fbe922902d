import Plotnetcfg.Frontends.JsonDocument
import Plotnetcfg.Handlers.Route
import Plotnetcfg.Netlink.Build

/-! The metrics of a route, from the attribute of the kernel to the route object of the JSON
frontend. -/

namespace Plotnetcfg.Frontends

open Plotnetcfg.Netlink Plotnetcfg.Handlers Bytes

/-! ## Keys -/

def metricNames : List (Int × String) :=
  [(2, "mtu"), (3, "window"), (4, "rtt"), (5, "rttvar"), (6, "ssthresh"), (7, "cwnd"),
    (8, "advmss"), (9, "reordering"), (10, "hoplimit"), (11, "initcwnd"), (12, "features"),
    (13, "rto_min"), (14, "initrwnd"), (15, "quickack"), (16, "congctl")]

theorem routeMetric_eq : routeMetric = routeName metricNames := rfl

theorem metricNames_nodup : (metricNames.map Prod.fst).Nodup := by decide

theorem routeMetric_cases (num : Int) :
    (∃ name, (num, name) ∈ metricNames ∧ routeMetric num = cstr name) ∨
      routeMetric num = routeUnknown num := by
  rw [routeMetric_eq, routeName]
  rcases hname : metricNames.lookup num with _ | name
  · exact Or.inr rfl
  · exact Or.inl ⟨name, (Dict.mem_iff_lookup metricNames_nodup num name).mpr hname, rfl⟩

section
variable {n : Nat} (h : n < 2 ^ 16)

include h in
theorem routeUnknown_eq :
    routeUnknown n = cstr "unknown (" ++ (decimal n ++ cstr ")") := by
  have hmod : ((n : Int) % 2 ^ 32).toNat = n := by omega
  have hlength : (decimal n).length ≤ 5 := length_decimal_le (by decide) (by omega)
  rw [routeUnknown, unsignedText, hmod, fits, List.append_assoc]
  apply List.take_of_length_le
  have hfront : (cstr "unknown (").length = 9 := by decide
  have hback : (cstr ")").length = 1 := by decide
  rw [List.length_append, List.length_append, hfront, hback]
  omega

include h in
theorem routeMetric_utf8 : utf8 (routeMetric n) = true := by
  apply utf8_of_ascii
  rcases routeMetric_cases n with ⟨name, hname, heq⟩ | heq
  · have hnames : ∀ p ∈ metricNames, ∀ b ∈ cstr p.2, b < 128 := by
      decide +kernel
    rw [heq]
    exact hnames _ hname
  · have hfront : ∀ b ∈ cstr "unknown (", b < 128 := by decide +kernel
    have hback : ∀ b ∈ cstr ")", b < 128 := by decide +kernel
    rw [heq, routeUnknown_eq h]
    intro b hb
    rcases List.mem_append.mp hb with hb | hb
    · exact hfront b hb
    · rcases List.mem_append.mp hb with hb | hb
      · have hdigit := decimal_isDigit n b hb
        rw [isDigit, Bool.and_eq_true, decide_eq_true_iff, decide_eq_true_iff] at hdigit
        have hle : b.toNat ≤ 57 := hdigit.2
        show b.toNat < 128
        omega
      · exact hback b hb

include h in
theorem routeMetric_inj {m : Nat} (hm : m < 2 ^ 16) (heq : routeMetric n = routeMetric m) :
    n = m := by
  have hinj : ∀ p ∈ metricNames, ∀ q ∈ metricNames, cstr p.2 = cstr q.2 → p.1 = q.1 := by decide
  have hunknown : ∀ p ∈ metricNames, (cstr p.2).take 9 ≠ cstr "unknown (" := by decide
  have htake (k : Nat) (hk : k < 2 ^ 16) : (routeUnknown k).take 9 = cstr "unknown (" := by
    rw [routeUnknown_eq hk, List.take_left' (by decide)]
  rcases routeMetric_cases n with ⟨name, hname, hn⟩ | hn
  · rcases routeMetric_cases m with ⟨name', hname', hm'⟩ | hm'
    · rw [hn, hm'] at heq
      exact Int.ofNat_inj.mp (hinj _ hname _ hname' heq)
    · rw [hn, hm'] at heq
      exact absurd (heq ▸ htake m hm) (hunknown _ hname)
  · rcases routeMetric_cases m with ⟨name', hname', hm'⟩ | hm'
    · rw [hn, hm'] at heq
      exact absurd (heq ▸ htake n h) (hunknown _ hname')
    · rw [hn, hm', routeUnknown_eq h, routeUnknown_eq hm, List.append_cancel_left_eq,
        List.append_cancel_right_eq] at heq
      exact decimal_injective heq

end

/-! ## Metrics of the kernel -/

/-- A nested metric: four bytes, or a string for `RTAX_CC_ALGO`. -/
structure Metric where
  type : UInt16
  payload : List UInt8
  size : payload.length ≤ 65531
  integer : type.toNat ≠ RTAX_CC_ALGO → payload.length = 4

namespace Metric

def bytes (m : Metric) : List UInt8 := attrBytes (m.type, m.payload)

def value (m : Metric) : Nat := readLE m.payload

def IsInteger (m : Metric) : Prop := m.type.toNat ≠ RTAX_CC_ALGO

end Metric

def Nested (a : List UInt8) (ms : List Metric) : Prop :=
  List.Forall₂ (fun s m => ∃ rest, s = m.bytes ++ rest) (nestedNlas a) ms

theorem nested_attrBytes (type : UInt16) (ms : List Metric)
    (hsize : (attrsBytes (ms.map fun m => (m.type, m.payload))).length ≤ 65531)
    (rest : List UInt8) :
    Nested (attrBytes (type, attrsBytes (ms.map fun m => (m.type, m.payload))) ++ rest) ms := by
  have hlen := nlaNlaLen_attrBytes
    (p := (type, attrsBytes (ms.map fun m => (m.type, m.payload)))) rest hsize
  have hread := nlaRead_attrBytes
    (p := (type, attrsBytes (ms.map fun m => (m.type, m.payload)))) rest
  have hputs : ∀ p ∈ ms.map fun m => (m.type, m.payload), p.2.length ≤ 65531 := by
    intro p hp
    obtain ⟨m, -, rfl⟩ := List.mem_map.mp hp
    exact m.size
  have hrecords := records_attrsBytes hputs
  rw [List.forall₂_map_right_iff] at hrecords
  rw [Nested, nestedNlas, nlaLen, hlen, Nat.add_sub_cancel, hread, nlasOf_append,
    List.forall₂_map_left_iff]
  apply hrecords.imp
  rintro s m ⟨-, pad, rfl, -⟩
  exact ⟨pad ++ rest, List.append_assoc _ _ _⟩

theorem Metric.nlaReadU32_bytes {m : Metric} (h : m.IsInteger) (rest : List UInt8) :
    (nlaReadU32 (m.bytes ++ rest)).toNat = m.value := by
  have hlength := m.integer h
  have hread := nlaRead_attrBytes (p := (m.type, m.payload)) rest
  have hslice : slice NLA_HDRLEN 4 (m.bytes ++ rest) = m.payload := by
    rw [slice, Metric.bytes]
    rw [nlaRead] at hread
    rw [hread, List.take_left' hlength]
  have hlt := readLE_lt m.payload
  rw [nlaReadU32, uint, hslice, UInt32.toNat_ofNat', Metric.value, Nat.mod_eq_of_lt]
  rw [hlength] at hlt
  exact hlt

/-- An unsigned value in a field of type `int`. -/
def intField (n : Nat) : Int := Int.bmod n (2 ^ 32)

theorem intField_eq_iff {n : Nat} (h : n < 2 ^ 32) : intField n = n ↔ n < 2 ^ 31 := by
  show Int.bmod (n : Int) (2 ^ 32) = n ↔ n < 2 ^ 31
  rw [Int.bmod]
  omega

/-- What is read of each metric below `RTAX_CC_ALGO`. -/
def readMetric (a : List UInt8) : RtMetric :=
  ⟨nlaType a, intField (nlaReadU32 a).toNat⟩

theorem routeParseMetrics_eq {alloc : Nat → Bool} {n : Nat} {as : List (List UInt8)}
    {metrics : List RtMetric} (h : routeParseMetrics alloc n as = .ok metrics) :
    metrics = (as.filter fun a => nlaType a < RTAX_CC_ALGO).map readMetric := by
  induction as generalizing n metrics with
  | nil => exact (Except.ok.inj h).symm
  | cons a as ih =>
    rw [routeParseMetrics] at h
    split_ifs at h with htype halloc
    · rw [ih h, List.filter_cons_of_neg]
      simpa using htype
    · obtain ⟨rest, hrest, rfl⟩ := except_map_eq_ok h
      rw [ih hrest, List.filter_cons_of_pos (by simpa using htype), List.map_cons]
      rfl

theorem routeParseMetrics_nested {alloc : Nat → Bool} {a : List UInt8} {ms : List Metric}
    {metrics : List RtMetric} (hms : Nested a ms)
    (h : routeParseMetrics alloc 0 (nestedNlas a) = .ok metrics) :
    metrics = (ms.filter fun m => m.type.toNat < RTAX_CC_ALGO).map fun m =>
      ⟨m.type.toNat, intField m.value⟩ := by
  rw [routeParseMetrics_eq h]
  have htype (s : List UInt8) (m : Metric) (hs : ∃ rest, s = m.bytes ++ rest) :
      nlaType s = m.type.toNat := by
    obtain ⟨rest, rfl⟩ := hs
    exact nlaType_attrBytes rest
  apply map_filter_forall₂ _ _ hms
  · intro s m hs
    rw [htype s m hs]
  · intro s m hs hlt
    rw [htype s m hs, decide_eq_true_iff] at hlt
    have hinteger : m.IsInteger := Nat.ne_of_lt hlt
    rw [readMetric, htype s m hs]
    obtain ⟨rest, rfl⟩ := hs
    rw [Metric.nlaReadU32_bytes hinteger rest]

def metricsAttr (item : RouteItem) : Option (List UInt8) :=
  match nlmsgGet item.msg RTMSG_LEN with
  | some (_, msg) => nlmsgAttrs msg RTA_MAX RTA_METRICS
  | none => none

theorem scannedRoute_metrics {w : World} {ns : NsPtr} {item : RouteItem} {r : Route}
    (h : scannedRoute w ns item = .ok r) {a : List UInt8} (ha : metricsAttr item = some a) :
    routeParseMetrics item.metric 0 (nestedNlas a) = .ok r.metrics := by
  obtain ⟨r', hr, rfl⟩ := except_map_eq_ok h
  unfold routeCreateNetlink at hr
  unfold metricsAttr at ha
  split at hr
  · cases hr
  · rcases hget : nlmsgGet item.msg RTMSG_LEN with _ | ⟨b, msg⟩
    · rw [hget] at ha
      cases ha
    · simp only [hget] at hr ha
      split at hr
      · cases hr
      · split at hr
        · cases hr
        · obtain ⟨metrics, hmetrics, rfl⟩ := except_map_eq_ok hr
          rw [ha] at hmetrics
          exact hmetrics

/-! ## The members of `metrics` -/

def reportedMetrics (rte : JsonObj) : JsonObj :=
  match rte.lookup (cstr "metrics") with
  | some (.obj members) => members
  | _ => []

theorem reportedMetrics_routeObj (w : World) (r : Route) :
    reportedMetrics (routeObj w r) = metricsToObject r.metrics := by
  have hlookup : (routeObj w r).lookup (cstr "metrics") =
      if r.metrics.isEmpty then none else some (.obj (metricsToObject r.metrics)) := by
    apply lookup_objOf
    · show ([cstr "destination", cstr "family", cstr "gateway", cstr "iif", cstr "metrics",
        cstr "oif", cstr "priority", cstr "protocol", cstr "scope", cstr "source",
        cstr "preferred-source", cstr "tos", cstr "type"] : List CStr).Nodup
      decide
    · simp
    · decide
  rw [reportedMetrics, hlookup]
  rcases hmetrics : r.metrics with _ | ⟨m, metrics⟩
  · rfl
  · rfl

/-- The members are the integer metrics: one for each, with its key and its value. -/
def Reports (members : JsonObj) (ms : List Metric) : Prop :=
  (members.map Prod.fst).Nodup ∧ ∀ key json, (key, json) ∈ members ↔
    ∃ m ∈ ms, m.IsInteger ∧ key = routeMetric m.type.toNat ∧ json = .int m.value

theorem mem_metricsToObject {metrics : List RtMetric}
    (hnat : ∀ rtm ∈ metrics, ∃ n < 2 ^ 16, rtm.type = (n : Nat))
    (hinj : ∀ x ∈ metrics, ∀ y ∈ metrics, x.type = y.type → x = y) (key : CStr) (json : Json) :
    (key, json) ∈ metricsToObject metrics ↔
      ∃ rtm ∈ metrics, key = routeMetric rtm.type ∧ json = .int rtm.value := by
  have hcollect : metricsToObject metrics = Dict.collect (fun rtm => routeMetric rtm.type)
      (fun rtm => if utf8 (routeMetric rtm.type) then some (Json.int rtm.value) else none)
      metrics [] := rfl
  have hkeys : ∀ x ∈ metrics, ∀ y ∈ metrics,
      routeMetric x.type = routeMetric y.type → x = y := by
    intro x hx y hy heq
    obtain ⟨n, hn, hxn⟩ := hnat x hx
    obtain ⟨m, hm, hym⟩ := hnat y hy
    rw [hxn, hym] at heq
    exact hinj x hx y hy (by rw [hxn, hym, routeMetric_inj hn hm heq])
  have hutf8 : ∀ rtm ∈ metrics, utf8 (routeMetric rtm.type) = true := by
    intro rtm hrtm
    obtain ⟨n, hn, htype⟩ := hnat rtm hrtm
    rw [htype]
    exact routeMetric_utf8 hn
  rw [hcollect, Dict.mem_collect _ _ hkeys]
  apply exists_congr
  intro rtm
  apply and_congr_right
  intro hrtm
  rw [if_pos (hutf8 rtm hrtm), Option.some.injEq, eq_comm, eq_comm (a := Json.int rtm.value)]

theorem nodup_metricsToObject (metrics : List RtMetric) :
    ((metricsToObject metrics).map Prod.fst).Nodup :=
  Dict.nodup_collect (fun rtm : RtMetric => routeMetric rtm.type)
    (fun rtm => if utf8 (routeMetric rtm.type) then some (Json.int rtm.value) else none)
    metrics List.nodup_nil

/-- The metrics are reported completely and unsigned exactly when none has a type above
`RTAX_CC_ALGO`, or a value that is no `int`. -/
theorem metrics_reported_iff {w : World} {ns : NsPtr} {item : RouteItem} {r : Route}
    (h : scannedRoute w ns item = .ok r) {a : List UInt8} (ha : metricsAttr item = some a)
    {ms : List Metric} (hms : Nested a ms) (hdistinct : (ms.map Metric.type).Nodup) :
    Reports (reportedMetrics (routeObj w r)) ms ↔
      ∀ m ∈ ms, m.IsInteger → m.type.toNat < RTAX_CC_ALGO ∧ m.value < 2 ^ 31 := by
  have hmetrics := routeParseMetrics_nested hms (scannedRoute_metrics h ha)
  have hsame : ∀ m ∈ ms, ∀ m' ∈ ms, m.type.toNat = m'.type.toNat → m = m' :=
    fun m hm m' hm' heq => List.inj_on_of_nodup_map hdistinct hm hm' (UInt16.toNat_inj.mp heq)
  have hmem (rtm : RtMetric) : rtm ∈ r.metrics ↔ ∃ m ∈ ms, m.type.toNat < RTAX_CC_ALGO ∧
      rtm = ⟨m.type.toNat, intField m.value⟩ := by
    rw [hmetrics, List.mem_map]
    constructor
    · rintro ⟨m, hm, rfl⟩
      obtain ⟨hm, hlt⟩ := List.mem_filter.mp hm
      exact ⟨m, hm, of_decide_eq_true hlt, rfl⟩
    · rintro ⟨m, hm, hlt, rfl⟩
      exact ⟨m, List.mem_filter.mpr ⟨hm, decide_eq_true hlt⟩, rfl⟩
  have hnat : ∀ rtm ∈ r.metrics, ∃ n < 2 ^ 16, rtm.type = (n : Nat) := by
    intro rtm hrtm
    obtain ⟨m, -, -, rfl⟩ := (hmem rtm).mp hrtm
    exact ⟨m.type.toNat, m.type.toNat_lt, rfl⟩
  have hinj : ∀ x ∈ r.metrics, ∀ y ∈ r.metrics, x.type = y.type → x = y := by
    intro x hx y hy heq
    obtain ⟨m, hm, -, rfl⟩ := (hmem x).mp hx
    obtain ⟨m', hm', -, rfl⟩ := (hmem y).mp hy
    rw [hsame m hm m' hm' (Int.ofNat_inj.mp heq)]
  have hvalue : ∀ m : Metric, m.IsInteger → m.value < 2 ^ 32 := by
    intro m hm
    have hlt := readLE_lt m.payload
    rw [m.integer hm] at hlt
    exact hlt
  rw [reportedMetrics_routeObj, Reports, and_iff_right (nodup_metricsToObject _)]
  simp only [mem_metricsToObject hnat hinj]
  constructor
  · intro hreports m hm hinteger
    obtain ⟨rtm, hrtm, hkey, hjson⟩ := (hreports (routeMetric m.type.toNat) (.int m.value)).mpr
      ⟨m, hm, hinteger, rfl, rfl⟩
    obtain ⟨m', hm', hlt, rfl⟩ := (hmem rtm).mp hrtm
    have heq := hsame m hm m' hm' (routeMetric_inj m.type.toNat_lt m'.type.toNat_lt hkey)
    subst heq
    rw [Json.int.injEq] at hjson
    dsimp only at hjson
    exact ⟨hlt, (intField_eq_iff (hvalue m hinteger)).mp hjson.symm⟩
  · intro hall key json
    constructor
    · rintro ⟨rtm, hrtm, rfl, rfl⟩
      obtain ⟨m, hm, hlt, rfl⟩ := (hmem rtm).mp hrtm
      have hinteger : m.IsInteger := Nat.ne_of_lt hlt
      have hint := (intField_eq_iff (hvalue m hinteger)).mpr (hall m hm hinteger).2
      exact ⟨m, hm, hinteger, rfl, by simp only [hint]⟩
    · rintro ⟨m, hm, hinteger, rfl, rfl⟩
      obtain ⟨hlt, hbound⟩ := hall m hm hinteger
      have hint := (intField_eq_iff (hvalue m hinteger)).mpr hbound
      exact ⟨_, (hmem _).mpr ⟨m, hm, hlt, rfl⟩, rfl, by simp only [hint]⟩

def metricsOf (m : Metric) : List UInt8 := attrBytes (8, attrsBytes [(m.type, m.payload)])

def metricItem (m : Metric) : RouteItem where
  msg :=
    { buf := leBytes 4 44 ++ leBytes 2 24 ++ zeros 22 ++ metricsOf m
      start := 16 }

def mtu1500 : Metric := ⟨2, leBytes 4 1500, by decide, by decide⟩

def windowMax : Metric := ⟨3, leBytes 4 (2 ^ 32 - 1), by decide, by decide⟩

theorem nested_metricsOf {m : Metric}
    (h : (attrsBytes [(m.type, m.payload)]).length ≤ 65531) : Nested (metricsOf m) [m] := by
  have hnested := nested_attrBytes 8 [m] h []
  rw [List.append_nil] at hnested
  exact hnested

theorem metrics_reported_iff_mtu : ∃ r, scannedRoute bareWorld 0 (metricItem mtu1500) = .ok r ∧
    (Reports (reportedMetrics (routeObj bareWorld r)) [mtu1500] ↔
      ∀ m ∈ [mtu1500], m.IsInteger → m.type.toNat < RTAX_CC_ALGO ∧ m.value < 2 ^ 31) := by
  have hscanned : (scannedRoute bareWorld 0 (metricItem mtu1500)).isOk = true := by decide +kernel
  have hattr : metricsAttr (metricItem mtu1500) = some (metricsOf mtu1500) := by decide +kernel
  rcases h : scannedRoute bareWorld 0 (metricItem mtu1500) with err | r
  · rw [h] at hscanned
    cases hscanned
  · exact ⟨r, rfl, metrics_reported_iff h hattr (nested_metricsOf (by decide)) (by decide)⟩

/-- The window of a route is reported as -1. -/
theorem metrics_reported_negative :
    ∃ r, scannedRoute bareWorld 0 (metricItem windowMax) = .ok r ∧
      metricsAttr (metricItem windowMax) = some (metricsOf windowMax) ∧
      Nested (metricsOf windowMax) [windowMax] ∧
      ¬ Reports (reportedMetrics (routeObj bareWorld r)) [windowMax] := by
  have hscanned : (scannedRoute bareWorld 0 (metricItem windowMax)).toOption.map Route.metrics =
      some [⟨3, -1⟩] := by decide +kernel
  have hattr : metricsAttr (metricItem windowMax) = some (metricsOf windowMax) := by decide +kernel
  rcases h : scannedRoute bareWorld 0 (metricItem windowMax) with err | r
  · rw [h] at hscanned
    cases hscanned
  · rw [h] at hscanned
    have hmetrics : r.metrics = [⟨3, -1⟩] := Option.some.inj hscanned
    apply Exists.intro r
    apply And.intro rfl
    apply And.intro hattr
    apply And.intro (nested_metricsOf (by decide))
    rintro ⟨-, hreports⟩
    have hinteger : windowMax.type.toNat ≠ RTAX_CC_ALGO := by decide
    have hmem := (hreports (routeMetric 3) (.int windowMax.value)).mpr
      ⟨windowMax, List.mem_singleton_self _, hinteger, rfl, rfl⟩
    rw [reportedMetrics_routeObj, hmetrics] at hmem
    have hmembers : metricsToObject [⟨3, -1⟩] = [(routeMetric 3, .int (-1))] := rfl
    rw [hmembers, List.mem_singleton, Prod.mk.injEq, Json.int.injEq] at hmem
    have hvalue : (windowMax.value : Int) ≠ -1 := by decide +kernel
    exact hvalue hmem.2

end Plotnetcfg.Frontends
