import Plotnetcfg.Frontends.Dot
import Plotnetcfg.Frontends.Json
import Mathlib.Data.Sym.Sym2

/-! The connections that a reader of either output finds. The dot frontend draws each of them at
one of its ends, the JSON frontend shows it at the ends that do not hide it. -/

namespace Plotnetcfg.Frontends

/-- The lower interface is the slave, or the one that is linked to. -/
structure Connection where
  lower : CStr
  upper : CStr
  label : Option CStr
deriving DecidableEq

/-! ## The dot output -/

def DotEdge.connection (w : World) : DotEdge → Option Connection
  | .master ptr target _ label => some ⟨ifid w ptr, ifid w target, label⟩
  | .link target ptr _ label => some ⟨ifid w target, ifid w ptr, label⟩
  | _ => none

def DotEdge.peers (w : World) : DotEdge → Option (Sym2 CStr)
  | .peer ptr target => some s(ifid w ptr, ifid w target)
  | _ => none

def dotConnections (w : World) : List Connection := (dotEdges w).filterMap (·.connection w)

def dotPeers (w : World) : List (Sym2 CStr) := (dotEdges w).filterMap (·.peers w)

def masterConnection (w : World) (e m : IfPtr) : Connection :=
  ⟨ifid w e, ifid w m, slaveLabel (w.ifs e)⟩

def linkConnection (w : World) (e l : IfPtr) : Connection :=
  ⟨ifid w l, ifid w e, (w.ifs e).edgeLabel⟩

section
variable {w : World}

theorem slaveLabel_eq (x : IfEntry) :
    slaveLabel x = if x.link.isNone then x.edgeLabel else none := by
  unfold slaveLabel
  cases x.link <;> rfl

theorem mem_dotConnections {c : Connection} : c ∈ dotConnections w ↔ ∃ e ∈ w.listed,
    (∃ m, (w.ifs e).master = some m ∧ c = masterConnection w e m) ∨
      ∃ l, (w.ifs e).link = some l ∧ c = linkConnection w e l := by
  simp only [dotConnections, List.mem_filterMap, mem_dotEdges, mem_masterEdge, mem_physfnEdge,
    mem_linkEdge, mem_peerEdge, ← slaveLabel_eq]
  constructor
  · rintro ⟨edge, ⟨e, he, hedge⟩, hc⟩
    refine ⟨e, he, ?_⟩
    rcases hedge with ⟨m, hm, rfl⟩ | ⟨pf, -, rfl⟩ | (⟨l, hl, rfl⟩ | ⟨-, ns, -, rfl⟩) |
      ⟨p, -, -, rfl⟩
    · exact .inl ⟨m, hm, (Option.some.inj hc).symm⟩
    · cases hc
    · exact .inr ⟨l, hl, (Option.some.inj hc).symm⟩
    · cases hc
    · cases hc
  · rintro ⟨e, he, ⟨m, hm, rfl⟩ | ⟨l, hl, rfl⟩⟩
    · exact ⟨_, ⟨e, he, .inl ⟨m, hm, rfl⟩⟩, rfl⟩
    · exact ⟨_, ⟨e, he, .inr (.inr (.inl (.inl ⟨l, hl, rfl⟩)))⟩, rfl⟩

theorem mem_dotPeers {q : Sym2 CStr} : q ∈ dotPeers w ↔ ∃ e ∈ w.listed, ∃ p,
    (w.ifs e).peer = some p ∧ p < e ∧ q = s(ifid w e, ifid w p) := by
  simp only [dotPeers, List.mem_filterMap, mem_dotEdges, mem_masterEdge, mem_physfnEdge,
    mem_linkEdge, mem_peerEdge]
  constructor
  · rintro ⟨edge, ⟨e, he, hedge⟩, hq⟩
    refine ⟨e, he, ?_⟩
    rcases hedge with ⟨m, -, rfl⟩ | ⟨pf, -, rfl⟩ | (⟨l, -, rfl⟩ | ⟨-, ns, -, rfl⟩) |
      ⟨p, hp, hlt, rfl⟩
    · cases hq
    · cases hq
    · cases hq
    · cases hq
    · exact ⟨p, hp, hlt, (Option.some.inj hq).symm⟩
  · rintro ⟨e, he, p, hp, hlt, rfl⟩
    exact ⟨_, ⟨e, he, .inr (.inr (.inr ⟨p, hp, hlt, rfl⟩))⟩, rfl⟩

end

/-! ## The JSON output -/

def jsonMembers (json : Option Json) : JsonObj :=
  match json with
  | some (.obj members) => members
  | _ => []

def connectionLabel (conn : Json) : Option CStr :=
  jsonStringValue (jsonArrayGet (connectionInfo (some conn)) 0)

/-- Parents are above an interface, children below it. -/
def objConnections (id : CStr) (obj : Json) : List Connection :=
  (jsonMembers (jsonObjectGet (some obj) (cstr "parents"))).map
      (fun conn => ⟨id, conn.1, connectionLabel conn.2⟩) ++
    (jsonMembers (jsonObjectGet (some obj) (cstr "children"))).map
      (fun conn => ⟨conn.1, id, connectionLabel conn.2⟩)

def objPeer (id : CStr) (obj : Json) : Option (Sym2 CStr) :=
  (jsonStringValue (jsonObjectGet (jsonObjectGet (some obj) (cstr "peer")) (cstr "target"))).map
    fun target => s(id, target)

def jsonInterfaces (w : World) (mask : PropMask) : JsonObj :=
  w.nsList.flatMap fun ns => interfacesToArray w mask (w.nss ns).ifaces

def jsonConnections (w : World) (mask : PropMask) : List Connection :=
  (jsonInterfaces w mask).flatMap fun i => objConnections i.1 i.2

def jsonPeers (w : World) (mask : PropMask) : List (Sym2 CStr) :=
  (jsonInterfaces w mask).filterMap fun i => objPeer i.1 i.2

section
variable {w : World} {mask : PropMask}

theorem connectionLabel_connection (target : IfPtr) (label : Option CStr) :
    connectionLabel (connection w target label) = label.filter utf8 := by
  unfold connectionLabel
  rw [connectionInfo_connection]
  cases label with
  | none => rfl
  | some label =>
    by_cases hutf8 : utf8 label <;>
      simp [edgeInfo, jsonArrayAppendNew, jsonString, jsonArrayGet, jsonArrayElems,
        jsonStringValue, Option.filter, hutf8]

theorem target_connection (target : IfPtr) (label : Option CStr) :
    jsonObjectGet (some (connection w target label)) (cstr "target") =
      jsonString (ifid w target) := by
  apply lookup_objOf _ List.mem_cons_self (by decide)
  simp only [List.map_cons, List.map_nil]
  decide

theorem mem_jsonInterfaces
    (hids : ∀ x ∈ w.listed, ∀ y ∈ w.listed, ifid w x = ifid w y → x = y)
    {id : CStr} {obj : Json} : (id, obj) ∈ jsonInterfaces w mask ↔
      ∃ e ∈ w.listed, utf8 (ifid w e) ∧ ifid w e = id ∧ .obj (ifObj w mask e) = obj := by
  have hns : ∀ n ∈ w.nsList, (id, obj) ∈ interfacesToArray w mask (w.nss n).ifaces ↔
      ∃ e ∈ (w.nss n).ifaces, ifid w e = id ∧
        (if utf8 (ifid w e) then some (Json.obj (ifObj w mask e)) else none) = some obj := by
    intro n hn
    apply Dict.mem_collect
    exact fun e he e' he' => hids e (mem_listed_of_mem_ifaces hn he) e'
      (mem_listed_of_mem_ifaces hn he')
  simp only [jsonInterfaces, List.mem_flatMap]
  constructor
  · rintro ⟨n, hn, hmem⟩
    obtain ⟨e, he, hid, hobj⟩ := (hns n hn).mp hmem
    split_ifs at hobj with hutf8
    exact ⟨e, mem_listed_of_mem_ifaces hn he, hutf8, hid, Option.some.inj hobj⟩
  · rintro ⟨e, he, hutf8, hid, hobj⟩
    obtain ⟨n, hn, hmem⟩ := World.mem_listed.mp he
    refine ⟨n, hn, (hns n hn).mpr ⟨e, hmem, hid, ?_⟩⟩
    rw [if_pos hutf8, hobj]

theorem mem_addConnection
    (hids : ∀ x ∈ w.listed, ∀ y ∈ w.listed, ifid w x = ifid w y → x = y)
    (label : IfPtr → Option CStr) {targets : List IfPtr}
    (htargets : ∀ t ∈ targets, t ∈ w.listed) (key : CStr) (conn : Json) :
    (key, conn) ∈ targets.foldl (fun o t => addConnection w o t (label t)) [] ↔
      ∃ t ∈ targets, utf8 (ifid w t) ∧ ifid w t = key ∧ connection w t (label t) = conn := by
  have hcollect : (key, conn) ∈ targets.foldl (fun o t => addConnection w o t (label t)) [] ↔
      ∃ t ∈ targets, ifid w t = key ∧
        (if utf8 (ifid w t) then some (connection w t (label t)) else none) = some conn := by
    apply Dict.mem_collect
    exact fun t ht t' ht' => hids t (htargets t ht) t' (htargets t' ht')
  rw [hcollect]
  constructor
  · rintro ⟨t, ht, hkey, hconn⟩
    split_ifs at hconn with hutf8
    exact ⟨t, ht, hutf8, hkey, Option.some.inj hconn⟩
  · rintro ⟨t, ht, hutf8, hkey, hconn⟩
    exact ⟨t, ht, hkey, by rw [if_pos hutf8, hconn]⟩

theorem mem_ifParents (h : Mirrored w) {e : IfPtr} (he : e ∈ w.listed) {key : CStr} {conn : Json} :
    (key, conn) ∈ ifParents w e ↔
      (∃ m, (w.ifs e).master = some m ∧ utf8 (ifid w m) ∧ ifid w m = key ∧
        connection w m (slaveLabel (w.ifs e)) = conn) ∨
      ((w.ifs e).master = none ∧ ∃ l ∈ (w.ifs e).revLink, utf8 (ifid w l) ∧ ifid w l = key ∧
        connection w l (w.ifs l).edgeLabel = conn) := by
  cases hm : (w.ifs e).master with
  | some m =>
    have hmem : ∀ t ∈ [m], t ∈ w.listed := by
      simpa using h.master e he m hm
    have hsingle := mem_addConnection h.ids (fun _ => slaveLabel (w.ifs e)) hmem key conn
    simp only [List.foldl_cons, List.foldl_nil, List.mem_singleton, exists_eq_left] at hsingle
    simp only [ifParents, hm]
    rw [slaveLabel] at hsingle ⊢
    simpa using hsingle
  | none =>
    have hall := mem_addConnection h.ids (fun t => (w.ifs t).edgeLabel) (h.revLink_listed e he)
      key conn
    simp only [ifParents, hm]
    simpa using hall

theorem mem_ifChildren (h : Mirrored w) {e : IfPtr} (he : e ∈ w.listed) {key : CStr}
    {conn : Json} : (key, conn) ∈ ifChildren w e ↔
      (∃ l, (w.ifs e).link = some l ∧ utf8 (ifid w l) ∧ ifid w l = key ∧
        connection w l (w.ifs e).edgeLabel = conn) ∨
      ((w.ifs e).link = none ∧ ∃ s ∈ (w.ifs e).revMaster, utf8 (ifid w s) ∧ ifid w s = key ∧
        connection w s (slaveLabel (w.ifs s)) = conn) := by
  cases hl : (w.ifs e).link with
  | some l =>
    have hmem : ∀ t ∈ [l], t ∈ w.listed := by
      simpa using h.link e he l hl
    have hsingle := mem_addConnection h.ids (fun _ => (w.ifs e).edgeLabel) hmem key conn
    simp only [List.foldl_cons, List.foldl_nil, List.mem_singleton, exists_eq_left] at hsingle
    simp only [ifChildren, hl]
    simpa using hsingle
  | none =>
    have hall := mem_addConnection h.ids (fun t => slaveLabel (w.ifs t)) (h.revMaster_listed e he)
      key conn
    simp only [ifChildren, hl]
    simp only [slaveLabel] at hall ⊢
    simpa using hall

/-- The JSON output has the connections of the dot output, as far as it can write them. -/
theorem mem_jsonConnections (h : Mirrored w) {c : Connection} : c ∈ jsonConnections w mask ↔
    ∃ d ∈ dotConnections w, utf8 d.lower ∧ utf8 d.upper ∧
      c = ⟨d.lower, d.upper, d.label.filter utf8⟩ := by
  have hparents : ∀ e, jsonMembers (jsonObjectGet (some (.obj (ifObj w mask e))) (cstr "parents")) =
      ifParents w e := by
    intro e
    have hfield : jsonObjectGet (some (.obj (ifObj w mask e))) (cstr "parents") =
        unlessEmpty (ifParents w e) := lookup_ifObj (by simp) (by decide)
    rw [hfield]
    cases ifParents w e <;> rfl
  have hchildren : ∀ e, jsonMembers (jsonObjectGet (some (.obj (ifObj w mask e)))
      (cstr "children")) = ifChildren w e := by
    intro e
    have hfield : jsonObjectGet (some (.obj (ifObj w mask e))) (cstr "children") =
        unlessEmpty (ifChildren w e) := lookup_ifObj (by simp) (by decide)
    rw [hfield]
    cases ifChildren w e <;> rfl
  simp only [jsonConnections, List.mem_flatMap]
  constructor
  · rintro ⟨⟨id, obj⟩, hobj, hc⟩
    obtain ⟨e, he, hutf8, rfl, rfl⟩ := (mem_jsonInterfaces h.ids).mp hobj
    rw [objConnections, hparents, hchildren, List.mem_append, List.mem_map, List.mem_map] at hc
    rcases hc with ⟨⟨key, conn⟩, hmem, rfl⟩ | ⟨⟨key, conn⟩, hmem, rfl⟩
    · rcases (mem_ifParents h he).mp hmem with ⟨m, hm, hutf8', rfl, rfl⟩ |
        ⟨-, l, hl, hutf8', rfl, rfl⟩
      · refine ⟨masterConnection w e m, mem_dotConnections.mpr ⟨e, he, .inl ⟨m, hm, rfl⟩⟩,
          hutf8, hutf8', ?_⟩
        rw [connectionLabel_connection]
        rfl
      · have hlisted := h.revLink_listed e he l hl
        have hlink := (h.revLink e he l hlisted).mp hl
        refine ⟨linkConnection w l e, mem_dotConnections.mpr ⟨l, hlisted, .inr ⟨e, hlink, rfl⟩⟩,
          hutf8, hutf8', ?_⟩
        rw [connectionLabel_connection]
        rfl
    · rcases (mem_ifChildren h he).mp hmem with ⟨l, hl, hutf8', rfl, rfl⟩ |
        ⟨-, s, hs, hutf8', rfl, rfl⟩
      · refine ⟨linkConnection w e l, mem_dotConnections.mpr ⟨e, he, .inr ⟨l, hl, rfl⟩⟩,
          hutf8', hutf8, ?_⟩
        rw [connectionLabel_connection]
        rfl
      · have hlisted := h.revMaster_listed e he s hs
        have hmaster := (h.revMaster e he s hlisted).mp hs
        refine ⟨masterConnection w s e, mem_dotConnections.mpr ⟨s, hlisted, .inl ⟨e, hmaster, rfl⟩⟩,
          hutf8', hutf8, ?_⟩
        rw [connectionLabel_connection]
        rfl
  · rintro ⟨d, hd, hlower, hupper, rfl⟩
    obtain ⟨e, he, ⟨m, hm, rfl⟩ | ⟨l, hl, rfl⟩⟩ := mem_dotConnections.mp hd
    · -- a slave shows its master
      refine ⟨_, (mem_jsonInterfaces h.ids).mpr ⟨e, he, hlower, rfl, rfl⟩, ?_⟩
      rw [objConnections, hparents, List.mem_append, List.mem_map]
      refine .inl ⟨_, (mem_ifParents h he).mpr (.inl ⟨m, hm, hupper, rfl, rfl⟩), ?_⟩
      rw [connectionLabel_connection]
      rfl
    · -- a linked interface shows its link
      refine ⟨_, (mem_jsonInterfaces h.ids).mpr ⟨e, he, hupper, rfl, rfl⟩, ?_⟩
      rw [objConnections, hchildren, List.mem_append, List.mem_map, List.mem_map]
      refine .inr ⟨_, (mem_ifChildren h he).mpr (.inl ⟨l, hl, hlower, rfl, rfl⟩), ?_⟩
      rw [connectionLabel_connection]
      rfl

theorem mem_jsonPeers (h : Mirrored w) {q : Sym2 CStr} : q ∈ jsonPeers w mask ↔
    ∃ e ∈ w.listed, ∃ p, (w.ifs e).peer = some p ∧ utf8 (ifid w e) ∧ utf8 (ifid w p) ∧
      q = s(ifid w e, ifid w p) := by
  have hpeer : ∀ e, objPeer (ifid w e) (.obj (ifObj w mask e)) = (w.ifs e).peer.bind fun p =>
      if utf8 (ifid w p) then some s(ifid w e, ifid w p) else none := by
    intro e
    have hfield : jsonObjectGet (some (.obj (ifObj w mask e))) (cstr "peer") =
        (w.ifs e).peer.map fun peer => connection w peer none := lookup_ifObj (by simp) (by decide)
    rw [objPeer, hfield]
    cases (w.ifs e).peer with
    | none => rfl
    | some p =>
      rw [Option.map_some, target_connection, jsonString]
      by_cases hutf8 : utf8 (ifid w p) <;> simp [hutf8, jsonStringValue]
  simp only [jsonPeers, List.mem_filterMap]
  constructor
  · rintro ⟨⟨id, obj⟩, hobj, hq⟩
    obtain ⟨e, he, hutf8, rfl, rfl⟩ := (mem_jsonInterfaces h.ids).mp hobj
    dsimp only at hq
    rw [hpeer] at hq
    obtain ⟨p, hp, hq⟩ := Option.bind_eq_some_iff.mp hq
    split_ifs at hq with hutf8'
    exact ⟨e, he, p, hp, hutf8, hutf8', (Option.some.inj hq).symm⟩
  · rintro ⟨e, he, p, hp, hutf8, hutf8', rfl⟩
    refine ⟨_, (mem_jsonInterfaces h.ids).mpr ⟨e, he, hutf8, rfl, rfl⟩, ?_⟩
    dsimp only
    rw [hpeer, hp, Option.bind_some, if_pos hutf8']

end

/-! ## Both -/

def SameConnections (w : World) (mask : PropMask) : Prop :=
  (∀ c, c ∈ dotConnections w ↔ c ∈ jsonConnections w mask) ∧
    ∀ q, q ∈ dotPeers w ↔ q ∈ jsonPeers w mask

/-- JSON can write the ids and labels of all connections, and no interface is its own peer, unless
JSON cannot write it. -/
structure Writable (w : World) : Prop where
  master : ∀ e ∈ w.listed, ∀ m ∈ (w.ifs e).master,
    utf8 (ifid w e) ∧ utf8 (ifid w m) ∧ ∀ label ∈ slaveLabel (w.ifs e), utf8 label
  link : ∀ e ∈ w.listed, ∀ l ∈ (w.ifs e).link,
    utf8 (ifid w l) ∧ utf8 (ifid w e) ∧ ∀ label ∈ (w.ifs e).edgeLabel, utf8 label
  peer : ∀ e ∈ w.listed, ∀ p ∈ (w.ifs e).peer,
    if p = e then utf8 (ifid w e) = false else utf8 (ifid w e) ∧ utf8 (ifid w p)

def PeersMutual (w : World) : Prop :=
  ∀ e ∈ w.listed, ∀ p ∈ (w.ifs e).peer, p ∈ w.listed ∧ (w.ifs p).peer = some e

section
variable {w : World} {mask : PropMask}

theorem sameConnections_left (h : Mirrored w) :
    (∀ c, c ∈ dotConnections w ↔ c ∈ jsonConnections w mask) ↔
      ∀ d ∈ dotConnections w, utf8 d.lower ∧ utf8 d.upper ∧ ∀ label ∈ d.label, utf8 label := by
  constructor
  · intro hsame d hd
    obtain ⟨d', -, hlower, hupper, heq⟩ := (mem_jsonConnections h).mp ((hsame d).mp hd)
    rw [heq]
    refine ⟨hlower, hupper, fun label hlabel => ?_⟩
    exact (Option.filter_eq_some_iff.mp hlabel).2
  · intro hall c
    have hself : ∀ d ∈ dotConnections w, d = ⟨d.lower, d.upper, d.label.filter utf8⟩ := by
      intro d hd
      obtain ⟨-, -, hlabel⟩ := hall d hd
      have hfilter : d.label.filter utf8 = d.label := by
        cases hd' : d.label with
        | none => rfl
        | some label => exact Option.filter_eq_some_iff.mpr ⟨rfl, hlabel label hd'⟩
      rw [hfilter]
    rw [mem_jsonConnections h]
    constructor
    · intro hc
      obtain ⟨hlower, hupper, -⟩ := hall c hc
      exact ⟨c, hc, hlower, hupper, hself c hc⟩
    · rintro ⟨d, hd, -, -, rfl⟩
      rw [← hself d hd]
      exact hd

theorem sameConnections_right (h : Mirrored w) (hmutual : PeersMutual w) :
    (∀ q, q ∈ dotPeers w ↔ q ∈ jsonPeers w mask) ↔ ∀ e ∈ w.listed, ∀ p ∈ (w.ifs e).peer,
      if p = e then utf8 (ifid w e) = false else utf8 (ifid w e) ∧ utf8 (ifid w p) := by
  -- either end of a pair may draw it
  have hdot : ∀ q, q ∈ dotPeers w ↔ ∃ e ∈ w.listed, ∃ p, (w.ifs e).peer = some p ∧ p ≠ e ∧
      q = s(ifid w e, ifid w p) := by
    intro q
    rw [mem_dotPeers]
    constructor
    · rintro ⟨e, he, p, hp, hlt, rfl⟩
      exact ⟨e, he, p, hp, hlt.ne, rfl⟩
    · rintro ⟨e, he, p, hp, hne, rfl⟩
      rcases lt_or_gt_of_ne hne with hlt | hlt
      · exact ⟨e, he, p, hp, hlt, rfl⟩
      · obtain ⟨hlisted, hback⟩ := hmutual e he p hp
        exact ⟨p, hlisted, e, hback, hlt, Sym2.eq_swap⟩
  simp only [hdot, mem_jsonPeers h]
  constructor
  · intro hsame e he p hp
    split_ifs with heq
    · subst heq
      by_contra hutf8
      rw [Bool.not_eq_false] at hutf8
      obtain ⟨e', he', p', hp', hne, hids⟩ :=
        (hsame _).mpr ⟨p, he, p, hp, hutf8, hutf8, rfl⟩
      obtain ⟨hlisted, -⟩ := hmutual e' he' p' hp'
      obtain ⟨h₁, h₂⟩ | ⟨h₁, h₂⟩ := Sym2.eq_iff.mp hids
      · exact hne ((h.ids _ he _ hlisted h₂).symm.trans (h.ids _ he _ he' h₁))
      · exact hne ((h.ids _ he _ hlisted h₁).symm.trans (h.ids _ he _ he' h₂))
    · obtain ⟨e', he', p', hp', hutf8, hutf8', hids⟩ := (hsame _).mp ⟨e, he, p, hp, heq, rfl⟩
      obtain ⟨h₁, h₂⟩ | ⟨h₁, h₂⟩ := Sym2.eq_iff.mp hids
      · rw [h₁, h₂]
        exact ⟨hutf8, hutf8'⟩
      · rw [h₁, h₂]
        exact ⟨hutf8', hutf8⟩
  · intro hall q
    constructor
    · rintro ⟨e, he, p, hp, hne, rfl⟩
      have hpair := hall e he p hp
      rw [if_neg hne] at hpair
      exact ⟨e, he, p, hp, hpair.1, hpair.2, rfl⟩
    · rintro ⟨e, he, p, hp, hutf8, hutf8', rfl⟩
      have hpair := hall e he p hp
      split_ifs at hpair with heq
      · rw [hutf8] at hpair
        cases hpair
      · exact ⟨e, he, p, hp, heq, rfl⟩

end

/-- The two outputs agree exactly where JSON can write all strings of the connections and no
interface that it can write is its own peer. -/
theorem sameConnections_iff {w : World} (h : Mirrored w) (hmutual : PeersMutual w)
    (mask : PropMask) : SameConnections w mask ↔ Writable w := by
  unfold SameConnections
  rw [sameConnections_left h, sameConnections_right h hmutual]
  constructor
  · rintro ⟨hconnections, hpeers⟩
    refine ⟨fun e he m hm => ?_, fun e he l hl => ?_, hpeers⟩
    · exact hconnections _ (mem_dotConnections.mpr ⟨e, he, .inl ⟨m, hm, rfl⟩⟩)
    · exact hconnections _ (mem_dotConnections.mpr ⟨e, he, .inr ⟨l, hl, rfl⟩⟩)
  · intro hwritable
    refine ⟨fun d hd => ?_, hwritable.peer⟩
    obtain ⟨e, he, ⟨m, hm, rfl⟩ | ⟨l, hl, rfl⟩⟩ := mem_dotConnections.mp hd
    · exact hwritable.master e he m hm
    · exact hwritable.link e he l hl

/-- The VLAN interface's link is shown at one end only, which is enough. -/
theorem sameConnections_vlanOverSlave : SameConnections vlanOverSlave {} := by
  have hnone : ∀ e ∈ vlanOverSlave.listed, (vlanOverSlave.ifs e).peer = none := by decide
  have hmutual : PeersMutual vlanOverSlave := by
    intro e he p hp
    rw [hnone e he] at hp
    cases hp
  apply (sameConnections_iff vlanOverSlave_mirrored hmutual {}).mpr
  refine ⟨by decide, by decide, fun e he p hp => ?_⟩
  rw [hnone e he] at hp
  cases hp

def unwritableSlave : World where
  ifs e := match e with
    | 1 => { ifName := [255], master := some 2 }
    | 2 => { ifName := cstr "br0", revMaster := [1] }
    | _ => {}
  nss _ := { ifaces := [1, 2] }
  nsList := [0]
  free := []

/-- It is drawn, but no object shows it. -/
theorem sameConnections_unwritableSlave : Mirrored unwritableSlave ∧ PeersMutual unwritableSlave ∧
    ¬ SameConnections unwritableSlave {} := by
  have hnone : ∀ e ∈ unwritableSlave.listed, (unwritableSlave.ifs e).peer = none := by decide
  refine ⟨by constructor <;> decide, fun e he p hp => ?_, fun hsame => ?_⟩
  · rw [hnone e he] at hp
    cases hp
  · have hdrawn : (⟨cstr "//" ++ [255], cstr "//br0", none⟩ : Connection) ∈
        dotConnections unwritableSlave := by decide
    have hshown := (hsame.1 _).mp hdrawn
    revert hshown
    decide

end Plotnetcfg.Frontends
