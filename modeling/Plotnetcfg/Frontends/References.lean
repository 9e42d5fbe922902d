import Plotnetcfg.Frontends.Connections
import Plotnetcfg.Frontends.DotText
import Plotnetcfg.Frontends.JsonDocument
import Plotnetcfg.Handlers.PrivateUse
import Plotnetcfg.Handlers.FillRuns
import Plotnetcfg.Handlers.References

/-! What the two outputs refer to is in the same output. -/

namespace Plotnetcfg.Frontends

open Handlers Openvswitch
open DotLanguage (Statement)

/-! ## The JSON document -/

def docNamespaces (doc : JsonObj) : JsonObj :=
  jsonMembers (jsonObjectGet (some (.obj doc)) (cstr "namespaces"))

def docInterfaces (doc : JsonObj) : JsonObj :=
  (docNamespaces doc).flatMap fun ns => jsonMembers (jsonObjectGet (some ns.2) (cstr "interfaces"))

def docRoutes (doc : JsonObj) : List Json :=
  (docNamespaces doc).flatMap fun ns =>
    (jsonMembers (jsonObjectGet (some ns.2) (cstr "routes"))).flatMap fun table =>
      jsonArrayElems (jsonObjectGet (some table.2) (cstr "routes"))

def textField (obj : Json) (field : CStr) : List CStr :=
  (jsonStringValue (jsonObjectGet (some obj) field)).toList

def connectionTargets (conns : Option Json) : List CStr :=
  (jsonMembers conns).flatMap fun conn => conn.1 :: textField conn.2 (cstr "target")

def interfaceTargets (obj : Json) : List CStr :=
  connectionTargets (jsonObjectGet (some obj) (cstr "parents")) ++
    connectionTargets (jsonObjectGet (some obj) (cstr "children")) ++
    (jsonObjectGet (some obj) (cstr "peer")).toList.flatMap (textField · (cstr "target"))

def namespaceTargets (obj : Json) : List CStr :=
  textField obj (cstr "namespace") ++
    (jsonObjectGet (some obj) (cstr "link-netns")).toList.flatMap (textField · (cstr "target"))

def routeTargets (obj : Json) : List CStr := textField obj (cstr "iif") ++ textField obj (cstr "oif")

def HasObject (objs : JsonObj) (id : CStr) : Prop :=
  ∃ obj, (id, obj) ∈ objs ∧ jsonObjectGet (some obj) (cstr "id") = some (.str id)

structure DocumentResolves (doc : JsonObj) : Prop where
  interfaces : ∀ i ∈ docInterfaces doc, ∀ id ∈ interfaceTargets i.2, HasObject (docInterfaces doc) id
  namespaces : ∀ i ∈ docInterfaces doc, ∀ id ∈ namespaceTargets i.2, HasObject (docNamespaces doc) id
  routes : ∀ r ∈ docRoutes doc, ∀ id ∈ routeTargets r, HasObject (docInterfaces doc) id
  root : ∀ id ∈ textField (.obj doc) (cstr "root"), HasObject (docNamespaces doc) id

structure IdsDistinct (w : World) : Prop where
  ifUtf8 : ∀ e ∈ w.listed, utf8 (ifid w e) = true
  ifids : ∀ x ∈ w.listed, ∀ y ∈ w.listed, ifid w x = ifid w y → x = y
  nsUtf8 : ∀ n ∈ w.nsList, utf8 (nsid (w.nss n)) = true
  nsids : ∀ n ∈ w.nsList, ∀ m ∈ w.nsList, nsid (w.nss n) = nsid (w.nss m) → n = m

section
variable {w : World} {mask : PropMask} {version date : CStr}

theorem mem_docNamespaces (h : IdsDistinct w) {id : CStr} {obj : Json} :
    (id, obj) ∈ docNamespaces (jsonOutput w version date mask) ↔
      ∃ n ∈ w.nsList, nsid (w.nss n) = id ∧ .obj (nsObj w mask n) = obj := by
  have hfield : jsonObjectGet (some (.obj (jsonOutput w version date mask))) (cstr "namespaces") =
      some (.obj (namespacesToObject w mask)) := by
    refine lookup_objOf ?_ (List.mem_append_right (_ :: _ :: _ :: _ :: []) List.mem_cons_self)
      (by decide)
    simp only [List.map_cons, List.map_nil]
    decide
  unfold docNamespaces
  rw [hfield]
  have hcollect : (id, obj) ∈ namespacesToObject w mask ↔ ∃ n ∈ w.nsList, nsid (w.nss n) = id ∧
      (if utf8 (nsid (w.nss n)) then some (Json.obj (nsObj w mask n)) else none) = some obj :=
    Dict.mem_collect _ _ (fun n hn m hm => h.nsids n hn m hm) id obj
  refine hcollect.trans ⟨?_, ?_⟩
  · rintro ⟨n, hn, hid, hobj⟩
    rw [if_pos (h.nsUtf8 n hn)] at hobj
    exact ⟨n, hn, hid, Option.some.inj hobj⟩
  · rintro ⟨n, hn, hid, hobj⟩
    rw [← hobj]
    exact ⟨n, hn, hid, if_pos (h.nsUtf8 n hn)⟩

theorem nsObj_interfaces (n : NsPtr) : jsonObjectGet (some (.obj (nsObj w mask n)))
    (cstr "interfaces") = some (.obj (interfacesToArray w mask (w.nss n).ifaces)) := by
  refine lookup_objOf ?_ (List.mem_append_right (_ :: _ :: []) List.mem_cons_self) (by decide)
  simp only [List.map_cons, List.map_nil]
  decide

theorem nsObj_routes (n : NsPtr) : jsonObjectGet (some (.obj (nsObj w mask n)))
    (cstr "routes") = some (.obj (rtablesToArray w (w.nss n).rtables)) := by
  refine lookup_objOf ?_ (List.mem_append_right (_ :: _ :: _ :: []) List.mem_cons_self) (by decide)
  simp only [List.map_cons, List.map_nil]
  decide

theorem mem_docInterfaces (h : IdsDistinct w) {id : CStr} {obj : Json} :
    (id, obj) ∈ docInterfaces (jsonOutput w version date mask) ↔
      ∃ e ∈ w.listed, ifid w e = id ∧ .obj (ifObj w mask e) = obj := by
  have hsame : (id, obj) ∈ docInterfaces (jsonOutput w version date mask) ↔
      (id, obj) ∈ jsonInterfaces w mask := by
    unfold docInterfaces jsonInterfaces
    rw [List.mem_flatMap, List.mem_flatMap]
    constructor
    · rintro ⟨⟨nid, nobj⟩, hns, hmem⟩
      obtain ⟨n, hn, rfl, rfl⟩ := (mem_docNamespaces h).mp hns
      rw [nsObj_interfaces] at hmem
      exact ⟨n, hn, hmem⟩
    · rintro ⟨n, hn, hmem⟩
      refine ⟨_, (mem_docNamespaces h).mpr ⟨n, hn, rfl, rfl⟩, ?_⟩
      rw [nsObj_interfaces]
      exact hmem
  rw [hsame, mem_jsonInterfaces h.ifids]
  constructor
  · rintro ⟨e, he, -, hid, hobj⟩
    exact ⟨e, he, hid, hobj⟩
  · rintro ⟨e, he, hid, hobj⟩
    exact ⟨e, he, h.ifUtf8 e he, hid, hobj⟩

theorem hasObject_interface (h : IdsDistinct w) {e : IfPtr} (he : e ∈ w.listed) :
    HasObject (docInterfaces (jsonOutput w version date mask)) (ifid w e) := by
  refine ⟨_, (mem_docInterfaces h).mpr ⟨e, he, rfl, rfl⟩, ?_⟩
  have hfield : jsonObjectGet (some (.obj (ifObj w mask e))) (cstr "id") = jsonString (ifid w e) := by
    apply lookup_objOf _ List.mem_cons_self (by decide)
    simp only [List.map_cons, List.map_nil]
    decide
  rw [hfield, jsonString, if_pos (h.ifUtf8 e he)]

theorem hasObject_namespace (h : IdsDistinct w) {n : NsPtr} (hn : n ∈ w.nsList) :
    HasObject (docNamespaces (jsonOutput w version date mask)) (nsid (w.nss n)) := by
  refine ⟨_, (mem_docNamespaces h).mpr ⟨n, hn, rfl, rfl⟩, ?_⟩
  have hfield : jsonObjectGet (some (.obj (nsObj w mask n))) (cstr "id") =
      jsonString (nsid (w.nss n)) := by
    apply lookup_objOf _ List.mem_cons_self (by decide)
    simp only [List.map_cons, List.map_nil]
    decide
  rw [hfield, jsonString, if_pos (h.nsUtf8 n hn)]

theorem connections_within (h : IdsDistinct w) (label : IfPtr → Option CStr) {targets : List IfPtr}
    (htargets : ∀ t ∈ targets, t ∈ w.listed) {id : CStr}
    (hid : id ∈ connectionTargets (unlessEmpty
      (targets.foldl (fun o t => addConnection w o t (label t)) []))) :
    ∃ x ∈ w.listed, ifid w x = id := by
  have hmembers : ∀ o : JsonObj, jsonMembers (unlessEmpty o) = o := by
    intro o
    cases o <;> rfl
  unfold connectionTargets at hid
  rw [hmembers, List.mem_flatMap] at hid
  obtain ⟨⟨key, conn⟩, hmem, hid⟩ := hid
  obtain ⟨t, ht, hutf8, rfl, rfl⟩ := (mem_addConnection h.ifids label htargets key conn).mp hmem
  refine ⟨t, htargets t ht, ?_⟩
  unfold textField at hid
  rw [target_connection, jsonString, if_pos hutf8] at hid
  simp only [jsonStringValue, Option.toList_some, List.mem_cons, List.not_mem_nil, or_false,
    or_self] at hid
  exact hid.symm

theorem interfaceTargets_within (h : IdsDistinct w) (href : References w) {e : IfPtr}
    (he : e ∈ w.listed) {id : CStr} (hid : id ∈ interfaceTargets (.obj (ifObj w mask e))) :
    ∃ x ∈ w.listed, ifid w x = id := by
  have hpointer : ∀ x, x ∈ (w.ifs e).pointers → x ∈ w.listed := href.interfaces e he
  have hparents : jsonObjectGet (some (.obj (ifObj w mask e))) (cstr "parents") =
      unlessEmpty (ifParents w e) := lookup_ifObj (by simp) (by decide)
  have hchildren : jsonObjectGet (some (.obj (ifObj w mask e))) (cstr "children") =
      unlessEmpty (ifChildren w e) := lookup_ifObj (by simp) (by decide)
  have hpeer : jsonObjectGet (some (.obj (ifObj w mask e))) (cstr "peer") =
      (w.ifs e).peer.map fun peer => connection w peer none := lookup_ifObj (by simp) (by decide)
  unfold interfaceTargets at hid
  rw [hparents, hchildren, hpeer, List.mem_append, List.mem_append] at hid
  rcases hid with (hid | hid) | hid
  · cases hm : (w.ifs e).master with
    | some m =>
      have hlisted : ∀ t ∈ [m], t ∈ w.listed := by
        intro t ht
        rw [List.mem_singleton.mp ht]
        exact hpointer m (IfEntry.mem_pointers.mpr (.inl hm))
      simp only [ifParents, hm] at hid
      exact connections_within h (fun _ => slaveLabel (w.ifs e)) hlisted hid
    | none =>
      have hlisted : ∀ t ∈ (w.ifs e).revLink, t ∈ w.listed := fun t ht =>
        hpointer t (IfEntry.mem_pointers.mpr (.inr (.inr (.inr (.inr (.inr ht))))))
      simp only [ifParents, hm] at hid
      exact connections_within h (fun t => (w.ifs t).edgeLabel) hlisted hid
  · cases hl : (w.ifs e).link with
    | some l =>
      have hlisted : ∀ t ∈ [l], t ∈ w.listed := by
        intro t ht
        rw [List.mem_singleton.mp ht]
        exact hpointer l (IfEntry.mem_pointers.mpr (.inr (.inl hl)))
      simp only [ifChildren, hl] at hid
      exact connections_within h (fun _ => (w.ifs e).edgeLabel) hlisted hid
    | none =>
      have hlisted : ∀ t ∈ (w.ifs e).revMaster, t ∈ w.listed := fun t ht =>
        hpointer t (IfEntry.mem_pointers.mpr (.inr (.inr (.inr (.inr (.inl ht))))))
      simp only [ifChildren, hl] at hid
      exact connections_within h (fun t => slaveLabel (w.ifs t)) hlisted hid
  · cases hp : (w.ifs e).peer with
    | none =>
      rw [hp] at hid
      cases hid
    | some p =>
      have hlisted := hpointer p (IfEntry.mem_pointers.mpr (.inr (.inr (.inl hp))))
      rw [hp, Option.map_some, Option.toList_some, List.flatMap_singleton, textField,
        target_connection, jsonString, if_pos (h.ifUtf8 p hlisted)] at hid
      exact ⟨p, hlisted, (List.mem_singleton.mp hid).symm⟩

theorem namespaceTargets_within (h : IdsDistinct w) (href : References w) {e : IfPtr}
    (he : e ∈ w.listed) {id : CStr} (hid : id ∈ namespaceTargets (.obj (ifObj w mask e))) :
    ∃ n ∈ w.nsList, nsid (w.nss n) = id := by
  have hhome := href.home e he
  have hfield : jsonObjectGet (some (.obj (ifObj w mask e))) (cstr "namespace") =
      jsonString (nsid (w.nss (w.ifs e).ns)) := by
    refine lookup_objOf ?_ (List.mem_append_right (_ :: []) List.mem_cons_self) (by decide)
    simp only [List.map_cons, List.map_nil]
    decide
  have hlinked : jsonObjectGet (some (.obj (ifObj w mask e))) (cstr "link-netns") =
      if (w.ifs e).linkIndex = 0 then (w.ifs e).linkNet.map (linkNetns w) else none :=
    lookup_linkNetns
  unfold namespaceTargets at hid
  rw [hlinked, List.mem_append] at hid
  rcases hid with hid | hid
  · rw [textField, hfield, jsonString, if_pos (h.nsUtf8 _ hhome)] at hid
    exact ⟨_, hhome, (List.mem_singleton.mp hid).symm⟩
  · split_ifs at hid
    · cases hnet : (w.ifs e).linkNet with
      | none =>
        rw [hnet] at hid
        cases hid
      | some n =>
        have hn := href.linkNet e he n hnet
        have htarget : jsonObjectGet (some (linkNetns w n)) (cstr "target") =
            jsonString (nsid (w.nss n)) := by
          refine lookup_objOf ?_ List.mem_cons_self (by decide)
          simp only [List.map_cons, List.map_nil]
          decide
        rw [hnet, Option.map_some, Option.toList_some, List.flatMap_singleton, textField, htarget,
          jsonString, if_pos (h.nsUtf8 n hn)] at hid
        exact ⟨n, hn, (List.mem_singleton.mp hid).symm⟩
    · cases hid

theorem routesToArray_eq (routes : List Route) :
    routesToArray w routes = .arr (routes.map fun rte => .obj (routeObj w rte)) := by
  unfold routesToArray
  induction routes using List.reverseRecOn with
  | nil => rfl
  | append_singleton routes rte ih =>
    have ih := Json.arr.inj ih
    rw [List.foldl_append, List.map_append, ih]
    rfl

theorem exists_of_mem_docRoutes (h : IdsDistinct w) {obj : Json}
    (hobj : obj ∈ docRoutes (jsonOutput w version date mask)) :
    ∃ n ∈ w.nsList, ∃ rt ∈ (w.nss n).rtables, ∃ rte ∈ rt.routes, obj = .obj (routeObj w rte) := by
  unfold docRoutes at hobj
  obtain ⟨⟨nid, nobj⟩, hns, hobj⟩ := List.mem_flatMap.mp hobj
  obtain ⟨n, hn, rfl, rfl⟩ := (mem_docNamespaces h).mp hns
  rw [nsObj_routes] at hobj
  obtain ⟨⟨tid, tobj⟩, htable, hobj⟩ := List.mem_flatMap.mp hobj
  have hentry : ∃ rt ∈ (w.nss n).rtables, rtid rt = tid ∧ (if utf8 (rtid rt) then
      some (Json.obj (objOf [(cstr "name", jsonString (routeTable rt.id)),
        (cstr "routes", some (routesToArray w rt.routes))])) else none) = some tobj :=
    (Dict.exists_of_mem_collect rtid _ htable).resolve_right List.not_mem_nil
  obtain ⟨rt, hrt, -, htobj⟩ := hentry
  split_ifs at htobj
  obtain rfl := Option.some.inj htobj
  have hroutes : jsonObjectGet (some (.obj (objOf [(cstr "name", jsonString (routeTable rt.id)),
      (cstr "routes", some (routesToArray w rt.routes))]))) (cstr "routes") =
      some (routesToArray w rt.routes) := by
    refine lookup_objOf ?_ (List.mem_cons_of_mem _ List.mem_cons_self) (by decide)
    simp only [List.map_cons, List.map_nil]
    decide
  dsimp only at hobj
  rw [hroutes, routesToArray_eq] at hobj
  obtain ⟨rte, hrte, rfl⟩ := List.mem_map.mp hobj
  exact ⟨n, hn, rt, hrt, rte, hrte, rfl⟩

theorem routeTargets_within (h : IdsDistinct w) {rte : Route}
    (hiif : ∀ e, rte.iif = some e → e ∈ w.listed) (hoif : ∀ e, rte.oif = some e → e ∈ w.listed)
    {id : CStr} (hid : id ∈ routeTargets (.obj (routeObj w rte))) :
    ∃ x ∈ w.listed, ifid w x = id := by
  have hiffield : jsonObjectGet (some (.obj (routeObj w rte))) (cstr "iif") =
      rte.iif.bind fun e => jsonString (ifid w e) := by
    refine lookup_objOf ?_ (List.mem_append_right (_ :: _ :: _ :: []) List.mem_cons_self) (by decide)
    simp only [List.map_cons, List.map_nil]
    decide
  have hoffield : jsonObjectGet (some (.obj (routeObj w rte))) (cstr "oif") =
      rte.oif.bind fun e => jsonString (ifid w e) := by
    refine lookup_objOf ?_ (List.mem_append_right (_ :: _ :: _ :: _ :: _ :: []) List.mem_cons_self)
      (by decide)
    simp only [List.map_cons, List.map_nil]
    decide
  have hwithin : ∀ ifentry : Option IfPtr, (∀ e, ifentry = some e → e ∈ w.listed) →
      id ∈ (jsonStringValue (ifentry.bind fun e => jsonString (ifid w e))).toList →
      ∃ x ∈ w.listed, ifid w x = id := by
    intro ifentry hlisted hmem
    cases ifentry with
    | none => cases hmem
    | some e =>
      have he := hlisted e rfl
      rw [Option.bind_some, jsonString, if_pos (h.ifUtf8 e he)] at hmem
      exact ⟨e, he, (List.mem_singleton.mp hmem).symm⟩
  unfold routeTargets textField at hid
  rw [hiffield, hoffield, List.mem_append] at hid
  rcases hid with hid | hid
  · exact hwithin rte.iif hiif hid
  · exact hwithin rte.oif hoif hid

/-- The JSON output has an object for every id in it. -/
theorem document_resolves (href : References w) (h : IdsDistinct w) :
    DocumentResolves (jsonOutput w version date mask) := by
  have hinterface : ∀ {id}, (∃ x ∈ w.listed, ifid w x = id) →
      HasObject (docInterfaces (jsonOutput w version date mask)) id := by
    rintro id ⟨x, hx, rfl⟩
    exact hasObject_interface h hx
  constructor
  · rintro ⟨key, obj⟩ hobj id hid
    obtain ⟨e, he, rfl, rfl⟩ := (mem_docInterfaces h).mp hobj
    exact hinterface (interfaceTargets_within h href he hid)
  · rintro ⟨key, obj⟩ hobj id hid
    obtain ⟨e, he, rfl, rfl⟩ := (mem_docInterfaces h).mp hobj
    obtain ⟨n, hn, rfl⟩ := namespaceTargets_within h href he hid
    exact hasObject_namespace h hn
  · intro obj hobj id hid
    obtain ⟨n, hn, rt, hrt, rte, hrte, rfl⟩ := exists_of_mem_docRoutes h hobj
    obtain ⟨hiif, hoif⟩ := href.routes n hn rt hrt rte hrte
    exact hinterface (routeTargets_within h hiif hoif hid)
  · intro id hid
    have hfield : jsonObjectGet (some (.obj (jsonOutput w version date mask))) (cstr "root") =
        w.nsList.head?.bind fun root => jsonString (nsid (w.nss root)) := by
      refine lookup_objOf ?_ (List.mem_append_right (_ :: _ :: _ :: []) List.mem_cons_self) (by decide)
      simp only [List.map_cons, List.map_nil]
      decide
    rw [textField, hfield] at hid
    cases hroot : w.nsList.head? with
    | none =>
      rw [hroot] at hid
      cases hid
    | some root =>
      have hlisted := List.mem_of_head? hroot
      rw [hroot, Option.bind_some, jsonString, if_pos (h.nsUtf8 root hlisted)] at hid
      rw [List.mem_singleton.mp hid]
      exact hasObject_namespace h hlisted

end

/-! ## The dot output -/

def Declared (stmts : List Statement) (id : CStr) : Prop :=
  ∃ attrs, Statement.node id attrs ∈ stmts

def EdgesResolve (w : World) (mask : PropMask) : Prop :=
  ∀ tail head attrs, Statement.edge tail head attrs ∈ dotStatements w mask →
    Declared (dotStatements w mask) tail ∧ Declared (dotStatements w mask) head

def Loopbacks (w : World) : Prop :=
  ∀ n ∈ w.nsList, (w.nss n).name.isSome →
    ∃ e ∈ (w.nss n).ifaces, (w.ifs e).ifName = cstr "lo" ∧ (w.ifs e).internalNs = none

section
variable {w : World} {mask : PropMask}

theorem declared_interface {e : IfPtr} (he : e ∈ w.listed) :
    Declared (dotStatements w mask) (ifid w e) :=
  ⟨_, List.mem_append_left _ (List.mem_append_left _ (List.mem_map_of_mem he))⟩

theorem loopback_id {n : NsPtr} {e : IfPtr} (hns : (w.ifs e).ns = n)
    (hname : (w.ifs e).ifName = cstr "lo") (hinternal : (w.ifs e).internalNs = none) :
    ifid w e = nsid (w.nss n) ++ cstr "/lo" := by
  have hlen : (nsid (w.nss n)).length ≤ NETNS_MAX := by
    unfold nsid
    split
    · decide
    · rw [fits, List.length_take]
      exact Nat.min_le_left _ _
  have htext : cstr "/" ++ cstr "lo" = cstr "/lo" := by decide
  have hthree : (cstr "/lo").length = 3 := by decide
  have hmax : NETNS_MAX + 3 ≤ IFID_MAX := by decide
  unfold ifid
  dsimp only
  rw [hns, hname, hinternal, Option.getD_none, List.append_nil, List.append_assoc, htext, fits,
    Nat.add_sub_cancel]
  apply List.take_of_length_le
  rw [List.length_append, hthree]
  omega

theorem edges_resolve (href : References w) (hhome : ∀ n ∈ w.nsList, ∀ e ∈ (w.nss n).ifaces,
    (w.ifs e).ns = n) (hlo : Loopbacks w) : EdgesResolve w mask := by
  intro tail head attrs hmem
  have hedge : ∃ edge ∈ dotEdges w, edge.statement w = .edge tail head attrs := by
    unfold dotStatements at hmem
    rcases List.mem_append.mp hmem with hmem | hmem
    · rcases List.mem_append.mp hmem with hmem | hmem
      · obtain ⟨e, -, hnode⟩ := List.mem_map.mp hmem
        cases hnode
      · split_ifs at hmem
        · cases List.mem_singleton.mp hmem
        · cases hmem
    · exact List.mem_map.mp hmem
  obtain ⟨edge, hedge, hstmt⟩ := hedge
  obtain ⟨e, he, hmaster | hphysfn | hlink | hpeer⟩ := mem_dotEdges.mp hedge
  · obtain ⟨m, hm, rfl⟩ := mem_masterEdge.mp hmaster
    cases hstmt
    have hlisted := href.interfaces e he m (IfEntry.mem_pointers.mpr (.inl hm))
    exact ⟨declared_interface he, declared_interface hlisted⟩
  · obtain ⟨pf, hpf, rfl⟩ := mem_physfnEdge.mp hphysfn
    cases hstmt
    have hlisted := href.interfaces e he pf
      (IfEntry.mem_pointers.mpr (.inr (.inr (.inr (.inl hpf)))))
    exact ⟨declared_interface he, declared_interface hlisted⟩
  · rcases mem_linkEdge.mp hlink with ⟨l, hl, rfl⟩ | ⟨-, n, hnet, rfl⟩
    · cases hstmt
      have hlisted := href.interfaces e he l (IfEntry.mem_pointers.mpr (.inr (.inl hl)))
      exact ⟨declared_interface hlisted, declared_interface he⟩
    · have hn := href.linkNet e he n hnet
      rw [DotEdge.statement] at hstmt
      split_ifs at hstmt with hname
      · cases hstmt
        obtain ⟨lo, hmem, hloname, hinternal⟩ := hlo n hn hname
        have hid := loopback_id (hhome n hn lo hmem) hloname hinternal
        refine ⟨declared_interface he, ?_⟩
        rw [← hid]
        exact declared_interface (World.mem_listed.mpr ⟨n, hn, hmem⟩)
      · cases hstmt
        -- pass one has seen that the node is needed
        have hneed : needInitNet w mask = true := by
          obtain ⟨m, hm, hmem⟩ := World.mem_listed.mp he
          unfold needInitNet outputIfacesPass1
          refine List.any_eq_true.mpr ⟨m, hm, List.any_eq_true.mpr ⟨e, hmem, ?_⟩⟩
          rw [hnet, Option.any_some]
          simpa using hname
        have hnode : initNetStatement ∈ dotStatements w mask := by
          unfold dotStatements
          rw [if_pos hneed]
          exact List.mem_append_left _ (List.mem_append_right _ List.mem_cons_self)
        exact ⟨declared_interface he, _, hnode⟩
  · obtain ⟨p, hp, -, rfl⟩ := mem_peerEdge.mp hpeer
    cases hstmt
    have hlisted := href.interfaces e he p (IfEntry.mem_pointers.mpr (.inr (.inr (.inl hp))))
    exact ⟨declared_interface he, declared_interface hlisted⟩

end

/-! ## Over a whole run -/

theorem Loopbacks.extends {w v : World} {root : NsPtr} {names : List CStr} (h : Loopbacks w)
    (hw : w.Scanned) (hext : w.Extends root names v) : Loopbacks v := by
  intro n hn hname
  have hn' : n ∈ w.nsList := by rwa [hext.nsList] at hn
  rw [hext.name] at hname
  obtain ⟨e, he, hlo, hinternal⟩ := h n hn' hname
  obtain ⟨hlisted, hns⟩ := (hw.mem_ifaces hn').mp he
  have hkept := congrArg IfEntry.internalNs (hext.kept e hlisted)
  have hkept : (v.ifs e).internalNs = (w.ifs e).internalNs := hkept
  refine ⟨e, (hext.scanned.mem_ifaces hn).mpr ⟨hext.listed e hlisted, ?_⟩, ?_, ?_⟩
  · rw [hext.ns hlisted, hns]
  · rw [hext.ifName hlisted, hlo]
  · rw [hkept, hinternal]

theorem Loopbacks.matched {w : World} (h : Loopbacks w) (hw : Collected w) :
    Loopbacks (matchAllNetnsid w) := by
  intro n hn hname
  rw [hw.frame.nsList] at hn
  rw [hw.matched.lists.1] at hname ⊢
  obtain ⟨e, he, hlo, hinternal⟩ := h n hn hname
  obtain ⟨_, _, _, _, hifs⟩ := hw.matched.ifs e
  refine ⟨e, he, ?_, ?_⟩
  · rw [hifs]
    exact hlo
  · rw [hifs]
    exact hinternal

/-- Whatever is scanned and whatever ovsdb reports, every reference in either output resolves
there. -/
theorem references_resolve (ovs : OvsEnv) (env : HandlerEnv) {root : NsPtr}
    {answer : Option (Except CStr Json)} {s s' : ScanState} (h : Collected s.world)
    (hroutes : RoutesScanned s.world) (hlo : Loopbacks s.world) (hroot : root ∈ s.world.nsList)
    (hrun : fillListPost ovs env root answer s = some (.ok (), s')) (hids : IdsDistinct s'.world)
    (mask : PropMask) (version date : CStr) :
    References s'.world ∧ DocumentResolves (jsonOutput s'.world version date mask) ∧
      EdgesResolve s'.world mask := by
  obtain ⟨bridges, -, hsteps⟩ := fillListPost_run h hroot hrun
  have href := hsteps.references h hroutes hroot
  have hfits : PostInput.Fits ⟨ovs, root, s.priv, bridges, .any⟩ (matchAllNetnsid s.world) := h.fits hroot
  have hext := PostRun.extends hfits hsteps
  have hlo' := (hlo.matched h).extends hfits.scanned hext
  exact ⟨href, document_resolves href hids, edges_resolve href hext.scanned.home hlo'⟩

/-- A tunnel that is linked to a name space with a name, which has its loopback interface only. -/
def loopbackScan : ScanState where
  world :=
    { ifs := fun e =>
        if e = 0 then { ifName := cstr "gre1", driver := some (cstr "gre"), linkNetnsid := 5 }
        else { ns := 1, ifName := cstr "lo", ifIndex := 1, flags := { loopback := true, up := true } }
      nss := fun n =>
        if n = 0 then { ifaces := [0], ids := [⟨1, 5⟩] }
        else { ifaces := [1], name := some (cstr "lower") }
      nsList := [0, 1]
      free := [] }
  priv := fun e =>
    if e = 0 then .live (.tunnel { family := AF_INET, raw := some [10, 0, 0, 1] }) else .unset

theorem loopbackScan_collected : Collected loopbackScan.world := by
  have hscanned : loopbackScan.world.Scanned :=
    ⟨by decide, by decide, by decide, by decide, by decide, by decide, by decide⟩
  have hentries : ∀ e, loopbackScan.world.ifs e ∈
      [loopbackScan.world.ifs 0, loopbackScan.world.ifs 1] := by
    intro e
    by_cases he : e = 0
    · subst he
      exact List.mem_cons_self
    · have hsame : loopbackScan.world.ifs e = loopbackScan.world.ifs 1 := if_neg he
      rw [hsame]
      exact List.mem_cons_of_mem _ List.mem_cons_self
  apply Collected.of_entries hscanned hentries
  decide

/-- The edge to the name space leads to its loopback interface. -/
theorem references_resolve_loopback : ∃ s', fillListPost default plainEnv 0 none loopbackScan =
    some (.ok (), s') ∧ (s'.world.ifs 0).linkNet = some 1 ∧ References s'.world ∧
      DocumentResolves (jsonOutput s'.world (cstr "0.4") (cstr "today") {}) ∧
      EdgesResolve s'.world {} := by
  obtain ⟨s', hrun, hends⟩ : ∃ s', fillListPost default plainEnv 0 none loopbackScan =
      some (.ok (), s') ∧ decide ((s'.world.ifs 0).linkNet = some 1 ∧
        ((∀ e ∈ s'.world.listed, utf8 (ifid s'.world e) = true) ∧
          ∀ x ∈ s'.world.listed, ∀ y ∈ s'.world.listed,
            ifid s'.world x = ifid s'.world y → x = y) ∧
        (∀ n ∈ s'.world.nsList, utf8 (nsid (s'.world.nss n)) = true) ∧
          ∀ n ∈ s'.world.nsList, ∀ m ∈ s'.world.nsList,
            nsid (s'.world.nss n) = nsid (s'.world.nss m) → n = m) = true :=
    exists_of_ends (by decide +kernel)
  obtain ⟨hnet, ⟨hifUtf8, hifids⟩, hnsUtf8, hnsids⟩ := of_decide_eq_true hends
  have hroutes : RoutesScanned loopbackScan.world := by
    intro n hn
    have hn : n ∈ [0, 1] := hn
    refine ⟨{}, [], ?_⟩
    simp only [List.mem_cons, List.not_mem_nil, or_false] at hn
    rcases hn with rfl | rfl <;> decide +kernel
  have hlo : Loopbacks loopbackScan.world := by
    unfold Loopbacks
    decide
  have hresolve := references_resolve default plainEnv loopbackScan_collected hroutes hlo
    List.mem_cons_self hrun ⟨hifUtf8, hifids, hnsUtf8, hnsids⟩ {} (cstr "0.4") (cstr "today")
  exact ⟨s', hrun, hnet, hresolve⟩

end Plotnetcfg.Frontends
