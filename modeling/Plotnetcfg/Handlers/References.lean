import Plotnetcfg.Handlers.Collected
import Plotnetcfg.Handlers.Route

/-! Where the pointers in a topology lead: to interfaces and name spaces of its lists, whatever
the steps did that wrote them. -/

namespace Plotnetcfg

/-- The interfaces that the frontends get to from an interface. -/
def IfEntry.pointers (x : IfEntry) : List IfPtr :=
  x.master.toList ++ x.link.toList ++ x.peer.toList ++ x.physfn.toList ++ x.revMaster ++ x.revLink

theorem IfEntry.mem_pointers {x : IfEntry} {y : IfPtr} : y ∈ x.pointers ↔
    x.master = some y ∨ x.link = some y ∨ x.peer = some y ∨ x.physfn = some y ∨
      y ∈ x.revMaster ∨ y ∈ x.revLink := by
  simp [IfEntry.pointers]

section
variable {w : World} {x y : IfPtr}

theorem masterSet_pointers {master : Option IfPtr} {e : IfPtr}
    (h : y ∈ ((masterSet master e w).ifs x).pointers) :
    y ∈ (w.ifs x).pointers ∨ y = e ∨ master = some y := by
  obtain ⟨m, rev, hifs⟩ := masterSet_ifs w x master e
  have hmaster := masterSet_master w x master e
  have hrev := masterSet_revMaster w x master e
  rw [hifs] at h hmaster hrev
  rw [IfEntry.mem_pointers] at h ⊢
  dsimp only at h hmaster hrev
  rcases h with h | h | h | h | h | h
  · rw [hmaster] at h
    split_ifs at h
    · exact .inr (.inr h)
    · exact .inl (.inl h)
  · exact .inl (.inr (.inl h))
  · exact .inl (.inr (.inr (.inl h)))
  · exact .inl (.inr (.inr (.inr (.inl h))))
  · rw [hrev, List.mem_append] at h
    rcases h with h | h
    · have hold : y ∈ (w.ifs x).revMaster := by
        split_ifs at h
        · exact List.mem_of_mem_erase h
        · exact h
      exact .inl (.inr (.inr (.inr (.inr (.inl hold)))))
    · split_ifs at h
      · exact .inr (.inl (List.mem_singleton.mp h))
      · cases h
  · exact .inl (.inr (.inr (.inr (.inr (.inr h)))))

theorem linkSet_pointers {link : Option IfPtr} {e : IfPtr}
    (h : y ∈ ((linkSet link (some e) w).ifs x).pointers) :
    y ∈ (w.ifs x).pointers ∨ y = e ∧ link.isSome ∨ link = some y := by
  obtain ⟨l, rev, hifs⟩ := linkSet_ifs w x link (some e)
  have hlink := linkSet_link w x link e
  have hrev := linkSet_revLink w x link e
  rw [hifs] at h hlink hrev
  rw [IfEntry.mem_pointers] at h ⊢
  dsimp only at h hlink hrev
  rcases h with h | h | h | h | h | h
  · exact .inl (.inl h)
  · rw [hlink] at h
    split_ifs at h
    · exact .inr (.inr h)
    · exact .inl (.inr (.inl h))
  · exact .inl (.inr (.inr (.inl h)))
  · exact .inl (.inr (.inr (.inr (.inl h))))
  · exact .inl (.inr (.inr (.inr (.inr (.inl h)))))
  · rw [hrev, List.mem_append] at h
    rcases h with h | h
    · have hold : y ∈ (w.ifs x).revLink := by
        split_ifs at h
        · exact List.mem_of_mem_erase h
        · exact h
      exact .inl (.inr (.inr (.inr (.inr (.inr hold)))))
    · split_ifs at h with hx
      · exact .inr (.inl ⟨List.mem_singleton.mp h, by rw [hx]; rfl⟩)
      · cases h

theorem peerSet_pointers {e : IfPtr} {second : Option IfPtr}
    (h : y ∈ ((peerSet (some e) second w).ifs x).pointers) :
    y ∈ (w.ifs x).pointers ∨ y = e ∨ second = some y := by
  obtain ⟨p, hifs⟩ := peerSet_ifs w x (some e) second
  by_cases hpeer : ((peerSet (some e) second w).ifs x).peer = some y
  · rcases peerSet_peer e second w hpeer with hold | ⟨-, hy⟩ | ⟨-, hy⟩
    · exact .inl (IfEntry.mem_pointers.mpr (.inr (.inr (.inl hold))))
    · exact .inr (.inr hy)
    · exact .inr (.inl hy)
  · rw [hifs] at h hpeer
    rw [IfEntry.mem_pointers] at h ⊢
    dsimp only at h hpeer
    rcases h with h | h | h | h
    · exact .inl (.inl h)
    · exact .inl (.inr (.inl h))
    · exact absurd h hpeer
    · exact .inl (.inr (.inr (.inr h)))

/-- What an id leads to is an interface of a name space that has an id. -/
theorem matchNetnsidEntry_pointers {ns : NsPtr} {e : IfPtr}
    (h : y ∈ ((matchNetnsidEntry ns e w).ifs x).pointers) :
    y ∈ (w.ifs x).pointers ∨ y = e ∨ ∃ i ∈ (w.nss ns).ids, y ∈ (w.nss i.ns).ifaces := by
  have hfound : ∀ {ifindex netnsid}, matchIfNetnsid ifindex netnsid (w.nss ns) w = some y →
      ∃ i ∈ (w.nss ns).ids, y ∈ (w.nss i.ns).ifaces := by
    intro ifindex netnsid hmatch
    obtain ⟨i, hi, hmem, -⟩ := World.matchIfNetnsid_eq_some hmatch
    exact ⟨i, List.mem_of_find?_eq_some hi, hmem⟩
  have hlink : y ∈ ((matchNetnsidLink ns e w).ifs x).pointers →
      y ∈ (w.ifs x).pointers ∨ y = e ∨ ∃ i ∈ (w.nss ns).ids, y ∈ (w.nss i.ns).ifaces := by
    intro hmem
    unfold matchNetnsidLink at hmem
    split_ifs at hmem
    · exact (linkSet_pointers hmem).imp_right (Or.imp And.left hfound)
    · rw [World.modifyIf_ifs] at hmem
      split_ifs at hmem
      · exact .inl hmem
      · exact .inl hmem
    · exact .inl hmem
  rw [matchNetnsidEntry_eq] at h
  unfold matchNetnsidPeer at h
  split_ifs at h
  · rcases peerSet_pointers h with hold | rfl | hmatch
    · exact hlink hold
    · exact .inr (.inl rfl)
    · obtain ⟨i, hi, hmem, -⟩ := World.matchIfNetnsid_eq_some hmatch
      rw [(matchNetnsidLink_lists ns e w).1] at hi hmem
      exact .inr (.inr ⟨i, List.mem_of_find?_eq_some hi, hmem⟩)
  · exact hlink h

end

namespace Handlers

open Openvswitch

structure References (w : World) : Prop where
  interfaces : ∀ e ∈ w.listed, ∀ x ∈ (w.ifs e).pointers, x ∈ w.listed
  home : ∀ e ∈ w.listed, (w.ifs e).ns ∈ w.nsList
  linkNet : ∀ e ∈ w.listed, ∀ n ∈ (w.ifs e).linkNet, n ∈ w.nsList
  routes : ∀ n ∈ w.nsList, ∀ rt ∈ (w.nss n).rtables, ∀ r ∈ rt.routes,
    (∀ e, r.iif = some e → e ∈ w.listed) ∧ ∀ e, r.oif = some e → e ∈ w.listed

/-! ## Routes -/

def RoutesScanned (w : World) : Prop :=
  ∀ n ∈ w.nsList, ∃ env items, routeScan w n env items = (0, (w.nss n).rtables)

structure RouteWithin (list : List IfPtr) (r : Route) : Prop where
  iif : ∀ e, r.iif = some e → e ∈ list
  oif : ∀ e, r.oif = some e → e ∈ list

def TablesWithin (list : List IfPtr) (tables : Tables) : Prop :=
  ∀ id rt, tables id = some rt → ∀ r ∈ rt.routes, RouteWithin list r

section
variable {w : World} {ns : NsPtr}

theorem scannedRoute_within {item : RouteItem} {r : Route} (h : scannedRoute w ns item = .ok r) :
    RouteWithin (w.nss ns).ifaces r := by
  obtain ⟨r', -, rfl⟩ := except_map_eq_ok h
  exact ⟨fun _ => List.mem_of_find?_eq_some, fun _ => List.mem_of_find?_eq_some⟩

theorem TablesWithin.append {list : List IfPtr} {tables : Tables} (h : TablesWithin list tables)
    {id : UInt8} {rt : Rtable} {r : Route} (hrt : ∀ r ∈ rt.routes, RouteWithin list r)
    (hr : RouteWithin list r) : TablesWithin list (tables.append id rt r) := by
  intro id' rt' htable r' hr'
  unfold Tables.append at htable
  split_ifs at htable
  · obtain rfl := Option.some.inj htable
    rcases List.mem_append.mp hr' with hold | hnew
    · exact hrt r' hold
    · rw [List.mem_singleton.mp hnew]
      exact hr
  · exact h id' rt' htable r' hr'

theorem scanRoutes_within {items : List RouteItem} {tables : Tables}
    (h : TablesWithin (w.nss ns).ifaces tables) :
    TablesWithin (w.nss ns).ifaces (scanRoutes w ns items tables).2 := by
  induction items generalizing tables with
  | nil => exact h
  | cons item items ih =>
    rw [scanRoutes]
    cases hitem : scannedRoute w ns item with
    | error err => exact h
    | ok r =>
      have hr := scannedRoute_within hitem
      dsimp only
      cases htable : tables r.tableId with
      | some rt => exact ih (h.append (h r.tableId rt htable) hr)
      | none =>
        cases hcreate : rtableCreate item.rtable r.tableId with
        | error err => exact h
        | ok rt =>
          have hempty : rt.routes = [] := by
            unfold rtableCreate at hcreate
            split_ifs at hcreate
            rw [← Except.ok.inj hcreate]
          apply ih (h.append _ hr)
          rw [hempty]
          exact fun r hr => absurd hr List.not_mem_nil

theorem routeScan_within (env : RouteScanEnv) (items : List RouteItem) :
    ∀ rt ∈ (routeScan w ns env items).2, ∀ r ∈ rt.routes, RouteWithin (w.nss ns).ifaces r := by
  have hempty : ∀ rt ∈ ([] : List Rtable), ∀ r ∈ rt.routes, RouteWithin (w.nss ns).ifaces r :=
    fun rt hrt => absurd hrt List.not_mem_nil
  have hstart : TablesWithin (w.nss ns).ifaces fun _ => none :=
    fun id rt hnone => absurd hnone.symm (Option.some_ne_none rt)
  unfold routeScan
  split_ifs
  · exact hempty
  · exact hempty
  · exact hempty
  · exact hempty
  · dsimp only
    split_ifs
    · exact hempty
    · intro rt hrt
      obtain ⟨id, -, htable⟩ := List.mem_filterMap.mp hrt
      exact scanRoutes_within hstart id rt htable

end

/-! ## Interfaces -/

section
variable {input : PostInput} {w w' v : World}

/-- A pointer is old, or a step has found where it leads. -/
theorem PostStep.pointers (hstep : PostStep input w w') {x y : IfPtr}
    (h : y ∈ (w'.ifs x).pointers) : y ∈ (w.ifs x).pointers ∨ y ∈ w.listed := by
  cases hstep with
  | label e hf =>
    rw [label_field IfEntry.pointers (fun _ => rfl) hf] at h
    exact .inl h
  | warn => exact .inl h
  | @resolve rel e found he _ hfound =>
    have hnew : y ∈ (w.ifs x).pointers ∨ y = e ∨ found = some y := by
      cases rel with
      | master => exact masterSet_pointers h
      | link => exact (linkSet_pointers h).imp_right (Or.imp_left And.left)
    rcases hnew with hold | rfl | hy
    · exact .inl hold
    · exact .inr he
    · exact .inr (hfound y hy).1
  | @tunnel e found he hfound =>
    rcases linkSet_pointers h with hold | ⟨rfl, -⟩ | hy
    · exact .inl hold
    · exact .inr he
    · obtain rfl := Option.some.inj hy
      exact .inr hfound
  | unlink e =>
    rcases linkSet_pointers h with hold | ⟨-, hnone⟩ | hnone
    · exact .inl hold
    · cases hnone
    · cases hnone
  | @physfn e found hfound =>
    rw [World.modifyIf_ifs] at h
    split_ifs at h
    · rw [IfEntry.mem_pointers] at h
      by_cases hphysfn : found = some y
      · exact .inr (hfound y hphysfn)
      · exact .inl (IfEntry.mem_pointers.mpr (h.imp_right (Or.imp_right (Or.imp_right
          (Or.imp_left fun hy => absurd hy hphysfn)))))
    · exact .inl h
  | @pair e found he hfound =>
    rcases peerSet_pointers h with hold | rfl | hy
    · exact .inl hold
    · exact .inr he
    · obtain rfl := Option.some.inj hy
      exact .inr hfound
  | @enslave e master he hmaster =>
    rcases masterSet_pointers h with hold | rfl | hy
    · exact .inl hold
    · exact .inr he
    · exact .inr (hmaster y hy)
  | @create e _ hadds _ hnew =>
    by_cases hx : x = e
    · obtain ⟨name, -, brName, hifs⟩ := hnew
      rw [hx, hifs] at h
      cases h
    · rw [hadds.ifs x hx] at h
      exact .inl h

theorem matchAllNetnsid_pointers (h : Collected w) {x y : IfPtr}
    (hy : y ∈ ((matchAllNetnsid w).ifs x).pointers) : y ∈ w.listed := by
  rw [World.matchAllNetnsid_eq h.homed] at hy
  have hturns : ∀ l : List IfPtr, l.Nodup → (∀ e ∈ l, e ∈ w.listed) →
      ∀ x, ∀ y ∈ ((w.matchTurns l).ifs x).pointers, y ∈ w.listed := by
    intro l
    induction l using List.reverseRecOn with
    | nil =>
      intro _ _ x y hy
      have hempty : (w.ifs x).pointers = [] := by
        simp [IfEntry.pointers, h.master, h.link, h.peer, h.physfn, h.revMaster, h.revLink]
      have hy : y ∈ (w.ifs x).pointers := hy
      rw [hempty] at hy
      cases hy
    | append_singleton l e ih =>
      intro hnodup hl x y hy
      have he := hl e (List.mem_append_right l List.mem_cons_self)
      have hdone := w.matchTurns_upTo hnodup.of_append_left
      rw [World.matchTurns_concat] at hy
      rcases matchNetnsidEntry_pointers hy with hold | rfl | ⟨i, hi, hmem⟩
      · exact ih hnodup.of_append_left (fun z hz => hl z (List.mem_append_left [e] hz)) x y hold
      · exact he
      · obtain ⟨_, _, _, _, hifs⟩ := hdone.ifs e
        rw [hifs, hdone.lists.1] at hi
        rw [hdone.lists.1] at hmem
        exact World.mem_listed.mpr ⟨i.ns, h.scanned.ids _ (h.scanned.ns_mem he) i hi, hmem⟩
  exact hturns w.listed h.scanned.nodup (fun _ => id) x y hy

theorem PostRun.pointers (h : Collected w) (hroot : input.root ∈ w.nsList)
    (hrun : PostRun input (matchAllNetnsid w) v) :
    ∀ x, ∀ y ∈ (v.ifs x).pointers, y ∈ v.listed := by
  induction hrun with
  | refl =>
    intro x y hy
    exact h.mem_listed.mpr (matchAllNetnsid_pointers h hy)
  | @tail u v hrun hstep ih =>
    intro x y hy
    have hext := PostRun.extends (h.fits hroot) hrun
    have hlisted := (hstep.extends ((h.fits hroot).extends hext)).listed
    rcases hstep.pointers hy with hold | hnew
    · exact hlisted y (ih x y hold)
    · exact hlisted y hnew

theorem PostRun.references (h : Collected w) (hroutes : RoutesScanned w)
    (hroot : input.root ∈ w.nsList) (hrun : PostRun input (matchAllNetnsid w) v) :
    References v := by
  have hext := PostRun.extends (h.fits hroot) hrun
  refine ⟨fun e _ => hrun.pointers h hroot e, fun e he => hext.scanned.ns_mem he,
    ((h.fits hroot).extends hext).linkNet, ?_⟩
  intro n hn rt hrt r hr
  rw [hext.nsList, h.frame.nsList] at hn
  rw [hext.rtables, h.matched.lists.1] at hrt
  obtain ⟨env, items, hscan⟩ := hroutes n hn
  have hmem := routeScan_within env items rt (by rwa [hscan]) r hr
  have hlisted : ∀ e ∈ (w.nss n).ifaces, e ∈ v.listed := fun e he =>
    hext.listed e (h.mem_listed.mpr (World.mem_listed.mpr ⟨n, hn, he⟩))
  exact ⟨fun e he => hlisted e (hmem.iif e he), fun e he => hlisted e (hmem.oif e he)⟩

end

end Handlers

end Plotnetcfg
