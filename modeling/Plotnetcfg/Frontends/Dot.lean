import Plotnetcfg.Handlers.Openvswitch.LinkInvariant
import Plotnetcfg.Handlers.Veth

/-! The edges that the dot frontend draws (`output_ifaces_pass2` of `frontends/dot.c`), and the
edges between peers in whatever state the scan reaches. -/

namespace Plotnetcfg.Frontends

inductive DotEdge where
  | master (ptr target : IfPtr) (passive : Bool) (label : Option CStr)
  | physfn (ptr target : IfPtr)
  | link (target ptr : IfPtr) (weak : Bool) (label : Option CStr)
  | linkNet (ptr : IfPtr) (ns : NsPtr)
  | peer (ptr target : IfPtr)
deriving DecidableEq

def quote (s : CStr) : CStr := cstr "\"" ++ s ++ cstr "\""

def style (weak : Bool) : CStr := if weak then cstr " [style=dashed" else cstr " [style=solid"

def labelAttr (label : Option CStr) : CStr :=
  match label with
  | some label => cstr ",label=" ++ quote label
  | none => []

def DotEdge.text (w : World) : DotEdge → CStr
  | .master ptr target passive label =>
    quote (ifid w ptr) ++ cstr " -> " ++ quote (ifid w target) ++ style passive ++
      labelAttr label ++ cstr "]\n"
  | .physfn ptr target =>
    quote (ifid w ptr) ++ cstr " -> " ++ quote (ifid w target) ++
      cstr " [style=dotted,taillabel=\"PF\"]\n"
  | .link target ptr weak label =>
    quote (ifid w target) ++ cstr " -> " ++ quote (ifid w ptr) ++ style weak ++
      labelAttr label ++ cstr "]\n"
  | .linkNet ptr ns =>
    match (w.nss ns).name with
    | some _ =>
      quote (ifid w ptr) ++ cstr " -> " ++ quote (nsid (w.nss ns) ++ cstr "/lo") ++
        cstr " [lhead=" ++ quote (cstr "cluster/" ++ nsid (w.nss ns)) ++
        cstr ", style=\"dashed\"]\n"
    | none => quote (ifid w ptr) ++ cstr " -> \"cluster//\" [style=\"dashed\"]\n"
  | .peer ptr target =>
    quote (ifid w ptr) ++ cstr " -> " ++ quote (ifid w target) ++ cstr " [dir=none]\n"

def masterEdge (w : World) (ptr : IfPtr) : List DotEdge :=
  match (w.ifs ptr).master with
  | some master =>
    [.master ptr master (w.ifs ptr).flags.passiveSlave
      (if (w.ifs ptr).link.isNone then (w.ifs ptr).edgeLabel else none)]
  | none => []

def physfnEdge (w : World) (ptr : IfPtr) : List DotEdge :=
  match (w.ifs ptr).physfn with
  | some pf => [.physfn ptr pf]
  | none => []

def linkEdge (w : World) (ptr : IfPtr) : List DotEdge :=
  match (w.ifs ptr).link, (w.ifs ptr).linkNet with
  | some link, _ => [.link link ptr (w.ifs ptr).flags.linkWeak (w.ifs ptr).edgeLabel]
  | none, some ns => [.linkNet ptr ns]
  | none, none => []

/-- The one of two peers that has the greater address draws their edge. -/
def peerEdge (w : World) (ptr : IfPtr) : List DotEdge :=
  match (w.ifs ptr).peer with
  | some peer => if peer < ptr then [.peer ptr peer] else []
  | none => []

def outputIfacesPass2 (w : World) (list : List IfPtr) : List DotEdge :=
  list.flatMap fun ptr => masterEdge w ptr ++ physfnEdge w ptr ++ linkEdge w ptr ++ peerEdge w ptr

def dotEdges (w : World) : List DotEdge :=
  w.nsList.flatMap fun ns => outputIfacesPass2 w (w.nss ns).ifaces

section
variable {w : World}

theorem mem_dotEdges {edge : DotEdge} : edge ∈ dotEdges w ↔ ∃ e ∈ w.listed,
    edge ∈ masterEdge w e ∨ edge ∈ physfnEdge w e ∨ edge ∈ linkEdge w e ∨ edge ∈ peerEdge w e := by
  simp only [dotEdges, outputIfacesPass2, List.mem_flatMap, List.mem_append, World.mem_listed,
    or_assoc]
  constructor
  · rintro ⟨n, hn, e, he, hedge⟩
    exact ⟨e, ⟨n, hn, he⟩, hedge⟩
  · rintro ⟨e, ⟨n, hn, he⟩, hedge⟩
    exact ⟨n, hn, e, he, hedge⟩

theorem mem_masterEdge {edge : DotEdge} {e : IfPtr} : edge ∈ masterEdge w e ↔
    ∃ m, (w.ifs e).master = some m ∧ edge = .master e m (w.ifs e).flags.passiveSlave
      (if (w.ifs e).link.isNone then (w.ifs e).edgeLabel else none) := by
  unfold masterEdge
  cases (w.ifs e).master <;> simp

theorem mem_physfnEdge {edge : DotEdge} {e : IfPtr} :
    edge ∈ physfnEdge w e ↔ ∃ pf, (w.ifs e).physfn = some pf ∧ edge = .physfn e pf := by
  unfold physfnEdge
  cases (w.ifs e).physfn <;> simp

theorem mem_linkEdge {edge : DotEdge} {e : IfPtr} : edge ∈ linkEdge w e ↔
    (∃ l, (w.ifs e).link = some l ∧
      edge = .link l e (w.ifs e).flags.linkWeak (w.ifs e).edgeLabel) ∨
    ((w.ifs e).link = none ∧ ∃ ns, (w.ifs e).linkNet = some ns ∧ edge = .linkNet e ns) := by
  unfold linkEdge
  cases (w.ifs e).link <;> cases (w.ifs e).linkNet <;> simp

theorem mem_peerEdge {edge : DotEdge} {e : IfPtr} :
    edge ∈ peerEdge w e ↔ ∃ p, (w.ifs e).peer = some p ∧ p < e ∧ edge = .peer e p := by
  unfold peerEdge
  cases (w.ifs e).peer with
  | none => simp
  | some p => by_cases h : p < e <;> simp [h]

end

/-! ## Edges between peers -/

def DotEdge.Joins (a b : IfPtr) (e : DotEdge) : Prop := e = .peer a b ∨ e = .peer b a

instance (a b : IfPtr) (e : DotEdge) : Decidable (e.Joins a b) :=
  inferInstanceAs (Decidable (_ ∨ _))

def undirectedEdges (w : World) (a b : IfPtr) : Nat := (dotEdges w).countP (·.Joins a b)

section
variable {w : World} {a b : IfPtr}

theorem countP_ptr (x : IfPtr) :
    (masterEdge w x ++ physfnEdge w x ++ linkEdge w x ++ peerEdge w x).countP (·.Joins a b) =
      if (x = a ∧ (w.ifs x).peer = some b ∨ x = b ∧ (w.ifs x).peer = some a) ∧
        (∀ y ∈ (w.ifs x).peer, y < x) then 1 else 0 := by
  have hmaster : (masterEdge w x).countP (·.Joins a b) = 0 := by
    unfold masterEdge
    cases (w.ifs x).master <;> simp [DotEdge.Joins]
  have hphysfn : (physfnEdge w x).countP (·.Joins a b) = 0 := by
    unfold physfnEdge
    cases (w.ifs x).physfn <;> simp [DotEdge.Joins]
  have hlink : (linkEdge w x).countP (·.Joins a b) = 0 := by
    unfold linkEdge
    cases (w.ifs x).link <;> cases (w.ifs x).linkNet <;> simp [DotEdge.Joins]
  rw [List.countP_append, List.countP_append, List.countP_append, hmaster, hphysfn, hlink]
  unfold peerEdge
  cases hpeer : (w.ifs x).peer with
  | none => simp
  | some y =>
    by_cases hyx : y < x
    · simp [hyx, List.countP_cons, DotEdge.Joins]
    · simp [hyx]

theorem countP_flatMap_ite {A B : Type} {p : B → Bool} {c : A → Prop} [DecidablePred c]
    {f : A → List B} (hf : ∀ x, (f x).countP p = if c x then 1 else 0) (l : List A) :
    (l.flatMap f).countP p = l.countP c := by
  induction l with
  | nil => rfl
  | cons x l ih =>
    rw [List.flatMap_cons, List.countP_append, ih, hf, List.countP_cons, Nat.add_comm]
    simp

/-- Each pair of distinct peers is drawn once, by the one of them with the greater address. -/
theorem undirectedEdges_eq (hpaired : w.Paired) (hnodup : w.listed.Nodup) (a b : IfPtr) :
    undirectedEdges w a b = if a ≠ b ∧ w.peers a = some b then 1 else 0 := by
  have hall : dotEdges w = w.listed.flatMap fun x =>
      masterEdge w x ++ physfnEdge w x ++ linkEdge w x ++ peerEdge w x := by
    simp only [dotEdges, outputIfacesPass2, World.listed, List.flatMap_assoc]
  rw [undirectedEdges, hall, countP_flatMap_ite countP_ptr]
  have hsymm : w.peers b = some a ↔ w.peers a = some b :=
    ⟨hpaired.symmetric b a, hpaired.symmetric a b⟩
  split_ifs with h
  · obtain ⟨hne, hpeer⟩ := h
    have hpeer' := hsymm.mpr hpeer
    obtain ⟨ha, hb⟩ := hpaired.peer_listed hpeer
    have howner : ∀ x, ((x = a ∧ (w.ifs x).peer = some b ∨ x = b ∧ (w.ifs x).peer = some a) ∧
        ∀ y ∈ (w.ifs x).peer, y < x) ↔ x = max a b := by
      intro x
      unfold World.peers at hpeer hpeer'
      constructor
      · rintro ⟨⟨rfl, hx⟩ | ⟨rfl, hx⟩, hlt⟩
        · exact (max_eq_left (hlt b hx).le).symm
        · exact (max_eq_right (hlt a hx).le).symm
      · rintro rfl
        rcases lt_or_gt_of_ne hne with hlt | hlt
        · rw [max_eq_right hlt.le]
          refine ⟨.inr ⟨rfl, hpeer'⟩, fun y hy => ?_⟩
          obtain rfl : a = y := Option.some.inj (hpeer'.symm.trans hy)
          exact hlt
        · rw [max_eq_left hlt.le]
          refine ⟨.inl ⟨rfl, hpeer⟩, fun y hy => ?_⟩
          obtain rfl : b = y := Option.some.inj (hpeer.symm.trans hy)
          exact hlt
    simp only [howner]
    have hmem : max a b ∈ w.listed := by
      rcases max_choice a b with hmax | hmax <;> rw [hmax] <;> assumption
    rw [← List.count_eq_one_of_mem hnodup hmem, List.count]
    simp only [beq_eq_decide]
  · rw [List.countP_eq_zero]
    intro x _ hx
    obtain ⟨hends, hlt⟩ := of_decide_eq_true hx
    rcases hends with ⟨rfl, hpeer⟩ | ⟨rfl, hpeer⟩
    · exact h ⟨(hlt b hpeer).ne', hpeer⟩
    · exact h ⟨(hlt a hpeer).ne, hsymm.mp hpeer⟩

end

/-! ## The whole run -/

def peerSets (calls : List (Option IfPtr × Option IfPtr)) (w : World) : World :=
  calls.foldl (fun w call => peerSet call.1 call.2 w) w

theorem peerSets_symmetric (calls : List (Option IfPtr × Option IfPtr)) {w : World}
    (h : Matching.Symmetric w.peers) : Matching.Symmetric (peerSets calls w).peers := by
  induction calls generalizing w with
  | nil => exact h
  | cons call calls ih =>
    refine ih ?_
    rw [peerSet_peers h]
    exact h.rematch call.1 call.2

/-- The states of a run from the end of the scan: the search by net name space id, the
openvswitch handler, the veth handler, and whatever else leaves the lists and peers alone. -/
inductive Reached (env : Openvswitch.OvsEnv) : World → Prop where
  | scanned {w : World} (h : w.Scanned) (hnone : ∀ e, (w.ifs e).peer = none) : Reached env w
  | matchAllNetnsid {w : World} (h : Reached env w) : Reached env (matchAllNetnsid w)
  | linkIfaces {w : World} (h : Reached env w) {root : NsPtr} (hroot : root ∈ w.nsList)
      (brList : List Openvswitch.OvsBridge) (next : Openvswitch.OvsIfPtr)
      {r : Except Int Unit} {s : Openvswitch.OvsState}
      (hrun : Openvswitch.linkIfaces env root brList ⟨w, fun _ => none, next⟩ = some (r, s)) :
      Reached env s.world
  | vethPost {w : World} (h : Reached env w) {e : IfPtr} (he : e ∈ w.listed)
      {r : Except Int Unit} {w' : World} (hrun : Handlers.vethPost e w = some (r, w')) :
      Reached env w'
  | other {w w' : World} (h : Reached env w) (hf : w.Frame w')
      (hpeer : ∀ e, (w'.ifs e).peer = (w.ifs e).peer) : Reached env w'

theorem Reached.paired {env : Openvswitch.OvsEnv} {w : World} (h : Reached env w) :
    w.Scanned ∧ w.Paired := by
  induction h with
  | scanned h hnone => exact ⟨h, .of_no_peers hnone⟩
  | matchAllNetnsid _ ih =>
    obtain ⟨hf, hpaired⟩ := matchAllNetnsid_keeps peerInvariant_paired ih.1 ih.2
    exact ⟨ih.1.frame hf, hpaired⟩
  | @linkIfaces w _ root hroot brList next r s hrun ih =>
    have hinv : Openvswitch.LinkInv World.Paired root [] ⟨w, fun _ => none, next⟩ :=
      ⟨ih.1, ih.2, hroot, nofun, nofun⟩
    have hpost := Openvswitch.linkIfaces_triple peerInvariant_paired env brList _ hinv r s hrun
    cases r with
    | error err => exact ⟨hpost.scanned, hpost.peers⟩
    | ok u => exact ⟨hpost.scanned, hpost.peers⟩
  | @vethPost w _ e he r w' hrun ih =>
    have hpost := Handlers.vethPost_triple peerInvariant_paired he w ⟨.refl w, ih.2⟩ r w' hrun
    cases r with
    | error err => exact ⟨ih.1.frame hpost.1, hpost.2⟩
    | ok u => exact ⟨ih.1.frame hpost.1, hpost.2⟩
  | other _ hf hpeer ih => exact ⟨ih.1.frame hf, peerInvariant_paired.frame hf hpeer ih.2⟩

/-- Peers stay mutual through any calls of `peer_set`, and in every state reached each pair of
distinct peers is drawn as one undirected edge, and no other pair is. -/
theorem peers_matched_and_drawn_once (env : Openvswitch.OvsEnv) :
    (∀ (w : World) (calls : List (Option IfPtr × Option IfPtr)), (∀ e, (w.ifs e).peer = none) →
      ∀ a b, ((peerSets calls w).ifs a).peer = some b →
        ((peerSets calls w).ifs b).peer = some a) ∧
    (∀ (w : World), Reached env w → ∀ a b,
      undirectedEdges w a b = if a ≠ b ∧ (w.ifs a).peer = some b then 1 else 0) := by
  refine ⟨fun w calls hnone a b hab => ?_, fun w hw a b => ?_⟩
  · exact peerSets_symmetric calls (World.Paired.of_no_peers hnone).symmetric a b hab
  · exact undirectedEdges_eq hw.paired.2 hw.paired.1.nodup a b

def vethEnds : World where
  ifs
    | 1 => { ifIndex := 1, peerIndex := 2, driver := some (cstr "veth") }
    | 2 => { ifIndex := 2, peerIndex := 1, driver := some (cstr "veth") }
    | _ => {}
  nss := fun _ => { ifaces := [1, 2] }
  nsList := [0]
  free := []

theorem vethEnds_scanned : vethEnds.Scanned where
  nsNodup := by decide
  nodup := by decide
  home := by
    intro n hn e he
    obtain rfl : n = 0 := List.mem_singleton.mp hn
    rcases List.mem_pair.mp he with rfl | rfl <;> rfl
  ids := nofun
  addr := by
    intro e he
    rcases List.mem_pair.mp he with rfl | rfl <;> exact nofun
  fresh := nofun
  freeNodup := List.nodup_nil

theorem vethEnds_drawn : ((peerSets [(some 1, some 2)] vethEnds).ifs 2).peer = some 1 ∧
    undirectedEdges (peerSet (some 1) (some 2) vethEnds) 1 2 = 1 := by
  have hnone : ∀ e, (vethEnds.ifs e).peer = none := by
    intro e
    unfold vethEnds
    dsimp only
    split <;> rfl
  have hrun : Handlers.vethPost 1 vethEnds =
      some (.ok (), peerSet (some 1) (some 2) vethEnds) := rfl
  have hreached : Reached default (peerSet (some 1) (some 2) vethEnds) :=
    .vethPost (.scanned vethEnds_scanned hnone) (by decide) hrun
  obtain ⟨hmatched, hdrawn⟩ := peers_matched_and_drawn_once default
  refine ⟨hmatched vethEnds [(some 1, some 2)] hnone 1 2 (by decide), ?_⟩
  rw [hdrawn _ hreached 1 2]
  decide

end Plotnetcfg.Frontends
