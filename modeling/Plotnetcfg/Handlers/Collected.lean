import Plotnetcfg.Handlers.FillSteps

/-! What the scan leaves, and what `match_all_netnsid` makes of it before the other steps. -/

namespace Plotnetcfg.Handlers

/-- A scanned topology in which nothing is resolved yet. -/
structure Collected (w : World) : Prop where
  scanned : w.Scanned
  master : ∀ e, (w.ifs e).master = none
  link : ∀ e, (w.ifs e).link = none
  peer : ∀ e, (w.ifs e).peer = none
  physfn : ∀ e, (w.ifs e).physfn = none
  linkNet : ∀ e, (w.ifs e).linkNet = none
  revMaster : ∀ e, (w.ifs e).revMaster = []
  revLink : ∀ e, (w.ifs e).revLink = []
  external : ∀ e ∈ w.listed, (w.ifs e).flags.internal = false

section
variable {w : World}

theorem Collected.of_entries (hscanned : w.Scanned) {entries : List IfEntry}
    (hentries : ∀ e, w.ifs e ∈ entries)
    (hnew : ∀ x ∈ entries, (x.master = none ∧ x.link = none ∧ x.peer = none ∧ x.physfn = none) ∧
      (x.linkNet = none ∧ x.revMaster = [] ∧ x.revLink = []) ∧ x.flags.internal = false) :
    Collected w where
  scanned := hscanned
  master e := (hnew _ (hentries e)).1.1
  link e := (hnew _ (hentries e)).1.2.1
  peer e := (hnew _ (hentries e)).1.2.2.1
  physfn e := (hnew _ (hentries e)).1.2.2.2
  linkNet e := (hnew _ (hentries e)).2.1.1
  revMaster e := (hnew _ (hentries e)).2.1.2.1
  revLink e := (hnew _ (hentries e)).2.1.2.2
  external e _ := (hnew _ (hentries e)).2.2

theorem Collected.homed (h : Collected w) : w.Homed :=
  ⟨h.scanned.nsNodup, h.scanned.nodup, h.scanned.home⟩

theorem Collected.matched (h : Collected w) : w.MatchedUpTo w.listed (matchAllNetnsid w) :=
  World.matchAllNetnsid_upTo h.homed

theorem Collected.frame (h : Collected w) : w.Frame (matchAllNetnsid w) :=
  (matchAllNetnsid_keeps peerInvariant_true h.scanned trivial).1

theorem Collected.mem_listed (h : Collected w) {e : IfPtr} :
    e ∈ (matchAllNetnsid w).listed ↔ e ∈ w.listed := by
  rw [h.frame.listed]

theorem Collected.linkNet_eq (h : Collected w) {e : IfPtr} (he : e ∈ w.listed) :
    ((matchAllNetnsid w).ifs e).linkNet = w.netTarget e := by
  rw [World.matchAllNetnsid_linkNet h.homed h.linkNet, if_pos he]

theorem Collected.link_eq (h : Collected w) {e : IfPtr} (he : e ∈ w.listed) :
    ((matchAllNetnsid w).ifs e).link = if w.LinksAway e then w.linkTarget e else none := by
  rw [h.matched.link, h.link]
  simp only [he, true_and]

theorem Collected.master_eq (h : Collected w) (e : IfPtr) :
    ((matchAllNetnsid w).ifs e).master = none := by
  obtain ⟨_, _, _, _, he⟩ := h.matched.ifs e
  rw [he]
  exact h.master e

theorem Collected.linkIndex_eq (h : Collected w) (e : IfPtr) :
    ((matchAllNetnsid w).ifs e).linkIndex = (w.ifs e).linkIndex := by
  obtain ⟨_, _, _, _, he⟩ := h.matched.ifs e
  rw [he]

theorem netTarget_mem (h : Collected w) {e : IfPtr} (he : e ∈ w.listed) {ns : NsPtr}
    (hns : w.netTarget e = some ns) : ns ∈ w.nsList := by
  unfold World.netTarget at hns
  split_ifs at hns
  obtain ⟨i, hi, rfl⟩ := Option.map_eq_some_iff.mp hns
  exact h.scanned.ids _ (h.scanned.ns_mem he) i (List.mem_of_find?_eq_some hi)

theorem Collected.fits (h : Collected w) {input : PostInput} (hroot : input.root ∈ w.nsList) :
    input.Fits (matchAllNetnsid w) where
  scanned := h.scanned.frame h.frame
  root := by
    rw [h.frame.nsList]
    exact hroot
  linkNet e he n hn := by
    have hew := h.mem_listed.mp he
    rw [h.linkNet_eq hew] at hn
    rw [h.frame.nsList]
    exact netTarget_mem h hew hn

theorem addrHolder_matched (h : Collected w) (ns : NsPtr) (data : Addr) :
    (matchAllNetnsid w).addrHolder ns data = w.addrHolder ns data := by
  have hweight : (matchAllNetnsid w).addrWeight data = w.addrWeight data := by
    funext e
    obtain ⟨_, _, _, _, he⟩ := h.matched.ifs e
    unfold World.addrWeight holdsAddr
    rw [he]
  unfold World.addrHolder
  rw [hweight, h.matched.lists.1]

/-- After `match_all_netnsid` a peer is one that an id leads to, at either end. -/
theorem peer_matched (h : Collected w) {x y : IfPtr}
    (hpeer : ((matchAllNetnsid w).ifs x).peer = some y) :
    x ∈ w.listed ∧ 0 ≤ (w.ifs x).peerNetnsid ∧ w.peerTarget x = some y ∨
      y ∈ w.listed ∧ 0 ≤ (w.ifs y).peerNetnsid ∧ w.peerTarget y = some x := by
  have hsym : Matching.Symmetric w.peers := (World.Paired.of_no_peers h.peer).symmetric
  have hpeers := h.matched.peers hsym
  have hfold : ∀ l : List IfPtr, (∀ a ∈ l, a ∈ w.listed) →
      ∀ a b, l.foldl w.matchPeers w.peers a = some b →
        a ∈ w.listed ∧ 0 ≤ (w.ifs a).peerNetnsid ∧ w.peerTarget a = some b ∨
          b ∈ w.listed ∧ 0 ≤ (w.ifs b).peerNetnsid ∧ w.peerTarget b = some a := by
    intro l
    induction l using List.reverseRecOn with
    | nil =>
      intro _ a b hab
      rw [List.foldl_nil, World.peers, h.peer] at hab
      cases hab
    | append_singleton l e ih =>
      intro hl a b hab
      have he := hl e (List.mem_append_right l List.mem_cons_self)
      have hrest := ih fun z hz => hl z (List.mem_append_left [e] hz)
      rw [List.foldl_append, List.foldl_cons, List.foldl_nil, World.matchPeers] at hab
      split_ifs at hab with hid
      · rcases Matching.rematch_cases hab with hold | ⟨rfl, htarget⟩ | ⟨htarget, rfl⟩
        · exact hrest a b hold
        · exact .inl ⟨he, hid, htarget⟩
        · exact .inr ⟨he, hid, htarget⟩
      · exact hrest a b hab
  apply hfold w.listed fun _ => id
  rw [← hpeers]
  exact hpeer

end

end Plotnetcfg.Handlers
