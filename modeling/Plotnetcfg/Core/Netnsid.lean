import Plotnetcfg.Core.Resolve

/-! Links and peers by net name space id (`match_all_netnsid`), and what resolving makes of the
links that are left. -/

namespace Plotnetcfg

section
variable (ns : NsPtr) (e x : IfPtr) (w : World)

/-- The first half of the loop's body, which is about the link. -/
def matchNetnsidLink : World :=
  if 0 ≤ (w.ifs e).linkNetnsid then
    if (w.ifs e).linkIndex ≠ 0 then
      linkSet (matchIfNetnsid (w.ifs e).linkIndex (w.ifs e).linkNetnsid (w.nss ns) w) (some e) w
    else w.modifyIf e fun x => { x with linkNet := matchNetnsid x.linkNetnsid (w.nss ns) }
  else w

/-- The second half. -/
def matchNetnsidPeer : World :=
  if 0 ≤ (w.ifs e).peerNetnsid then
    peerSet (some e)
      (matchIfNetnsid (w.ifs e).peerIndex (w.ifs e).peerNetnsid (w.nss ns) w) w
  else w

theorem matchNetnsidEntry_eq :
    matchNetnsidEntry ns e w = matchNetnsidPeer ns e (matchNetnsidLink ns e w) := rfl

theorem matchNetnsidLink_ifs : ∃ l rev net, (matchNetnsidLink ns e w).ifs x =
    { w.ifs x with link := l, revLink := rev, linkNet := net } := by
  unfold matchNetnsidLink
  split_ifs
  · obtain ⟨l, rev, h⟩ := linkSet_ifs w x
      (matchIfNetnsid (w.ifs e).linkIndex (w.ifs e).linkNetnsid (w.nss ns) w) (some e)
    exact ⟨l, rev, _, h⟩
  · rw [World.modifyIf_ifs]
    split_ifs
    · exact ⟨_, _, _, rfl⟩
    · exact ⟨_, _, _, rfl⟩
  · exact ⟨_, _, _, rfl⟩

theorem matchNetnsidPeer_ifs :
    ∃ p, (matchNetnsidPeer ns e w).ifs x = { w.ifs x with peer := p } := by
  unfold matchNetnsidPeer
  split_ifs
  · exact peerSet_ifs w x _ _
  · exact ⟨_, rfl⟩

theorem matchNetnsidLink_lists : (matchNetnsidLink ns e w).nss = w.nss ∧
    (matchNetnsidLink ns e w).nsList = w.nsList ∧ (matchNetnsidLink ns e w).free = w.free := by
  unfold matchNetnsidLink
  split_ifs
  · exact linkSet_lists w _ _
  · exact ⟨rfl, rfl, rfl⟩
  · exact ⟨rfl, rfl, rfl⟩

theorem matchNetnsidPeer_lists : (matchNetnsidPeer ns e w).nss = w.nss ∧
    (matchNetnsidPeer ns e w).nsList = w.nsList ∧ (matchNetnsidPeer ns e w).free = w.free := by
  unfold matchNetnsidPeer
  split_ifs
  · exact peerSet_lists w _ _
  · exact ⟨rfl, rfl, rfl⟩

theorem matchIfNetnsid_congr {w w' : World} (hnss : w'.nss = w.nss)
    (hindex : ∀ x, (w'.ifs x).ifIndex = (w.ifs x).ifIndex) (ifindex : UInt32) (netnsid : Int)
    (ns : NsPtr) : matchIfNetnsid ifindex netnsid (w'.nss ns) w' =
      matchIfNetnsid ifindex netnsid (w.nss ns) w := by
  unfold matchIfNetnsid
  simp only [hnss, hindex]

end

/-! ## A whole run -/

namespace World

/-- The kernel reports the lower device of the interface to be in another name space. -/
def LinksAway (w : World) (e : IfPtr) : Prop :=
  0 ≤ (w.ifs e).linkNetnsid ∧ (w.ifs e).linkIndex ≠ 0

instance (w : World) (e : IfPtr) : Decidable (w.LinksAway e) :=
  inferInstanceAs (Decidable (_ ∧ _))

/-- What the ids of an interface's own name space say of its link, and of its peer. -/
def linkTarget (w : World) (e : IfPtr) : Option IfPtr :=
  matchIfNetnsid (w.ifs e).linkIndex (w.ifs e).linkNetnsid (w.nss (w.ifs e).ns) w

def peerTarget (w : World) (e : IfPtr) : Option IfPtr :=
  matchIfNetnsid (w.ifs e).peerIndex (w.ifs e).peerNetnsid (w.nss (w.ifs e).ns) w

def matchPeers (w : World) (p : IfPtr → Option IfPtr) (e : IfPtr) : IfPtr → Option IfPtr :=
  if 0 ≤ (w.ifs e).peerNetnsid then Matching.rematch p (some e) (w.peerTarget e) else p

structure MatchedUpTo (w₀ : World) (done : List IfPtr) (w : World) : Prop where
  lists : w.nss = w₀.nss ∧ w.nsList = w₀.nsList ∧ w.free = w₀.free
  ifs : ∀ x, ∃ l rev net p, w.ifs x =
    { w₀.ifs x with link := l, revLink := rev, linkNet := net, peer := p }
  link : ∀ x, (w.ifs x).link =
    if x ∈ done ∧ w₀.LinksAway x then w₀.linkTarget x else (w₀.ifs x).link
  peers : Matching.Symmetric w₀.peers → w.peers = done.foldl w₀.matchPeers w₀.peers

theorem matchedUpTo_nil (w : World) : w.MatchedUpTo [] w :=
  ⟨⟨rfl, rfl, rfl⟩, fun _ => ⟨_, _, _, _, rfl⟩, fun _ => by simp, fun _ => rfl⟩

theorem symmetric_foldl_matchPeers (w : World) {p : IfPtr → Option IfPtr}
    (hp : Matching.Symmetric p) (l : List IfPtr) :
    Matching.Symmetric (l.foldl w.matchPeers p) := by
  induction l generalizing p with
  | nil => exact hp
  | cons e l ih =>
    refine ih ?_
    unfold matchPeers
    split_ifs
    · exact hp.rematch _ _
    · exact hp

section
variable {w₀ w : World} {done : List IfPtr} {e : IfPtr}

theorem MatchedUpTo.ifIndex (h : w₀.MatchedUpTo done w) (x : IfPtr) :
    (w.ifs x).ifIndex = (w₀.ifs x).ifIndex := by
  obtain ⟨l, rev, net, p, hx⟩ := h.ifs x
  rw [hx]

theorem MatchedUpTo.linkStep (h : w₀.MatchedUpTo done w) (x : IfPtr) :
    ((matchNetnsidLink (w₀.ifs e).ns e w).ifs x).link =
      if x = e ∧ w₀.LinksAway e then w₀.linkTarget e else (w.ifs x).link := by
  obtain ⟨l, rev, net, p, he⟩ := h.ifs e
  unfold matchNetnsidLink LinksAway linkTarget
  rw [he, matchIfNetnsid_congr h.lists.1 h.ifIndex]
  dsimp only
  by_cases hid : 0 ≤ (w₀.ifs e).linkNetnsid
  · rw [if_pos hid]
    by_cases hindex : (w₀.ifs e).linkIndex ≠ 0
    · rw [if_pos hindex, linkSet_link]
      simp only [hid, hindex, ne_eq, not_false_eq_true, and_self, and_true]
    · rw [if_neg hindex, if_neg fun hx => hindex hx.2.2, modifyIf_ifs]
      split_ifs <;> rfl
  · rw [if_neg hid, if_neg fun hx => hid hx.2.1]

theorem MatchedUpTo.entry (h : w₀.MatchedUpTo done w) (hnew : e ∉ done) :
    w₀.MatchedUpTo (done ++ [e]) (matchNetnsidEntry (w₀.ifs e).ns e w) := by
  rw [matchNetnsidEntry_eq]
  have hlink := matchNetnsidLink_lists (w₀.ifs e).ns e w
  have hpeer := matchNetnsidPeer_lists (w₀.ifs e).ns e (matchNetnsidLink (w₀.ifs e).ns e w)
  have hifs : ∀ x, ∃ l rev net p, (matchNetnsidLink (w₀.ifs e).ns e w).ifs x =
      { w₀.ifs x with link := l, revLink := rev, linkNet := net, peer := p } := by
    intro x
    obtain ⟨l, rev, net, p, hx⟩ := h.ifs x
    obtain ⟨l', rev', net', hx'⟩ := matchNetnsidLink_ifs (w₀.ifs e).ns e x w
    exact ⟨l', rev', net', p, by rw [hx', hx]⟩
  refine ⟨⟨?_, ?_, ?_⟩, fun x => ?_, fun x => ?_, fun hsym => ?_⟩
  · rw [hpeer.1, hlink.1, h.lists.1]
  · rw [hpeer.2.1, hlink.2.1, h.lists.2.1]
  · rw [hpeer.2.2, hlink.2.2, h.lists.2.2]
  · obtain ⟨l, rev, net, p, hx⟩ := hifs x
    obtain ⟨q, hq⟩ := matchNetnsidPeer_ifs (w₀.ifs e).ns e x (matchNetnsidLink (w₀.ifs e).ns e w)
    exact ⟨l, rev, net, q, by rw [hq, hx]⟩
  · obtain ⟨q, hq⟩ := matchNetnsidPeer_ifs (w₀.ifs e).ns e x (matchNetnsidLink (w₀.ifs e).ns e w)
    rw [hq]
    dsimp only
    rw [h.linkStep, h.link]
    by_cases hx : x = e
    · subst hx
      simp [hnew]
    · simp [hx]
  · have hpeers : (matchNetnsidLink (w₀.ifs e).ns e w).peers = w.peers := by
      funext x
      obtain ⟨l, rev, net, hx⟩ := matchNetnsidLink_ifs (w₀.ifs e).ns e x w
      rw [World.peers, World.peers, hx]
    have hw := h.peers hsym
    have hsym' : Matching.Symmetric (matchNetnsidLink (w₀.ifs e).ns e w).peers := by
      rw [hpeers, hw]
      exact symmetric_foldl_matchPeers w₀ hsym done
    have hindex : ∀ x, ((matchNetnsidLink (w₀.ifs e).ns e w).ifs x).ifIndex =
        (w₀.ifs x).ifIndex := by
      intro x
      obtain ⟨l, rev, net, p, hx⟩ := hifs x
      rw [hx]
    obtain ⟨l, rev, net, p, he⟩ := hifs e
    rw [List.foldl_append, List.foldl_cons, List.foldl_nil, ← hw, ← hpeers]
    unfold matchNetnsidPeer matchPeers peerTarget
    rw [he, matchIfNetnsid_congr (hlink.1.trans h.lists.1) hindex]
    dsimp only
    by_cases hid : 0 ≤ (w₀.ifs e).peerNetnsid
    · rw [if_pos hid, if_pos hid, peerSet_peers hsym']
    · rw [if_neg hid, if_neg hid]

def matchTurns (w : World) (l : List IfPtr) : World :=
  l.foldl (fun w e => matchNetnsidEntry (w.ifs e).ns e w) w

theorem matchTurns_concat (w : World) (l : List IfPtr) (e : IfPtr) :
    w.matchTurns (l ++ [e]) =
      matchNetnsidEntry ((w.matchTurns l).ifs e).ns e (w.matchTurns l) := by
  unfold matchTurns
  rw [List.foldl_append, List.foldl_cons, List.foldl_nil]

theorem matchTurns_upTo (w₀ : World) {l : List IfPtr} (hl : l.Nodup) :
    w₀.MatchedUpTo l (w₀.matchTurns l) := by
  induction l using List.reverseRecOn with
  | nil => exact w₀.matchedUpTo_nil
  | append_singleton l e ih =>
    obtain ⟨hl, -, hne⟩ := List.nodup_append.mp hl
    have hnew : e ∉ l := fun he => hne e he e (List.mem_singleton_self e) rfl
    have hdone := ih hl
    obtain ⟨_, _, _, _, he⟩ := hdone.ifs e
    have hns : ((w₀.matchTurns l).ifs e).ns = (w₀.ifs e).ns := by rw [he]
    rw [matchTurns_concat, hns]
    exact hdone.entry hnew

theorem matchNetnsidEntry_home (n : NsPtr) (e : IfPtr) (w : World) :
    (matchNetnsidEntry n e w).nss = w.nss ∧
      ∀ x, ((matchNetnsidEntry n e w).ifs x).ns = (w.ifs x).ns := by
  rw [matchNetnsidEntry_eq]
  constructor
  · rw [(matchNetnsidPeer_lists n e _).1, (matchNetnsidLink_lists n e w).1]
  · intro x
    obtain ⟨p, hp⟩ := matchNetnsidPeer_ifs n e x (matchNetnsidLink n e w)
    obtain ⟨l, rev, net, hl⟩ := matchNetnsidLink_ifs n e x w
    rw [hp, hl]

theorem matchAllNetnsid_eq (hw : w₀.Homed) : matchAllNetnsid w₀ = w₀.matchTurns w₀.listed := by
  have hinner : ∀ (n : NsPtr) (l : List IfPtr) (w : World), (∀ e ∈ l, (w.ifs e).ns = n) →
      l.foldl (fun w entry => matchNetnsidEntry n entry w) w = w.matchTurns l := by
    intro n l
    induction l with
    | nil =>
      intro w _
      rfl
    | cons e l ih =>
      intro w hl
      have he := hl e List.mem_cons_self
      rw [List.foldl_cons, ih _ fun x hx => ?_, matchTurns, matchTurns, List.foldl_cons, he]
      rw [(matchNetnsidEntry_home n e w).2]
      exact hl x (List.mem_cons_of_mem e hx)
  have hturns : ∀ (l : List IfPtr) (w : World), (w.matchTurns l).nss = w.nss ∧
      ∀ x, ((w.matchTurns l).ifs x).ns = (w.ifs x).ns := by
    intro l
    induction l with
    | nil => exact fun w => ⟨rfl, fun _ => rfl⟩
    | cons e l ih =>
      intro w
      obtain ⟨hnss, hns⟩ := matchNetnsidEntry_home (w.ifs e).ns e w
      obtain ⟨hnss', hns'⟩ := ih (matchNetnsidEntry (w.ifs e).ns e w)
      exact ⟨hnss'.trans hnss, fun x => (hns' x).trans (hns x)⟩
  have houter : ∀ (l : List NsPtr) (w : World), (∀ n ∈ l, n ∈ w₀.nsList) → w.nss = w₀.nss →
      (∀ x, (w.ifs x).ns = (w₀.ifs x).ns) →
      l.foldl (fun w ns =>
        (w.nss ns).ifaces.foldl (fun w entry => matchNetnsidEntry ns entry w) w) w =
      w.matchTurns (l.flatMap fun n => (w₀.nss n).ifaces) := by
    intro l
    induction l with
    | nil =>
      intro w _ _ _
      rfl
    | cons n l ih =>
      intro w hl hnss hns
      have hn := hl n List.mem_cons_self
      have hhome : ∀ e ∈ (w₀.nss n).ifaces, (w.ifs e).ns = n := by
        intro e he
        rw [hns, hw.home n hn e he]
      obtain ⟨hnss', hns'⟩ := hturns (w₀.nss n).ifaces w
      rw [List.foldl_cons, hnss, hinner n _ w hhome,
        ih _ (fun m hm => hl m (List.mem_cons_of_mem n hm)) (hnss'.trans hnss)
          fun x => (hns' x).trans (hns x), List.flatMap_cons]
      exact List.foldl_append.symm
  exact houter w₀.nsList w₀ (fun _ => id) rfl fun _ => rfl

theorem matchAllNetnsid_upTo (hw : w₀.Homed) :
    w₀.MatchedUpTo w₀.listed (matchAllNetnsid w₀) := by
  rw [matchAllNetnsid_eq hw]
  exact w₀.matchTurns_upTo hw.nodup

theorem MatchedUpTo.homed (h : w₀.MatchedUpTo done w) (hw : w₀.Homed) : w.Homed := by
  have hlisted : w.listed = w₀.listed := by rw [listed, listed, h.lists.1, h.lists.2.1]
  refine ⟨h.lists.2.1 ▸ hw.nsNodup, hlisted ▸ hw.nodup, fun n hn e he => ?_⟩
  obtain ⟨l, rev, net, p, hx⟩ := h.ifs e
  rw [hx]
  rw [h.lists.2.1] at hn
  rw [h.lists.1] at he
  exact hw.home n hn e he

end

/-! ## Links to a name space alone -/

/-- The name space that an interface is linked to when the index of its lower device is not
known. -/
def netTarget (w : World) (e : IfPtr) : Option NsPtr :=
  if 0 ≤ (w.ifs e).linkNetnsid ∧ (w.ifs e).linkIndex = 0 then
    matchNetnsid (w.ifs e).linkNetnsid (w.nss (w.ifs e).ns)
  else none

theorem MatchedUpTo.linkNet_entry {w₀ w : World} {done : List IfPtr} (h : w₀.MatchedUpTo done w)
    (e x : IfPtr) (hnone : x = e → (w.ifs x).linkNet = none) :
    ((matchNetnsidEntry (w₀.ifs e).ns e w).ifs x).linkNet =
      if x = e then w₀.netTarget e else (w.ifs x).linkNet := by
  rw [matchNetnsidEntry_eq]
  obtain ⟨p, hp⟩ := matchNetnsidPeer_ifs (w₀.ifs e).ns e x (matchNetnsidLink (w₀.ifs e).ns e w)
  obtain ⟨_, _, _, _, he⟩ := h.ifs e
  have hnetnsid : (w.ifs e).linkNetnsid = (w₀.ifs e).linkNetnsid := by rw [he]
  have hindex : (w.ifs e).linkIndex = (w₀.ifs e).linkIndex := by rw [he]
  rw [hp]
  unfold matchNetnsidLink
  rw [hnetnsid, hindex]
  dsimp only
  by_cases hid : 0 ≤ (w₀.ifs e).linkNetnsid
  · rw [if_pos hid]
    by_cases hzero : (w₀.ifs e).linkIndex = 0
    · have htarget : w₀.netTarget e =
          matchNetnsid (w₀.ifs e).linkNetnsid (w₀.nss (w₀.ifs e).ns) := if_pos ⟨hid, hzero⟩
      rw [if_neg (not_not.mpr hzero), modifyIf_ifs, htarget]
      split_ifs with hx
      · rw [hx, ← hnetnsid, h.lists.1]
      · rfl
    · obtain ⟨l, rev, hl⟩ := linkSet_ifs w x
        (matchIfNetnsid (w₀.ifs e).linkIndex (w₀.ifs e).linkNetnsid (w.nss (w₀.ifs e).ns) w) (some e)
      have htarget : w₀.netTarget e = none := if_neg fun hand => hzero hand.2
      rw [if_pos hzero, hl, htarget]
      split_ifs with hx
      · exact hnone hx
      · rfl
  · have htarget : w₀.netTarget e = none := if_neg fun hand => hid hand.1
    rw [if_neg hid, htarget]
    split_ifs with hx
    · exact hnone hx
    · rfl

theorem matchTurns_linkNet (w₀ : World) {l : List IfPtr} (hl : l.Nodup)
    (hnone : ∀ x, (w₀.ifs x).linkNet = none) (x : IfPtr) :
    ((w₀.matchTurns l).ifs x).linkNet = if x ∈ l then w₀.netTarget x else none := by
  induction l using List.reverseRecOn with
  | nil =>
    rw [if_neg List.not_mem_nil]
    exact hnone x
  | append_singleton l e ih =>
    obtain ⟨hl', -, hne⟩ := List.nodup_append.mp hl
    have hnew : e ∉ l := fun he => hne e he e (List.mem_singleton_self e) rfl
    have hdone := w₀.matchTurns_upTo hl'
    obtain ⟨_, _, _, _, he⟩ := hdone.ifs e
    have hns : ((w₀.matchTurns l).ifs e).ns = (w₀.ifs e).ns := by rw [he]
    have hunset : x = e → ((w₀.matchTurns l).ifs x).linkNet = none := by
      intro hx
      rw [ih hl', hx, if_neg hnew]
    rw [matchTurns_concat, hns, hdone.linkNet_entry e x hunset]
    by_cases hx : x = e
    · subst hx
      simp
    · rw [if_neg hx, ih hl']
      simp [hx]

theorem matchAllNetnsid_linkNet {w₀ : World} (hw : w₀.Homed)
    (hnone : ∀ x, (w₀.ifs x).linkNet = none) (x : IfPtr) :
    ((matchAllNetnsid w₀).ifs x).linkNet = if x ∈ w₀.listed then w₀.netTarget x else none := by
  rw [matchAllNetnsid_eq hw]
  exact w₀.matchTurns_linkNet hw.nodup hnone x

/-! ## Links to other name spaces -/

def NetnsidReaches (w : World) (e : IfPtr) : Prop :=
  ∃ i, (w.nss (w.ifs e).ns).ids.find? (fun i => i.id = (w.ifs e).linkNetnsid) = some i ∧
    ∃ x ∈ (w.nss i.ns).ifaces, (w.ifs x).ifIndex = (w.ifs e).linkIndex

/-- Another interface of the name space of `e` has the index of its link. -/
def IndexAtHome (w : World) (e : IfPtr) : Prop :=
  ∃ x ∈ (w.nss (w.ifs e).ns).ifaces, x ≠ e ∧ (w.ifs x).ifIndex = (w.ifs e).linkIndex

def LinkedAbroad (w : World) (e : IfPtr) : Prop :=
  ∀ l, (w.ifs e).link = some l → l ∈ w.listed ∧ (w.ifs l).ns ≠ (w.ifs e).ns

section
variable {w : World} {e : IfPtr}

theorem matchIfNetnsid_eq_some {ifindex : UInt32} {netnsid : Int} {ns : NetnsEntry} {x : IfPtr}
    (h : matchIfNetnsid ifindex netnsid ns w = some x) : ∃ i,
      ns.ids.find? (fun i => i.id = netnsid) = some i ∧ x ∈ (w.nss i.ns).ifaces ∧
        (w.ifs x).ifIndex = ifindex := by
  unfold matchIfNetnsid matchNetnsid at h
  cases hfind : ns.ids.find? fun i => i.id = netnsid with
  | none =>
    rw [hfind] at h
    cases h
  | some i =>
    rw [hfind] at h
    exact ⟨i, rfl, List.mem_of_find?_eq_some h, by simpa using List.find?_some h⟩

theorem linkTarget_eq_some {x : IfPtr} (h : w.linkTarget e = some x) : ∃ i,
    (w.nss (w.ifs e).ns).ids.find? (fun i => i.id = (w.ifs e).linkNetnsid) = some i ∧
      x ∈ (w.nss i.ns).ifaces ∧ (w.ifs x).ifIndex = (w.ifs e).linkIndex :=
  matchIfNetnsid_eq_some h

theorem linkTarget_isSome : (w.linkTarget e).isSome ↔ w.NetnsidReaches e := by
  constructor
  · intro h
    obtain ⟨x, hx⟩ := Option.isSome_iff_exists.mp h
    obtain ⟨i, hi, hmem, hindex⟩ := linkTarget_eq_some hx
    exact ⟨i, hi, x, hmem, hindex⟩
  · rintro ⟨i, hi, x, hx, hindex⟩
    unfold linkTarget matchIfNetnsid matchNetnsid
    rw [hi, Option.map_some, List.find?_isSome]
    exact ⟨x, hx, by simpa using hindex⟩

/-- Without an id that leads somewhere, the link is the best candidate, which is at home if there
is one at home. -/
theorem winner_abroad_iff (hw : w.Homed) (he : e ∈ w.listed) :
    (∀ l, (w.indexTally .link e).winner = some l → l ∈ w.listed ∧ (w.ifs l).ns ≠ (w.ifs e).ns) ↔
      ¬ w.IndexAtHome e := by
  have hweight : ∀ x, w.indexWeight .link e x = 2 ↔
      (w.ifs x).ifIndex = (w.ifs e).linkIndex ∧ (w.ifs x).ns = (w.ifs e).ns := by
    intro x
    unfold indexWeight IfEntry.index
    split_ifs with h1 h2
    · exact iff_of_false (by decide) fun h => h1 h.1
    · exact iff_of_true rfl ⟨not_not.mp h1, h2⟩
    · exact iff_of_false (by decide) fun h => h2 h.2
  have hle : ∀ x, w.indexWeight .link e x ≤ 2 := by
    intro x
    unfold indexWeight
    split_ifs <;> decide
  constructor
  · rintro habroad ⟨x, hx, hne, hindex⟩
    have hhome := hw.home _ (hw.mem_ifaces he).1 x hx
    have hxl : x ∈ w.listed.filter fun x => some e ≠ some x := by
      have hlisted : x ∈ w.listed := mem_listed.mpr ⟨_, (hw.mem_ifaces he).1, hx⟩
      simp [hlisted, hne.symm]
    have hx2 : w.indexWeight .link e x = 2 := (hweight x).mpr ⟨hindex, hhome⟩
    cases hwin : (w.indexTally .link e).winner with
    | none =>
      have hzero := Tally.winner_none.mp hwin x hxl
      rw [hx2] at hzero
      exact absurd hzero (by decide)
    | some l =>
      obtain ⟨-, -, hbest⟩ := Tally.winner_some hwin
      have hl2 : w.indexWeight .link e l = 2 := le_antisymm (hle l) (hx2 ▸ hbest x hxl)
      exact (habroad l hwin).2 ((hweight l).mp hl2).2
  · intro hno l hwin
    obtain ⟨hl, hpos, -⟩ := Tally.winner_some hwin
    obtain ⟨hlisted, hne⟩ := List.mem_filter.mp hl
    refine ⟨hlisted, fun hns => hno ⟨l, ?_, ?_, indexWeight_pos.mp hpos⟩⟩
    · have hmem := (hw.mem_ifaces hlisted).2
      rwa [hns] at hmem
    · rintro rfl
      simp at hne

end

end World

/-- A link that the kernel reports to be in another name space stays out of its own exactly when
its id and index lead to an interface, or no other interface at home has the index. -/
theorem linkedAbroad_iff {w w' : World} (hw : w.Homed)
    (hids : ∀ n ∈ w.nsList, ∀ i ∈ (w.nss n).ids, i.ns ∈ w.nsList)
    (hrun : masterResolve (matchAllNetnsid w) = some (.ok (), w')) {e : IfPtr}
    (he : e ∈ w.listed) (hid : 0 ≤ (w.ifs e).linkNetnsid) (hindex : (w.ifs e).linkIndex ≠ 0)
    (hself : ∀ i ∈ (w.nss (w.ifs e).ns).ids, i.ns ≠ (w.ifs e).ns) :
    w'.LinkedAbroad e ↔ w.NetnsidReaches e ∨ ¬ w.IndexAtHome e := by
  have hmatched := World.matchAllNetnsid_upTo hw
  have hhomed := hmatched.homed hw
  have hresolved : (matchAllNetnsid w).ResolvedUpTo (matchAllNetnsid w).listed w' :=
    masterResolve_triple hhomed _ rfl _ _ hrun
  have hlisted : (matchAllNetnsid w).listed = w.listed := by
    rw [World.listed, World.listed, hmatched.lists.1, hmatched.lists.2.1]
  have hkept : ∀ x, (w'.ifs x).ns = (w.ifs x).ns := by
    intro x
    obtain ⟨l, rev, net, p, hx⟩ := hmatched.ifs x
    rw [(hresolved.indexed.frame.kept x).ns, hx]
  have hlink₁ : ((matchAllNetnsid w).ifs e).link = w.linkTarget e := by
    rw [hmatched.link, if_pos ⟨he, hid, hindex⟩]
  have hindex₁ : ((matchAllNetnsid w).ifs e).linkIndex ≠ 0 := by
    obtain ⟨l, rev, net, p, hx⟩ := hmatched.ifs e
    rwa [hx]
  have hlink : (w'.ifs e).link = (matchAllNetnsid w).resolved .link e := by
    have h := hresolved.upper .link e
    rwa [if_pos (hlisted ▸ he)] at h
  unfold World.LinkedAbroad
  rw [hlink, hresolved.indexed.frame.listed, hlisted]
  simp only [hkept]
  cases htarget : w.linkTarget e with
  | some x =>
    have hreach : w.NetnsidReaches e := World.linkTarget_isSome.mp (by rw [htarget]; rfl)
    refine iff_of_true (fun l hl => ?_) (.inl hreach)
    have hwants : ¬ (matchAllNetnsid w).Wants .link e := by
      rintro ⟨hnone, -⟩
      rw [IfEntry.upper, hlink₁, htarget] at hnone
      cases hnone
    rw [World.resolved, if_neg hwants, IfEntry.upper, hlink₁, htarget] at hl
    obtain rfl := Option.some.inj hl
    obtain ⟨i, hi, hmem, -⟩ := World.linkTarget_eq_some htarget
    have hi' := List.mem_of_find?_eq_some hi
    have hn := hids _ (hw.mem_ifaces he).1 i hi'
    refine ⟨World.mem_listed.mpr ⟨i.ns, hn, hmem⟩, ?_⟩
    rw [hw.home _ hn x hmem]
    exact hself i hi'
  | none =>
    have hreach : ¬ w.NetnsidReaches e := by
      rw [← World.linkTarget_isSome, htarget]
      decide
    have hwants : (matchAllNetnsid w).Wants .link e := by
      refine ⟨?_, hindex₁⟩
      rw [IfEntry.upper, hlink₁, htarget]
      rfl
    have hhome : (matchAllNetnsid w).IndexAtHome e ↔ w.IndexAtHome e := by
      have hifs : ∀ x, ((matchAllNetnsid w).ifs x).ns = (w.ifs x).ns ∧
          ((matchAllNetnsid w).ifs x).ifIndex = (w.ifs x).ifIndex ∧
          ((matchAllNetnsid w).ifs x).linkIndex = (w.ifs x).linkIndex := by
        intro x
        obtain ⟨l, rev, net, p, hx⟩ := hmatched.ifs x
        rw [hx]
        exact ⟨rfl, rfl, rfl⟩
      simp only [World.IndexAtHome, hmatched.lists.1, hifs]
    have hiff := World.winner_abroad_iff hhomed (hlisted ▸ he)
    rw [hlisted, hhome] at hiff
    have hns : ∀ x, ((matchAllNetnsid w).ifs x).ns = (w.ifs x).ns := fun x =>
      (hresolved.indexed.frame.kept x).ns.symm.trans (hkept x)
    simp only [hns] at hiff
    rw [World.resolved, if_pos hwants, hiff]
    exact ⟨.inr, fun h => h.resolve_left hreach⟩

/-- A VLAN interface whose lower device has the index 2 in the name space with the id 0. Its own
name space has another interface with this index, and knows the ids `ids`. -/
def vlanAbroad (ids : List NetnsId) : World where
  ifs x := if x = 0 then { ifIndex := 1, linkIndex := 2, linkNetnsid := 0 }
    else if x = 1 then { ifIndex := 2 } else { ns := 1, ifIndex := 2 }
  nss n := if n = 0 then { ifaces := [0, 1], ids := ids } else { ifaces := [2] }
  nsList := [0, 1]
  free := []

theorem linkedAbroad_known_id : ∃ w',
    masterResolve (matchAllNetnsid (vlanAbroad [⟨1, 0⟩])) = some (.ok (), w') ∧
      w'.LinkedAbroad 0 := by
  obtain ⟨w', hrun⟩ : ∃ w',
      masterResolve (matchAllNetnsid (vlanAbroad [⟨1, 0⟩])) = some (.ok (), w') := ⟨_, rfl⟩
  refine ⟨w', hrun, (linkedAbroad_iff ⟨by decide, by decide, by decide⟩ (by decide) hrun
    (by decide) (by decide) (by decide) (by decide)).mpr (.inl ?_)⟩
  exact ⟨⟨1, 0⟩, by decide, 2, by decide, by decide⟩

theorem linkedAbroad_missing_id : ¬ ∀ (w w' : World) (e : IfPtr), w.Homed →
    (∀ n ∈ w.nsList, ∀ i ∈ (w.nss n).ids, i.ns ∈ w.nsList) →
    masterResolve (matchAllNetnsid w) = some (.ok (), w') → e ∈ w.listed →
    0 ≤ (w.ifs e).linkNetnsid → (w.ifs e).linkIndex ≠ 0 →
    (∀ i ∈ (w.nss (w.ifs e).ns).ids, i.ns ≠ (w.ifs e).ns) → w'.LinkedAbroad e := by
  intro h
  have habroad := h (vlanAbroad []) _ 0 ⟨by decide, by decide, by decide⟩ (by decide) rfl
    (by decide) (by decide) (by decide) (by decide) 1 (by decide)
  exact habroad.2 (by decide)

end Plotnetcfg
