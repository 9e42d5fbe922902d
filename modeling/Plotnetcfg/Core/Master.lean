import Plotnetcfg.Core.RevLists
import Plotnetcfg.Core.Topology
import Plotnetcfg.Lib.Matching

/-! `master_set`, `link_set` and `peer_set` (`master.c`) on whole interfaces. The reverse lists
are sequences here; `RevLists` has them down to their cells. -/

namespace Plotnetcfg

def masterSet (master : Option IfPtr) (masterOf : IfPtr) (w : World) : World :=
  let w := match (w.ifs masterOf).master with
    | some old => w.modifyIf old fun x => { x with revMaster := x.revMaster.erase masterOf }
    | none => w
  let w := w.modifyIf masterOf fun x => { x with master := master }
  match master with
  | some m => w.modifyIf m fun x => { x with revMaster := x.revMaster ++ [masterOf] }
  | none => w

def linkSet (link entry : Option IfPtr) (w : World) : World :=
  match entry with
  | none => w
  | some e =>
    let w := match (w.ifs e).link with
      | some old => w.modifyIf old fun x => { x with revLink := x.revLink.erase e }
      | none => w
    let w := w.modifyIf e fun x => { x with link := link }
    match link with
    | some l => w.modifyIf l fun x => { x with revLink := x.revLink ++ [e] }
    | none => w

/-- `first->peer->peer = NULL; first->peer = second`. -/
def peerWrite (first : IfPtr) (second : Option IfPtr) (w : World) : World :=
  let w := match (w.ifs first).peer with
    | some old => w.modifyIf old fun x => { x with peer := none }
    | none => w
  w.modifyIf first fun x => { x with peer := second }

def peerSet (first second : Option IfPtr) (w : World) : World :=
  let w := match first with
    | some f => peerWrite f second w
    | none => w
  match second with
  | some s => peerWrite s first w
  | none => w

/-! ## Masters and links -/

def World.revState (w : World) : RevLists.RevState IfPtr where
  up
    | .master, e => (w.ifs e).master
    | .link, e => (w.ifs e).link
  rev
    | .master, m => (w.ifs m).revMaster
    | .link, m => (w.ifs m).revLink

theorem revState_ext {a b : RevLists.RevState IfPtr} (hup : ∀ r e, a.up r e = b.up r e)
    (hrev : ∀ r m, a.rev r m = b.rev r m) : a = b := by
  obtain ⟨up, rev⟩ := a
  obtain ⟨up', rev'⟩ := b
  obtain rfl : up = up' := funext fun r => funext (hup r)
  obtain rfl : rev = rev' := funext fun r => funext (hrev r)
  rfl

section
variable (w : World) (x : IfPtr)

theorem masterSet_master (master : Option IfPtr) (masterOf : IfPtr) :
    ((masterSet master masterOf w).ifs x).master =
      if x = masterOf then master else (w.ifs x).master := by
  unfold masterSet
  cases (w.ifs masterOf).master <;> cases master <;> simp only [World.modifyIf_ifs] <;>
    split_ifs <;> rfl

theorem masterSet_revMaster (master : Option IfPtr) (masterOf : IfPtr) :
    ((masterSet master masterOf w).ifs x).revMaster =
      (if (w.ifs masterOf).master = some x then (w.ifs x).revMaster.erase masterOf
        else (w.ifs x).revMaster) ++ (if master = some x then [masterOf] else []) := by
  unfold masterSet
  cases (w.ifs masterOf).master <;> cases master <;>
    simp only [World.modifyIf_ifs, Option.some.injEq, eq_comm (b := x), reduceCtorEq,
      if_false, List.append_nil] <;>
    split_ifs <;> simp

theorem masterSet_link (master : Option IfPtr) (masterOf : IfPtr) :
    ((masterSet master masterOf w).ifs x).link = (w.ifs x).link ∧
      ((masterSet master masterOf w).ifs x).revLink = (w.ifs x).revLink := by
  unfold masterSet
  cases (w.ifs masterOf).master <;> cases master <;> simp only [World.modifyIf_ifs] <;>
    split_ifs <;> exact ⟨rfl, rfl⟩

theorem linkSet_link (link : Option IfPtr) (entry : IfPtr) :
    ((linkSet link (some entry) w).ifs x).link =
      if x = entry then link else (w.ifs x).link := by
  unfold linkSet
  cases hold : (w.ifs entry).link <;> cases link <;> simp only [hold, World.modifyIf_ifs] <;>
    split_ifs <;> rfl

theorem linkSet_revLink (link : Option IfPtr) (entry : IfPtr) :
    ((linkSet link (some entry) w).ifs x).revLink =
      (if (w.ifs entry).link = some x then (w.ifs x).revLink.erase entry
        else (w.ifs x).revLink) ++ (if link = some x then [entry] else []) := by
  unfold linkSet
  cases hold : (w.ifs entry).link <;> cases link <;>
    simp only [hold, World.modifyIf_ifs, Option.some.injEq, eq_comm (b := x), reduceCtorEq,
      if_false, List.append_nil] <;>
    split_ifs <;> simp

theorem linkSet_master (link : Option IfPtr) (entry : IfPtr) :
    ((linkSet link (some entry) w).ifs x).master = (w.ifs x).master ∧
      ((linkSet link (some entry) w).ifs x).revMaster = (w.ifs x).revMaster := by
  unfold linkSet
  cases hold : (w.ifs entry).link <;> cases link <;> simp only [hold, World.modifyIf_ifs] <;>
    split_ifs <;> exact ⟨rfl, rfl⟩

end

theorem revState_set_rev (a : RevLists.RevState IfPtr) (r : RevLists.Rel)
    (target : Option IfPtr) (e : IfPtr) (r' : RevLists.Rel) (m : IfPtr) :
    (a.set r target e).rev r' m = if r' = r then
      (if a.up r e = some m then (a.rev r m).erase e else a.rev r m) ++
        (if target = some m then [e] else []) else a.rev r' m := by
  unfold RevLists.RevState.set RevLists.RevState.attach RevLists.RevState.detach
  by_cases hr : r' = r
  · subst hr
    cases a.up r' e <;> cases target <;>
      simp only [Function.update, Option.some.injEq, eq_comm (b := m), reduceCtorEq, if_false,
        List.append_nil, if_true, eq_rec_constant, dite_eq_ite] <;>
      split_ifs <;> simp_all
  · cases a.up r e <;> cases target <;> simp [Function.update, hr]

/-- `master_set` is the update that the cells refine. -/
theorem masterSet_revState (master : Option IfPtr) (masterOf : IfPtr) (w : World) :
    (masterSet master masterOf w).revState = w.revState.set .master master masterOf := by
  refine revState_ext (fun r e => ?_) (fun r m => ?_)
  · cases r with
    | master => simp [World.revState, RevLists.RevState.set, Function.update, masterSet_master]
    | link => simp [World.revState, RevLists.RevState.set, Function.update, masterSet_link]
  · rw [revState_set_rev]
    cases r with
    | master => exact masterSet_revMaster w m master masterOf
    | link => exact (masterSet_link w m master masterOf).2

theorem linkSet_revState (link : Option IfPtr) (entry : IfPtr) (w : World) :
    (linkSet link (some entry) w).revState = w.revState.set .link link entry := by
  refine revState_ext (fun r e => ?_) (fun r m => ?_)
  · cases r with
    | master => simp [World.revState, RevLists.RevState.set, Function.update, linkSet_master]
    | link => simp [World.revState, RevLists.RevState.set, Function.update, linkSet_link]
  · rw [revState_set_rev]
    cases r with
    | master => exact (linkSet_master w m link entry).2
    | link => exact linkSet_revLink w m link entry

theorem masterSet_mirror {w : World} (h : w.revState.Mirror) (master : Option IfPtr)
    (masterOf : IfPtr) : (masterSet master masterOf w).revState.Mirror := by
  rw [masterSet_revState]
  exact h.set .master master masterOf

theorem linkSet_mirror {w : World} (h : w.revState.Mirror) (link entry : Option IfPtr) :
    (linkSet link entry w).revState.Mirror := by
  cases entry with
  | none => exact h
  | some e =>
    rw [linkSet_revState]
    exact h.set .link link e

/-! ## What the writes leave alone -/

section
variable (w : World) (x : IfPtr)

theorem masterSet_ifs (master : Option IfPtr) (masterOf : IfPtr) : ∃ m rev,
    (masterSet master masterOf w).ifs x = { w.ifs x with master := m, revMaster := rev } := by
  unfold masterSet
  cases (w.ifs masterOf).master <;> cases master <;> simp only [World.modifyIf_ifs] <;>
    split_ifs <;> exact ⟨_, _, rfl⟩

theorem linkSet_ifs (link entry : Option IfPtr) : ∃ l rev,
    (linkSet link entry w).ifs x = { w.ifs x with link := l, revLink := rev } := by
  cases entry with
  | none => exact ⟨_, _, rfl⟩
  | some e =>
    unfold linkSet
    cases hold : (w.ifs e).link <;> cases link <;> simp only [hold, World.modifyIf_ifs] <;>
      split_ifs <;> exact ⟨_, _, rfl⟩

theorem peerWrite_ifs (first : IfPtr) (second : Option IfPtr) : ∃ p,
    (peerWrite first second w).ifs x = { w.ifs x with peer := p } := by
  unfold peerWrite
  cases (w.ifs first).peer <;> simp only [World.modifyIf_ifs] <;> split_ifs <;> exact ⟨_, rfl⟩

theorem peerSet_ifs (first second : Option IfPtr) : ∃ p,
    (peerSet first second w).ifs x = { w.ifs x with peer := p } := by
  cases first <;> cases second <;> unfold peerSet
  · exact ⟨_, rfl⟩
  · exact peerWrite_ifs w x _ _
  · exact peerWrite_ifs w x _ _
  · rename_i f s
    obtain ⟨p, hp⟩ := peerWrite_ifs w x f (some s)
    obtain ⟨q, hq⟩ := peerWrite_ifs (peerWrite f (some s) w) x s (some f)
    exact ⟨q, hq.trans (by rw [hp])⟩

theorem masterSet_lists (master : Option IfPtr) (masterOf : IfPtr) :
    (masterSet master masterOf w).nss = w.nss ∧ (masterSet master masterOf w).nsList = w.nsList ∧
      (masterSet master masterOf w).free = w.free := by
  unfold masterSet
  cases (w.ifs masterOf).master <;> cases master <;> exact ⟨rfl, rfl, rfl⟩

theorem linkSet_lists (link entry : Option IfPtr) :
    (linkSet link entry w).nss = w.nss ∧ (linkSet link entry w).nsList = w.nsList ∧
      (linkSet link entry w).free = w.free := by
  cases entry with
  | none => exact ⟨rfl, rfl, rfl⟩
  | some e =>
    unfold linkSet
    cases hold : (w.ifs e).link <;> cases link <;> simp only [hold] <;> exact ⟨rfl, rfl, rfl⟩

theorem peerWrite_lists (first : IfPtr) (second : Option IfPtr) :
    (peerWrite first second w).nss = w.nss ∧ (peerWrite first second w).nsList = w.nsList ∧
      (peerWrite first second w).free = w.free := by
  unfold peerWrite
  cases (w.ifs first).peer <;> exact ⟨rfl, rfl, rfl⟩

theorem peerSet_lists (first second : Option IfPtr) :
    (peerSet first second w).nss = w.nss ∧ (peerSet first second w).nsList = w.nsList ∧
      (peerSet first second w).free = w.free := by
  cases first <;> cases second <;> unfold peerSet
  · exact ⟨rfl, rfl, rfl⟩
  · exact peerWrite_lists w _ _
  · exact peerWrite_lists w _ _
  · rename_i f s
    obtain ⟨hnss, hlist, hfree⟩ := peerWrite_lists w f (some s)
    obtain ⟨hnss', hlist', hfree'⟩ := peerWrite_lists (peerWrite f (some s) w) s (some f)
    exact ⟨hnss'.trans hnss, hlist'.trans hlist, hfree'.trans hfree⟩

theorem frame_of_lists {w w' : World}
    (h : w'.nss = w.nss ∧ w'.nsList = w.nsList ∧ w'.free = w.free)
    (hkept : ∀ x, (w.ifs x).Kept (w'.ifs x)) : World.Frame w w' :=
  ⟨h.2.1, fun n => by rw [h.1], fun n => by rw [h.1], h.2.2, hkept⟩

theorem masterSet_peer (master : Option IfPtr) (masterOf : IfPtr) :
    ((masterSet master masterOf w).ifs x).peer = (w.ifs x).peer := by
  obtain ⟨m, rev, h⟩ := masterSet_ifs w x master masterOf
  rw [h]

theorem linkSet_peer (link entry : Option IfPtr) :
    ((linkSet link entry w).ifs x).peer = (w.ifs x).peer := by
  obtain ⟨l, rev, h⟩ := linkSet_ifs w x link entry
  rw [h]

theorem masterSet_frame (master : Option IfPtr) (masterOf : IfPtr) :
    World.Frame w (masterSet master masterOf w) := by
  refine frame_of_lists (masterSet_lists w master masterOf) fun x => ?_
  obtain ⟨m, rev, h⟩ := masterSet_ifs w x master masterOf
  rw [h]
  exact ⟨rfl, rfl, rfl, rfl⟩

theorem linkSet_frame (link entry : Option IfPtr) : World.Frame w (linkSet link entry w) := by
  refine frame_of_lists (linkSet_lists w link entry) fun x => ?_
  obtain ⟨l, rev, h⟩ := linkSet_ifs w x link entry
  rw [h]
  exact ⟨rfl, rfl, rfl, rfl⟩

theorem peerSet_frame (first second : Option IfPtr) :
    World.Frame w (peerSet first second w) := by
  refine frame_of_lists (peerSet_lists w first second) fun x => ?_
  obtain ⟨p, h⟩ := peerSet_ifs w x first second
  rw [h]
  exact ⟨rfl, rfl, rfl, rfl⟩

end

/-! ## Peers -/

def World.peers (w : World) (x : IfPtr) : Option IfPtr := (w.ifs x).peer

theorem peerWrite_peers (first : IfPtr) (second : Option IfPtr) (w : World) :
    (peerWrite first second w).peers = Matching.write w.peers first second := by
  funext x
  unfold peerWrite Matching.write World.peers
  cases (w.ifs first).peer <;> simp only [World.modifyIf_ifs, Function.update_apply] <;>
    split_ifs <;> rfl

theorem peerWrite_peer (first : IfPtr) (second : Option IfPtr) (w : World) {x y : IfPtr}
    (h : ((peerWrite first second w).ifs x).peer = some y) :
    (w.ifs x).peer = some y ∨ x = first ∧ second = some y := by
  unfold peerWrite at h
  cases hold : (w.ifs first).peer with
  | none =>
    simp only [hold, World.modifyIf_ifs] at h
    split_ifs at h with hx
    · exact .inr ⟨hx, h⟩
    · exact .inl h
  | some old =>
    simp only [hold, World.modifyIf_ifs] at h
    split_ifs at h with hx
    · exact .inr ⟨hx, h⟩
    · exact .inr ⟨hx, h⟩
    · exact .inl h

theorem peerSet_peer (first : IfPtr) (second : Option IfPtr) (w : World) {x y : IfPtr}
    (h : ((peerSet (some first) second w).ifs x).peer = some y) :
    (w.ifs x).peer = some y ∨ x = first ∧ second = some y ∨ second = some x ∧ y = first := by
  unfold peerSet at h
  cases second with
  | none => exact (peerWrite_peer first none w h).imp_right .inl
  | some s =>
    rcases peerWrite_peer s (some first) _ h with h | ⟨rfl, hy⟩
    · exact (peerWrite_peer first (some s) w h).imp_right .inl
    · exact .inr (.inr ⟨rfl, (Option.some.inj hy).symm⟩)

/-- From a matching, whatever the arguments alias, `peer_set` separates both from their peers
and pairs them. -/
theorem peerSet_peers {w : World} (h : Matching.Symmetric w.peers) (first second : Option IfPtr) :
    (peerSet first second w).peers = Matching.rematch w.peers first second := by
  cases first with
  | none =>
    cases second with
    | none => exact (Matching.rematch_none w.peers).symm
    | some s => rw [← h.write_none_right s, ← peerWrite_peers]; rfl
  | some f =>
    cases second with
    | none => rw [← h.write_none_left f, ← peerWrite_peers]; rfl
    | some s => rw [← h.write_write f s, ← peerWrite_peers, ← peerWrite_peers]; rfl

end Plotnetcfg
