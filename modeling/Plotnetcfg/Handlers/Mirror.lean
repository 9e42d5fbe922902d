import Plotnetcfg.Handlers.References
import Plotnetcfg.Handlers.SelfRelation

/-! The lists of slaves and of upper devices after all steps: each interface is in the list of its
master and in that of its lower device, once, and in no other. -/

namespace Plotnetcfg

open RevLists (Rel)

section
variable {w v : World}

theorem revState_congr (h : ∀ x, (v.ifs x).master = (w.ifs x).master ∧
    (v.ifs x).link = (w.ifs x).link ∧ (v.ifs x).revMaster = (w.ifs x).revMaster ∧
      (v.ifs x).revLink = (w.ifs x).revLink) : v.revState = w.revState := by
  apply revState_ext
  · intro rel e
    cases rel with
    | master => exact (h e).1
    | link => exact (h e).2.1
  · intro rel m
    cases rel with
    | master => exact (h m).2.2.1
    | link => exact (h m).2.2.2

theorem peerSet_revState (first second : Option IfPtr) (w : World) :
    (peerSet first second w).revState = w.revState := by
  apply revState_congr
  intro x
  obtain ⟨p, hx⟩ := peerSet_ifs w x first second
  rw [hx]
  exact ⟨rfl, rfl, rfl, rfl⟩

theorem matchNetnsidEntry_mirror (ns : NsPtr) (e : IfPtr) (h : w.revState.Mirror) :
    (matchNetnsidEntry ns e w).revState.Mirror := by
  have hlink : (matchNetnsidLink ns e w).revState.Mirror := by
    unfold matchNetnsidLink
    split_ifs
    · exact linkSet_mirror h _ _
    · rw [revState_congr (w := w)]
      · exact h
      · intro x
        rw [World.modifyIf_ifs]
        split_ifs <;> exact ⟨rfl, rfl, rfl, rfl⟩
    · exact h
  rw [matchNetnsidEntry_eq]
  unfold matchNetnsidPeer
  split_ifs
  · rw [peerSet_revState]
    exact hlink
  · exact hlink

theorem matchAllNetnsid_mirror (h : w.revState.Mirror) : (matchAllNetnsid w).revState.Mirror := by
  unfold matchAllNetnsid
  refine List.foldlRecOn (motive := fun w : World => w.revState.Mirror) w.nsList _ h fun w₁ h₁ ns _ => ?_
  exact List.foldlRecOn (motive := fun w : World => w.revState.Mirror) (w₁.nss ns).ifaces _ h₁
    fun _ h₂ e _ => matchNetnsidEntry_mirror ns e h₂

theorem mirror_create {root : NsPtr} {e : IfPtr} (hadds : w.Adds v root e)
    (hapart : ∀ x, e ∉ (w.ifs x).pointers) (hnew : (v.ifs e).pointers = [])
    (h : w.revState.Mirror) : v.revState.Mirror := by
  have hrev : ∀ rel m, e ∉ w.revState.rev rel m := by
    intro rel m hmem
    apply hapart m
    rw [IfEntry.mem_pointers]
    cases rel with
    | master => exact .inr (.inr (.inr (.inr (.inl hmem))))
    | link => exact .inr (.inr (.inr (.inr (.inr hmem))))
  have hup : ∀ rel x, w.revState.up rel x ≠ some e := by
    intro rel x hx
    apply hapart x
    rw [IfEntry.mem_pointers]
    cases rel with
    | master => exact .inl hx
    | link => exact .inr (.inl hx)
  have hbare : ∀ rel, v.revState.up rel e = none ∧ v.revState.rev rel e = [] := by
    have hnone : ∀ y, y ∉ (v.ifs e).pointers := by
      rw [hnew]
      exact fun y => List.not_mem_nil
    simp only [IfEntry.mem_pointers, not_or] at hnone
    intro rel
    cases rel with
    | master => exact ⟨Option.eq_none_iff_forall_ne_some.mpr fun y => (hnone y).1,
        List.eq_nil_iff_forall_not_mem.mpr fun y => (hnone y).2.2.2.2.1⟩
    | link => exact ⟨Option.eq_none_iff_forall_ne_some.mpr fun y => (hnone y).2.1,
        List.eq_nil_iff_forall_not_mem.mpr fun y => (hnone y).2.2.2.2.2⟩
  have hsame : ∀ rel, ∀ y ≠ e, v.revState.up rel y = w.revState.up rel y ∧
      v.revState.rev rel y = w.revState.rev rel y := by
    intro rel y hy
    unfold World.revState
    cases rel <;> dsimp only <;> rw [hadds.ifs y hy] <;> exact ⟨rfl, rfl⟩
  intro rel m x
  have hold := h rel m x
  by_cases hm : m = e
  · subst hm
    have hnot : v.revState.up rel x ≠ some m := by
      by_cases hx : x = m
      · subst hx
        rw [(hbare rel).1]
        exact (Option.some_ne_none x).symm
      · rw [(hsame rel x hx).1]
        exact hup rel x
    rw [(hbare rel).2, List.count_nil, if_neg hnot]
  · rw [(hsame rel m hm).2]
    by_cases hx : x = e
    · subst hx
      rw [(hbare rel).1, if_neg (Option.some_ne_none m).symm, List.count_eq_zero.mpr (hrev rel m)]
    · rw [hold, (hsame rel x hx).1]

end

namespace Handlers

section
variable {input : PostInput} {w w' v : World}

theorem PostStep.mirror (hpointers : ∀ x, ∀ y ∈ (w.ifs x).pointers, y ∈ w.listed)
    (hscanned : w.Scanned) (hstep : PostStep input w w') (h : w.revState.Mirror) :
    w'.revState.Mirror := by
  cases hstep with
  | label e hf =>
    rw [revState_congr (w := w)]
    · exact h
    · intro x
      exact ⟨label_field IfEntry.master (fun _ => rfl) hf e x w,
        label_field IfEntry.link (fun _ => rfl) hf e x w,
        label_field IfEntry.revMaster (fun _ => rfl) hf e x w,
        label_field IfEntry.revLink (fun _ => rfl) hf e x w⟩
  | warn => exact h
  | @resolve rel e found =>
    cases rel with
    | master => exact masterSet_mirror h found e
    | link => exact linkSet_mirror h found (some e)
  | @tunnel e found => exact linkSet_mirror h (some found) (some e)
  | unlink e => exact linkSet_mirror h none (some e)
  | @physfn e found =>
    rw [revState_congr (w := w)]
    · exact h
    · intro x
      rw [World.modifyIf_ifs]
      split_ifs <;> exact ⟨rfl, rfl, rfl, rfl⟩
  | @pair e found =>
    rw [peerSet_revState]
    exact h
  | @enslave e master => exact masterSet_mirror h master e
  | @create e _ hadds _ hnew =>
    have hfresh : e ∉ w.listed := hscanned.fresh e (by rw [hadds.free]; exact List.mem_cons_self)
    apply mirror_create hadds (fun x hx => hfresh (hpointers x e hx)) _ h
    obtain ⟨name, -, brName, hifs⟩ := hnew
    rw [hifs]
    rfl

/-- Through all steps each interface is where its master and its lower device look for it. -/
theorem PostRun.mirror (h : Collected w) (hroot : input.root ∈ w.nsList)
    (hrun : PostRun input (matchAllNetnsid w) v) : v.revState.Mirror := by
  induction hrun with
  | refl =>
    apply matchAllNetnsid_mirror
    have hempty : w.revState = .empty := by
      apply revState_ext
      · intro rel e
        cases rel with
        | master => exact h.master e
        | link => exact h.link e
      · intro rel m
        cases rel with
        | master => exact h.revMaster m
        | link => exact h.revLink m
    rw [hempty]
    exact RevLists.mirror_empty
  | tail hrun hstep ih =>
    have hext := PostRun.extends (h.fits hroot) hrun
    exact hstep.mirror (PostRun.pointers h hroot hrun) hext.scanned ih

end

/-- However `netns_fill_list` ends, each interface is in the list of slaves of its master and in
the list of upper devices of its lower device, once, and in no other. -/
theorem fillListPost_mirror (ovs : Openvswitch.OvsEnv) (env : HandlerEnv) {root : NsPtr}
    {answer : Option (Except CStr Json)} {s s' : ScanState} {r : Except Stop Unit}
    (h : Collected s.world) (hroot : root ∈ s.world.nsList)
    (hrun : fillListPost ovs env root answer s = some (r, s')) :
    (∀ m e, ((s'.world.ifs m).revMaster.count e = if (s'.world.ifs e).master = some m then 1 else 0) ∧
      (s'.world.ifs m).revLink.count e = if (s'.world.ifs e).link = some m then 1 else 0) ∧
    ∀ x, ∀ y ∈ (s'.world.ifs x).pointers, y ∈ s'.world.listed := by
  obtain ⟨bridges, -, hsteps⟩ := fillListPost_run h hroot hrun
  have hmirror := PostRun.mirror h hroot hsteps
  exact ⟨fun m e => ⟨hmirror .master m e, hmirror .link m e⟩, PostRun.pointers h hroot hsteps⟩

theorem fillListPost_mirror_tunnel : ∃ s', fillListPost default plainEnv 0 none
    (addressScan false) = some (.ok (), s') ∧ (s'.world.ifs 1).revLink.count 0 = 1 := by
  obtain ⟨s', hrun, hends⟩ : ∃ s', fillListPost default plainEnv 0 none
      (addressScan false) = some (.ok (), s') ∧ decide ((s'.world.ifs 0).link = some 1) = true :=
    exists_of_ends (by decide +kernel)
  obtain ⟨hlists, -⟩ := fillListPost_mirror default plainEnv (addressScan_collected false)
    List.mem_cons_self hrun
  refine ⟨s', hrun, ?_⟩
  rw [(hlists 1 0).2, if_pos (of_decide_eq_true hends)]

end Handlers

end Plotnetcfg
