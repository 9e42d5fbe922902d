import Plotnetcfg.Core.Match

/-! The peers of listed interfaces, as `peer_set` and the search by net name space id leave
them. -/

namespace Plotnetcfg

structure World.Paired (w : World) : Prop where
  symmetric : Matching.Symmetric w.peers
  listed : ∀ a, (w.peers a).isSome → a ∈ w.listed

theorem World.Paired.peer_listed {w : World} (h : w.Paired) {a b : IfPtr}
    (hab : w.peers a = some b) : a ∈ w.listed ∧ b ∈ w.listed :=
  ⟨h.listed a (by simp [hab]), h.listed b (by simp [h.symmetric a b hab])⟩

theorem World.Paired.of_no_peers {w : World} (h : ∀ e, w.peers e = none) : w.Paired where
  symmetric := by
    rw [show w.peers = fun _ => none from funext h]
    exact Matching.symmetric_empty
  listed a ha := by simp [h a] at ha

/-- A property that survives whatever changes no peer of a listed interface, and `peer_set` of
listed interfaces. -/
structure PeerInvariant (P : World → Prop) : Prop where
  congr : ∀ {w w' : World},
    (∀ x, w'.peers x = w.peers x ∨ x ∉ w.listed ∧ w'.peers x = none) →
    (∀ e ∈ w.listed, e ∈ w'.listed) → P w → P w'
  peerSet : ∀ {w : World} {first second : Option IfPtr}, (∀ e ∈ first, e ∈ w.listed) →
    (∀ e ∈ second, e ∈ w.listed) → P w → P (peerSet first second w)

theorem peerInvariant_true : PeerInvariant fun _ => True :=
  ⟨fun _ _ _ => trivial, fun _ _ _ => trivial⟩

theorem peerInvariant_paired : PeerInvariant World.Paired where
  congr {w w'} hpeers hlisted h := by
    have heq : w'.peers = w.peers := by
      funext x
      rcases hpeers x with hx | ⟨hx, hnone⟩
      · exact hx
      · cases hp : w.peers x with
        | none => exact hnone
        | some y => exact absurd (h.listed x (by simp [hp])) hx
    refine ⟨heq ▸ h.symmetric, fun a ha => hlisted a (h.listed a ?_)⟩
    rwa [heq] at ha
  peerSet {w first second} hfirst hsecond h := by
    have hpeers := peerSet_peers h.symmetric first second
    refine ⟨hpeers ▸ h.symmetric.rematch first second, fun a ha => ?_⟩
    rw [(peerSet_frame w first second).listed]
    rw [hpeers, Matching.rematch] at ha
    by_cases hf : first = some a
    · exact hfirst a hf
    · by_cases hs : second = some a
      · exact hsecond a hs
      · rw [if_neg hf, if_neg hs] at ha
        cases hp : w.peers a with
        | none => simp [hp] at ha
        | some y => exact h.listed a (by simp [hp])

section
variable {P : World → Prop} (hP : PeerInvariant P)
include hP

theorem PeerInvariant.frame {w w' : World} (hf : w.Frame w')
    (hpeer : ∀ x, (w'.ifs x).peer = (w.ifs x).peer) (h : P w) : P w' :=
  hP.congr (fun x => .inl (hpeer x)) (fun e he => by rwa [hf.listed]) h

theorem PeerInvariant.modifyIf {w : World} {e : IfPtr} {f : IfEntry → IfEntry}
    (hpeer : ∀ x, (f x).peer = x.peer) (h : P w) : P (w.modifyIf e f) := by
  refine hP.congr (w := w) (fun x => .inl ?_) (fun e he => he) h
  rw [World.peers, World.modifyIf_ifs]
  split_ifs
  · exact hpeer _
  · rfl

/-! ## The search by net name space id -/

omit hP in
theorem matchIfNetnsid_listed {w : World} (h : w.Scanned) {ns : NsPtr} (hns : ns ∈ w.nsList)
    {ifindex : UInt32} {netnsid : Int} {e : IfPtr}
    (he : matchIfNetnsid ifindex netnsid (w.nss ns) w = some e) : e ∈ w.listed := by
  unfold matchIfNetnsid at he
  cases hptr : matchNetnsid netnsid (w.nss ns) with
  | none => simp [hptr] at he
  | some ptr =>
    rw [hptr] at he
    obtain ⟨i, hi, rfl⟩ := Option.map_eq_some_iff.mp hptr
    have hmem := h.ids ns hns i (List.mem_of_find?_eq_some hi)
    exact World.mem_listed.mpr ⟨i.ns, hmem, List.mem_of_find?_eq_some he⟩

theorem matchNetnsidEntry_keeps {w : World} (h : w.Scanned) (hw : P w) {ns : NsPtr}
    (hns : ns ∈ w.nsList) {e : IfPtr} (he : e ∈ w.listed) :
    w.Frame (matchNetnsidEntry ns e w) ∧ P (matchNetnsidEntry ns e w) := by
  unfold matchNetnsidEntry
  extract_lets w₁
  have hw₁ : w.Frame w₁ ∧ P w₁ := by
    unfold w₁
    split_ifs
    · exact ⟨linkSet_frame w _ _, hP.frame (linkSet_frame w _ _) (fun x => linkSet_peer w x _ _) hw⟩
    · exact ⟨.modifyIf w e fun _ => ⟨rfl, rfl, rfl, rfl⟩, hP.modifyIf (fun _ => rfl) hw⟩
    · exact ⟨.refl w, hw⟩
  split_ifs
  · refine ⟨hw₁.1.trans (peerSet_frame w₁ _ _), hP.peerSet ?_ ?_ hw₁.2⟩
    · rintro x hx
      obtain rfl := Option.some.inj hx
      rw [hw₁.1.listed]
      exact he
    · intro x hx
      have hns₁ : ns ∈ w₁.nsList := by rwa [hw₁.1.nsList]
      exact matchIfNetnsid_listed (h.frame hw₁.1) hns₁ hx
  · exact hw₁

theorem matchAllNetnsid_keeps {w : World} (h : w.Scanned) (hw : P w) :
    w.Frame (matchAllNetnsid w) ∧ P (matchAllNetnsid w) := by
  unfold matchAllNetnsid
  refine List.foldlRecOn (motive := fun w' => w.Frame w' ∧ P w') w.nsList _ ⟨.refl w, hw⟩
    fun w₁ hw₁ ns hns => ?_
  refine List.foldlRecOn (motive := fun w' => w.Frame w' ∧ P w') (w₁.nss ns).ifaces _ hw₁
    fun w₂ hw₂ e he => ?_
  have hns₂ : ns ∈ w₂.nsList := by rwa [hw₂.1.nsList]
  have he₂ : e ∈ w₂.listed := by
    rw [hw₂.1.listed]
    rw [hw₁.1.ifaces] at he
    exact World.mem_listed.mpr ⟨ns, hns, he⟩
  have hstep := matchNetnsidEntry_keeps hP (h.frame hw₂.1) hw₂.2 hns₂ he₂
  exact ⟨hw₂.1.trans hstep.1, hstep.2⟩

end

end Plotnetcfg
