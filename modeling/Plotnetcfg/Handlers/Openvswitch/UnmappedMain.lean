import Plotnetcfg.Handlers.Openvswitch.Neighbours

/-! A bridge whose main interface cannot be mapped is left out, as it is without its port. What
may make a difference is the marks that the search for the main interface leaves. -/

namespace Plotnetcfg.Openvswitch

section
variable {env : OvsEnv} {root : NsPtr} {name : Option CStr} {marked : IfPtr → Prop} {m : OvsIfPtr}
  {s t : OvsState} {br : OvsBridge} {q : OvsPort} {e : IfPtr}

/-! ## What is made from states that differ in marks -/

section
variable (henv : env.ByName) (hbr : Elsewhere m br) (hdistinct : (br.ifaces.map OvsIf.ptr).Nodup)
  (h : Differ root name marked m s t)
  (hfree : ∀ iface v, BridgeCall env root br s iface v → ¬ Rival name br iface v)
include henv hbr hdistinct h hfree

theorem bridgeMade_alike : BridgeMade env root br s q e ↔ BridgeMade env root br t q e := by
  have hmainIface : ∀ ovsMaster, MainIface br ovsMaster → ∀ s₁ t₁,
      linkIface env root br ovsMaster true s = some (.ok (), s₁) →
      Differ root name marked m s₁ t₁ →
      (PortsMade env root br ovsMaster br.ports s₁ q e ↔
        PortsMade env root br ovsMaster br.ports t₁ q e) := by
    intro ovsMaster hmain s₁ t₁ hlinked h₁
    have hport : ∀ port s₂ t₂, Prog.Reached (linkPort env root br ovsMaster) br.ports s₁ port s₂ →
        Differ root name marked m s₂ t₂ → Prog.Ends (Differ root name marked m)
          (linkPort env root br ovsMaster port s₂) (linkPort env root br ovsMaster port t₂) := by
      rintro port s₂ t₂ ⟨pre, post, hports, hpre⟩ h₂
      have hin : port ∈ br.ports := hports ▸ List.mem_append_right _ List.mem_cons_self
      apply (linkPort_parts henv hbr hdistinct hmain hin).alike s₂ t₂ h₂
      rintro ⟨master, s₃, hmaster, ifaces, iface, ifaces', s₄, hifaces, hlast, hrival⟩
      exact hfree iface s₄ (.port hmain hlinked hports hpre hmaster hifaces hlast) hrival
    apply Prog.Ends.reached h₁ hport
    intro s₂ t₂ hreached h₂
    apply (hport q s₂ t₂ hreached h₂).run_iff
    intro r s₃ t₃ _ h₃
    rw [h₂.world.listed, h₃.world.listed]
  have hmainMem : ∀ ovsMaster, MainIface br ovsMaster → ovsMaster ∈ br.ifaces := by
    intro ovsMaster hmain
    rw [hmain.ifaces]
    exact List.mem_cons_self
  unfold BridgeMade
  apply exists_congr
  intro ovsMaster
  by_cases hmain : MainIface br ovsMaster
  swap
  · exact iff_of_false (fun ⟨_, hm, _⟩ => hmain hm) fun ⟨_, hm, _⟩ => hmain hm
  have hends := linkIface_ends henv hbr (hmainMem ovsMaster hmain) true h
    (hfree ovsMaster s (.main hmain))
  constructor
  · rintro ⟨s₁, -, hlinked, hmade⟩
    rw [hlinked] at hends
    obtain ⟨t₁, hlinked', h₁⟩ := hends.right
    exact ⟨t₁, hmain, hlinked', (hmainIface ovsMaster hmain s₁ t₁ hlinked h₁).mp hmade⟩
  · rintro ⟨t₁, -, hlinked', hmade⟩
    rw [hlinked'] at hends
    obtain ⟨s₁, hlinked, h₁⟩ := hends.left
    exact ⟨s₁, hmain, hlinked, (hmainIface ovsMaster hmain s₁ t₁ hlinked h₁).mpr hmade⟩

end

theorem made_alike (henv : env.ByName) {brList : List OvsBridge}
    (helse : ∀ iface ∈ allIfaces brList, iface.ptr ≠ m)
    (hdistinct : ((allIfaces brList).map OvsIf.ptr).Nodup) (h : Differ root name marked m s t)
    (hfree : ∀ br iface v, LinkCall env root brList s br iface v → ¬ Rival name br iface v) :
    Made env root brList s q e ↔ Made env root brList t q e := by
  have hbridge : ∀ br s', Prog.Reached (linkBridge env root) brList s br s' →
      Elsewhere m br ∧ (br.ifaces.map OvsIf.ptr).Nodup ∧
        ∀ iface v, BridgeCall env root br s' iface v → ¬ Rival name br iface v := by
    rintro br s' ⟨done, rest, hsplit, hdone⟩
    have hin : br ∈ brList := hsplit ▸ List.mem_append_right _ List.mem_cons_self
    refine ⟨fun iface hiface => helse iface (List.mem_flatMap.mpr ⟨br, hin, hiface⟩),
      (nodup_parts hdistinct).1 br hin, fun iface v hcall => ?_⟩
    exact hfree br iface v ⟨done, rest, s', hsplit, hdone, hcall⟩
  unfold Made
  apply exists_congr
  intro br
  apply Prog.Ends.reached h
  · intro br' s' t' hreached h'
    obtain ⟨hbr, hnodup, hcall⟩ := hbridge br' s' hreached
    apply (linkBridge_parts henv hbr hnodup).alike s' t' h'
    rintro ⟨iface, v, hcall', hrival⟩
    exact hcall iface v hcall' hrival
  · intro s' t' hreached h'
    obtain ⟨hbr, hnodup, hcall⟩ := hbridge br s' hreached
    exact bridgeMade_alike henv hbr hnodup h' hcall

end

/-! ## After the search for the main interface -/

def markedName (br : OvsBridge) (iface : OvsIf) : Option CStr :=
  if Writes br iface then some iface.name else none

def MarkedBy (br : OvsBridge) (iface : OvsIf) (s : OvsState) (x : IfPtr) : Prop :=
  Writes br iface ∧ x ∈ s.world.listed ∧ Marks iface s.world x

def withWarning (root : NsPtr) (text : CStr) (s : OvsState) : OvsState :=
  { s with world := s.world.modifyNs root (·.labelAdd text) }

section
variable {env : OvsEnv} {root : NsPtr} {br : OvsBridge} {iface : OvsIf} {s s' : OvsState}

/-- An ambiguous search leaves the topology in another state than a warning does: the devices it
gave a weight may be marked. -/
theorem ambiguous_differ {required : Bool} (hinv : LinkInv (fun _ => True) root [] s)
    (hnone : s.link iface.ptr = none)
    (hrun : linkIface env root br iface required s = some (.error (ERANGE : Int), s'))
    (text : CStr) :
    Differ root (markedName br iface) (MarkedBy br iface s) iface.ptr s'
      (withWarning root text s) := by
  have hmapping := linkIface_mapping hnone hinv.scanned.nodup hrun
  have hinv' := linkIface_triple peerInvariant_true env br iface required s hinv _ _ hrun
  have hlisted : s'.world.listed = s.world.listed := by
    apply World.listed_congr hmapping.nsList
    intro n
    obtain ⟨warnings, hn⟩ := hmapping.nss n
    rw [hn]
  have hkept : ∀ x, (s'.world.ifs x).ifName = (s.world.ifs x).ifName ∧
      (s'.world.ifs x).driver = (s.world.ifs x).driver := by
    intro x
    rw [hmapping.ifs]
    split_ifs
    · exact ⟨rfl, rfl⟩
    · exact ⟨rfl, rfl⟩
  have htwins : World.Twins (MarkedBy br iface s) s'.world
      (s.world.modifyNs root (·.labelAdd text)) := by
    refine ⟨hmapping.nsList.symm, hmapping.free.symm, fun n => ?_, fun x => ?_, fun x hx => ?_⟩
    · obtain ⟨warnings, hn⟩ := hmapping.nss n
      rw [hn, World.modifyNs_nss]
      split_ifs
      · exact ⟨_, rfl⟩
      · exact ⟨_, rfl⟩
    · refine ⟨(s.world.ifs x).subDriver, ?_⟩
      rw [hmapping.ifs]
      split_ifs
      · rfl
      · rfl
    · unfold MarkedBy at hx
      rw [hmapping.ifs, if_neg hx]
      rfl
  refine ⟨⟨htwins, hinv'.scanned, hinv'.root, fun x hx => ?_, fun x hx => ?_,
    fun x hx hname hdriver => ?_, fun hsome => ?_⟩, fun ptr hptr => ?_⟩
  · rw [hlisted]
    exact hx.2.1
  · rw [markedName, if_pos hx.1, (hkept x).1, hx.2.2.name]
  · have hwrites : Writes br iface := by
      by_contra hnot
      rw [markedName, if_neg hnot] at hname
      cases hname
    rw [markedName, if_pos hwrites, Option.some.injEq, (hkept x).1] at hname
    rw [(hkept x).2] at hdriver
    rw [hlisted] at hx
    rw [hmapping.ifs]
    split_ifs with hmarks
    · rfl
    · by_contra hfree
      exact hmarks ⟨hwrites, hx, hname, hdriver, Option.not_isSome_iff_eq_none.mp hfree⟩
  · -- an ambiguous search has given a weight to a device
    have hwrites : Writes br iface := by
      by_contra hnot
      rw [markedName, if_neg hnot] at hsome
      cases hsome
    obtain ⟨main, -, -, hmain, -⟩ := linkIface_verdict hnone hrun
    have htied := hmapping.ambiguous.mp rfl
    obtain ⟨x, hx, hpos⟩ : ∃ x ∈ s.world.listed, 0 < ifaceWeight env br iface s x := by
      by_contra hall
      push Not at hall
      exact Tally.not_tied_of_none hall htied
    rw [ifaceWeight_marks hwrites hmain] at hpos
    have hmarks : Marks iface s.world x := by
      by_contra hnot
      rw [markWeight_zero hnot] at hpos
      exact lt_irrefl 0 hpos
    exact ⟨x, ⟨hwrites, hx, hmarks⟩, by rw [(hkept x).2, hmarks.driver], hmarks.subDriver⟩
  · rw [hmapping.link, Function.update_of_ne hptr]
    rfl

end

/-! ## With the port and without it -/

section
variable {env : OvsEnv} {root : NsPtr} {brList : List OvsBridge} {s₀ s s' s₁ : OvsState}
  {port : OvsPort} {r r' : Except Int Unit}
  (hdistinct : ((allIfaces brList).map OvsIf.ptr).Nodup)
  (turn : MainTurn env root brList s₀ port)

theorem MainTurn.main : MainIface turn.br turn.iface := ⟨port, turn.system, turn.sole⟩

theorem MainTurn.mem_iface : turn.iface ∈ turn.br.ifaces := by
  rw [turn.main.ifaces]
  exact List.mem_cons_self

include hdistinct in
theorem MainTurn.unlinked (hnone : ∀ iface ∈ allIfaces brList, s₀.link iface.ptr = none) :
    turn.start.link turn.iface.ptr = none := by
  have hspare := linkIfaces_spares turn.done s₀ _ _ turn.run turn.iface.ptr
    ((split_ptr hdistinct turn.split).1 turn.iface turn.mem_iface)
  apply Eq.trans hspare
  exact hnone _ (List.mem_flatMap.mpr ⟨turn.br, turn.mem_bridge, turn.mem_iface⟩)

theorem MainTurn.mem_sole : turn.iface ∈ port.ifaces := turn.sole ▸ List.mem_singleton_self _

include hdistinct in
/-- Without the port the bridge has no main interface. -/
theorem MainTurn.without_runs : ∃ text,
    linkIfaces env root (withoutPort port brList) s₀ =
        linkIfaces env root turn.rest (withWarning root text turn.start) ∧
      ∀ q e, Made env root (withoutPort port brList) s₀ q e ↔ Made env root turn.done s₀ q e ∨
        Made env root turn.rest (withWarning root text turn.start) q e := by
  have hsplit : withoutPort port brList = turn.done ++ { turn.br with system := none } :: turn.rest := by
    rw [withoutPort_split hdistinct turn.split turn.mem_port turn.mem_sole,
      without_system hdistinct turn.mem_bridge turn.system turn.mem_sole]
  have hnot : ∀ ovsMaster, ¬ MainIface { turn.br with system := none } ovsMaster := by
    rintro ovsMaster ⟨system, hsystem, -⟩
    cases hsystem
  obtain ⟨text, hskipped⟩ := linkBridge_skipped env root hnot
  have hbridge : linkBridge env root { turn.br with system := none } turn.start =
      some (.ok (), withWarning root text turn.start) := by
    rw [hskipped]
    rfl
  have hmade : ∀ q e, ¬ BridgeMade env root { turn.br with system := none } turn.start q e := by
    rintro q e ⟨ovsMaster, u, hmain, -⟩
    exact hnot ovsMaster hmain
  have hrun := turn.run
  refine ⟨text, ?_, fun q e => ?_⟩
  · rw [hsplit]
    unfold linkIfaces at hrun ⊢
    rw [Prog.forEach_append, Prog.bind_ok s₀ hrun, Prog.forEach_cons, Prog.bind_ok _ hbridge]
  · rw [hsplit, made_append]
    simp only [made_cons, hrun, hbridge, hmade, Option.some.injEq, Prod.mk.injEq, true_and,
      exists_eq_left', false_or]

variable (hsearch : linkIface env root turn.br turn.iface true turn.start =
  some (.error (ERANGE : Int), s₁))
include hsearch

theorem MainTurn.skipped : linkBridge env root turn.br turn.start = some (.ok (), s₁) := by
  rw [linkBridge_main env root turn.main,
    Prog.bind_ok _ (Prog.attempt_eq_some.mpr ⟨_, hsearch, rfl⟩)]
  dsimp only
  rw [if_pos (.inr rfl)]
  rfl

theorem MainTurn.resumes : linkIfaces env root brList s₀ = linkIfaces env root turn.rest s₁ := by
  have hrun := turn.run
  have hsplit := congrArg (fun l => linkIfaces env root l s₀) turn.split
  rw [hsplit]
  unfold linkIfaces at hrun ⊢
  rw [Prog.forEach_append, Prog.bind_ok s₀ hrun, Prog.forEach_cons,
    Prog.bind_ok _ (turn.skipped hsearch)]

theorem MainTurn.made_iff {q : OvsPort} {e : IfPtr} : Made env root brList s₀ q e ↔
    Made env root turn.done s₀ q e ∨ Made env root turn.rest s₁ q e := by
  have hsplit := congrArg (fun l => Made env root l s₀ q e) turn.split
  have hnot : ¬ BridgeMade env root turn.br turn.start q e := by
    rintro ⟨ovsMaster, u, hmain, hlinked, -⟩
    rw [hmain.unique turn.main, hsearch] at hlinked
    cases hlinked
  rw [hsplit, made_append]
  simp only [made_cons, turn.run, turn.skipped hsearch, Option.some.injEq, Prod.mk.injEq, true_and,
    exists_eq_left', hnot, false_or]

include hdistinct in
/-- The other ports are unaffected if and only if the marks make no difference to a later search. -/
theorem MainTurn.unaffected_iff (henv : env.ByName)
    (hinv : LinkInv (fun _ => True) root [] s₀)
    (hnone : ∀ iface ∈ allIfaces brList, s₀.link iface.ptr = none)
    (hrun : linkIfaces env root brList s₀ = some (r, s))
    (hrun' : linkIfaces env root (withoutPort port brList) s₀ = some (r', s')) :
    (∀ q ∈ allPorts brList, q ≠ port → Unaffected env root brList s₀ port s s' q) ↔
      Spared env root brList s₀ port := by
  obtain ⟨text, hresumes, hmade⟩ := turn.without_runs hdistinct
  rw [turn.resumes hsearch] at hrun
  rw [hresumes] at hrun'
  have hstart := linkIfaces_triple peerInvariant_true env turn.done s₀ hinv _ _ turn.run
  have hdiffer := ambiguous_differ hstart (turn.unlinked hdistinct hnone) hsearch text
  obtain ⟨-, hother, hrest⟩ := split_ptr hdistinct turn.split
  have helse := hother turn.iface turn.mem_iface
  have hparts : Prog.Parts (Differ root (markedName turn.br turn.iface)
      (MarkedBy turn.br turn.iface turn.start) turn.iface.ptr) linkOf
      (fun ptr => ∃ iface ∈ allIfaces turn.rest, ptr = iface.ptr)
      (fun s => ∃ br iface v, LinkCall env root turn.rest s br iface v ∧
        Rival (markedName turn.br turn.iface) br iface v)
      (linkIfaces env root turn.rest) (linkIfaces env root turn.rest) :=
    linkIfaces_parts henv helse hrest
  have hport : port ∈ allPorts brList := mem_allPorts turn.mem_bridge turn.mem_port
  constructor
  · intro hall
    refine ⟨fun turn' hwrites s₂ hskipped br iface v hcall hrival => ?_,
      fun turn' => (turn.not_member hdistinct turn').elim,
      fun turn' => (turn.not_member hdistinct turn').elim,
      fun turn' => (turn.not_member hdistinct turn').elim⟩
    obtain rfl := turn.unique hdistinct turn'
    obtain rfl : s₁ = s₂ := by simpa [turn.skipped hsearch] using hskipped
    have hname : markedName turn.br turn.iface = some turn.iface.name := if_pos hwrites
    rw [← hname] at hrival
    obtain ⟨_, ⟨j, hj, rfl⟩, hne⟩ := hparts.apart _ _ hdiffer ⟨br, iface, v, hcall, hrival⟩ _ _ _ _
      hrun hrun'
    have hj' : ∃ q ∈ allPorts turn.rest, j ∈ q.ifaces := by
      rw [allIfaces_eq] at hj
      exact List.mem_flatMap.mp hj
    obtain ⟨q, hq, hjq⟩ := hj'
    have hqall : q ∈ allPorts brList := by
      obtain ⟨x, hx, hqx⟩ := List.mem_flatMap.mp hq
      apply mem_allPorts _ hqx
      have hx' : x ∈ turn.done ++ turn.br :: turn.rest :=
        List.mem_append_right _ (List.mem_cons_of_mem _ hx)
      rwa [← turn.split] at hx'
    have hqne : q ≠ port := by
      rintro rfl
      exact helse turn.iface (mem_allIfaces_port hq turn.mem_sole) rfl
    exact hne ((hall q hqall hqne).link j hjq).symm
  · intro hspared
    have hfree : ∀ br iface v, LinkCall env root turn.rest s₁ br iface v →
        ¬ Rival (markedName turn.br turn.iface) br iface v := by
      intro br iface v hcall hrival
      by_cases hwrites : Writes turn.br turn.iface
      · rw [markedName, if_pos hwrites] at hrival
        exact hspared.marks turn hwrites s₁ (turn.skipped hsearch) br iface v hcall hrival
      · have hnamed := hrival.named
        rw [markedName, if_neg hwrites] at hnamed
        cases hnamed
    have hends := hparts.alike _ _ hdiffer fun ⟨br, iface, v, hcall, hrival⟩ =>
      hfree br iface v hcall hrival
    rw [hrun] at hends
    obtain ⟨t', hrun'', hdiffer'⟩ := hends.right
    obtain rfl : s' = t' := congrArg Prod.snd (Option.some.inj (hrun'.symm.trans hrun''))
    intro q hq hne
    refine ⟨fun j hj => ?_, fun e => ?_, fun e _ => hdiffer'.world.master e⟩
    · exact hdiffer'.link j.ptr (other_ptr hdistinct hport hq hne turn.mem_sole hj).symm
    · rw [turn.made_iff hsearch, hmade, made_alike henv helse hrest hdiffer hfree]

end

end Plotnetcfg.Openvswitch
