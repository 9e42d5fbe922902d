import Plotnetcfg.Handlers.FillRuns
import Plotnetcfg.Handlers.PrivateUse

/-! Interfaces that are related to themselves. Only some of the searches leave the interface out
that they are made for. -/

namespace Plotnetcfg.Handlers

open Openvswitch

/-- No interface is its own master, link or peer. -/
structure Irreflexive (w : World) : Prop where
  master : ∀ e, (w.ifs e).master ≠ some e
  link : ∀ e, (w.ifs e).link ≠ some e
  peer : ∀ e, (w.ifs e).peer ≠ some e

/-- The kernel does not report its own index in its own name space to an interface. For a
virtual ethernet device `veth_scan` has made the index that is reported that of the peer. -/
structure ForeignIndexes (w : World) : Prop where
  link : ∀ e ∈ w.listed, matchNetnsid (w.ifs e).linkNetnsid (w.nss (w.ifs e).ns) =
    some (w.ifs e).ns → (w.ifs e).linkIndex ≠ (w.ifs e).ifIndex
  peer : ∀ e ∈ w.listed, matchNetnsid (w.ifs e).peerNetnsid (w.nss (w.ifs e).ns) =
    some (w.ifs e).ns → (w.ifs e).peerIndex ≠ (w.ifs e).ifIndex

def PostCalls.others : PostCalls :=
  ⟨fun e found => found ≠ e, fun e found => found ≠ e, fun _ => False⟩

section
variable {input : PostInput} {w v v' : World}

/-- An id leads from an interface to itself only with its own index. -/
theorem not_matchIfNetnsid_self (h : w.Scanned) {e : IfPtr} (he : e ∈ w.listed)
    {ifindex : UInt32} {netnsid : Int}
    (hforeign : matchNetnsid netnsid (w.nss (w.ifs e).ns) = some (w.ifs e).ns →
      ifindex ≠ (w.ifs e).ifIndex) :
    matchIfNetnsid ifindex netnsid (w.nss (w.ifs e).ns) w ≠ some e := by
  intro hself
  obtain ⟨i, hi, hmem, hindex⟩ := World.matchIfNetnsid_eq_some hself
  have hlisted := h.ids _ (h.ns_mem he) i (List.mem_of_find?_eq_some hi)
  have hhome : (w.ifs e).ns = i.ns := h.home i.ns hlisted e hmem
  apply hforeign _ hindex.symm
  rw [matchNetnsid, hi, Option.map_some, hhome]

theorem Irreflexive.start (h : Collected w) (hforeign : ForeignIndexes w) :
    Irreflexive (matchAllNetnsid w) := by
  have hpeer : ∀ e ∈ w.listed, w.peerTarget e ≠ some e :=
    fun e he => not_matchIfNetnsid_self h.scanned he (hforeign.peer e he)
  refine ⟨fun e => ?_, fun e hself => ?_, fun e hself => ?_⟩
  · rw [h.master_eq]
    exact nofun
  · rw [h.matched.link, h.link] at hself
    split_ifs at hself with haway
    exact not_matchIfNetnsid_self h.scanned haway.1 (hforeign.link e haway.1) hself
  · rcases peer_matched h hself with ⟨he, -, htarget⟩ | ⟨he, -, htarget⟩
    · exact hpeer e he htarget
    · exact hpeer e he htarget

theorem Irreflexive.step (hothers : input.calls = .others) (hstep : PostStep input v v')
    (hv : Irreflexive v) : Irreflexive v' := by
  refine ⟨fun e hself => ?_, fun e hself => ?_, fun e hself => ?_⟩
  · rcases hstep.master hself with hold | hcall
    · exact hv.master e hold
    · have hcall := hcall rfl
      rw [hothers] at hcall
      exact hcall
  · rcases hstep.link hself with hold | ⟨-, hne⟩ | hcall
    · exact hv.link e hold
    · exact hne rfl
    · rw [hothers] at hcall
      exact hcall rfl
  · have hpeer := hstep.peer hself
    rw [hothers] at hpeer
    rcases hpeer with hold | hcall | hcall
    · exact hv.peer e hold
    · exact hcall rfl
    · exact hcall rfl

theorem Irreflexive.run (h : Collected w) (hforeign : ForeignIndexes w)
    (hothers : input.calls = .others) (hrun : PostRun input (matchAllNetnsid w) v) :
    Irreflexive v := by
  induction hrun with
  | refl => exact Irreflexive.start h hforeign
  | tail _ hstep ih => exact ih.step hothers hstep

end

/-- As long as no call of `netns_fill_list` is to relate an interface to itself, none is in the
end. -/
theorem irreflexive_filled (ovs : OvsEnv) (env : HandlerEnv) {root : NsPtr}
    {answer : Option (Except CStr Json)} {s s' : ScanState} {r : Except Stop Unit}
    (h : Collected s.world) (hroot : root ∈ s.world.nsList) (hforeign : ForeignIndexes s.world)
    (hcalls : FillMakes ovs env root answer s .others)
    (hrun : fillListPost ovs env root answer s = some (r, s')) : Irreflexive s'.world := by
  obtain ⟨bridges, -, hsteps⟩ := fillListPost_steps h hroot hcalls hrun
  exact Irreflexive.run h hforeign rfl hsteps

/-- A tunnel and another device of the same name space; one of them holds the local address of
the tunnel. -/
def addressScan (own : Bool) : ScanState where
  world :=
    { ifs := fun e =>
        if e = 0 then
          { ifName := cstr "gre1", driver := some (cstr "gre"), flags := { up := true },
            addr := [⟨{ family := AF_INET, raw := some [10, 0, 0, if own then 1 else 2] }, {}⟩] }
        else
          { ifName := cstr "eth0", flags := { up := true },
            addr := [⟨{ family := AF_INET, raw := some [10, 0, 0, if own then 2 else 1] }, {}⟩] }
      nss := fun _ => { ifaces := [0, 1] }
      nsList := [0]
      free := [] }
  priv := fun e =>
    if e = 0 then .live (.tunnel { family := AF_INET, raw := some [10, 0, 0, 1] }) else .unset

theorem addressScan_collected (own : Bool) : Collected (addressScan own).world := by
  have hscanned : (addressScan own).world.Scanned := by
    cases own <;> exact ⟨by decide, by decide, by decide, by decide, by decide, by decide, by decide⟩
  have hentries : ∀ e, (addressScan own).world.ifs e ∈
      [(addressScan own).world.ifs 0, (addressScan own).world.ifs 1] := by
    intro e
    by_cases he : e = 0
    · subst he
      exact List.mem_cons_self
    · have hsame : (addressScan own).world.ifs e = (addressScan own).world.ifs 1 := if_neg he
      rw [hsame]
      exact List.mem_cons_of_mem _ List.mem_cons_self
  apply Collected.of_entries hscanned hentries
  cases own <;> decide

theorem addressScan_foreign (own : Bool) : ForeignIndexes (addressScan own).world := by
  cases own <;> exact ⟨by decide, by decide⟩

theorem irreflexive_filled_device : ∃ s', fillListPost default plainEnv 0 none
    (addressScan false) = some (.ok (), s') ∧ (s'.world.ifs 0).link = some 1 ∧
      Irreflexive s'.world := by
  obtain ⟨s', hrun, hends⟩ : ∃ s', fillListPost default plainEnv 0 none
      (addressScan false) = some (.ok (), s') ∧ decide ((s'.world.ifs 0).link = some 1) = true :=
    exists_of_ends (by decide +kernel)
  have hcollected := addressScan_collected false
  have hcalls : FillMakes default plainEnv 0 none (addressScan false) .others := by
    apply FillMakes.ofTunnels hcollected List.mem_cons_self
    · decide
    · intro e he data found hlocal hholder
      have he : e ∈ [0, 1] := he
      simp only [List.mem_cons, List.not_mem_nil, or_false] at he
      rcases he with rfl | rfl
      · have hdata : { family := AF_INET, raw := some [10, 0, 0, 1] } = data :=
          Option.some.inj hlocal
        subst hdata
        rintro rfl
        exact absurd hholder (by decide +kernel)
      · cases hlocal
  exact ⟨s', hrun, of_decide_eq_true hends, irreflexive_filled default plainEnv hcollected
    List.mem_cons_self (addressScan_foreign false) hcalls hrun⟩

/-- The tunnel holds the address itself, and is linked to itself. -/
theorem tunnel_linked_itself : ¬ ∀ (ovs : OvsEnv) (env : HandlerEnv) (root : NsPtr)
    (answer : Option (Except CStr Json)) (s s' : ScanState), Collected s.world →
      root ∈ s.world.nsList → ForeignIndexes s.world →
      fillListPost ovs env root answer s = some (.ok (), s') → Irreflexive s'.world := by
  intro h
  obtain ⟨s', hrun, hends⟩ : ∃ s', fillListPost default plainEnv 0 none
      (addressScan true) = some (.ok (), s') ∧ decide ((s'.world.ifs 0).link = some 0) = true :=
    exists_of_ends (by decide +kernel)
  have hirreflexive := h default plainEnv 0 none _ s' (addressScan_collected true)
    List.mem_cons_self (addressScan_foreign true) hrun
  exact hirreflexive.link 0 (of_decide_eq_true hends)

end Plotnetcfg.Handlers
