import Plotnetcfg.Handlers.Openvswitch.LinkSteps
import Plotnetcfg.Handlers.Openvswitch.ReplySafety
import Plotnetcfg.Handlers.Openvswitch.SearchEffect

/-! What `link_iface` makes of the weights that `link_iface_search` gives in the state it starts
from. -/

namespace Plotnetcfg.Openvswitch

def ifaceWeight (env : OvsEnv) (br : OvsBridge) (iface : OvsIf) (s : OvsState) (e : IfPtr) : Int :=
  match br.system.bind (·.ifaces.head?) with
  | none => 0
  | some main =>
    match linkIfaceSearch env br.dpType (s.link main.ptr) iface e s.world with
    | some (.ok weight, _) => weight
    | _ => 0

def ifaceTally (env : OvsEnv) (br : OvsBridge) (iface : OvsIf) (s : OvsState) : Tally IfPtr :=
  Tally.scan (ifaceWeight env br iface s) {} s.world.listed

/-- How the search for an interface that is not linked ends: what it found is `desc`, and `w` is
the topology it leaves. -/
inductive Verdict (root : NsPtr) (required : Bool) (desc : MatchDesc) (w : World) :
    Except Int Unit → World → Prop where
  | mapped (hsole : matchAmbiguous desc = false)
      (hfound : required = true → (matchFound desc).isSome = true) :
      Verdict root required desc w (.ok ()) w
  | ambiguous (htied : matchAmbiguous desc = true) (text : CStr) :
      Verdict root required desc w (.error ERANGE) (w.modifyNs root (·.labelAdd text))
  | missing (hsole : matchAmbiguous desc = false) (hrequired : required = true)
      (hnone : matchFound desc = none) (text : CStr) :
      Verdict root required desc w (.error ENOENT) (w.modifyNs root (·.labelAdd text))

section
variable {env : OvsEnv} {root : NsPtr} {br : OvsBridge} {iface : OvsIf} {s s' : OvsState}
  {required : Bool} {r : Except Int Unit}

theorem linkIface_verdict (hnone : s.link iface.ptr = none)
    (hrun : linkIface env root br iface required s = some (r, s')) :
    ∃ main desc w, br.system.bind (·.ifaces.head?) = some main ∧
      matchIf { netnsList := some s.world.nsList }
        (linkIfaceSearch env br.dpType (s.link main.ptr) iface) s.world = some (.ok desc, w) ∧
      Verdict root required desc w r s'.world ∧
      s'.link = Function.update s.link iface.ptr (matchFound desc) := by
  unfold linkIface at hrun
  rw [Prog.bind_ok s (Prog.get_apply s), if_neg (by simp [hnone])] at hrun
  cases hsystem : br.system with
  | none =>
    rw [hsystem] at hrun
    cases hrun
  | some system =>
    have hderef : (Prog.deref (some system) : OvsProg OvsPort) s = some (.ok system, s) := rfl
    rw [hsystem, Prog.bind_ok s hderef] at hrun
    cases hmain : system.ifaces.head? with
    | none =>
      rw [hmain] at hrun
      cases hrun
    | some main =>
      have hderef : (Prog.deref (some main) : OvsProg OvsIf) s = some (.ok main, s) := rfl
      rw [hmain, Prog.bind_ok s hderef] at hrun
      have hsearch := linkSearch_finds env br (s.link main.ptr) iface s s rfl
      rcases hrunSearch : onWorld (matchIf { netnsList := some s.world.nsList }
        (linkIfaceSearch env br.dpType (s.link main.ptr) iface)) s with _ | ⟨err | desc, t⟩
      · rw [Prog.bind_fault s hrunSearch] at hrun
        cases hrun
      · exact (hsearch _ _ hrunSearch).elim
      rw [Prog.bind_ok s hrunSearch] at hrun
      obtain ⟨w, hfound, rfl⟩ : ∃ w, matchIf { netnsList := some s.world.nsList }
          (linkIfaceSearch env br.dpType (s.link main.ptr) iface) s.world = some (.ok desc, w) ∧
          t = { s with world := w } := by
        unfold onWorld Prog.zoom at hrunSearch
        obtain ⟨⟨r', w⟩, hfound, heq⟩ := Option.map_eq_some_iff.mp hrunSearch
        obtain ⟨rfl, rfl⟩ := Prod.mk.inj heq
        exact ⟨w, hfound, rfl⟩
      refine ⟨main, desc, w, hmain, hfound, ?_⟩
      have hset : setLink iface.ptr (matchFound desc) { s with world := w } =
          some (.ok (), { s with
            world := w
            link := Function.update s.link iface.ptr (matchFound desc) }) := rfl
      rw [Prog.bind_ok _ hset] at hrun
      by_cases hambiguous : matchAmbiguous desc = true
      · rw [if_pos hambiguous] at hrun
        obtain ⟨rfl, rfl⟩ := Prod.mk.inj (Option.some.inj hrun)
        exact ⟨.ambiguous hambiguous _, rfl⟩
      rw [if_neg hambiguous] at hrun
      have hsole : matchAmbiguous desc = false := eq_false_of_ne_true hambiguous
      by_cases hmissing : (required && (matchFound desc).isNone) = true
      · rw [if_pos hmissing] at hrun
        obtain ⟨rfl, rfl⟩ := Prod.mk.inj (Option.some.inj hrun)
        obtain ⟨hrequired, hfound⟩ := (Bool.and_eq_true _ _).mp hmissing
        exact ⟨.missing hsole hrequired (Option.isNone_iff_eq_none.mp hfound) _, rfl⟩
      · rw [if_neg hmissing] at hrun
        obtain ⟨rfl, rfl⟩ := Prod.mk.inj (Option.some.inj hrun)
        refine ⟨.mapped hsole fun hrequired => ?_, rfl⟩
        simpa [hrequired, Option.isSome_iff_ne_none] using hmissing

/-! ## The search -/

theorem ifaceWeight_nonneg (e : IfPtr) : 0 ≤ ifaceWeight env br iface s e := by
  unfold ifaceWeight
  cases br.system.bind (·.ifaces.head?) with
  | none => exact le_refl 0
  | some main =>
    have hres := linkIfaceSearch_triple env br.dpType (s.link main.ptr) iface e (I := fun _ => True)
      (E := fun _ => False) (fun _ _ => trivial) s.world trivial
    dsimp only
    split
    · rename_i hrun
      exact (hres _ _ hrun).1
    · exact le_refl 0

theorem ifaceWeight_marks (hwrites : Writes br iface) {main : OvsIf}
    (hmain : br.system.bind (·.ifaces.head?) = some main) (e : IfPtr) :
    ifaceWeight env br iface s e = markWeight (s.link main.ptr) iface s.world e := by
  have hstart : MarkedOf iface s.world [] s.world := by
    refine ⟨rfl, fun x => ?_⟩
    rw [if_neg fun h => List.not_mem_nil h.1]
  have hweighs : Prog.Runs (MarkedOf iface s.world [])
      (linkIfaceSearch env br.dpType (s.link main.ptr) iface e)
      (fun weight w => weight = markWeight (s.link main.ptr) iface s.world e ∧
        MarkedOf iface s.world ([] ++ [e]) w) fun _ => False :=
    linkIfaceSearch_marks hwrites List.not_mem_nil
  have hres := hweighs s.world hstart
  unfold ifaceWeight
  rw [hmain]
  dsimp only
  rcases hrun : linkIfaceSearch env br.dpType (s.link main.ptr) iface e s.world with
    _ | ⟨err | weight, w⟩
  · dsimp only
    symm
    apply markWeight_zero
    intro hmarks
    apply (safe_linkIfaceSearch env br.dpType (s.link main.ptr) iface e s.world).mpr _ hrun
    intro _ _ _
    rw [hmarks.driver]
    rfl
  · exact (hres _ _ hrun).elim
  · exact (hres _ _ hrun).1

/-- The search tallies these weights, and marks the devices if it is one that writes. -/
theorem linkSearch_weighs {main : OvsIf} (hmain : br.system.bind (·.ifaces.head?) = some main)
    (hnodup : s.world.listed.Nodup) {desc : MatchDesc} {w : World}
    (hrun : matchIf { netnsList := some s.world.nsList }
      (linkIfaceSearch env br.dpType (s.link main.ptr) iface) s.world = some (.ok desc, w)) :
    desc.tally = ifaceTally env br iface s ∧ w.nss = s.world.nss ∧
      ∀ x, w.ifs x = if Writes br iface ∧ x ∈ s.world.listed ∧ Marks iface s.world x then
        marked (s.world.ifs x) else s.world.ifs x := by
  by_cases hwrites : Writes br iface
  · obtain ⟨hmarked, htally⟩ := linkSearch_marks hwrites hnodup _ _ rfl _ _ hrun
    have hweights : markWeight (s.link main.ptr) iface s.world = ifaceWeight env br iface s :=
      funext fun e => (ifaceWeight_marks hwrites hmain e).symm
    refine ⟨by rw [htally, hweights, ifaceTally], hmarked.nss, fun x => ?_⟩
    rw [hmarked.ifs]
    simp only [hwrites, true_and]
  · have hweighs : Weighs (linkIfaceSearch env br.dpType (s.link main.ptr) iface) s.world
        (ifaceWeight env br iface s) := by
      refine ⟨ifaceWeight_nonneg, fun e => ?_⟩
      rintro _ rfl r w' hrun
      have hkeeps : Prog.Runs (· = s.world) (linkIfaceSearch env br.dpType (s.link main.ptr) iface e)
          (fun weight w => 0 ≤ weight ∧ w = s.world) fun _ => False :=
        linkIfaceSearch_unchanged hwrites e s.world
      have hpost := hkeeps s.world rfl r w' hrun
      cases r with
      | error err => exact hpost
      | ok weight =>
        refine ⟨?_, hpost.2⟩
        unfold ifaceWeight
        rw [hmain]
        dsimp only
        rw [hrun]
    obtain ⟨htallied, rfl⟩ := matchIf_tally hweighs { netnsList := some s.world.nsList } rfl rfl
      s.world rfl _ _ hrun
    refine ⟨?_, rfl, fun x => ?_⟩
    · rw [htallied.tally]
      simp [MatchDesc.entries, MatchDesc.tally, World.listed, ifaceTally]
    · rw [if_neg fun h => hwrites h.1]

structure Mapping (env : OvsEnv) (br : OvsBridge) (iface : OvsIf) (required : Bool) (s : OvsState)
    (r : Except Int Unit) (s' : OvsState) : Prop where
  link : s'.link = Function.update s.link iface.ptr (ifaceTally env br iface s).winner
  nsList : s'.world.nsList = s.world.nsList
  free : s'.world.free = s.world.free
  nss : ∀ n, ∃ warnings, s'.world.nss n = { s.world.nss n with warnings := warnings }
  ifs : ∀ x, s'.world.ifs x =
    if Writes br iface ∧ x ∈ s.world.listed ∧ Marks iface s.world x then marked (s.world.ifs x)
    else s.world.ifs x
  mapped : r = .ok () ↔ ¬ (ifaceTally env br iface s).Tied ∧
    (required = true → (ifaceTally env br iface s).winner ≠ none)
  ambiguous : r = .error (ERANGE : Int) ↔ (ifaceTally env br iface s).Tied
  missing : r = .error (ENOENT : Int) ↔ ¬ (ifaceTally env br iface s).Tied ∧ required = true ∧
    (ifaceTally env br iface s).winner = none

theorem linkIface_mapping (hnone : s.link iface.ptr = none) (hnodup : s.world.listed.Nodup)
    (hrun : linkIface env root br iface required s = some (r, s')) :
    Mapping env br iface required s r s' := by
  have hnsList : s'.world.nsList = s.world.nsList ∧ s'.world.free = s.world.free := by
    have hlooked := linkIface_looked env root br iface required s s rfl r s' hrun
    cases r with
    | error err => exact ⟨hlooked.world.frame.nsList, hlooked.world.frame.free⟩
    | ok u => exact ⟨hlooked.1.world.frame.nsList, hlooked.1.world.frame.free⟩
  obtain ⟨main, desc, w, hmain, hsearch, hverdict, hlink⟩ := linkIface_verdict hnone hrun
  obtain ⟨htally, hnss, hifs⟩ := linkSearch_weighs hmain hnodup hsearch
  have htied : matchAmbiguous desc = true ↔ (ifaceTally env br iface s).Tied := by
    rw [matchAmbiguous_iff, htally]
  have hwinner : matchFound desc = (ifaceTally env br iface s).winner := by
    rw [matchFound_eq, htally]
  have hwarned : ∀ text n, ∃ warnings, (w.modifyNs root (·.labelAdd text)).nss n =
      { s.world.nss n with warnings := warnings } := by
    intro text n
    rw [World.modifyNs_nss, hnss]
    split_ifs
    · exact ⟨_, rfl⟩
    · exact ⟨_, rfl⟩
  rw [hwinner] at hlink
  generalize hworld : s'.world = w' at hverdict hnsList
  cases hverdict with
  | mapped hsole hfound =>
    have hnot : ¬ (ifaceTally env br iface s).Tied := by
      rw [← htied, hsole]
      exact Bool.false_ne_true
    rw [hwinner] at hfound
    have hfound : required = true → (ifaceTally env br iface s).winner ≠ none :=
      fun h => Option.isSome_iff_ne_none.mp (hfound h)
    refine ⟨hlink, hworld ▸ hnsList.1, hworld ▸ hnsList.2, fun n => ⟨_, by rw [hworld, hnss]⟩,
      fun x => hworld ▸ hifs x, iff_of_true rfl ⟨hnot, hfound⟩, iff_of_false nofun hnot,
      iff_of_false nofun fun h => hfound h.2.1 h.2.2⟩
  | ambiguous hambiguous text =>
    have htie := htied.mp hambiguous
    refine ⟨hlink, hworld ▸ hnsList.1, hworld ▸ hnsList.2, fun n => hworld ▸ hwarned text n,
      fun x => hworld ▸ hifs x, iff_of_false nofun fun h => h.1 htie, iff_of_true rfl htie,
      iff_of_false (by decide) fun h => h.1 htie⟩
  | missing hsole hrequired hnone' text =>
    have hnot : ¬ (ifaceTally env br iface s).Tied := by
      rw [← htied, hsole]
      exact Bool.false_ne_true
    rw [hwinner] at hnone'
    refine ⟨hlink, hworld ▸ hnsList.1, hworld ▸ hnsList.2, fun n => hworld ▸ hwarned text n,
      fun x => hworld ▸ hifs x, iff_of_false nofun fun h => h.2 hrequired hnone',
      iff_of_false (by decide) hnot, iff_of_true rfl ⟨hnot, hrequired, hnone'⟩⟩

end

end Plotnetcfg.Openvswitch
