import Plotnetcfg.Handlers.Mirror
import Plotnetcfg.Handlers.PostReturns

/-! What `if_handler_post` makes of a topology: the lower device of a tunnel, the physical function
of a virtual one, the active slave of a bond or a team and its passive ones. -/

namespace Plotnetcfg.Handlers

/-! ## Choices -/

@[ext]
structure Picks where
  link : IfPtr → Option IfPtr
  physfn : IfPtr → Option IfPtr
  activeSlave : IfPtr → Option IfPtr
  passive : IfPtr → Bool

def picksOf (w : World) : Picks where
  link x := (w.ifs x).link
  physfn x := (w.ifs x).physfn
  activeSlave x := (w.ifs x).activeSlave
  passive x := (w.ifs x).flags.passiveSlave

structure Picked (w₀ : World) (p : Picks) (w : World) : Prop where
  nsList : w.nsList = w₀.nsList
  ifaces : ∀ n, (w.nss n).ifaces = (w₀.nss n).ifaces
  kept : ∀ x, (w.ifs x).unrelated = (w₀.ifs x).unrelated
  masters : ∀ x, (w.ifs x).master = (w₀.ifs x).master ∧ (w.ifs x).revMaster = (w₀.ifs x).revMaster
  picks : picksOf w = p

def At (s₀ : ScanState) (p : Picks) (s : ScanState) : Prop :=
  s.priv = s₀.priv ∧ Picked s₀.world p s.world

/-- If `prog` returns, it has made `p'` of the choices `p`. -/
def Chooses (s₀ : ScanState) (p : Picks) (prog : HandlerProg Unit) (p' : Picks) : Prop :=
  Prog.Triple (At s₀ p) prog (fun _ => At s₀ p') fun _ _ => True

section
variable {w₀ w : World} {p p' p'' : Picks} {s₀ : ScanState}

theorem Picked.field {α : Type} (h : Picked w₀ p w) (field : IfEntry → α)
    (hfield : ∀ y, field y.unrelated = field y) (x : IfPtr) : field (w.ifs x) = field (w₀.ifs x) := by
  rw [← hfield, h.kept, hfield]

theorem Picked.listed (h : Picked w₀ p w) : w.listed = w₀.listed := by
  unfold World.listed
  rw [h.nsList]
  exact List.flatMap_congr fun n _ => h.ifaces n

theorem Picked.write (h : Picked w₀ p w) {v : World} (hlists : v.nss = w.nss ∧ v.nsList = w.nsList)
    (hkept : ∀ x, (v.ifs x).unrelated = (w.ifs x).unrelated)
    (hmasters : ∀ x, (v.ifs x).master = (w.ifs x).master ∧
      (v.ifs x).revMaster = (w.ifs x).revMaster) (hpicks : picksOf v = p') : Picked w₀ p' v := by
  refine ⟨hlists.2.trans h.nsList, fun n => ?_, fun x => (hkept x).trans (h.kept x), fun x => ?_,
    hpicks⟩
  swap
  · exact ⟨(hmasters x).1.trans (h.masters x).1, (hmasters x).2.trans (h.masters x).2⟩
  rw [hlists.1]
  exact h.ifaces n

theorem Picked.modifyIf (h : Picked w₀ p w) (x : IfPtr) {f : IfEntry → IfEntry}
    (hkept : ∀ y, (f y).unrelated = y.unrelated)
    (hmasters : ∀ y, (f y).master = y.master ∧ (f y).revMaster = y.revMaster)
    (hpicks : picksOf (w.modifyIf x f) = p') : Picked w₀ p' (w.modifyIf x f) :=
  h.write ⟨rfl, rfl⟩ (modifyIf_unrelated hkept x · w)
    (fun z => ⟨modifyIf_field IfEntry.master (fun y => (hmasters y).1) x z w,
      modifyIf_field IfEntry.revMaster (fun y => (hmasters y).2) x z w⟩) hpicks

theorem Picked.label (h : Picked w₀ p w) (x : IfPtr) {f : IfEntry → IfEntry}
    (hkept : ∀ y, (f y).unlabelled = y.unlabelled)
    (hchosen : ∀ y, (f y).activeSlave = y.activeSlave ∧
      (f y).flags.passiveSlave = y.flags.passiveSlave) : Picked w₀ p (w.modifyIf x f) := by
  have hkeep : ∀ {α : Type} (field : IfEntry → α), (∀ y, field y.unlabelled = field y) → ∀ z,
      field ((w.modifyIf x f).ifs z) = field (w.ifs z) :=
    fun field hfield z => label_field field hfield hkept x z w
  refine h.write ⟨rfl, rfl⟩ (fun z => ?_)
    (fun z => ⟨hkeep IfEntry.master (fun _ => rfl) z, hkeep IfEntry.revMaster (fun _ => rfl) z⟩) ?_
  · exact modifyIf_unrelated (fun y => IfEntry.unrelated_of_unlabelled (hkept y)) x z w
  · rw [← h.picks]
    apply Picks.ext
    · exact funext (hkeep IfEntry.link fun _ => rfl)
    · exact funext (hkeep IfEntry.physfn fun _ => rfl)
    · exact funext fun z => modifyIf_field IfEntry.activeSlave (fun y => (hchosen y).1) x z w
    · exact funext fun z =>
        modifyIf_field (fun y => y.flags.passiveSlave) (fun y => (hchosen y).2) x z w

theorem Chooses.pure : Chooses s₀ p (pure ()) p := Prog.Triple.pure fun _ => id

theorem Chooses.bind {prog : HandlerProg Unit} {next : Unit → HandlerProg Unit}
    (h : Chooses s₀ p prog p') (hnext : Chooses s₀ p' (next ()) p'') :
    Chooses s₀ p (prog >>= next) p'' := Prog.Triple.bind h fun _ => hnext

theorem Chooses.get {next : ScanState → HandlerProg Unit}
    (h : ∀ s, At s₀ p s → Chooses s₀ p (next s) p') : Chooses s₀ p (Prog.get >>= next) p' :=
  fun s hs => h s hs s hs

theorem Chooses.modifyWorld {f : World → World}
    (h : ∀ w, Picked s₀.world p w → Picked s₀.world p' (f w)) :
    Chooses s₀ p (modifyWorld f) p' := by
  rintro s ⟨hpriv, hpicked⟩ r s' hrun
  obtain ⟨rfl, rfl⟩ := Prod.mk.inj (Option.some.inj hrun)
  exact ⟨hpriv, h s.world hpicked⟩

theorem Chooses.search {α : Type} {prog : Prog Int World α} {next : α → HandlerProg Unit} {R : α → Prop}
    (hprog : ∀ w, Picked s₀.world p w →
      Prog.Runs (· = w) prog (fun a w' => R a ∧ w' = w) fun _ => False)
    (h : ∀ a, R a → Chooses s₀ p (next a) p') : Chooses s₀ p (onWorld prog >>= next) p' := by
  apply Prog.Triple.bind (Q := fun a s => R a ∧ At s₀ p s)
  · unfold onWorld
    apply Prog.Triple.zoom
    rintro s ⟨hpriv, hpicked⟩
    apply Prog.Triple.mapError
    rintro _ rfl r w hrun
    have hpost := hprog s.world hpicked _ rfl r w hrun
    cases r with
    | ok a =>
      obtain ⟨hfound, rfl⟩ := hpost
      exact ⟨hfound, hpriv, hpicked⟩
    | error err => trivial
  · intro a
    apply Prog.Triple.of_and
    exact h a

theorem Chooses.derefPrivate {α : Type} {view : Private → Option α} {e : IfPtr}
    {next : α → HandlerProg Unit}
    (h : ∀ priv a, s₀.priv e = .live priv → view priv = some a → Chooses s₀ p (next a) p') :
    Chooses s₀ p (derefPrivate view e >>= next) p' := by
  intro s hs r s' hrun
  cases r with
  | error stop => trivial
  | ok u =>
    obtain ⟨a, s₁, hread, hnext⟩ := Prog.bind_eq_ok s |>.mp hrun
    obtain ⟨⟨priv, hlive, hview⟩, rfl⟩ := (derefPrivate_returnsIff view).post hread
    rw [hs.1] at hlive
    exact h priv a hlive hview _ hs (.ok u) s' hnext

theorem Chooses.deref {α : Type} {x : Option α} {next : α → HandlerProg Unit}
    (h : ∀ a, x = some a → Chooses s₀ p (next a) p') :
    Chooses s₀ p (Prog.deref x >>= next) p' := by
  apply Prog.Triple.bind (Q := fun a s => x = some a ∧ At s₀ p s)
  · exact Prog.Triple.deref fun a ha _ hs => ⟨ha, hs⟩
  · intro a
    apply Prog.Triple.of_and
    exact h a

theorem addConfig_chooses (e : IfPtr) (key value : CStr) :
    Chooses s₀ p (addConfig e key value) p :=
  Chooses.modifyWorld fun _ h => h.label e (fun _ => rfl) fun _ => ⟨rfl, rfl⟩

end

/-! ## Slaves -/

def Picks.mark (e slave : IfPtr) (active : Bool) (p : Picks) : Picks :=
  if active then { p with activeSlave := Function.update p.activeSlave e (some slave) }
  else { p with passive := Function.update p.passive slave true }

/-- The last slave that passes the test is the active one; those that do not are passive. -/
def Picks.marked (e : IfPtr) (test : IfPtr → Bool) (slaves : List IfPtr) (p : Picks) : Picks :=
  { p with
    activeSlave := Function.update p.activeSlave e
      ((slaves.filter test).getLast?.or (p.activeSlave e))
    passive := fun x => p.passive x || (decide (x ∈ slaves) && !test x) }

/-- How the post callback of a bond or a team tells the active slave. -/
def slaveTest (s : ScanState) (e : IfPtr) : Option (IfEntry → Bool) :=
  match s.priv e with
  | .live (.bond priv) =>
    if priv.activeSlaveIndex ≠ 0 ∨ priv.activeSlaveName.isSome then some (matchActiveSlave priv)
    else none
  | .live (.team port) =>
    (port.bind fun jport => jsonStringValue (some jport)).map fun name x => x.ifName = name
  | _ => none

section
variable {w₀ w : World} {p : Picks} {s₀ : ScanState} {e : IfPtr}

theorem Picks.marked_nil (e : IfPtr) (test : IfPtr → Bool) (p : Picks) : p.marked e test [] = p := by
  apply Picks.ext
  · rfl
  · rfl
  · exact Function.update_eq_self e p.activeSlave
  · funext x
    simp [Picks.marked]

theorem Picks.marked_cons (e : IfPtr) (test : IfPtr → Bool) (slave : IfPtr) (slaves : List IfPtr)
    (p : Picks) :
    (p.mark e slave (test slave)).marked e test slaves = p.marked e test (slave :: slaves) := by
  unfold Picks.mark Picks.marked
  cases htest : test slave with
  | true =>
    rw [if_pos rfl]
    apply Picks.ext
    · rfl
    · rfl
    · funext x
      simp only [List.filter_cons, htest, if_true, Function.update_self, Function.update_idem]
      cases hrest : slaves.filter test with
      | nil => rfl
      | cons y ys => rw [List.getLast?_cons_cons, List.getLast?_cons, Option.some_or, Option.some_or]
    · funext x
      by_cases hx : x = slave
      · simp [hx, htest]
      · simp [hx]
  | false =>
    rw [if_neg (by decide)]
    apply Picks.ext
    · rfl
    · rfl
    · simp [htest]
    · funext x
      by_cases hx : x = slave
      · simp [hx, htest]
      · simp [hx]

theorem picksOf_modifyIf (w : World) (e : IfPtr) (f : IfEntry → IfEntry) :
    picksOf (w.modifyIf e f) =
      { link := Function.update (picksOf w).link e (f (w.ifs e)).link
        physfn := Function.update (picksOf w).physfn e (f (w.ifs e)).physfn
        activeSlave := Function.update (picksOf w).activeSlave e (f (w.ifs e)).activeSlave
        passive := Function.update (picksOf w).passive e (f (w.ifs e)).flags.passiveSlave } := by
  have hfield : ∀ {α : Type} (field : IfEntry → α),
      (fun x => field ((w.modifyIf e f).ifs x)) =
        Function.update (fun x => field (w.ifs x)) e (field (f (w.ifs e))) := by
    intro α field
    funext x
    rw [World.modifyIf_ifs, Function.update_apply]
    split_ifs with hx
    · rw [hx]
    · rfl
  exact Picks.ext (hfield IfEntry.link) (hfield IfEntry.physfn) (hfield IfEntry.activeSlave)
    (hfield fun y => y.flags.passiveSlave)

theorem markSlave_picked (h : Picked w₀ p w) (e slave : IfPtr) (key : CStr) (active : Bool) :
    Picked w₀ (p.mark e slave active) (markSlave e slave key active w) := by
  have hpicks := h.picks
  unfold markSlave Picks.mark
  cases active with
  | true =>
    rw [if_pos rfl, if_pos rfl]
    let choose : IfEntry → IfEntry := fun x => { x with activeSlave := some slave }
    have hset : Picked w₀ { p with activeSlave := Function.update p.activeSlave e (some slave) }
        (w.modifyIf e choose) := by
      refine h.modifyIf e (fun _ => rfl) (fun _ => ⟨rfl, rfl⟩) ?_
      rw [picksOf_modifyIf, ← hpicks]
      exact Picks.ext (Function.update_eq_self ..) (Function.update_eq_self ..) rfl
        (Function.update_eq_self ..)
    exact hset.label e (fun _ => rfl) fun _ => ⟨rfl, rfl⟩
  | false =>
    rw [if_neg (by decide), if_neg (by decide)]
    refine h.modifyIf slave (fun _ => rfl) (fun _ => ⟨rfl, rfl⟩) ?_
    rw [picksOf_modifyIf, ← hpicks]
    exact Picks.ext (Function.update_eq_self ..) (Function.update_eq_self ..)
      (Function.update_eq_self ..) rfl

theorem markSlaves_chooses {test : IfPtr → Bool} {mark : IfPtr → HandlerProg Unit}
    (hmark : ∀ p slave, Chooses s₀ p (mark slave) (p.mark e slave (test slave)))
    (slaves : List IfPtr) (p : Picks) :
    Chooses s₀ p (Prog.forEach slaves mark) (p.marked e test slaves) := by
  induction slaves generalizing p with
  | nil =>
    rw [Picks.marked_nil]
    exact Chooses.pure
  | cons slave slaves ih =>
    rw [← Picks.marked_cons]
    exact Chooses.bind (hmark p slave) (ih _)

def bondPicks (s₀ : ScanState) (e : IfPtr) (p : Picks) : Picks :=
  match slaveTest s₀ e with
  | some test => p.marked e (fun x => test (s₀.world.ifs x)) (s₀.world.ifs e).revMaster
  | none => p

def teamPicks (s₀ : ScanState) (e : IfPtr) (p : Picks) : Picks :=
  if (p.activeSlave e).isSome then p else bondPicks s₀ e p

theorem matchActiveSlave_picked (h : Picked w₀ p w) (priv : BondPrivate) (x : IfPtr) :
    matchActiveSlave priv (w.ifs x) = matchActiveSlave priv (w₀.ifs x) := by
  unfold matchActiveSlave
  rw [h.field IfEntry.ifIndex fun _ => rfl, h.field IfEntry.ifName fun _ => rfl]

theorem bondPost_chooses : Chooses s₀ p (bondPost e) (bondPicks s₀ e p) := by
  apply Chooses.derefPrivate
  intro block priv hlive hview
  obtain rfl : block = .bond priv := by
    cases block with
    | bond own => rw [Option.some.inj hview]
    | _ => cases hview
  have htest : slaveTest s₀ e =
      if priv.activeSlaveIndex ≠ 0 ∨ priv.activeSlaveName.isSome then some (matchActiveSlave priv)
      else none := by
    unfold slaveTest
    rw [hlive]
  have hlabel : Chooses s₀ p (withSome (bondModeLabel priv) (addConfig e (cstr "mode"))) p := by
    cases bondModeLabel priv with
    | none => exact Chooses.pure
    | some label => exact addConfig_chooses e _ _
  apply Chooses.bind hlabel
  unfold bondPicks
  rw [htest]
  split_ifs
  · apply Chooses.get
    intro s hs
    rw [(hs.2.masters e).2]
    apply markSlaves_chooses
    intro p slave
    apply Chooses.get
    intro s hs
    rw [matchActiveSlave_picked hs.2]
    exact Chooses.modifyWorld fun _ h => markSlave_picked h e slave _ _
  · exact Chooses.pure

theorem teamPost_chooses : Chooses s₀ p (teamPost e) (teamPicks s₀ e p) := by
  apply Chooses.get
  intro s hs
  have hactive : (s.world.ifs e).activeSlave = p.activeSlave e :=
    congrFun (congrArg Picks.activeSlave hs.2.picks) e
  rw [hactive]
  unfold teamPicks
  split_ifs
  · exact Chooses.pure
  apply Chooses.derefPrivate
  intro block port hlive hview
  obtain rfl : block = .team port := by
    cases block with
    | team own => rw [Option.some.inj hview]
    | _ => cases hview
  have htest : slaveTest s₀ e =
      (port.bind fun jport => jsonStringValue (some jport)).map fun name x =>
        decide (x.ifName = name) := by
    unfold slaveTest
    rw [hlive]
  cases port with
  | none =>
    rw [bondPicks, htest]
    exact Chooses.pure
  | some jport =>
    have hname : slaveTest s₀ e =
        (jsonStringValue (some jport)).map fun name x => decide (x.ifName = name) := htest
    unfold bondPicks
    rw [(hs.2.masters e).2, hname]
    show Chooses s₀ p (Prog.forEach (s₀.world.ifs e).revMaster _) _
    cases hactive : jsonStringValue (some jport) with
    | none =>
      -- no slave survives that
      apply Prog.Triple.forEach
      intro slave _
      apply Chooses.get
      intro s hs
      apply Chooses.deref
      intro name hsome
      cases hsome
    | some name =>
      apply markSlaves_chooses
      intro p slave
      apply Chooses.get
      intro s hs
      apply Chooses.deref
      intro name' hsome
      obtain rfl := Option.some.inj hsome
      rw [hs.2.field IfEntry.ifName fun _ => rfl]
      exact Chooses.modifyWorld fun _ h => markSlave_picked h e slave _ _

end

/-! ## Lower devices and physical functions -/

/-- The address that a tunnel looks for has one holder, in the name space of its lower device. -/
def holderOf (s : ScanState) (e : IfPtr) : Option IfPtr :=
  (blockAddr (s.priv e)).bind fun data =>
    s.world.addrHolder ((s.world.ifs e).linkNet.getD (s.world.ifs e).ns) data

def physfnOf (s : ScanState) (e : IfPtr) : Option IfPtr :=
  (s.world.listed.filter fun x => some e ≠ some x).find? (0 < physfnScore e s.world ·)

def tunnelPicks (s₀ : ScanState) (e : IfPtr) (p : Picks) : Picks :=
  { p with link := Function.update p.link e ((holderOf s₀ e).or (p.link e)) }

def iovPicks (s₀ : ScanState) (e : IfPtr) (p : Picks) : Picks :=
  if (p.physfn e).isSome ∨ (s₀.world.ifs e).pciPhysfnPath = none then p
  else { p with physfn := Function.update p.physfn e (physfnOf s₀ e) }

section
variable {w₀ w : World} {p : Picks} {s₀ : ScanState} {e : IfPtr}

theorem addrHolder_picked (h : Picked w₀ p w) (ns : NsPtr) (data : Addr) :
    w.addrHolder ns data = w₀.addrHolder ns data := by
  have hweight : w.addrWeight data = w₀.addrWeight data := by
    funext x
    unfold World.addrWeight
    rw [h.field (holdsAddr data) fun _ => rfl]
  unfold World.addrHolder
  rw [hweight, h.ifaces]

theorem linkSet_picked (h : Picked w₀ p w) (e found : IfPtr) :
    Picked w₀ { p with link := Function.update p.link e (some found) }
      (linkSet (some found) (some e) w) := by
  have hifs := fun x => linkSet_ifs w x (some found) (some e)
  obtain ⟨hnss, hlist, -⟩ := linkSet_lists w (some found) (some e)
  have hkeep : ∀ {α : Type} (field : IfEntry → α),
      (∀ (y : IfEntry) l rev, field { y with link := l, revLink := rev } = field y) → ∀ x,
      field ((linkSet (some found) (some e) w).ifs x) = field (w.ifs x) := by
    intro α field hfield x
    obtain ⟨l, rev, hx⟩ := hifs x
    rw [hx, hfield]
  refine h.write ⟨hnss, hlist⟩ (hkeep IfEntry.unrelated fun _ _ _ => rfl)
    (fun x => ⟨hkeep IfEntry.master (fun _ _ _ => rfl) x,
      hkeep IfEntry.revMaster (fun _ _ _ => rfl) x⟩) ?_
  rw [← h.picks]
  apply Picks.ext
  · funext x
    show ((linkSet (some found) (some e) w).ifs x).link =
      Function.update (picksOf w).link e (some found) x
    rw [linkSet_link, Function.update_apply]
    rfl
  · exact funext (hkeep IfEntry.physfn fun _ _ _ => rfl)
  · exact funext (hkeep IfEntry.activeSlave fun _ _ _ => rfl)
  · exact funext (hkeep (fun y => y.flags.passiveSlave) fun _ _ _ => rfl)

theorem linkLocal_chooses {data : Addr} (hdata : blockAddr (s₀.priv e) = some data) :
    Chooses s₀ p (linkLocal e data) (tunnelPicks s₀ e p) := by
  apply Chooses.get
  intro s hs
  have hns : (s.world.ifs e).linkNet.getD (s.world.ifs e).ns =
      (s₀.world.ifs e).linkNet.getD (s₀.world.ifs e).ns := by
    rw [hs.2.field IfEntry.linkNet fun _ => rfl, hs.2.field IfEntry.ns fun _ => rfl]
  have hholder : holderOf s₀ e =
      s₀.world.addrHolder ((s₀.world.ifs e).linkNet.getD (s₀.world.ifs e).ns) data := by
    rw [holderOf, hdata, Option.bind_some]
  dsimp only
  rw [hns]
  apply Chooses.search (R := fun found => found = holderOf s₀ e)
  · intro w hw
    have hfind := tunnelFindAddr_holder (w := w) data
      ((s₀.world.ifs e).linkNet.getD (s₀.world.ifs e).ns)
    rwa [addrHolder_picked hw, ← hholder] at hfind
  · rintro found hfound
    unfold tunnelPicks
    rw [← hfound]
    cases found with
    | none =>
      rw [Option.none_or, Function.update_eq_self]
      exact Chooses.pure
    | some found =>
      rw [Option.some_or]
      apply Chooses.bind (Chooses.modifyWorld fun _ h => linkSet_picked h e found)
      exact Chooses.modifyWorld fun _ h => h.label e (fun _ => rfl) fun _ => ⟨rfl, rfl⟩

theorem tunnelPicks_none (h : blockAddr (s₀.priv e) = none) : tunnelPicks s₀ e p = p := by
  rw [tunnelPicks, holderOf, h, Option.bind_none, Option.none_or, Function.update_eq_self]

theorem tunnelPost_chooses : Chooses s₀ p (tunnelPost e) (tunnelPicks s₀ e p) := by
  apply Chooses.derefPrivate
  intro block addr hlive hview
  obtain rfl : block = .tunnel addr := by
    cases block with
    | tunnel own => rw [Option.some.inj hview]
    | _ => cases hview
  have haddr : blockAddr (s₀.priv e) = if 0 ≤ addr.family then some addr else none := by
    rw [hlive]
    rfl
  split_ifs at haddr ⊢
  · exact linkLocal_chooses haddr
  · rw [tunnelPicks_none haddr]
    exact Chooses.pure

theorem vxlanPost_chooses : Chooses s₀ p (vxlanPost e) (tunnelPicks s₀ e p) := by
  apply Chooses.derefPrivate
  intro block priv hlive hview
  obtain rfl : block = .vxlan priv := by
    cases block with
    | vxlan own => rw [Option.some.inj hview]
    | _ => cases hview
  have haddr : blockAddr (s₀.priv e) = priv.localAddr := by
    rw [hlive]
    rfl
  refine Chooses.bind (?_ : Chooses s₀ p _ (tunnelPicks s₀ e p)) ?_
  · unfold withSome
    cases hlocal : priv.localAddr with
    | none =>
      rw [tunnelPicks_none (haddr.trans hlocal)]
      exact Chooses.pure
    | some data =>
      exact Chooses.bind (addConfig_chooses e _ _) (linkLocal_chooses (haddr.trans hlocal))
  · unfold withSome
    cases priv.group with
    | none => exact Chooses.pure
    | some group => exact addConfig_chooses e _ _

theorem ifAddWarning_picked (h : Picked w₀ p w) (e : IfPtr) (text : CStr) :
    Picked w₀ p (ifAddWarning e text w) := by
  have hcounted := h.label e (f := fun x => { x with warnings := x.warnings + 1 })
    (fun _ => rfl) fun _ => ⟨rfl, rfl⟩
  refine ⟨hcounted.nsList, fun n => ?_, hcounted.kept, hcounted.masters, hcounted.picks⟩
  rw [← hcounted.ifaces]
  exact (ifAddWarning_frame e text w).ifaces n |>.trans rfl

theorem physfnScore_picked (h : Picked w₀ p w) (e : IfPtr) : physfnScore e w = physfnScore e w₀ := by
  funext x
  unfold physfnScore
  rw [h.field IfEntry.pciPath fun _ => rfl, h.field IfEntry.pciPhysfnPath fun _ => rfl]

theorem visited_listed (h : Picked w₀ p w) (e : IfPtr) :
    MatchDesc.visited { mode := .first, netnsList := some w₀.nsList, exclude := some e } w =
      w₀.listed.filter fun x => some e ≠ some x := by
  unfold World.listed
  rw [List.filter_flatMap, List.flatMap_def]
  apply congrArg List.flatten
  apply List.map_congr_left
  intro n _
  rw [h.ifaces]
  rfl

theorem iovPost_chooses : Chooses s₀ p (iovPost e) (iovPicks s₀ e p) := by
  apply Chooses.get
  intro s hs
  have hphysfn : (s.world.ifs e).physfn = p.physfn e :=
    congrFun (congrArg Picks.physfn hs.2.picks) e
  dsimp only
  rw [hphysfn, hs.2.field IfEntry.pciPhysfnPath fun _ => rfl, hs.2.nsList]
  unfold iovPicks
  split_ifs
  · exact Chooses.pure
  apply Chooses.search (R := fun desc => matchFound desc = physfnOf s₀ e)
  · intro w hw w₁ hw₁ r w' hrun
    rw [hw₁] at hrun
    obtain ⟨desc, hsearch, hfound⟩ := matchIf_find (matchPhysfn_scores e w) (physfnScore_le e w)
      (show MatchDesc.Initialised
        { mode := .first, netnsList := some s₀.world.nsList, exclude := some e } from ⟨rfl, nofun⟩)
      rfl
    rw [hsearch] at hrun
    obtain ⟨rfl, rfl⟩ := Prod.mk.inj (Option.some.inj hrun)
    refine ⟨?_, rfl⟩
    rw [hfound, physfnScore_picked hw, physfnOf, visited_listed hw]
  · intro desc hfound
    refine Chooses.bind (?_ : Chooses s₀ p _
      { p with physfn := Function.update p.physfn e (physfnOf s₀ e) }) ?_
    · apply Chooses.modifyWorld
      intro w hw
      refine hw.modifyIf e (fun _ => rfl) (fun _ => ⟨rfl, rfl⟩) ?_
      rw [picksOf_modifyIf, ← hw.picks]
      refine Picks.ext (Function.update_eq_self ..) ?_ (Function.update_eq_self ..)
        (Function.update_eq_self ..)
      rw [← hfound]
    · split_ifs
      · exact Chooses.modifyWorld fun _ h => ifAddWarning_picked h e _
      · exact Chooses.pure

end

/-! ## The turn of an interface -/

section
variable {w : World} {p : Picks} {s₀ : ScanState} {e : IfPtr}

theorem peerSet_picked {w₀ : World} (h : Picked w₀ p w) (first second : Option IfPtr) :
    Picked w₀ p (peerSet first second w) := by
  obtain ⟨hnss, hlist, -⟩ := peerSet_lists w first second
  have hkeep : ∀ {α : Type} (field : IfEntry → α),
      (∀ (y : IfEntry) p, field { y with peer := p } = field y) → ∀ x,
      field ((peerSet first second w).ifs x) = field (w.ifs x) := by
    intro α field hfield x
    obtain ⟨p, hx⟩ := peerSet_ifs w x first second
    rw [hx, hfield]
  refine h.write ⟨hnss, hlist⟩ (hkeep IfEntry.unrelated fun _ _ => rfl)
    (fun x => ⟨hkeep IfEntry.master (fun _ _ => rfl) x,
      hkeep IfEntry.revMaster (fun _ _ => rfl) x⟩) ?_
  rw [← h.picks]
  exact Picks.ext (funext (hkeep IfEntry.link fun _ _ => rfl))
    (funext (hkeep IfEntry.physfn fun _ _ => rfl))
    (funext (hkeep IfEntry.activeSlave fun _ _ => rfl))
    (funext (hkeep (fun y => y.flags.passiveSlave) fun _ _ => rfl))

theorem vethPost_chooses : Chooses s₀ p (onWorld (vethPost e)) p := by
  have hwarn : ∀ text, Prog.Runs (Picked s₀.world p)
      (Prog.modify (ifAddWarning e text) : Prog Int World Unit) (fun _ => Picked s₀.world p)
      fun _ => True :=
    fun text => Prog.Triple.modify fun _ hw => ifAddWarning_picked hw e text
  have hworld : Prog.Runs (Picked s₀.world p) (vethPost e) (fun _ => Picked s₀.world p)
      fun _ => True := by
    unfold vethPost
    apply Prog.Triple.bind (Q := fun w₁ w => w₁ = w ∧ Picked s₀.world p w)
      (Prog.Triple.get fun _ hw => ⟨rfl, hw⟩)
    intro w₁
    apply Prog.Triple.ite
    · exact fun _ => Prog.Triple.pure fun _ hw => hw.2
    intro _
    apply Prog.Triple.ite
    · exact fun _ => Prog.Triple.throw fun _ _ => trivial
    intro _
    have hdesc : MatchDesc.Initialised { netnsList := some w₁.nsList, exclude := some e } :=
      ⟨rfl, nofun⟩
    apply Prog.Triple.bind (Q := fun _ => Picked s₀.world p)
    · rintro _ ⟨rfl, hw⟩ r w' hrun
      have hpost := matchIf_found (matchPeer_weighs _ e) hdesc _ rfl r w' hrun
      cases r with
      | ok desc =>
        obtain ⟨-, rfl⟩ := hpost
        exact hw
      | error err => trivial
    intro desc
    apply Prog.Triple.ite
    · exact fun _ => hwarn _
    intro _
    cases matchFound desc with
    | none => exact hwarn _
    | some found => exact Prog.Triple.modify fun _ hw => peerSet_picked hw _ _
  unfold Chooses onWorld
  apply Prog.Triple.zoom
  rintro s ⟨hpriv, hpicked⟩
  apply Prog.Triple.mapError
  rintro _ rfl r w hrun
  have hpost := hworld _ hpicked r w hrun
  cases r with
  | ok u => exact ⟨hpriv, hpost⟩
  | error err => trivial

def driverPicks (s₀ : ScanState) (e : IfPtr) (driver : Option CStr) (p : Picks) : Picks :=
  if driver = none then iovPicks s₀ e p
  else if driver = some (cstr "bonding") then bondPicks s₀ e p
  else if driver = some (cstr "team") then teamPicks s₀ e p
  else if driver = some (cstr "veth") then p
  else tunnelPicks s₀ e p

def handlerPicks (s₀ : ScanState) (e : IfPtr) (p : Picks) (h : IfHandler) : Picks :=
  if h.post.isSome ∧ driverMatch h (s₀.world.ifs e) then driverPicks s₀ e h.driver p else p

theorem post_chooses (env : HandlerEnv) {h : IfHandler} (hmem : h ∈ ifHandlers env)
    {f : IfPtr → HandlerProg Unit} (hf : h.post = some f) :
    Chooses s₀ p (f e) (driverPicks s₀ e h.driver p) := by
  simp only [ifHandlers, List.mem_cons, List.not_mem_nil, or_false] at hmem
  rcases hmem with rfl | rfl | rfl | rfl | rfl | rfl | rfl | rfl | rfl | rfl | rfl | rfl | rfl |
    rfl | rfl | rfl | rfl | rfl | rfl | rfl | rfl <;> cases hf
  · exact bondPost_chooses
  -- gre
  · exact tunnelPost_chooses
  · exact tunnelPost_chooses
  · exact tunnelPost_chooses
  · exact tunnelPost_chooses
  · exact tunnelPost_chooses
  · exact tunnelPost_chooses
  · exact iovPost_chooses
  -- ipxipy
  · exact tunnelPost_chooses
  · exact tunnelPost_chooses
  · exact tunnelPost_chooses
  · exact teamPost_chooses
  · exact vethPost_chooses
  -- vti
  · exact tunnelPost_chooses
  · exact tunnelPost_chooses
  · exact vxlanPost_chooses

theorem callback_chooses (env : HandlerEnv) {h : IfHandler} (hmem : h ∈ ifHandlers env) :
    Chooses s₀ p (ifHandlerCallback (·.post) e h) (handlerPicks s₀ e p h) := by
  apply Chooses.get
  intro s hs
  have hmatch : driverMatch h (s.world.ifs e) = driverMatch h (s₀.world.ifs e) := by
    unfold driverMatch
    rw [hs.2.field IfEntry.driver fun _ => rfl]
  rw [hmatch]
  dsimp only
  cases hpost : h.post with
  | none =>
    have hskip : handlerPicks s₀ e p h = p := by
      apply if_neg
      rw [hpost]
      exact fun hand => by cases hand.1
    rw [hskip]
    split_ifs <;> exact Chooses.pure
  | some f =>
    have hpicks : handlerPicks s₀ e p h =
        if driverMatch h (s₀.world.ifs e) then driverPicks s₀ e h.driver p else p := by
      unfold handlerPicks
      rw [hpost]
      simp
    rw [hpicks]
    split_ifs
    · exact post_chooses env hmem hpost
    · exact Chooses.pure

theorem forEach_chooses {α : Type} {l : List α} {f : α → HandlerProg Unit} {g : Picks → α → Picks}
    (h : ∀ x ∈ l, ∀ p, Chooses s₀ p (f x) (g p x)) (p : Picks) :
    Chooses s₀ p (Prog.forEach l f) (l.foldl g p) := by
  induction l generalizing p with
  | nil => exact Chooses.pure
  | cons x l ih =>
    apply Chooses.bind (h x List.mem_cons_self p)
    exact ih (fun y hy => h y (List.mem_cons_of_mem x hy)) _

end

/-! ## The choices of a turn -/

/-- A fold of which at most one step writes a field. -/
theorem foldl_once {P ι β : Type} (field : P → β) (step : P → ι → P) {c : ι → Prop}
    [DecidablePred c] {g : β → β}
    (hstep : ∀ p i, field (step p i) = if c i then g (field p) else field p) {l : List ι}
    (hnodup : l.Nodup) (hc : ∀ i j, c i → c j → i = j) (p : P) :
    field (l.foldl step p) = if ∃ i ∈ l, c i then g (field p) else field p := by
  induction l generalizing p with
  | nil => rw [List.foldl_nil, if_neg fun h => by simp at h]
  | cons i l ih =>
    obtain ⟨hi, hl⟩ := List.nodup_cons.mp hnodup
    rw [List.foldl_cons, ih hl, hstep]
    by_cases hci : c i
    · have hrest : ¬ ∃ j ∈ l, c j := by
        rintro ⟨j, hj, hcj⟩
        exact hi (hc i j hci hcj ▸ hj)
      rw [if_neg hrest, if_pos hci, if_pos ⟨i, List.mem_cons_self, hci⟩]
    · simp only [List.exists_mem_cons_iff, hci, false_or, if_false]

def postDrivers : List (Option CStr) :=
  [some (cstr "bonding"), some (cstr "gre"), some (cstr "gretap"), some (cstr "erspan"),
    some (cstr "ip6gre"), some (cstr "ip6gretap"), some (cstr "ip6erspan"), none,
    some (cstr "ipip"), some (cstr "sit"), some (cstr "ip6tnl"), some (cstr "team"),
    some (cstr "veth"), some (cstr "vti"), some (cstr "vti6"), some (cstr "vxlan")]

theorem postDrivers_eq (env : HandlerEnv) :
    (ifHandlers env).filterMap (fun h => if h.post.isSome then some h.driver else none) =
      postDrivers := rfl

def driverStep (s₀ : ScanState) (e : IfPtr) (p : Picks) (driver : Option CStr) : Picks :=
  if driver = none ∨ driver = (s₀.world.ifs e).driver then driverPicks s₀ e driver p else p

def turnPicks (s₀ : ScanState) (p : Picks) (e : IfPtr) : Picks :=
  postDrivers.foldl (driverStep s₀ e) p

/-- The drivers whose interfaces look for a lower device. -/
def linkingDrivers : List CStr := tunnelDrivers ++ [cstr "vxlan"]

/-- The slaves of `e` that are marked, and which of them as the active one. -/
def marking (s : ScanState) (e : IfPtr) (activeSlave : Option IfPtr) : Option (IfPtr → Bool) :=
  if (s.world.ifs e).driver = some (cstr "bonding") ∨
      (s.world.ifs e).driver = some (cstr "team") ∧ activeSlave = none then
    (slaveTest s e).map fun test x => test (s.world.ifs x)
  else none

section
variable {w : World} {p : Picks} {s₀ : ScanState} {e : IfPtr}

theorem foldl_handlerPicks (l : List IfHandler) (p : Picks) :
    l.foldl (handlerPicks s₀ e) p =
      (l.filterMap fun h => if h.post.isSome then some h.driver else none).foldl
        (driverStep s₀ e) p := by
  have hmatch : ∀ h : IfHandler, driverMatch h (s₀.world.ifs e) = true ↔
      h.driver = none ∨ h.driver = (s₀.world.ifs e).driver := by
    intro h
    unfold driverMatch
    cases h.driver with
    | none => simp
    | some d => simp [eq_comm]
  induction l generalizing p with
  | nil => rfl
  | cons h l ih =>
    rw [List.foldl_cons, ih, List.filterMap_cons]
    unfold handlerPicks
    cases hpost : h.post with
    | none => rfl
    | some f =>
      simp only [Option.isSome_some, true_and, hmatch, if_true, List.foldl_cons]
      rfl

theorem postTurn_chooses (env : HandlerEnv) :
    Chooses s₀ p (postTurn env e) (turnPicks s₀ p e) := by
  unfold turnPicks
  rw [← postDrivers_eq env, ← foldl_handlerPicks]
  exact forEach_chooses (fun h hh p => callback_chooses env hh) p

theorem bondPicks_other (s₀ : ScanState) (e : IfPtr) (p : Picks) :
    (bondPicks s₀ e p).link = p.link ∧ (bondPicks s₀ e p).physfn = p.physfn := by
  unfold bondPicks
  cases slaveTest s₀ e <;> exact ⟨rfl, rfl⟩

theorem teamPicks_other (s₀ : ScanState) (e : IfPtr) (p : Picks) :
    (teamPicks s₀ e p).link = p.link ∧ (teamPicks s₀ e p).physfn = p.physfn := by
  unfold teamPicks
  split_ifs
  · exact ⟨rfl, rfl⟩
  · exact bondPicks_other s₀ e p

theorem iovPicks_other (s₀ : ScanState) (e : IfPtr) (p : Picks) :
    (iovPicks s₀ e p).link = p.link ∧ (iovPicks s₀ e p).activeSlave = p.activeSlave ∧
      (iovPicks s₀ e p).passive = p.passive := by
  unfold iovPicks
  split_ifs <;> exact ⟨rfl, rfl, rfl⟩

/-- A driver that is none of those with other callbacks. -/
def Links (driver : Option CStr) : Prop :=
  driver ≠ none ∧ driver ≠ some (cstr "bonding") ∧ driver ≠ some (cstr "team") ∧
    driver ≠ some (cstr "veth")

instance (driver : Option CStr) : Decidable (Links driver) :=
  inferInstanceAs (Decidable (_ ∧ _ ∧ _ ∧ _))

/-- Of the callbacks of a turn at most one writes a field. -/
theorem turnPicks_field {β : Type} (field : Picks → β) {K : Option CStr → Prop} [DecidablePred K]
    {g : β → β}
    (hstep : ∀ p driver, driver = none ∨ driver = (s₀.world.ifs e).driver →
      field (driverPicks s₀ e driver p) = if K driver then g (field p) else field p)
    (hK : ∀ driver, K driver → K none → driver = none) (p : Picks) :
    field (turnPicks s₀ p e) =
      if ∃ driver ∈ postDrivers, K driver ∧ (driver = none ∨ driver = (s₀.world.ifs e).driver)
      then g (field p) else field p := by
  unfold turnPicks
  apply foldl_once
  · intro p driver
    unfold driverStep
    split_ifs with hmine hboth hboth
    · rw [hstep p driver hmine, if_pos hboth.1]
    · rw [hstep p driver hmine, if_neg fun hkind => hboth ⟨hkind, hmine⟩]
    · exact absurd hboth.2 hmine
    · rfl
  · decide
  · rintro i j ⟨hi, hi'⟩ ⟨hj, hj'⟩
    rcases hi' with rfl | rfl
    · exact (hK j hj hi).symm
    · rcases hj' with rfl | rfl
      · exact hK _ hi hj
      · rfl

theorem turnPicks_link (s₀ : ScanState) (e : IfPtr) (p : Picks) : (turnPicks s₀ p e).link =
    if ∃ d ∈ linkingDrivers, (s₀.world.ifs e).driver = some d then
      Function.update p.link e ((holderOf s₀ e).or (p.link e))
    else p.link := by
  have hfilter : postDrivers.filter (Links ·) = linkingDrivers.map some := by decide
  have hiff : (∃ driver ∈ postDrivers, Links driver ∧
      (driver = none ∨ driver = (s₀.world.ifs e).driver)) ↔
      ∃ d ∈ linkingDrivers, (s₀.world.ifs e).driver = some d := by
    constructor
    · rintro ⟨driver, hmem, hlinks, hnone | hmine⟩
      · exact absurd hnone hlinks.1
      · have hfound : driver ∈ postDrivers.filter (Links ·) :=
          List.mem_filter.mpr ⟨hmem, decide_eq_true hlinks⟩
        rw [hfilter] at hfound
        obtain ⟨d, hd, hsome⟩ := List.mem_map.mp hfound
        exact ⟨d, hd, (hsome.trans hmine).symm⟩
    · rintro ⟨d, hd, hmine⟩
      have hfound : some d ∈ postDrivers.filter (Links ·) := by
        rw [hfilter]
        exact List.mem_map_of_mem hd
      obtain ⟨hmem, hlinks⟩ := List.mem_filter.mp hfound
      exact ⟨some d, hmem, of_decide_eq_true hlinks, .inr hmine.symm⟩
  rw [← if_congr hiff rfl rfl]
  apply turnPicks_field Picks.link
    (g := fun link => Function.update link e ((holderOf s₀ e).or (link e)))
  · intro p driver _
    by_cases hlinks : Links driver
    · rw [if_pos hlinks, driverPicks, if_neg hlinks.1, if_neg hlinks.2.1, if_neg hlinks.2.2.1,
        if_neg hlinks.2.2.2]
      rfl
    · rw [if_neg hlinks]
      unfold driverPicks
      split_ifs with hnone hbond hteam hveth
      · exact (iovPicks_other s₀ e p).1
      · exact (bondPicks_other s₀ e p).1
      · exact (teamPicks_other s₀ e p).1
      · rfl
      · exact absurd ⟨hnone, hbond, hteam, hveth⟩ hlinks
  · intro driver _ hnone
    exact absurd rfl hnone.1

theorem turnPicks_physfn (s₀ : ScanState) (e : IfPtr) (p : Picks) : (turnPicks s₀ p e).physfn =
    if (p.physfn e).isSome ∨ (s₀.world.ifs e).pciPhysfnPath = none then p.physfn
    else Function.update p.physfn e (physfnOf s₀ e) := by
  have hturn : (turnPicks s₀ p e).physfn =
      if ∃ driver ∈ postDrivers, driver = none ∧
        (driver = none ∨ driver = (s₀.world.ifs e).driver) then
        if (p.physfn e).isSome ∨ (s₀.world.ifs e).pciPhysfnPath = none then p.physfn
        else Function.update p.physfn e (physfnOf s₀ e)
      else p.physfn := by
    apply turnPicks_field Picks.physfn (K := (· = none))
      (g := fun physfn => if (physfn e).isSome ∨ (s₀.world.ifs e).pciPhysfnPath = none then physfn
        else Function.update physfn e (physfnOf s₀ e))
    · intro p driver _
      unfold driverPicks
      split_ifs with hnone hdone hdone hbond hteam
      · exact congrArg Picks.physfn (if_pos hdone)
      · exact congrArg Picks.physfn (if_neg hdone)
      · exact (bondPicks_other s₀ e p).2
      · exact (teamPicks_other s₀ e p).2
      · rfl
      · rfl
    · exact fun _ h _ => h
  have hmem : none ∈ postDrivers := by decide
  rw [hturn, if_pos ⟨none, hmem, rfl, .inl rfl⟩]

def markPicks (s₀ : ScanState) (e : IfPtr) (p : Picks) : Picks :=
  match marking s₀ e (p.activeSlave e) with
  | some test => p.marked e test (s₀.world.ifs e).revMaster
  | none => p

theorem bondPicks_marks (hdriver : (s₀.world.ifs e).driver = some (cstr "bonding")) (p : Picks) :
    bondPicks s₀ e p = markPicks s₀ e p := by
  unfold bondPicks markPicks marking
  rw [if_pos (.inl hdriver)]
  cases slaveTest s₀ e <;> rfl

theorem teamPicks_marks (hdriver : (s₀.world.ifs e).driver = some (cstr "team")) (p : Picks) :
    teamPicks s₀ e p = markPicks s₀ e p := by
  have hbond : (s₀.world.ifs e).driver ≠ some (cstr "bonding") := by
    rw [hdriver]
    decide
  unfold teamPicks bondPicks markPicks marking
  cases hactive : p.activeSlave e with
  | some slave =>
    rw [if_pos Option.isSome_some, if_neg]
    rintro (hmine | ⟨-, hnone⟩)
    · exact hbond hmine
    · cases hnone
  | none =>
    rw [if_neg (by simp), if_pos (.inr ⟨hdriver, rfl⟩)]
    cases slaveTest s₀ e <;> rfl

theorem turnPicks_slaves (s₀ : ScanState) (e : IfPtr) (p : Picks) :
    ((turnPicks s₀ p e).activeSlave, (turnPicks s₀ p e).passive) =
      ((markPicks s₀ e p).activeSlave, (markPicks s₀ e p).passive) := by
  let slaves : Picks → (IfPtr → Option IfPtr) × (IfPtr → Bool) :=
    fun p => (p.activeSlave, p.passive)
  let K : Option CStr → Prop :=
    fun driver => driver = some (cstr "bonding") ∨ driver = some (cstr "team")
  -- the marks depend on the slaves alone
  let mark : (IfPtr → Option IfPtr) × (IfPtr → Bool) → (IfPtr → Option IfPtr) × (IfPtr → Bool) :=
    fun q => slaves (markPicks s₀ e ⟨fun _ => none, fun _ => none, q.1, q.2⟩)
  have hmark : ∀ p, slaves (markPicks s₀ e p) = mark (slaves p) := by
    intro p
    dsimp only [slaves, mark, markPicks]
    cases marking s₀ e (p.activeSlave e) <;> rfl
  have hturn : slaves (turnPicks s₀ p e) =
      if ∃ driver ∈ postDrivers, K driver ∧ (driver = none ∨ driver = (s₀.world.ifs e).driver)
      then mark (slaves p) else slaves p := by
    apply turnPicks_field
    · intro p driver hmine
      rw [← hmark]
      unfold driverPicks
      split_ifs with hnone hkind hbond hkind hteam hkind hveth hkind
      · exact absurd hkind (by rw [hnone]; decide)
      · exact Prod.ext (iovPicks_other s₀ e p).2.1 (iovPicks_other s₀ e p).2.2
      · rw [bondPicks_marks ((hmine.resolve_left hnone).symm.trans hbond)]
      · exact absurd (.inl hbond) hkind
      · rw [teamPicks_marks ((hmine.resolve_left hnone).symm.trans hteam)]
      · exact absurd (.inr hteam) hkind
      · rcases hkind with hkind | hkind
        · exact absurd hkind hbond
        · exact absurd hkind hteam
      · rfl
      · rcases ‹K driver› with hkind | hkind
        · exact absurd hkind hbond
        · exact absurd hkind hteam
      · rfl
    · rintro driver - (hnone | hnone) <;> cases hnone
  show slaves (turnPicks s₀ p e) = slaves (markPicks s₀ e p)
  rw [hturn, hmark]
  by_cases hkind : K (s₀.world.ifs e).driver
  · have hmem : (s₀.world.ifs e).driver ∈ postDrivers := by
      rcases hkind with hkind | hkind <;> rw [hkind] <;> decide
    rw [if_pos ⟨_, hmem, hkind, .inr rfl⟩]
  · have hnone : marking s₀ e (p.activeSlave e) = none :=
      if_neg fun hand => hkind (hand.imp_right And.left)
    have hsame : markPicks s₀ e p = p := by
      unfold markPicks
      rw [hnone]
    rw [← hmark, hsame, ite_self]

end

/-! ## The whole loop -/

section
variable {env : HandlerEnv} {s s' : ScanState}

theorem ifHandlerPost_picked (hrun : ifHandlerPost (ifHandlers env) s = some (.ok (), s')) :
    Picked s.world (s.world.listed.foldl (turnPicks s) (picksOf s.world)) s'.world := by
  rw [ifHandlerPost_eq] at hrun
  have hstart : At s (picksOf s.world) s :=
    ⟨rfl, rfl, fun _ => rfl, fun _ => rfl, fun _ => ⟨rfl, rfl⟩, rfl⟩
  have hloop : Chooses s (picksOf s.world) (Prog.forEach s.world.listed (postTurn env)) _ :=
    forEach_chooses (fun _ _ _ => postTurn_chooses env) (picksOf s.world)
  exact (hloop s hstart _ s' hrun).2

theorem turns_link {l : List IfPtr} (hnodup : l.Nodup) (p : Picks) (x : IfPtr) :
    (l.foldl (turnPicks s) p).link x =
      if x ∈ l ∧ ∃ d ∈ linkingDrivers, (s.world.ifs x).driver = some d then
        (holderOf s x).or (p.link x) else p.link x := by
  have honce := foldl_once (fun p : Picks => p.link x) (turnPicks s)
    (c := fun e => e = x ∧ ∃ d ∈ linkingDrivers, (s.world.ifs x).driver = some d)
    (g := ((holderOf s x).or ·)) ?_ hnodup (fun i j hi hj => hi.1.trans hj.1.symm) p
  · rw [honce]
    simp
  · intro p e
    rw [turnPicks_link]
    by_cases he : e = x
    · subst he
      simp only [true_and]
      split_ifs
      · rw [Function.update_self]
      · rfl
    · split_ifs with hlinks hmine hmine
      · exact absurd hmine.1 he
      · rw [Function.update_of_ne (Ne.symm he)]
      · exact absurd hmine.1 he
      · rfl

theorem turns_physfn {l : List IfPtr} (hnodup : l.Nodup) (p : Picks) (x : IfPtr) :
    (l.foldl (turnPicks s) p).physfn x =
      if x ∈ l ∧ p.physfn x = none ∧ (s.world.ifs x).pciPhysfnPath ≠ none then physfnOf s x
      else p.physfn x := by
  have honce := foldl_once (fun p : Picks => p.physfn x) (turnPicks s)
    (c := fun e => e = x) (g := fun physfn =>
      if physfn.isSome ∨ (s.world.ifs x).pciPhysfnPath = none then physfn else physfnOf s x)
    ?_ hnodup (fun i j hi hj => hi.trans hj.symm) p
  · rw [honce]
    have hmem : (∃ e ∈ l, e = x) ↔ x ∈ l := by simp
    rw [if_congr hmem rfl rfl]
    cases p.physfn x with
    | some y => simp
    | none => split_ifs <;> simp_all
  · intro p e
    rw [turnPicks_physfn]
    by_cases he : e = x
    · subst he
      rw [if_pos rfl]
      split_ifs
      · rfl
      · rw [Function.update_self]
    · rw [if_neg he]
      split_ifs
      · rfl
      · rw [Function.update_of_ne (Ne.symm he)]

def chosenSlave (s : ScanState) (e : IfPtr) (activeSlave : Option IfPtr) : Option IfPtr :=
  ((marking s e activeSlave).bind fun test =>
    ((s.world.ifs e).revMaster.filter test).getLast?).or activeSlave

def MarksPassive (s : ScanState) (e x : IfPtr) (activeSlave : Option IfPtr) : Prop :=
  ∃ test, marking s e activeSlave = some test ∧ x ∈ (s.world.ifs e).revMaster ∧ test x = false

theorem turnPicks_activeSlave (s : ScanState) (e x : IfPtr) (p : Picks) :
    (turnPicks s p e).activeSlave x =
      if e = x then chosenSlave s x (p.activeSlave x) else p.activeSlave x := by
  have hslaves := congrFun (congrArg Prod.fst (turnPicks_slaves s e p)) x
  dsimp only at hslaves
  rw [hslaves]
  unfold markPicks chosenSlave
  by_cases he : e = x
  · subst he
    rw [if_pos rfl]
    cases marking s e (p.activeSlave e) with
    | none => simp
    | some test => exact Function.update_self ..
  · rw [if_neg he]
    cases marking s e (p.activeSlave e) with
    | none => rfl
    | some test => exact Function.update_of_ne (Ne.symm he) ..

theorem turnPicks_passive (s : ScanState) (e x : IfPtr) (p : Picks) :
    (turnPicks s p e).passive x = true ↔
      p.passive x = true ∨ MarksPassive s e x (p.activeSlave e) := by
  have hslaves := congrFun (congrArg Prod.snd (turnPicks_slaves s e p)) x
  dsimp only at hslaves
  rw [hslaves]
  unfold markPicks MarksPassive
  cases marking s e (p.activeSlave e) with
  | none => simp
  | some test => simp [Picks.marked]

theorem turns_activeSlave {l : List IfPtr} (hnodup : l.Nodup) (p : Picks) (x : IfPtr) :
    (l.foldl (turnPicks s) p).activeSlave x =
      if x ∈ l then chosenSlave s x (p.activeSlave x) else p.activeSlave x := by
  have honce := foldl_once (fun p : Picks => p.activeSlave x) (turnPicks s)
    (c := fun e => e = x) (g := chosenSlave s x) (fun p e => turnPicks_activeSlave s e x p) hnodup
    (fun i j hi hj => hi.trans hj.symm) p
  rw [honce]
  simp

theorem turns_passive {l : List IfPtr} (hnodup : l.Nodup) (p : Picks) (x : IfPtr) :
    (l.foldl (turnPicks s) p).passive x = true ↔
      p.passive x = true ∨ ∃ e ∈ l, MarksPassive s e x (p.activeSlave e) := by
  induction l generalizing p with
  | nil => simp
  | cons e l ih =>
    obtain ⟨he, hl⟩ := List.nodup_cons.mp hnodup
    have hlater : ∀ e' ∈ l, (turnPicks s p e).activeSlave e' = p.activeSlave e' := by
      intro e' he'
      have hne : e ≠ e' := fun heq => he (heq ▸ he')
      rw [turnPicks_activeSlave, if_neg hne]
    have hrest : (∃ e' ∈ l, MarksPassive s e' x ((turnPicks s p e).activeSlave e')) ↔
        ∃ e' ∈ l, MarksPassive s e' x (p.activeSlave e') :=
      exists_congr fun e' => and_congr_right fun he' => by rw [hlater e' he']
    rw [List.foldl_cons, ih hl, turnPicks_passive, hrest, List.exists_mem_cons_iff, or_assoc]

end

/-! ## What the loop leaves -/

section
variable {env : HandlerEnv} {s s' : ScanState}

/-- In whatever order the interfaces have their turns, every choice depends on the topology before
the loop alone. -/
theorem ifHandlerPost_picks (hnodup : s.world.listed.Nodup)
    (hrun : ifHandlerPost (ifHandlers env) s = some (.ok (), s')) (x : IfPtr) :
    ((s'.world.ifs x).link =
      if x ∈ s.world.listed ∧ ∃ d ∈ linkingDrivers, (s.world.ifs x).driver = some d then
        (holderOf s x).or (s.world.ifs x).link else (s.world.ifs x).link) ∧
    ((s'.world.ifs x).physfn =
      if x ∈ s.world.listed ∧ (s.world.ifs x).physfn = none ∧
        (s.world.ifs x).pciPhysfnPath ≠ none then physfnOf s x else (s.world.ifs x).physfn) ∧
    ((s'.world.ifs x).activeSlave =
      if x ∈ s.world.listed then chosenSlave s x (s.world.ifs x).activeSlave
      else (s.world.ifs x).activeSlave) ∧
    ((s'.world.ifs x).flags.passiveSlave = true ↔ (s.world.ifs x).flags.passiveSlave = true ∨
      ∃ e ∈ s.world.listed, MarksPassive s e x (s.world.ifs e).activeSlave) := by
  have hpicks := (ifHandlerPost_picked hrun).picks
  have hlink := turns_link (s := s) hnodup (picksOf s.world) x
  have hphysfn := turns_physfn (s := s) hnodup (picksOf s.world) x
  have hactive := turns_activeSlave (s := s) hnodup (picksOf s.world) x
  have hpassive := turns_passive (s := s) hnodup (picksOf s.world) x
  rw [← hpicks] at hlink hphysfn hactive hpassive
  exact ⟨hlink, hphysfn, hactive, hpassive⟩

def picksScan : ScanState where
  world :=
    { ifs := fun e =>
        if e = 0 then
          { ifName := cstr "bond0", ifIndex := 4, driver := some (cstr "bonding"),
            revMaster := [1, 2] }
        else if e = 1 then
          { ifName := cstr "eth0", ifIndex := 2, driver := some (cstr "igb"), master := some 0,
            flags := { up := true },
            addr := [⟨{ family := AF_INET, raw := some [10, 0, 0, 1] }, {}⟩] }
        else if e = 2 then
          { ifName := cstr "eth1", ifIndex := 3, driver := some (cstr "igb"), master := some 0 }
        else { ifName := cstr "gre1", ifIndex := 5, driver := some (cstr "gre") }
      nss := fun _ => { ifaces := [0, 1, 2, 3] }
      nsList := [0]
      free := [] }
  priv := fun e =>
    if e = 0 then .live (.bond { activeSlaveIndex := 2 })
    else if e = 3 then .live (.tunnel { family := AF_INET, raw := some [10, 0, 0, 1] }) else .unset

theorem ifHandlerPost_picks_scan : ∃ s', ifHandlerPost (ifHandlers plainEnv) picksScan =
    some (.ok (), s') ∧ (s'.world.ifs 3).link = some 1 ∧ (s'.world.ifs 0).activeSlave = some 1 ∧
      (s'.world.ifs 2).flags.passiveSlave = true := by
  obtain ⟨s', hrun, -⟩ : ∃ s', ifHandlerPost (ifHandlers plainEnv) picksScan =
      some (.ok (), s') ∧ decide ((s'.world.ifs 3).link = some 1) = true :=
    exists_of_ends (by decide +kernel)
  have hnodup : picksScan.world.listed.Nodup := by decide
  obtain ⟨hlink, -, -, -⟩ := ifHandlerPost_picks hnodup hrun 3
  obtain ⟨-, -, hactive, -⟩ := ifHandlerPost_picks hnodup hrun 0
  obtain ⟨-, -, -, hpassive⟩ := ifHandlerPost_picks hnodup hrun 2
  refine ⟨s', hrun, ?_, ?_, ?_⟩
  · rw [hlink, if_pos (by decide)]
    decide +kernel
  · rw [hactive, if_pos (by decide)]
    decide +kernel
  · rw [hpassive]
    exact .inr ⟨0, by decide, _, rfl, by decide, by decide +kernel⟩

end

/-! ## After all steps -/

section
variable {ovs : Openvswitch.OvsEnv} {env : HandlerEnv} {root : NsPtr}
  {answer : Option (Except CStr Json)} {s s' : ScanState}

/-- Where `netns_fill_list` succeeds, `if_handler_post` has had the last word. -/
theorem fillListPost_reaches (h : Collected s.world) (hroot : root ∈ s.world.nsList)
    (hrun : fillListPost ovs env root answer s = some (.ok (), s')) :
    ∃ bridges s₂, Posting ⟨ovs, root, s.priv, bridges, .any⟩ (matchAllNetnsid s.world) s₂ ∧
      ifHandlerPost (ifHandlers env) s₂ = some (.ok (), s') := by
  unfold fillListPost at hrun
  obtain ⟨_, s₁, hresolve, hrun⟩ := (Prog.bind_eq_ok s).mp hrun
  obtain ⟨_, s₂, hglobal, hpost⟩ := (Prog.bind_eq_ok s₁).mp hrun
  obtain ⟨bridges, -, hposting⟩ := ovsGlobalPost_posting h hroot hresolve
    (fillMakes_any ovs env root answer s).join s₁ rfl _ s₂ hglobal
  exact ⟨bridges, s₂, hposting, hpost⟩

/-- Whatever `master_resolve` and the bridges of ovsdb have made of it before, a tunnel ends at the
interface that alone holds its local address, in the name space of its lower device. -/
theorem fillListPost_lowerDevice (h : Collected s.world) (hroot : root ∈ s.world.nsList)
    (hrun : fillListPost ovs env root answer s = some (.ok (), s')) {e : IfPtr}
    (he : e ∈ s.world.listed) (hdriver : ∃ d ∈ linkingDrivers, (s.world.ifs e).driver = some d)
    {data : Addr} (hdata : blockAddr (s.priv e) = some data) {ns : NsPtr}
    (hns : ns = (s.world.netTarget e).getD (s.world.ifs e).ns) {y : IfPtr}
    (hy : y ∈ (s.world.nss ns).ifaces) (hholds : holdsAddr data (s.world.ifs y) = true)
    (honly : ∀ z ∈ (s.world.nss ns).ifaces, holdsAddr data (s.world.ifs z) = true → z = y) :
    (s'.world.ifs e).link = some y := by
  obtain ⟨bridges, s₂, hposting, hpost⟩ := fillListPost_reaches h hroot hrun
  have hfits : PostInput.Fits ⟨ovs, root, s.priv, bridges, .any⟩ (matchAllNetnsid s.world) := h.fits hroot
  have hext := PostRun.extends hfits hposting.run
  have hmatched : e ∈ (matchAllNetnsid s.world).listed := h.mem_listed.mpr he
  have hlisted := hext.listed e hmatched
  obtain ⟨_, _, _, _, hifs⟩ := h.matched.ifs e
  have hsame : (s₂.world.ifs e).driver = (s.world.ifs e).driver := by
    rw [hext.driver hmatched, hifs]
  have htarget : (s₂.world.ifs e).linkNet.getD (s₂.world.ifs e).ns = ns := by
    rw [hext.linkNet hmatched, hext.ns hmatched, h.linkNet_eq he, hns, hifs]
  have hmem : ns ∈ s.world.nsList := by
    rw [hns]
    cases hnet : s.world.netTarget e with
    | none => exact h.scanned.ns_mem he
    | some n => exact netTarget_mem h he hnet
  have hnodup := (List.nodup_flatMap.mp h.scanned.nodup).1 ns hmem
  have hholder : holderOf s₂ e = some y := by
    have hmem' : ns ∈ (matchAllNetnsid s.world).nsList := by rwa [h.frame.nsList]
    rw [holderOf, hposting.priv, hdata, Option.bind_some, htarget,
      hext.addrHolder hfits.scanned hmem', addrHolder_matched h]
    exact (addrHolder_eq_some data hnodup).mpr ⟨hy, hholds, honly⟩
  have hlink := congrFun (congrArg Picks.link (ifHandlerPost_picked hpost).picks) e
  rw [turns_link hext.scanned.nodup, if_pos ⟨hlisted, by rwa [hsame]⟩, hholder,
    Option.some_or] at hlink
  exact hlink

theorem fillListPost_lowerDevice_scan : ∃ s', fillListPost default plainEnv 0 none
    (addressScan false) = some (.ok (), s') ∧ (s'.world.ifs 0).link = some 1 := by
  obtain ⟨s', hrun, -⟩ : ∃ s', fillListPost default plainEnv 0 none
      (addressScan false) = some (.ok (), s') ∧ decide ((s'.world.ifs 0).link = some 1) = true :=
    exists_of_ends (by decide +kernel)
  refine ⟨s', hrun, fillListPost_lowerDevice (addressScan_collected false) List.mem_cons_self hrun
    (by decide) ⟨cstr "gre", by decide, rfl⟩ rfl rfl ?_ (by decide +kernel) (by decide +kernel)⟩
  exact List.mem_cons_of_mem _ List.mem_cons_self

/-- A slave that was not passive before is so in the end exactly when its master is a bond or a
team that knows its active slave, and it is not that one. -/
theorem fillListPost_passive (h : Collected s.world) (hroot : root ∈ s.world.nsList)
    {s₁ s₂ : ScanState} (hresolve : fillListResolve s = some (.ok (), s₁))
    (hglobal : onWorld (ovsGlobalPost ovs root answer) s₁ = some (.ok (), s₂))
    (hpost : ifHandlerPost (ifHandlers env) s₂ = some (.ok (), s')) {x : IfPtr}
    (hactive : (s₂.world.ifs x).flags.passiveSlave = false) :
    (s'.world.ifs x).flags.passiveSlave = true ↔ ∃ m test,
      (s'.world.ifs x).master = some m ∧
        marking s₂ m (s₂.world.ifs m).activeSlave = some test ∧ test x = false := by
  obtain ⟨bridges, -, hposting⟩ := ovsGlobalPost_posting h hroot hresolve
    (fillMakes_any ovs env root answer s).join s₁ rfl _ s₂ hglobal
  have hext := PostRun.extends (h.fits hroot) hposting.run
  have hmirror := PostRun.mirror h hroot hposting.run
  have hpointers := PostRun.pointers h hroot hposting.run
  have hpicked := ifHandlerPost_picked hpost
  have hslave : ∀ m, x ∈ (s₂.world.ifs m).revMaster ↔ (s'.world.ifs x).master = some m := by
    intro m
    rw [(hpicked.masters x).1]
    exact hmirror.mem_iff (r := .master) (m := m) (e := x)
  have hpassive := turns_passive (s := s₂) hext.scanned.nodup (picksOf s₂.world) x
  rw [← hpicked.picks] at hpassive
  have hstart : (picksOf s₂.world).passive x = false := hactive
  rw [hstart] at hpassive
  show (picksOf s'.world).passive x = true ↔ _
  rw [hpassive]
  constructor
  · rintro (hbefore | ⟨m, -, test, htest, hmem, hfails⟩)
    · cases hbefore
    · exact ⟨m, test, (hslave m).mp hmem, htest, hfails⟩
  · rintro ⟨m, test, hmaster, htest, hfails⟩
    refine .inr ⟨m, ?_, test, htest, (hslave m).mpr hmaster, hfails⟩
    apply hpointers x m
    rw [(hpicked.masters x).1] at hmaster
    exact IfEntry.mem_pointers.mpr (.inl hmaster)

def slaveScan : ScanState where
  world :=
    { ifs := fun e =>
        if e = 0 then { ifName := cstr "bond0", ifIndex := 4, driver := some (cstr "bonding") }
        else if e = 1 then { ifName := cstr "eth0", ifIndex := 2, masterIndex := 4 }
        else { ifName := cstr "eth1", ifIndex := 3, masterIndex := 4 }
      nss := fun _ => { ifaces := [0, 1, 2] }
      nsList := [0]
      free := [] }
  priv := fun e => if e = 0 then .live (.bond { activeSlaveIndex := 2 }) else .unset

theorem slaveScan_collected : Collected slaveScan.world := by
  have hscanned : slaveScan.world.Scanned :=
    ⟨by decide, by decide, by decide, by decide, by decide, by decide, by decide⟩
  have hentries : ∀ e, slaveScan.world.ifs e ∈
      [slaveScan.world.ifs 0, slaveScan.world.ifs 1, slaveScan.world.ifs 2] := by
    intro e
    by_cases hbond : e = 0
    · subst hbond
      exact List.mem_cons_self
    by_cases hfirst : e = 1
    · subst hfirst
      exact List.mem_cons_of_mem _ List.mem_cons_self
    have hsecond : slaveScan.world.ifs e = slaveScan.world.ifs 2 :=
      (if_neg hbond).trans (if_neg hfirst)
    rw [hsecond]
    exact List.mem_cons_of_mem _ (List.mem_cons_of_mem _ List.mem_cons_self)
  apply Collected.of_entries hscanned hentries
  decide

theorem fillListPost_passive_second : ∃ s₂ s' : ScanState,
    ifHandlerPost (ifHandlers plainEnv) s₂ = some (.ok (), s') ∧
      ∃ m test, (s'.world.ifs 2).master = some m ∧
        marking s₂ m (s₂.world.ifs m).activeSlave = some test ∧ test 2 = false := by
  let before : HandlerProg Unit := do
    fillListResolve
    onWorld (ovsGlobalPost default 0 none)
  obtain ⟨s₂, hbefore, hactive⟩ : ∃ s₂, before slaveScan = some (.ok (), s₂) ∧
      !(s₂.world.ifs 2).flags.passiveSlave :=
    exists_of_ends (by decide +kernel)
  obtain ⟨s', hrun, hpassive⟩ : ∃ s', fillListPost default plainEnv 0 none slaveScan =
      some (.ok (), s') ∧ (s'.world.ifs 2).flags.passiveSlave :=
    exists_of_ends (by decide +kernel)
  obtain ⟨_, s₁, hresolve, hglobal⟩ := (Prog.bind_eq_ok slaveScan).mp hbefore
  have hpost : ifHandlerPost (ifHandlers plainEnv) s₂ = some (.ok (), s') := by
    rw [← hrun, ← Prog.bind_ok slaveScan hbefore fun _ => ifHandlerPost (ifHandlers plainEnv)]
    exact congrFun (Prog.bind_assoc ..) slaveScan
  refine ⟨s₂, s', hpost, (fillListPost_passive slaveScan_collected List.mem_cons_self hresolve
    hglobal hpost (by simpa using hactive)).mp hpassive⟩

end

end Plotnetcfg.Handlers
