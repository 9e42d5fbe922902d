import Plotnetcfg.Handlers.Openvswitch.Link

/-! What `link_iface` writes to the interfaces it looks at. Only the search for an internal
interface of the datapath in user space writes: it marks the devices while it weighs them. -/

namespace Plotnetcfg.Openvswitch

/-- The search for `iface` in the datapath in user space gives `e` a weight and marks it. -/
structure Marks (iface : OvsIf) (w : World) (e : IfPtr) : Prop where
  name : iface.name = (w.ifs e).ifName
  driver : (w.ifs e).driver = some (cstr "tun")
  subDriver : (w.ifs e).subDriver = none

instance (iface : OvsIf) (w : World) (e : IfPtr) : Decidable (Marks iface w e) :=
  decidable_of_iff (iface.name = (w.ifs e).ifName ∧ (w.ifs e).driver = some (cstr "tun") ∧
    (w.ifs e).subDriver = none)
    ⟨fun h => ⟨h.1, h.2.1, h.2.2⟩, fun h => ⟨h.name, h.driver, h.subDriver⟩⟩

def marked (x : IfEntry) : IfEntry := { x with subDriver := some (cstr "openvswitch") }

def Writes (br : OvsBridge) (iface : OvsIf) : Prop :=
  br.dpType = .netdev ∧ iface.type = cstr "internal"

instance (br : OvsBridge) (iface : OvsIf) : Decidable (Writes br iface) :=
  inferInstanceAs (Decidable (_ ∧ _))

/-- `w` is `w₀` but for the marks of those of the entries `l` that the search has weighed. -/
structure MarkedOf (iface : OvsIf) (w₀ : World) (l : List IfPtr) (w : World) : Prop where
  nss : w.nss = w₀.nss
  ifs : ∀ x, w.ifs x = if x ∈ l ∧ Marks iface w₀ x then marked (w₀.ifs x) else w₀.ifs x

def markWeight (master : Option IfPtr) (iface : OvsIf) (w : World) (e : IfPtr) : Int :=
  if Marks iface w e then linkWeight master e w else 0

section
variable {env : OvsEnv} {root : NsPtr} {br : OvsBridge} {iface : OvsIf} {master : Option IfPtr}
  {w₀ w : World} {l pre : List IfPtr} {e : IfPtr}

theorem linkWeight_pos (master : Option IfPtr) (e : IfPtr) (w : World) :
    0 < linkWeight master e w := by
  unfold linkWeight
  cases master with
  | none =>
    dsimp only
    split_ifs <;> decide
  | some m =>
    dsimp only
    split_ifs <;> decide

theorem markWeight_pos (h : Marks iface w e) : 0 < markWeight master iface w e := by
  rw [markWeight, if_pos h]
  exact linkWeight_pos master e w

theorem markWeight_zero (h : ¬ Marks iface w e) : markWeight master iface w e = 0 := if_neg h

theorem MarkedOf.ns (h : MarkedOf iface w₀ l w) (x : IfPtr) : (w.ifs x).ns = (w₀.ifs x).ns := by
  rw [h.ifs]
  split_ifs
  · rfl
  · rfl

theorem MarkedOf.linkWeight (h : MarkedOf iface w₀ l w) (master : Option IfPtr) (e : IfPtr) :
    linkWeight master e w = linkWeight master e w₀ := by
  unfold Openvswitch.linkWeight
  rw [h.nss, h.ns]
  cases master with
  | none => rfl
  | some m =>
    dsimp only
    rw [h.ns]

theorem MarkedOf.skip (h : MarkedOf iface w₀ pre w) (he : ¬ Marks iface w₀ e) :
    MarkedOf iface w₀ (pre ++ [e]) w := by
  refine ⟨h.nss, fun x => ?_⟩
  have hiff : (x ∈ pre ++ [e] ∧ Marks iface w₀ x) ↔ (x ∈ pre ∧ Marks iface w₀ x) := by
    rw [List.mem_append, List.mem_singleton]
    constructor
    · rintro ⟨hx | rfl, hmarks⟩
      · exact ⟨hx, hmarks⟩
      · exact absurd hmarks he
    · exact fun hx => ⟨.inl hx.1, hx.2⟩
  rw [h.ifs]
  simp only [hiff]

theorem MarkedOf.mark (h : MarkedOf iface w₀ pre w) (hnew : e ∉ pre) (he : Marks iface w₀ e) :
    MarkedOf iface w₀ (pre ++ [e]) (w.modifyIf e marked) := by
  refine ⟨h.nss, fun x => ?_⟩
  rw [World.modifyIf_ifs, h.ifs]
  by_cases hx : x = e
  · subst hx
    rw [if_pos rfl, if_neg fun hand => hnew hand.1, if_pos ⟨by simp, he⟩]
  · have hiff : (x ∈ pre ++ [e] ∧ Marks iface w₀ x) ↔ (x ∈ pre ∧ Marks iface w₀ x) := by
      simp [hx]
    rw [if_neg hx]
    simp only [hiff]

theorem linkIfaceSearch_marks (hwrites : Writes br iface) (hnew : e ∉ pre) :
    Prog.Runs (MarkedOf iface w₀ pre) (linkIfaceSearch env br.dpType master iface e)
      (fun res w => res = markWeight master iface w₀ e ∧ MarkedOf iface w₀ (pre ++ [e]) w)
      fun _ => False := by
  intro w hw r w' hrun
  have hsame : w.ifs e = w₀.ifs e := by rw [hw.ifs, if_neg fun hand => hnew hand.1]
  have hweight := hw.linkWeight master e
  have helsewhere : masterElsewhere .netdev master e w = false := by
    unfold masterElsewhere
    cases master <;> rfl
  have hskip : ¬ Marks iface w₀ e → Prog.Runs (· = w) (pure 0 : Prog Int World Int)
      (fun res w' => res = markWeight master iface w₀ e ∧ MarkedOf iface w₀ (pre ++ [e]) w')
      fun _ => False := by
    intro hmarks
    apply Prog.Triple.pure
    rintro _ rfl
    exact ⟨(markWeight_zero hmarks).symm, hw.skip hmarks⟩
  unfold linkIfaceSearch at hrun
  rw [hwrites.1, Prog.bind_ok w (Prog.get_apply w), if_neg (by simp [helsewhere])] at hrun
  by_cases hname : iface.name = (w.ifs e).ifName
  · rw [if_neg (not_not.mpr hname)] at hrun
    dsimp only at hrun
    rw [if_pos hwrites.2] at hrun
    cases hdriver : (w.ifs e).driver with
    | none =>
      rw [hdriver] at hrun
      cases hrun
    | some driver =>
      have hderef : (Prog.deref (w.ifs e).driver : Prog Int World CStr) w =
          some (.ok driver, w) := by
        rw [hdriver]
        rfl
      rw [Prog.bind_ok w hderef] at hrun
      by_cases hother : driver ≠ cstr "tun" ∨ (w.ifs e).subDriver.isSome = true
      · rw [if_pos hother] at hrun
        apply hskip _ w rfl r w' hrun
        intro hmarks
        rcases hother with hother | hother
        · apply hother
          apply Option.some.inj
          rw [← hdriver, hsame, hmarks.driver]
        · rw [hsame, hmarks.subDriver] at hother
          cases hother
      · rw [if_neg hother] at hrun
        obtain ⟨hdrv, hsub⟩ := not_or.mp hother
        have hmarks : Marks iface w₀ e := by
          rw [hsame] at hname hdriver hsub
          refine ⟨hname, ?_, Option.not_isSome_iff_eq_none.mp hsub⟩
          rw [hdriver, not_not.mp hdrv]
        obtain ⟨rfl, rfl⟩ := Prod.mk.inj (Option.some.inj hrun)
        refine ⟨?_, hw.mark hnew hmarks⟩
        rw [markWeight, if_pos hmarks, hweight]
  · rw [if_pos hname] at hrun
    apply hskip _ w rfl r w' hrun
    intro hmarks
    apply hname
    rw [hsame]
    exact hmarks.name

theorem linkIfaceSearch_unchanged (hquiet : ¬ Writes br iface) (e : IfPtr) (w : World) :
    Prog.Runs (· = w) (linkIfaceSearch env br.dpType master iface e)
      (fun res w' => 0 ≤ res ∧ w' = w) fun _ => False := by
  have hzero : Prog.Runs (· = w) (pure 0 : Prog Int World Int)
      (fun res w' => 0 ≤ res ∧ w' = w) fun _ => False :=
    Prog.Triple.pure fun w' hw => ⟨le_refl 0, hw⟩
  have hweight : ∀ w₁, Prog.Runs (· = w) (pure (linkWeight master e w₁) : Prog Int World Int)
      (fun res w' => 0 ≤ res ∧ w' = w) fun _ => False :=
    fun w₁ => Prog.Triple.pure fun w' hw => ⟨(linkWeight_pos master e w₁).le, hw⟩
  unfold linkIfaceSearch
  apply Prog.Triple.bind (Q := fun _ w' => w' = w) (Prog.Triple.get fun w' hw => hw)
  intro w₁
  apply Prog.Triple.ite
  · exact fun _ => hzero
  intro _
  apply Prog.Triple.ite
  · exact fun _ => hzero
  intro _
  cases hdp : br.dpType with
  | system =>
    apply Prog.Triple.ite
    · intro _
      apply Prog.Triple.bind (Q := fun _ w' => w' = w) (Prog.Triple.deref fun _ _ w' hw => hw)
      intro driver
      apply Prog.Triple.ite
      · exact fun _ => hzero
      intro _
      apply Prog.Triple.ite
      · exact fun _ => hzero
      · exact fun _ => hweight w₁
    · intro _
      apply Prog.Triple.ite
      · exact fun _ => hzero
      · exact fun _ => hweight w₁
  | netdev =>
    apply Prog.Triple.ite
    · exact fun htype => absurd ⟨hdp, htype⟩ hquiet
    · exact fun _ => hzero

/-! ## The whole search -/

/-- What `link_iface` does besides its search: it writes the link and the warnings, and reports an
ambiguous match. -/
theorem linkIface_from_search {s s' : OvsState} {required : Bool} {r : Except Int Unit}
    {R : Option IfPtr → MatchDesc → World → Prop} (hnone : s.link iface.ptr = none)
    (hsearch : ∀ master, Prog.Runs (· = s.world) (matchIf { netnsList := some s.world.nsList }
      (linkIfaceSearch env br.dpType master iface)) (R master) fun _ => False)
    (hrun : linkIface env root br iface required s = some (r, s')) :
    ∃ master desc w, R master desc w ∧ s'.world.ifs = w.ifs ∧
      s'.link iface.ptr = matchFound desc ∧
      (r = .error (ERANGE : Int) → matchAmbiguous desc = true) := by
  have hpost : Prog.Triple (· = s) (linkIface env root br iface required)
      (fun _ t => ∃ master desc w, R master desc w ∧ t.world.ifs = w.ifs ∧
        t.link iface.ptr = matchFound desc)
      (fun e t => ∃ master desc w, R master desc w ∧ t.world.ifs = w.ifs ∧
        t.link iface.ptr = matchFound desc ∧ (e = ERANGE → matchAmbiguous desc = true)) := by
    unfold linkIface
    apply Prog.Triple.bind (Q := fun t t' => t = s ∧ t' = s)
    · exact Prog.Triple.get fun t ht => ⟨ht, ht⟩
    intro t
    apply Prog.Triple.of_and
    rintro rfl
    rw [if_neg (by simp [hnone])]
    apply Prog.Triple.bind (Q := fun _ t' => t' = t)
    · exact Prog.Triple.deref fun _ _ _ ht => ht
    intro system
    apply Prog.Triple.bind (Q := fun _ t' => t' = t)
    · exact Prog.Triple.deref fun _ _ _ ht => ht
    intro main
    apply Prog.Triple.bind (Q := fun desc t' => R (t.link main.ptr) desc t'.world)
    · apply Prog.Triple.zoom
      rintro _ rfl w rfl r w' hrun
      have hpost := hsearch _ _ rfl r w' hrun
      cases r with
      | error e => exact hpost.elim
      | ok desc => exact hpost
    intro desc
    have hset : Prog.Triple (fun t' => R (t.link main.ptr) desc t'.world)
        (setLink iface.ptr (matchFound desc)) (fun _ t' => ∃ w, R (t.link main.ptr) desc w ∧
          t'.world.ifs = w.ifs ∧ t'.link iface.ptr = matchFound desc) fun (_ : Int) _ => False := by
      apply Prog.Triple.modify
      intro t' ht
      exact ⟨t'.world, ht, rfl, Function.update_self ..⟩
    apply Prog.Triple.bind (hset.weakenError fun _ _ => False.elim)
    intro _
    -- a warning changes no interface
    have hwarn : ∀ (text : CStr) (err : Int), (err = ERANGE → matchAmbiguous desc = true) →
        Prog.Triple (fun t' => ∃ w, R (t.link main.ptr) desc w ∧ t'.world.ifs = w.ifs ∧
          t'.link iface.ptr = matchFound desc)
        (do labelAdd root text; Prog.throw err : OvsProg Unit)
        (fun _ t => ∃ master desc w, R master desc w ∧ t.world.ifs = w.ifs ∧
          t.link iface.ptr = matchFound desc)
        (fun e t => ∃ master desc w, R master desc w ∧ t.world.ifs = w.ifs ∧
          t.link iface.ptr = matchFound desc ∧ (e = ERANGE → matchAmbiguous desc = true)) := by
      intro text err herr
      apply Prog.Triple.bind (Q := fun _ t' => ∃ w, R (t.link main.ptr) desc w ∧
        t'.world.ifs = w.ifs ∧ t'.link iface.ptr = matchFound desc)
      · apply Prog.Triple.modify
        exact fun _ ht => ht
      · intro _
        apply Prog.Triple.throw
        rintro t' ⟨w, hR, hifs, hlink⟩
        exact ⟨_, desc, w, hR, hifs, hlink, herr⟩
    apply Prog.Triple.ite
    · exact fun hambiguous => hwarn _ _ fun _ => hambiguous
    intro _
    apply Prog.Triple.ite
    · exact fun _ => hwarn _ _ fun herr => absurd herr (by decide)
    · intro _
      apply Prog.Triple.pure
      rintro t' ⟨w, hR, hifs, hlink⟩
      exact ⟨_, desc, w, hR, hifs, hlink⟩
  have hend := hpost s rfl r s' hrun
  cases r with
  | ok u =>
    obtain ⟨master, desc, w, hR, hifs, hlink⟩ := hend
    exact ⟨master, desc, w, hR, hifs, hlink, nofun⟩
  | error e =>
    obtain ⟨master, desc, w, hR, hifs, hlink, herr⟩ := hend
    exact ⟨master, desc, w, hR, hifs, hlink, fun h => herr (Except.error.inj h)⟩

theorem linkSearch_marks {s : OvsState} (hwrites : Writes br iface) (hnodup : s.world.listed.Nodup)
    (master : Option IfPtr) :
    Prog.Runs (· = s.world) (matchIf { netnsList := some s.world.nsList }
      (linkIfaceSearch env br.dpType master iface))
      (fun desc w => MarkedOf iface s.world s.world.listed w ∧
        desc.tally = Tally.scan (markWeight master iface s.world) {} s.world.listed)
      fun _ => False := by
  let desc : MatchDesc := { netnsList := some s.world.nsList }
  have hentries : desc.entries s.world.listed = s.world.listed := by
    simp [MatchDesc.entries, desc]
  have hvisits : Visits (linkIfaceSearch env br.dpType master iface)
      (markWeight master iface s.world) (MarkedOf iface s.world) (desc.entries s.world.listed) := by
    refine ⟨fun e => ?_, fun pre e post hsplit => ?_⟩
    · unfold markWeight
      split_ifs
      · exact (linkWeight_pos master e s.world).le
      · exact le_refl 0
    · apply linkIfaceSearch_marks hwrites
      rw [hentries] at hsplit
      rw [hsplit] at hnodup
      exact fun hmem => (List.nodup_append.mp hnodup).2.2 e hmem e List.mem_cons_self rfl
  have hsearch := matchIf_visits desc rfl rfl hvisits fun pre w hw n => by rw [hw.nss]
  rintro _ rfl r w hrun
  have hstart : MarkedOf iface s.world [] s.world := by
    refine ⟨rfl, fun x => ?_⟩
    rw [if_neg fun h => List.not_mem_nil h.1]
  have hpost := hsearch _ hstart r w hrun
  cases r with
  | error e => exact hpost
  | ok d =>
    obtain ⟨htallied, hmarked⟩ := hpost
    have htally : d.tally = Tally.scan (markWeight master iface s.world) {} s.world.listed := by
      rw [← hentries]
      exact htallied.tally
    have hmarked : MarkedOf iface s.world (desc.entries s.world.listed) w := hmarked
    rw [hentries] at hmarked
    exact ⟨hmarked, htally⟩

/-- From `s` to `s'` no interface has changed but the one that is stored as the link of `iface`,
and none when the match is reported as ambiguous. -/
def Undisturbed (iface : OvsIf) (r : Except Int Unit) (s s' : OvsState) : Prop :=
  (∀ e, s'.link iface.ptr ≠ some e → s'.world.ifs e = s.world.ifs e) ∧
    (r = .error (ERANGE : Int) → ∀ e, s'.world.ifs e = s.world.ifs e)

/-- `link_iface` leaves the other interfaces alone exactly when its search does not write, or there
is at most one device for it to mark. -/
theorem linkIface_undisturbed {s s' : OvsState} {required : Bool} {r : Except Int Unit}
    (hnodup : s.world.listed.Nodup)
    (hrun : linkIface env root br iface required s = some (r, s')) :
    Undisturbed iface r s s' ↔ (Writes br iface → s.link iface.ptr = none →
      ∀ a ∈ s.world.listed, ∀ b ∈ s.world.listed, Marks iface s.world a →
        Marks iface s.world b → a = b) := by
  cases hlink : s.link iface.ptr with
  | some e =>
    have hsame : s' = s := by
      unfold linkIface at hrun
      rw [Prog.bind_ok s (Prog.get_apply s), if_pos (by simp [hlink])] at hrun
      exact (Prod.mk.inj (Option.some.inj hrun)).2.symm
    subst hsame
    exact iff_of_true ⟨fun _ _ => rfl, fun _ _ => rfl⟩ fun _ hnone => by cases hnone
  | none =>
    by_cases hwrites : Writes br iface
    · obtain ⟨master, desc, w, ⟨hmarked, htally⟩, hifs, hstored, hrange⟩ :=
        linkIface_from_search hlink (linkSearch_marks hwrites hnodup) hrun
      rw [matchFound_eq, htally] at hstored
      rw [matchAmbiguous_iff, htally] at hrange
      have hchanged : ∀ e ∈ s.world.listed, Marks iface s.world e →
          s'.world.ifs e ≠ s.world.ifs e := by
        intro e he hmarks heq
        rw [hifs, hmarked.ifs, if_pos ⟨he, hmarks⟩] at heq
        have hsub := congrArg IfEntry.subDriver heq
        rw [hmarks.subDriver] at hsub
        cases hsub
      have hkept : ∀ e, ¬ (e ∈ s.world.listed ∧ Marks iface s.world e) →
          s'.world.ifs e = s.world.ifs e := by
        intro e he
        rw [hifs, hmarked.ifs, if_neg he]
      constructor
      · rintro ⟨hothers, -⟩ - - a ha b hb hamarks hbmarks
        have hstore : ∀ e ∈ s.world.listed, Marks iface s.world e →
            s'.link iface.ptr = some e := by
          intro e he hmarks
          by_contra hne
          exact hchanged e he hmarks (hothers e hne)
        apply Option.some.inj
        rw [← hstore a ha hamarks, hstore b hb hbmarks]
      · intro hone
        have hone := hone hwrites rfl
        -- a device that is marked has no rival
        have hwins : ∀ e ∈ s.world.listed, Marks iface s.world e →
            s'.link iface.ptr = some e ∧ r ≠ .error (ERANGE : Int) := by
          intro e he hmarks
          have hpos : 0 < markWeight master iface s.world e := markWeight_pos hmarks
          obtain ⟨hwin, hnot⟩ := Tally.winner_unique hnodup he hpos fun y hy hye => by
            rw [markWeight_zero fun hymarks => hye (hone y hy e he hymarks hmarks)]
            exact hpos
          exact ⟨hstored.trans hwin, fun herr => hnot (hrange herr)⟩
        constructor
        · intro e hne
          apply hkept
          rintro ⟨he, hmarks⟩
          exact hne (hwins e he hmarks).1
        · intro herr e
          apply hkept
          rintro ⟨he, hmarks⟩
          exact (hwins e he hmarks).2 herr
    · have hsearch : ∀ master, Prog.Runs (· = s.world)
          (matchIf { netnsList := some s.world.nsList } (linkIfaceSearch env br.dpType master iface))
          (fun _ w => w = s.world) fun _ => False := by
        intro master
        apply (matchIf_triple (fun _ => True) _ (fun e => ?_) (fun _ _ _ _ _ _ => trivial)
          fun _ _ => trivial).weaken (fun _ => id) fun _ _ h => h.2
        exact (linkIfaceSearch_unchanged hwrites e s.world).weaken (fun _ => id) fun _ _ h =>
          ⟨fun hneg => absurd h.1 (not_le.mpr hneg), h.2⟩
      obtain ⟨master, desc, w, hsame, hifs, -, -⟩ := linkIface_from_search hlink hsearch hrun
      rw [hsame] at hifs
      have hkept : ∀ e, s'.world.ifs e = s.world.ifs e := fun e => by rw [hifs]
      exact iff_of_true ⟨fun e _ => hkept e, fun _ => hkept⟩ fun h => absurd h hwrites

end

def tapWorld (nsList : List NsPtr) : World where
  ifs e := { ns := e, ifName := cstr "br0", driver := some (cstr "tun") }
  nss n := { ifaces := [n], name := if n = 0 then none else some (cstr "blue") }
  nsList := nsList
  free := []

def tapIface : OvsIf := { ptr := 0, name := cstr "br0", type := cstr "internal" }

def tapBridge : OvsBridge :=
  { name := cstr "br0"
    dpType := .netdev
    system := some { name := cstr "br0", ifaces := [tapIface], ifaceCount := 1 } }

def tapState (nsList : List NsPtr) : OvsState :=
  { world := tapWorld nsList, link := fun _ => none, next := 1 }

theorem linkIface_undisturbed_tap : ∃ r s',
    linkIface default 0 tapBridge tapIface true (tapState [0]) = some (r, s') ∧
      Undisturbed tapIface r (tapState [0]) s' := by
  obtain ⟨⟨r, s'⟩, hrun⟩ : ∃ x, linkIface default 0 tapBridge tapIface true (tapState [0]) =
      some x := Option.isSome_iff_exists.mp (by decide +kernel)
  refine ⟨r, s', hrun, (linkIface_undisturbed (by decide) hrun).mpr ?_⟩
  intro _ _ a ha b hb _ _
  have ha : a ∈ [0] := ha
  have hb : b ∈ [0] := hb
  rw [List.mem_singleton.mp ha, List.mem_singleton.mp hb]

/-- Of two devices with the name of the bridge the one of the root name space is taken, and the
other one is shown as one of Open vSwitch as well. -/
theorem linkIface_disturbs : ¬ ∀ (env : OvsEnv) (root : NsPtr) (br : OvsBridge) (iface : OvsIf)
    (required : Bool) (r : Except Int Unit) (s s' : OvsState), s.world.listed.Nodup →
      linkIface env root br iface required s = some (r, s') → Undisturbed iface r s s' := by
  intro h
  have hends : ((linkIface default 0 tapBridge tapIface true (tapState [0, 1])).any fun r =>
      decide (r.2.link 0 = some 0 ∧
        (r.2.world.ifs 1).subDriver = some (cstr "openvswitch"))) = true := by decide +kernel
  obtain ⟨⟨r, s'⟩, hrun, hs'⟩ := (Option.any_eq_true _ _).mp hends
  obtain ⟨hlink, hmarked⟩ := of_decide_eq_true hs'
  have hkept := (h default 0 tapBridge tapIface true r (tapState [0, 1]) s' (by decide) hrun).1 1
  have hlink : s'.link 0 = some 0 := hlink
  have hother : s'.link 0 ≠ some 1 := by
    rw [hlink]
    decide
  have hmarked : (s'.world.ifs 1).subDriver = some (cstr "openvswitch") := hmarked
  rw [hkept hother] at hmarked
  cases hmarked

end Plotnetcfg.Openvswitch
