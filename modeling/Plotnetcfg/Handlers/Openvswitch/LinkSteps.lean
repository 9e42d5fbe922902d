import Plotnetcfg.Core.Names
import Plotnetcfg.Handlers.Openvswitch.LinkInvariant

/-! What each call of the linking does to the topology. -/

namespace Plotnetcfg.Openvswitch

theorem addConfig_labels (key : CStr) (value : Option CStr) (x : IfEntry) :
    Labels x (addConfig key value x) := by
  cases value <;> exact ⟨⟨rfl, rfl, rfl, rfl⟩, rfl, rfl, rfl⟩

theorem labelIface_labels (iface : OvsIf) (x : IfEntry) : Labels x (labelIface iface x) := by
  have htype : Labels x (if iface.type ≠ [] then
      addConfig (cstr "type") (some iface.type) x else x) := by
    by_cases h : iface.type ≠ []
    · rw [if_pos h]
      exact addConfig_labels _ _ x
    · rw [if_neg h]
      exact .refl x
  exact (((htype.trans (addConfig_labels _ _ _)).trans (addConfig_labels _ _ _)).trans
    (addConfig_labels _ _ _)).trans (addConfig_labels _ _ _)

theorem labelPortOrIface_labels (port : OvsPort) (x : IfEntry) :
    Labels x (labelPortOrIface port x) := by
  have hlabel : ∀ text, Labels x { x with edgeLabel := text } :=
    fun text => ⟨⟨rfl, rfl, rfl, rfl⟩, rfl, rfl, rfl⟩
  unfold labelPortOrIface
  dsimp only
  split_ifs
  · exact (hlabel _).trans (addConfig_labels _ _ _)
  · exact (hlabel _).trans (addConfig_labels _ _ _)
  · exact addConfig_labels _ _ x

/-! ## Finding an interface -/

structure Matches (dpType : OvsDpType) (master : Option IfPtr) (iface : OvsIf) (w : World)
    (e : IfPtr) : Prop where
  listed : e ∈ w.listed
  name : (w.ifs e).ifName = iface.name
  here : masterElsewhere dpType master e w = false
  driver : dpType = .netdev ∨ iface.type = cstr "internal" → (w.ifs e).driver.isSome

section
variable {env : OvsEnv} {root : NsPtr} {br : OvsBridge} {iface : OvsIf}

theorem masterElsewhere_steady {w w' : World} (h : Steady w w') (dpType : OvsDpType)
    (master : Option IfPtr) (e : IfPtr) :
    masterElsewhere dpType master e w' = masterElsewhere dpType master e w := by
  unfold masterElsewhere
  rw [h.master]
  cases master with
  | none => rfl
  | some m =>
    cases dpType with
    | netdev => rfl
    | system =>
      cases (w.ifs e).master with
      | none => rfl
      | some x =>
        dsimp only
        rw [(h.frame.kept x).ifName]

theorem linkIfaceSearch_matches (env : OvsEnv) (dpType : OvsDpType) (master : Option IfPtr)
    (iface : OvsIf) {w₀ : World} {e : IfPtr} (he : e ∈ w₀.listed) {E : World → Prop} :
    Prog.Runs (Steady w₀) (linkIfaceSearch env dpType master iface e)
      (fun res w => (res < 0 → E w) ∧ (0 < res → Matches dpType master iface w₀ e) ∧ Steady w₀ w)
      E := by
  -- the weight is positive where the search gets to it
  have hzero : Prog.Runs (Steady w₀) (pure 0 : Prog Int World Int)
      (fun res w => (res < 0 → E w) ∧ (0 < res → Matches dpType master iface w₀ e) ∧ Steady w₀ w)
      E := Prog.Triple.pure fun w hw => ⟨fun h => absurd h (by decide), fun h =>
        absurd h (by decide), hw⟩
  have hnonneg : ∀ w, 0 ≤ linkWeight master e w := by
    intro w
    unfold linkWeight
    cases master <;> dsimp only <;> split_ifs <;> decide
  have hweight : ∀ w₁, Matches dpType master iface w₀ e →
      Prog.Runs (Steady w₀) (pure (linkWeight master e w₁) : Prog Int World Int)
        (fun res w => (res < 0 → E w) ∧ (0 < res → Matches dpType master iface w₀ e) ∧
          Steady w₀ w) E :=
    fun w₁ hm => Prog.Triple.pure fun w hw =>
      ⟨fun h => absurd h (not_lt.mpr (hnonneg w₁)), fun _ => hm, hw⟩
  unfold linkIfaceSearch
  apply Prog.Triple.bind (Q := fun w₁ w => Steady w₀ w₁ ∧ Steady w₀ w)
    (Prog.Triple.get fun w hw => ⟨hw, hw⟩)
  intro w₁
  apply Prog.Triple.of_and
  intro h₁
  apply Prog.Triple.ite
  · exact fun _ => hzero
  intro hhere
  apply Prog.Triple.ite
  · exact fun _ => hzero
  intro hname
  have hname₀ : (w₀.ifs e).ifName = iface.name := by
    rw [← (h₁.frame.kept e).ifName]
    exact (not_not.mp hname).symm
  have hhere₀ : masterElsewhere dpType master e w₀ = false := by
    rw [← masterElsewhere_steady h₁]
    exact eq_false_of_ne_true hhere
  have hderef : Prog.Runs (Steady w₀) (Prog.deref (w₁.ifs e).driver : Prog Int World CStr)
      (fun _ w => (w₀.ifs e).driver.isSome ∧ Steady w₀ w) E := by
    apply Prog.Triple.deref
    intro driver hdriver w hw
    refine ⟨?_, hw⟩
    rw [← (h₁.frame.kept e).driver, hdriver]
    rfl
  cases dpType with
  | system =>
    apply Prog.Triple.ite
    · intro _
      apply Prog.Triple.bind hderef
      intro driver
      apply Prog.Triple.of_and
      intro hdriver
      apply Prog.Triple.ite
      · exact fun _ => hzero
      intro _
      apply Prog.Triple.ite
      · exact fun _ => hzero
      · exact fun _ => hweight w₁ ⟨he, hname₀, hhere₀, fun _ => hdriver⟩
    · intro htype
      apply Prog.Triple.ite
      · exact fun _ => hzero
      · exact fun _ => hweight w₁ ⟨he, hname₀, hhere₀, fun h => h.elim nofun (absurd · htype)⟩
  | netdev =>
    apply Prog.Triple.ite
    · intro _
      apply Prog.Triple.bind hderef
      intro driver
      apply Prog.Triple.of_and
      intro hdriver
      apply Prog.Triple.ite
      · exact fun _ => hzero
      intro _
      have hmark : Prog.Runs (Steady w₀) (Prog.modify fun w => w.modifyIf e fun x =>
          { x with subDriver := some (cstr "openvswitch") } : Prog Int World Unit)
          (fun _ => Steady w₀) E := by
        apply Prog.Triple.modify
        intro w hw
        exact hw.trans (modifyIf_steady w e fun _ => ⟨⟨rfl, rfl, rfl, rfl⟩, rfl, rfl, rfl⟩)
      apply Prog.Triple.bind hmark
      exact fun _ => hweight w₁ ⟨he, hname₀, hhere₀, fun _ => hdriver⟩
    · exact fun _ => hzero

/-- The link is one that `iface` had, or that of an interface that matches. -/
def FoundBy (br : OvsBridge) (iface : OvsIf) (s : OvsState) (e : IfPtr) : Prop :=
  s.link iface.ptr = some e ∨ s.link iface.ptr = none ∧ ∃ system main,
    br.system = some system ∧ system.ifaces.head? = some main ∧
      Matches br.dpType (s.link main.ptr) iface s.world e

/-- `link_iface` for `iface` writes its link only. -/
structure Looked (br : OvsBridge) (iface : OvsIf) (s s' : OvsState) : Prop where
  world : Steady s.world s'.world
  link : ∀ ptr, ptr ≠ iface.ptr → s'.link ptr = s.link ptr
  found : ∀ e, s'.link iface.ptr = some e → FoundBy br iface s e

theorem linkSearch_finds (env : OvsEnv) (br : OvsBridge) (master : Option IfPtr) (iface : OvsIf)
    (s : OvsState) :
    Prog.Runs (· = s) (onWorld (matchIf { netnsList := some s.world.nsList }
      (linkIfaceSearch env br.dpType master iface)))
      (fun desc s' => (∀ e, matchFound desc = some e → Matches br.dpType master iface s.world e) ∧
        Steady s.world s'.world ∧ s'.link = s.link) fun _ => False := by
  have hsearch : Prog.Runs (Steady s.world) (matchIf { netnsList := some s.world.nsList }
      (linkIfaceSearch env br.dpType master iface))
      (fun desc w => (∀ e, matchFound desc = some e →
        Matches br.dpType master iface s.world e) ∧ Steady s.world w) fun _ => False := by
    apply matchIf_finds _ rfl _ ⟨le_refl 0, nofun⟩
    intro w hw n hn e he
    apply linkIfaceSearch_matches
    rw [hw.frame.ifaces] at he
    exact World.mem_listed.mpr ⟨n, hn, he⟩
  apply Prog.Triple.zoom
  rintro _ rfl w rfl r w' hrun
  have hpost := hsearch _ (.refl _) r w' hrun
  cases r with
  | error e => exact hpost
  | ok desc => exact ⟨hpost.1, hpost.2, rfl⟩

theorem linkIface_looked (env : OvsEnv) (root : NsPtr) (br : OvsBridge) (iface : OvsIf)
    (required : Bool) (s : OvsState) :
    Prog.Runs (· = s) (linkIface env root br iface required)
      (fun _ s' => Looked br iface s s' ∧ (required → (s'.link iface.ptr).isSome))
      (Looked br iface s) := by
  unfold linkIface
  apply Prog.Triple.bind (Q := fun s₁ s' => s₁ = s ∧ s' = s) (Prog.Triple.get fun s' hs => ⟨hs, hs⟩)
  intro s₁
  apply Prog.Triple.of_and
  rintro rfl
  apply Prog.Triple.ite
  · intro hsome
    apply Prog.Triple.pure
    rintro _ rfl
    exact ⟨⟨.refl _, fun _ _ => rfl, fun e he => .inl he⟩, fun _ => hsome⟩
  intro hnone
  have hnone : s₁.link iface.ptr = none := Option.not_isSome_iff_eq_none.mp hnone
  apply Prog.Triple.bind (Q := fun system s' => br.system = some system ∧ s' = s₁)
    (Prog.Triple.deref fun system hsystem s' hs => ⟨hsystem, hs⟩)
  intro system
  apply Prog.Triple.of_and
  intro hsystem
  apply Prog.Triple.bind (Q := fun main s' => system.ifaces.head? = some main ∧ s' = s₁)
    (Prog.Triple.deref fun main hmain s' hs => ⟨hmain, hs⟩)
  intro main
  apply Prog.Triple.of_and
  intro hmain
  have hsearch := linkSearch_finds env br (s₁.link main.ptr) iface s₁
  apply Prog.Triple.bind (hsearch.weakenError fun _ _ h => h.elim)
  intro desc
  apply Prog.Triple.of_and
  intro hfound
  -- the link is written, and perhaps a warning
  have hset : Prog.Runs (fun s' => Steady s₁.world s'.world ∧ s'.link = s₁.link)
      (setLink iface.ptr (matchFound desc))
      (fun _ s' => Looked br iface s₁ s' ∧ s'.link iface.ptr = matchFound desc)
      (Looked br iface s₁) := by
    apply Prog.Triple.modify
    rintro s' ⟨hworld, hlink⟩
    refine ⟨⟨hworld, fun ptr hne => ?_, fun e he => .inr ⟨hnone, system, main, hsystem, hmain,
      hfound e ?_⟩⟩, Function.update_self ..⟩
    · dsimp only
      rw [Function.update_of_ne hne, hlink]
    · dsimp only at he
      rwa [Function.update_self] at he
  apply Prog.Triple.bind hset
  intro _
  have hwarn : ∀ text err, Prog.Runs (fun s' => Looked br iface s₁ s' ∧
      s'.link iface.ptr = matchFound desc)
      (do labelAdd root text; Prog.throw err : OvsProg Unit)
      (fun _ s' => Looked br iface s₁ s' ∧ (required → (s'.link iface.ptr).isSome))
      (Looked br iface s₁) := by
    intro text err
    apply Prog.Triple.bind (Q := fun _ s' => Looked br iface s₁ s')
    · apply Prog.Triple.modify
      intro s' hs'
      exact ⟨hs'.1.world.trans (labelAdd_steady _ _ _), hs'.1.link, hs'.1.found⟩
    · exact fun _ => Prog.Triple.throw fun _ => id
  apply Prog.Triple.ite
  · exact fun _ => hwarn _ _
  intro _
  apply Prog.Triple.ite
  · exact fun _ => hwarn _ _
  · intro hmissing
    apply Prog.Triple.pure
    intro s' hs'
    refine ⟨hs'.1, fun hrequired => ?_⟩
    rw [hs'.2]
    simpa [hrequired, Option.isSome_iff_ne_none] using hmissing

/-! ## Interfaces that the kernel does not have -/

structure Creates (root : NsPtr) (name brName : CStr) (s s' : OvsState) (e : IfPtr) : Prop where
  adds : s.world.Adds s'.world root e
  link : s'.link = s.link
  nsName : ∀ n, (s'.world.nss n).name = (s.world.nss n).name
  ifName : (s'.world.ifs e).ifName = name
  internalNs : (s'.world.ifs e).internalNs = some (cstr "ovs:" ++ brName)
  internal : (s'.world.ifs e).flags.internal = true
  driver : (s'.world.ifs e).driver = none
  master : (s'.world.ifs e).master = none

theorem createIface_creates (root : NsPtr) (name brName : CStr) (s : OvsState) :
    Prog.Runs (· = s) (createIface root name brName)
      (fun e s' => Creates root name brName s s' e) fun s' => s' = s := by
  intro t ht r s' hrun
  rw [ht] at hrun
  unfold createIface ifCreate at hrun
  cases hfree : s.world.free with
  | nil =>
    simp only [hfree, Option.some.injEq, Prod.mk.injEq] at hrun
    obtain ⟨rfl, rfl⟩ := hrun
    rfl
  | cons e free =>
    simp only [hfree, Option.some.injEq, Prod.mk.injEq] at hrun
    obtain ⟨rfl, rfl⟩ := hrun
    refine ⟨⟨rfl, fun n => ?_, fun n => ?_, hfree, fun x hx => ?_, ?_, ?_⟩, rfl, fun n => ?_,
      ?_, ?_, ?_, ?_, ?_⟩
    · rw [addIface, World.modifyNs_nss, apply_ite NetnsEntry.ifaces]
      rfl
    · rw [addIface, World.modifyNs_nss, apply_ite NetnsEntry.ids, ite_self]
      rfl
    · simp [addIface, hx]
    · simp [addIface]
    · simp [addIface]
    · rw [addIface, World.modifyNs_nss, apply_ite NetnsEntry.name, ite_self]
      rfl
    · simp [addIface]
    · simp [addIface]
    · simp [addIface]
    · simp [addIface]
    · simp [addIface]

/-- How `iface` gets its link after the search: it was found, or an interface is created. -/
inductive Obtains (root : NsPtr) (br : OvsBridge) (iface : OvsIf) (s s' : OvsState) (e : IfPtr) :
    Prop where
  | found (hlink : s.link iface.ptr = some e) (heq : s' = s) : Obtains root br iface s s' e
  | created {t : OvsState} (hlink : s.link iface.ptr = none)
      (hcreate : Creates root iface.name br.name s t e)
      (heq : s' = { t with link := Function.update t.link iface.ptr (some e) }) :
      Obtains root br iface s s' e

theorem linkedIface_obtains (root : NsPtr) (br : OvsBridge) (iface : OvsIf) (s : OvsState) :
    Prog.Runs (· = s) (linkedIface root br iface) (fun e s' => Obtains root br iface s s' e)
      fun s' => s' = s := by
  unfold linkedIface
  apply Prog.Triple.bind (Q := fun s₁ s' => s₁ = s ∧ s' = s) (Prog.Triple.get fun s' hs => ⟨hs, hs⟩)
  intro s₁
  apply Prog.Triple.of_and
  rintro rfl
  cases hlink : s₁.link iface.ptr with
  | some e =>
    apply Prog.Triple.pure
    rintro _ rfl
    exact .found hlink rfl
  | none =>
    apply Prog.Triple.bind (createIface_creates root iface.name br.name s₁)
    intro e
    apply Prog.Triple.bind (Q := fun _ s' => Obtains root br iface s₁ s' e)
    · apply Prog.Triple.modify
      intro t ht
      exact .created hlink ht rfl
    · exact fun _ => Prog.Triple.pure fun _ => id

theorem createIface_stops (root : NsPtr) (name brName : CStr) (s : OvsState) :
    Prog.Triple (· = s) (createIface root name brName) (fun _ _ => True)
      fun err s' => err = ENOMEM ∧ s' = s := by
  intro t ht r s' hrun
  rw [ht] at hrun
  unfold createIface ifCreate at hrun
  cases hfree : s.world.free with
  | nil =>
    simp only [hfree, Option.some.injEq, Prod.mk.injEq] at hrun
    obtain ⟨rfl, rfl⟩ := hrun
    exact ⟨rfl, rfl⟩
  | cons e free =>
    simp only [hfree, Option.some.injEq, Prod.mk.injEq] at hrun
    obtain ⟨rfl, -⟩ := hrun
    trivial

theorem linkedIface_stops (root : NsPtr) (br : OvsBridge) (iface : OvsIf) (s : OvsState) :
    Prog.Triple (· = s) (linkedIface root br iface) (fun _ _ => True)
      fun err s' => err = ENOMEM ∧ s' = s := by
  unfold linkedIface
  apply Prog.Triple.bind (Q := fun s₁ s' => s₁ = s ∧ s' = s) (Prog.Triple.get fun s' hs => ⟨hs, hs⟩)
  intro s₁
  apply Prog.Triple.of_and
  rintro rfl
  cases s₁.link iface.ptr with
  | some e => exact Prog.Triple.pure fun _ _ => trivial
  | none =>
    apply Prog.Triple.bind (createIface_stops root iface.name br.name s₁)
    intro e
    apply Prog.Triple.bind (Q := fun _ _ => True) (Prog.Triple.modify fun _ _ => trivial)
    exact fun _ => Prog.Triple.pure fun _ _ => trivial

/-! ## Interfaces of ports -/

/-- Only the world changes, and no list, name or master in it. -/
def Decorates (s s' : OvsState) : Prop := Steady s.world s'.world ∧ s'.link = s.link

theorem modifyWorld_decorates {s : OvsState} {f : World → World}
    (hf : ∀ w, Steady w (f w)) {E : OvsState → Prop} :
    Prog.Runs (Decorates s) (modifyWorld f) (fun _ => Decorates s) E := by
  unfold modifyWorld onWorld
  apply Prog.Triple.zoom
  rintro t ⟨hworld, hlink⟩
  apply Prog.Triple.modify
  rintro _ rfl
  exact ⟨hworld.trans (hf _), hlink⟩

theorem linkTunnel_decorates (env : OvsEnv) (iface : OvsIf) (link : IfPtr) (s : OvsState)
    {E : OvsState → Prop} :
    Prog.Runs (Decorates s) (linkTunnel env iface link) (fun _ => Decorates s) E := by
  unfold linkTunnel
  split
  · exact Prog.Triple.pure fun _ => id
  · exact Prog.Triple.pure fun _ => id
  · apply Prog.Triple.bind (Q := fun _ => Decorates s) (Prog.Triple.get fun _ => id)
    intro s₁
    have hfind : ∀ ns localIp, Prog.Runs (Decorates s)
        (onWorld (tunnelFindStr env.inetPton ns localIp)) (fun _ => Decorates s) E := by
      intro ns localIp
      apply Prog.Triple.zoom
      intro t ht
      apply (tunnelFindStr_triple env.inetPton ns localIp).weaken (fun _ => id)
      rintro _ _ rfl
      exact ht
    apply Prog.Triple.bind (hfind _ _)
    intro found
    apply Prog.Triple.bind (modifyWorld_decorates fun w => linkSet_steady w _ _)
    have hflag : ∀ w : World, Steady w (w.modifyIf link fun x =>
        { x with flags := { x.flags with linkWeak := true } }) :=
      fun w => modifyIf_steady w link fun _ => ⟨⟨rfl, rfl, rfl, rfl⟩, rfl, rfl, rfl⟩
    exact fun _ => modifyWorld_decorates hflag

theorem linkPatch_decorates (iface : OvsIf) (link : IfPtr) (s : OvsState)
    {E : OvsState → Prop} :
    Prog.Runs (Decorates s) (linkPatch iface link) (fun _ => Decorates s) E := by
  unfold linkPatch
  apply Prog.Triple.bind (Q := fun _ => Decorates s) (Prog.Triple.get fun _ => id)
  intro s₁
  have hsearch : Prog.Runs (Decorates s) (onWorld (matchIf { netnsList := some s₁.world.nsList }
      (linkPatchSearch iface))) (fun _ => Decorates s) E := by
    apply Prog.Triple.zoom
    intro t ht
    have hunchanged : Prog.Runs (· = t.world) (matchIf { netnsList := some s₁.world.nsList }
        (linkPatchSearch iface)) (fun _ w => w = t.world) fun _ => False := by
      apply (matchIf_triple (fun _ => True) _ (fun e => ?_) (fun _ _ _ _ _ _ => trivial)
        fun _ _ => trivial).weaken (fun _ => id) fun _ _ h => h.2
      exact (linkPatchSearch_triple iface e).weaken (fun _ => id) fun _ _ h =>
        ⟨fun hneg => absurd h.1 (not_le.mpr hneg), h.2⟩
    apply (hunchanged.weakenError fun _ _ h => h.elim).weaken (fun _ => id)
    rintro _ _ rfl
    exact ht
  apply Prog.Triple.bind hsearch
  intro desc
  apply Prog.Triple.ite
  · exact fun _ => modifyWorld_decorates fun w => ifAddWarning_steady w link _
  · intro _
    cases matchFound desc with
    | none => exact Prog.Triple.pure fun _ => id
    | some found => exact modifyWorld_decorates fun w => peerSet_steady w _ _

theorem enslave_triple {α : Type} {s : OvsState} (master : Option IfPtr) (link : IfPtr)
    {rest : OvsProg α} {Q : α → Prop} {E : OvsState → Prop}
    (hrest : ∀ t, Prog.Runs (Decorates t) rest (fun a s' => Q a ∧ Decorates t s') E) :
    Prog.Runs (· = s) (do modifyWorld (masterSet master link); rest)
      (fun a s' => Q a ∧ Enslaves s.world s'.world link master ∧ s'.link = s.link) E := by
  apply Prog.Triple.bind (Q := fun _ t => t = { s with world := masterSet master link s.world })
  · unfold modifyWorld onWorld
    apply Prog.Triple.zoom
    rintro _ rfl
    apply Prog.Triple.modify
    rintro _ rfl
    rfl
  · rintro _ t rfl r s' hrun
    have hpost := hrest _ _ ⟨.refl _, rfl⟩ r s' hrun
    cases r with
    | error e => exact hpost
    | ok u =>
      obtain ⟨ha, hworld, hlink⟩ := hpost
      exact ⟨ha, (masterSet_enslaves s.world master link).steady hworld, hlink⟩

/-- The turn of an interface of a port: it is looked for, created if need be, and enslaved. -/
structure IfaceTurn (env : OvsEnv) (root : NsPtr) (br : OvsBridge) (master : Option IfPtr)
    (iface : OvsIf) (s s₁ s₂ s' : OvsState) (e : IfPtr) : Prop where
  search : linkIface env root br iface false s = some (.ok (), s₁)
  looked : Looked br iface s s₁
  obtains : Obtains root br iface s₁ s₂ e
  enslaves : Enslaves s₂.world s'.world e master
  link : s'.link = s₂.link

theorem joinPort_enslaves (env : OvsEnv) (port : OvsPort) (master : Option IfPtr) (iface : OvsIf)
    (link : IfPtr) (s : OvsState) :
    Prog.Runs (· = s) (do
        modifyWorld (masterSet master link)
        modifyWorld (·.modifyIf link (labelIface iface))
        modifyWorld (·.modifyIf link fun x =>
          if port.ifaceCount = 1 then labelPortOrIface port x else x)
        if ifaceIsTunnel iface then linkTunnel env iface link
        else if iface.type = cstr "patch" then linkPatch iface link
        else pure ())
      (fun _ s' => Enslaves s.world s'.world link master ∧ s'.link = s.link) fun _ => False := by
  have hrest : ∀ t, Prog.Runs (Decorates t) (do
      modifyWorld (·.modifyIf link (labelIface iface))
      modifyWorld (·.modifyIf link fun x =>
        if port.ifaceCount = 1 then labelPortOrIface port x else x)
      if ifaceIsTunnel iface then linkTunnel env iface link
      else if iface.type = cstr "patch" then linkPatch iface link
      else pure ()) (fun _ s' => True ∧ Decorates t s') fun _ => False := by
    intro t
    apply Prog.Triple.bind (modifyWorld_decorates fun w =>
      modifyIf_steady w link (labelIface_labels iface))
    intro _
    apply Prog.Triple.bind (modifyWorld_decorates fun w => modifyIf_steady w link fun x => ?_)
    · intro _
      apply Prog.Triple.ite
      · exact fun _ => (linkTunnel_decorates env iface link t).weaken (fun _ => id)
          fun _ _ h => ⟨trivial, h⟩
      · intro _
        apply Prog.Triple.ite
        · exact fun _ => (linkPatch_decorates iface link t).weaken (fun _ => id)
            fun _ _ h => ⟨trivial, h⟩
        · exact fun _ => Prog.Triple.pure fun _ h => ⟨trivial, h⟩
    · split_ifs
      · exact labelPortOrIface_labels port x
      · exact .refl x
  exact (enslave_triple master link hrest).weaken (fun _ => id) fun _ _ h => h.2

theorem linkPortIface_turn (env : OvsEnv) (root : NsPtr) (br : OvsBridge) (port : OvsPort)
    (master : Option IfPtr) (iface : OvsIf) (s : OvsState) :
    Prog.Runs (· = s) (linkPortIface env root br port master iface)
      (fun _ s' => ∃ s₁ s₂ e, IfaceTurn env root br master iface s s₁ s₂ s' e)
      (Looked br iface s) := by
  unfold linkPortIface
  have hsearch : Prog.Runs (· = s) (linkIface env root br iface false)
      (fun _ s₁ => linkIface env root br iface false s = some (.ok (), s₁) ∧
        Looked br iface s s₁) (Looked br iface s) := by
    intro t ht r s₁ hrun
    rw [ht] at hrun
    have hpost := linkIface_looked env root br iface false s s rfl r s₁ hrun
    cases r with
    | error e => exact hpost
    | ok u => exact ⟨hrun, hpost.1⟩
  apply Prog.Triple.bind hsearch
  rintro _ s₁ ⟨hrun, hlooked⟩
  have hlinked : Prog.Runs (· = s₁) (linkedIface root br iface)
      (fun e s₂ => Obtains root br iface s₁ s₂ e) (Looked br iface s) :=
    (linkedIface_obtains root br iface s₁).weakenError fun _ s' hs' => hs' ▸ hlooked
  refine Prog.Triple.bind hlinked (fun link s₂ hobtains r s' hjoin => ?_) s₁ rfl
  have hpost := joinPort_enslaves env port master iface link s₂ s₂ rfl r s' hjoin
  cases r with
  | error err => exact hpost.elim
  | ok u => exact ⟨s₁, s₂, link, hrun, hlooked, hobtains, hpost.1, hpost.2⟩

/-- An error is that of the search, or there is no memory for another entry. -/
theorem linkPortIface_stops (env : OvsEnv) (root : NsPtr) (br : OvsBridge) (port : OvsPort)
    (master : Option IfPtr) (iface : OvsIf) (s : OvsState) :
    Prog.Triple (· = s) (linkPortIface env root br port master iface) (fun _ _ => True)
      fun err s' => linkIface env root br iface false s = some (.error err, s') ∨
        err = ENOMEM ∧ linkIface env root br iface false s = some (.ok (), s') := by
  unfold linkPortIface
  have hsearch : Prog.Triple (· = s) (linkIface env root br iface false)
      (fun _ s₁ => linkIface env root br iface false s = some (.ok (), s₁))
      fun err s' => linkIface env root br iface false s = some (.error err, s') ∨
        err = ENOMEM ∧ linkIface env root br iface false s = some (.ok (), s') := by
    intro t ht r s₁ hrun
    rw [ht] at hrun
    cases r with
    | error e => exact .inl hrun
    | ok u => exact hrun
  apply Prog.Triple.bind hsearch
  intro _ s₁ hrun
  have hlinked : Prog.Triple (· = s₁) (linkedIface root br iface) (fun _ _ => True)
      fun err s' => linkIface env root br iface false s = some (.error err, s') ∨
        err = ENOMEM ∧ linkIface env root br iface false s = some (.ok (), s') :=
    (linkedIface_stops root br iface s₁).weakenError fun _ s' hs' => .inr ⟨hs'.1, hs'.2 ▸ hrun⟩
  refine Prog.Triple.bind hlinked (fun link s₂ _ r s' hjoin => ?_) s₁ rfl
  have hpost := joinPort_enslaves env port master iface link s₂ s₂ rfl r s' hjoin
  cases r with
  | error err => exact hpost.elim
  | ok u => trivial

theorem portMaster_sole {root : NsPtr} {br : OvsBridge} {ovsMaster : OvsIf} {port : OvsPort}
    (hcount : ¬ 1 < port.ifaceCount) (s : OvsState) :
    portMaster root br ovsMaster port s = some (.ok (s.link ovsMaster.ptr), s) := by
  unfold portMaster
  rw [Prog.bind_ok s (Prog.get_apply s), if_neg hcount]
  rfl

inductive MasterTurn (root : NsPtr) (br : OvsBridge) (ovsMaster : OvsIf) (port : OvsPort)
    (s s' : OvsState) : Option IfPtr → Prop where
  | sole (hcount : ¬ 1 < port.ifaceCount) (heq : s' = s) :
      MasterTurn root br ovsMaster port s s' (s.link ovsMaster.ptr)
  | several {t : OvsState} {c : IfPtr} (hcount : 1 < port.ifaceCount)
      (hcreate : Creates root port.name br.name s t c)
      (henslaves : Enslaves t.world s'.world c (s.link ovsMaster.ptr))
      (hlink : s'.link = s.link) : MasterTurn root br ovsMaster port s s' (some c)

theorem portMaster_turn (root : NsPtr) (br : OvsBridge) (ovsMaster : OvsIf) (port : OvsPort)
    (s : OvsState) :
    Prog.Runs (· = s) (portMaster root br ovsMaster port)
      (fun master s' => MasterTurn root br ovsMaster port s s' master) fun s' => s' = s := by
  unfold portMaster
  apply Prog.Triple.bind (Q := fun s₁ s' => s₁ = s ∧ s' = s) (Prog.Triple.get fun s' hs => ⟨hs, hs⟩)
  intro s₁
  apply Prog.Triple.of_and
  rintro rfl
  apply Prog.Triple.ite
  · intro hcount
    apply Prog.Triple.bind (createIface_creates root port.name br.name s₁)
    intro c t hcreate
    have hlabel : ∀ t', Prog.Runs (Decorates t')
        (do modifyWorld (·.modifyIf c (labelPortOrIface port)); pure (some c) :
          OvsProg (Option IfPtr))
        (fun master s' => master = some c ∧ Decorates t' s') fun s' => s' = s₁ := by
      intro t'
      apply Prog.Triple.bind (modifyWorld_decorates fun w =>
        modifyIf_steady w c (labelPortOrIface_labels port))
      exact fun _ => Prog.Triple.pure fun _ h => ⟨rfl, h⟩
    apply (enslave_triple (s₁.link ovsMaster.ptr) c hlabel).weaken (fun _ => id) _ t rfl
    rintro _ s' ⟨rfl, henslaves, hlink⟩
    exact .several hcount hcreate henslaves (hlink.trans hcreate.link)
  · intro hcount
    apply Prog.Triple.pure
    rintro _ rfl
    exact .sole hcount rfl

end

end Plotnetcfg.Openvswitch
