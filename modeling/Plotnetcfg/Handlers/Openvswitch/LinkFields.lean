import Plotnetcfg.Handlers.Openvswitch.LinkSteps

/-! Fields of interfaces that most calls of the linking do not write. -/

namespace Plotnetcfg.Openvswitch

/-- A field that no search, no master, no link and no property of the configuration changes, and
that is zeroed in a created interface. -/
structure Unwritten {α : Type} (field : IfEntry → α) : Prop where
  subDriver : ∀ y d, field { y with subDriver := d } = field y
  master : ∀ y m rev, field { y with master := m, revMaster := rev } = field y
  link : ∀ y l rev, field { y with link := l, revLink := rev } = field y
  flags : ∀ y flags, field { y with flags := flags } = field y
  properties : ∀ y properties, field { y with properties := properties } = field y
  created : ∀ internalNs ifName ns flags,
    field { internalNs := internalNs, ifName := ifName, ns := ns, flags := flags } = field {}

/-- `x` has the value `v` in the field, and `C` holds if `malloc` may return `x`. -/
structure HasField {α : Type} (field : IfEntry → α) (x : IfPtr) (v : α) (C : Prop)
    (s : OvsState) : Prop where
  value : field (s.world.ifs x) = v
  fresh : x ∈ s.world.free → C

section
variable {α : Type} {field : IfEntry → α} {x : IfPtr} {v : α} {C : Prop} {env : OvsEnv} {root : NsPtr}
  {E : OvsState → Prop}

theorem modifyWorld_hasField {f : World → World}
    (hvalue : ∀ w, field ((f w).ifs x) = field (w.ifs x)) (hfree : ∀ w, (f w).free = w.free) :
    Prog.Runs (HasField field x v C) (modifyWorld f) (fun _ => HasField field x v C) E := by
  unfold modifyWorld onWorld
  apply Prog.Triple.zoom
  intro s hs
  apply Prog.Triple.modify
  rintro _ rfl
  refine ⟨(hvalue s.world).trans hs.value, fun hmem => hs.fresh ?_⟩
  rw [← hfree]
  exact hmem

theorem modifyIf_hasField (e : IfPtr) {f : IfEntry → IfEntry} (hf : ∀ y, field (f y) = field y) :
    Prog.Runs (HasField field x v C) (modifyWorld (·.modifyIf e f)) (fun _ => HasField field x v C)
      E := by
  apply modifyWorld_hasField
  · intro w
    rw [World.modifyIf_ifs]
    split_ifs
    · exact hf _
    · rfl
  · exact fun _ => rfl

theorem labelAdd_hasField (ns : NsPtr) (text : CStr) :
    Prog.Runs (HasField field x v C) (labelAdd ns text) (fun _ => HasField field x v C) E := by
  apply Prog.Triple.modify
  exact fun _ hs => ⟨hs.value, hs.fresh⟩

theorem setLink_hasField (ptr : OvsIfPtr) (link : Option IfPtr) :
    Prog.Runs (HasField field x v C) (setLink ptr link) (fun _ => HasField field x v C) E := by
  apply Prog.Triple.modify
  exact fun _ hs => ⟨hs.value, hs.fresh⟩

variable (h : Unwritten field)
include h

theorem addConfig_field (key : CStr) (value : Option CStr) (y : IfEntry) :
    field (addConfig key value y) = field y := by
  cases value with
  | none => rfl
  | some value => exact h.properties y _

theorem labelIface_field (iface : OvsIf) (y : IfEntry) : field (labelIface iface y) = field y := by
  unfold labelIface
  rw [addConfig_field h, addConfig_field h, addConfig_field h, addConfig_field h]
  split_ifs
  · exact addConfig_field h _ _ y
  · rfl

theorem masterSet_hasField (master : Option IfPtr) (e : IfPtr) :
    Prog.Runs (HasField field x v C) (modifyWorld (masterSet master e))
      (fun _ => HasField field x v C) E := by
  apply modifyWorld_hasField
  · intro w
    obtain ⟨m, rev, hifs⟩ := masterSet_ifs w x master e
    rw [hifs]
    exact h.master _ m rev
  · exact fun w => (masterSet_lists w master e).2.2

theorem linkTunnel_hasField (iface : OvsIf) (link : IfPtr) :
    Prog.Runs (HasField field x v C) (linkTunnel env iface link) (fun _ => HasField field x v C) E := by
  unfold linkTunnel
  split
  · exact Prog.Triple.pure fun _ => id
  · exact Prog.Triple.pure fun _ => id
  · apply Prog.Triple.bind (Q := fun _ => HasField field x v C) (Prog.Triple.get fun _ => id)
    intro t
    have hfind : ∀ ns localIp, Prog.Runs (HasField field x v C)
        (onWorld (tunnelFindStr env.inetPton ns localIp)) (fun _ => HasField field x v C) E := by
      intro ns localIp
      apply Prog.Triple.zoom
      intro t ht
      apply (tunnelFindStr_triple env.inetPton ns localIp).weaken (fun _ => id)
      rintro _ _ rfl
      exact ht
    apply Prog.Triple.bind (hfind _ _)
    intro found
    have hset : Prog.Runs (HasField field x v C) (modifyWorld (linkSet found (some link)))
        (fun _ => HasField field x v C) E := by
      apply modifyWorld_hasField
      · intro w
        obtain ⟨l, rev, hifs⟩ := linkSet_ifs w x found (some link)
        rw [hifs]
        exact h.link _ l rev
      · exact fun w => (linkSet_lists w found (some link)).2.2
    apply Prog.Triple.bind hset
    exact fun _ => modifyIf_hasField link fun y => h.flags y _

theorem linkIface_hasField (br : OvsBridge) (iface : OvsIf) (required : Bool) :
    Prog.Runs (HasField field x v C) (linkIface env root br iface required)
      (fun _ => HasField field x v C) (HasField field x v C) := by
  unfold linkIface
  apply Prog.Triple.bind (Q := fun _ => HasField field x v C) (Prog.Triple.get fun _ => id)
  intro t
  apply Prog.Triple.ite
  · exact fun _ => Prog.Triple.pure fun _ => id
  intro _
  apply Prog.Triple.bind (Q := fun _ => HasField field x v C) (Prog.Triple.deref fun _ _ _ => id)
  intro system
  apply Prog.Triple.bind (Q := fun _ => HasField field x v C) (Prog.Triple.deref fun _ _ _ => id)
  intro first
  have hsearch : Prog.Runs (HasField field x v C) (onWorld (matchIf
      { netnsList := some t.world.nsList }
      (linkIfaceSearch env br.dpType (t.link first.ptr) iface))) (fun _ => HasField field x v C)
      (HasField field x v C) := by
    apply Prog.Triple.zoom
    intro u hu
    let I : World → Prop := fun w => field (w.ifs x) = v ∧ (x ∈ w.free → C)
    have hcb : ∀ e, Prog.Runs I (linkIfaceSearch env br.dpType (t.link first.ptr) iface e)
        (fun res w => (res < 0 → I w) ∧ I w) I := by
      intro e
      have hmark : ∀ w, I w → I (w.modifyIf e fun y =>
          { y with subDriver := some (cstr "openvswitch") }) := by
        intro w hw
        refine ⟨?_, hw.2⟩
        rw [World.modifyIf_ifs, ← hw.1]
        split_ifs
        · exact h.subDriver _ _
        · rfl
      apply (linkIfaceSearch_triple env br.dpType (t.link first.ptr) iface e hmark).weaken
        (fun _ => id)
      exact fun _ _ hw => ⟨fun _ => hw.2, hw.2⟩
    have hkeep := matchIf_triple (fun _ => True) { netnsList := some t.world.nsList } hcb
      (fun _ _ _ _ _ _ => trivial) fun _ _ => trivial
    apply (hkeep.weakenError fun _ _ hw => ⟨hw.1, hw.2⟩).weaken
    · rintro _ rfl
      exact ⟨hu.value, hu.fresh⟩
    · exact fun _ _ hw => ⟨hw.2.1, hw.2.2⟩
  apply Prog.Triple.bind hsearch
  intro desc
  apply Prog.Triple.bind (setLink_hasField iface.ptr (matchFound desc))
  intro _
  apply Prog.Triple.ite
  · intro _
    apply Prog.Triple.bind (labelAdd_hasField _ _)
    exact fun _ => Prog.Triple.throw fun _ => id
  intro _
  apply Prog.Triple.ite
  · intro _
    apply Prog.Triple.bind (labelAdd_hasField _ _)
    exact fun _ => Prog.Triple.throw fun _ => id
  · exact fun _ => Prog.Triple.pure fun _ => id

variable (hC : C → v = field {})
include hC

theorem createIface_hasField (name brName : CStr) :
    Prog.Runs (HasField field x v C) (createIface root name brName)
      (fun e s => (e = x → C) ∧ HasField field x v C s) (HasField field x v C) := by
  intro s hs r s' hrun
  unfold createIface ifCreate at hrun
  cases hfree : s.world.free with
  | nil =>
    rw [hfree] at hrun
    obtain ⟨rfl, rfl⟩ := Prod.mk.inj (Option.some.inj hrun)
    exact hs
  | cons e free =>
    rw [hfree] at hrun
    obtain ⟨rfl, rfl⟩ := Prod.mk.inj (Option.some.inj hrun)
    have hnew : e = x → C := by
      rintro rfl
      exact hs.fresh (by rw [hfree]; exact List.mem_cons_self)
    refine ⟨hnew, ?_, fun hmem => hs.fresh (by rw [hfree]; exact List.mem_cons_of_mem e hmem)⟩
    by_cases hx : x = e
    · subst hx
      rw [hC (hnew rfl)]
      simp only [addIface, World.modifyNs_ifs, World.modifyIf_ifs, if_true]
      exact h.created _ _ _ _
    · simp only [addIface, World.modifyNs_ifs, World.modifyIf_ifs, if_neg hx]
      exact hs.value

theorem linkedIface_hasField (br : OvsBridge) (iface : OvsIf) :
    Prog.Runs (HasField field x v C) (linkedIface root br iface) (fun _ => HasField field x v C)
      (HasField field x v C) := by
  unfold linkedIface
  apply Prog.Triple.bind (Q := fun _ => HasField field x v C) (Prog.Triple.get fun _ => id)
  intro t
  cases t.link iface.ptr with
  | some e => exact Prog.Triple.pure fun _ => id
  | none =>
    apply Prog.Triple.bind (createIface_hasField h hC iface.name br.name)
    intro e
    apply Prog.Triple.of_and
    intro _
    apply Prog.Triple.bind (setLink_hasField iface.ptr (some e))
    exact fun _ => Prog.Triple.pure fun _ => id

end

end Plotnetcfg.Openvswitch
