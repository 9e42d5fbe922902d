import Plotnetcfg.Handlers.Openvswitch.Linked

/-! A successful linking as a sequence of turns: those of the ports of the bridges that are mapped,
each followed by the turns of its interfaces. -/

namespace Plotnetcfg.Openvswitch

inductive Turn where
  | port (br : OvsBridge) (port : OvsPort)
  | iface (br : OvsBridge) (port : OvsPort) (iface : OvsIf)

def portTurns (ports : List (OvsBridge × OvsPort)) : List Turn :=
  ports.flatMap fun (br, port) => .port br port :: port.ifaces.map (.iface br port)

section
variable (env : OvsEnv) (root : NsPtr) (brList : List OvsBridge) (s₀ : OvsState)

noncomputable def turns : List Turn := portTurns (brList.flatMap (mappedPorts env root brList s₀))

/-- What each part of a successful linking has to keep; `I` is told the turns so far. -/
structure TurnRules (I : List Turn → OvsState → Prop) : Prop where
  warn : ∀ {pre s} (text : CStr), I pre s →
    I pre { s with world := s.world.modifyNs root (·.labelAdd text) }
  look : ∀ {pre br main s r s'}, br ∈ brList → MainIface br main → I pre s →
    linkIface env root br main true s = some (r, s') → I pre s'
  port : ∀ {pre br port post main s master s'},
    turns env root brList s₀ = pre ++ .port br port :: post → MainIface br main → I pre s →
      portMaster root br main port s = some (.ok master, s') → I (pre ++ [.port br port]) s'
  iface : ∀ {pre br port iface post master s s'},
    turns env root brList s₀ = pre ++ .iface br port iface :: post →
      LinkCall env root brList s₀ br iface s → I pre s →
        linkPortIface env root br port master iface s = some (.ok (), s') →
          I (pre ++ [.iface br port iface]) s'

end

theorem portTurns_append (ports ports' : List (OvsBridge × OvsPort)) :
    portTurns (ports ++ ports') = portTurns ports ++ portTurns ports' := List.flatMap_append

theorem portTurns_singleton (br : OvsBridge) (port : OvsPort) :
    portTurns [(br, port)] = .port br port :: port.ifaces.map (.iface br port) := by
  simp [portTurns]

section
variable {env : OvsEnv} {root : NsPtr} {brList : List OvsBridge} {s₀ s s' : OvsState}
  {I : List Turn → OvsState → Prop} {br : OvsBridge} {main : OvsIf} {pre post : List Turn}

theorem linkPort_turns (h : TurnRules env root brList s₀ I) {port : OvsPort}
    (hmain : MainIface br main)
    (hsplit : turns env root brList s₀ = pre ++ (portTurns [(br, port)] ++ post))
    (hcall : ∀ master t ifaces iface ifaces' t',
      portMaster root br main port s = some (.ok master, t) →
      port.ifaces = ifaces ++ iface :: ifaces' →
      Prog.forEach ifaces (linkPortIface env root br port master) t = some (.ok (), t') →
      LinkCall env root brList s₀ br iface t')
    (hs : I pre s) :
    Prog.Runs (· = s) (linkPort env root br main port)
      (fun _ => I (pre ++ portTurns [(br, port)])) fun _ => True := by
  rw [portTurns_singleton] at hsplit ⊢
  have hmaster : Prog.Runs (· = s) (portMaster root br main port)
      (fun master t => portMaster root br main port s = some (.ok master, t) ∧
        I (pre ++ [.port br port]) t) fun _ => True := by
    intro t ht r t' hrun
    rw [ht] at hrun
    cases r with
    | error e => trivial
    | ok master => exact ⟨hrun, h.port hsplit hmain hs hrun⟩
  unfold linkPort
  apply Prog.Triple.bind hmaster
  rintro master t ⟨hrunMaster, ht⟩
  have hloop : Prog.Runs (· = t)
      (Prog.forEach port.ifaces (linkPortIface env root br port master))
      (fun _ => I (pre ++ [.port br port] ++ port.ifaces.map (.iface br port))) fun _ => True := by
    let J : List OvsIf → OvsState → Prop := fun ifaces =>
      I (pre ++ [.port br port] ++ ifaces.map (.iface br port))
    apply Prog.Triple.forEachReached (I := J)
    · intro ifaces iface ifaces' t' hifaces hbefore ht' u hu r t'' hrun
      rw [hu] at hrun
      cases r with
      | error e => trivial
      | ok u =>
        have hcut : turns env root brList s₀ =
            pre ++ [.port br port] ++ ifaces.map (.iface br port) ++
              .iface br port iface :: (ifaces'.map (.iface br port) ++ post) := by
          rw [hsplit, hifaces]
          simp
        have hnext := h.iface hcut (hcall _ _ _ _ _ _ hrunMaster hifaces hbefore) ht' hrun
        show I (pre ++ [.port br port] ++ (ifaces ++ [iface]).map (.iface br port)) t''
        rw [List.map_append, ← List.append_assoc]
        exact hnext
    · show I (pre ++ [.port br port] ++ []) t
      rwa [List.append_nil]
  intro r s' hrun
  have hend := hloop t rfl r s' hrun
  rw [List.append_assoc] at hend
  exact hend

theorem linkPorts_turns (h : TurnRules env root brList s₀ I) (hmain : MainIface br main)
    (hsplit : turns env root brList s₀ =
      pre ++ (portTurns (br.ports.map fun port => (br, port)) ++ post))
    (hcall : ∀ iface t ports port ports' ifaces ifaces' master t' t'',
      br.ports = ports ++ port :: ports' →
      Prog.forEach ports (linkPort env root br main) s = some (.ok (), t) →
      portMaster root br main port t = some (.ok master, t') →
      port.ifaces = ifaces ++ iface :: ifaces' →
      Prog.forEach ifaces (linkPortIface env root br port master) t' = some (.ok (), t'') →
      LinkCall env root brList s₀ br iface t'')
    (hs : I pre s) :
    Prog.Runs (· = s) (Prog.forEach br.ports (linkPort env root br main))
      (fun _ => I (pre ++ portTurns (br.ports.map fun port => (br, port)))) fun _ => True := by
  let J : List OvsPort → OvsState → Prop := fun ports =>
    I (pre ++ portTurns (ports.map fun port => (br, port)))
  apply Prog.Triple.forEachReached (I := J)
  · intro ports port ports' t hports hbefore ht
    have hcut : turns env root brList s₀ =
        pre ++ portTurns (ports.map fun port => (br, port)) ++
          (portTurns [(br, port)] ++
            (portTurns (ports'.map fun port => (br, port)) ++ post)) := by
      rw [hsplit, hports, List.map_append, List.map_cons, portTurns_append,
        ← List.singleton_append, portTurns_append]
      simp
    have hport := linkPort_turns h hmain hcut (fun master t' ifaces iface ifaces' t'' h₁ h₂ h₃ =>
      hcall iface t ports port ports' ifaces ifaces' master t' t'' hports hbefore h₁ h₂ h₃) ht
    apply hport.weaken (fun _ => id)
    intro _ t' ht'
    show I (pre ++ portTurns ((ports ++ [port]).map fun port => (br, port))) t'
    rw [List.map_append, portTurns_append, ← List.append_assoc]
    exact ht'
  · show I (pre ++ []) s
    rwa [List.append_nil]

theorem linkBridge_turns (hdistinct : Distinct brList) (h : TurnRules env root brList s₀ I)
    {before after : List OvsBridge} (hbr : brList = before ++ br :: after)
    (hbefore : linkIfaces env root before s₀ = some (.ok (), s))
    (hs : I (portTurns (before.flatMap (mappedPorts env root brList s₀))) s) :
    Prog.Runs (· = s) (linkBridge env root br)
      (fun _ => I (portTurns ((before ++ [br]).flatMap (mappedPorts env root brList s₀))))
      fun _ => True := by
  have hmem : br ∈ brList := hbr ▸ List.mem_append_right _ List.mem_cons_self
  have hskip : ¬ Mapped env root brList s₀ br → ∀ {t},
      I (portTurns (before.flatMap (mappedPorts env root brList s₀))) t →
      I (portTurns ((before ++ [br]).flatMap (mappedPorts env root brList s₀))) t := by
    intro hnot t ht
    have hnone : mappedPorts env root brList s₀ br = [] := if_neg hnot
    rwa [List.flatMap_append, List.flatMap_singleton, hnone, List.append_nil]
  by_cases hmain : ∃ main, MainIface br main
  swap
  · have hnot : ¬ Mapped env root brList s₀ br := by
      rintro ⟨-, -, -, main, -, -, -, hmain', -⟩
      exact hmain ⟨main, hmain'⟩
    obtain ⟨text, hskipped⟩ := linkBridge_skipped env root (not_exists.mp hmain)
    rw [hskipped]
    apply Prog.Triple.modify
    rintro _ rfl
    exact hskip hnot (h.warn text hs)
  obtain ⟨main, hmain⟩ := hmain
  rw [linkBridge_main env root hmain]
  have hattempt : Prog.Runs (· = s) (Prog.attempt (linkIface env root br main true))
      (fun r t => linkIface env root br main true s = some (r, t)) fun _ => True := by
    apply Prog.Triple.attempt
    intro u hu r t hrun
    rw [hu] at hrun
    cases r <;> exact hrun
  apply Prog.Triple.bind hattempt
  intro r t hrun
  have ht := h.look hmem hmain hs hrun
  have hmapped := mapped_iff hdistinct hbr hbefore hmain
  cases r with
  | error err =>
    have hnotMapped : ¬ Mapped env root brList s₀ br := by
      rw [hmapped]
      rintro ⟨t', hok⟩
      rw [hrun] at hok
      exact absurd hok (by simp)
    intro r' s' hend
    dsimp only at hend
    split_ifs at hend
    · obtain ⟨rfl, rfl⟩ := Prod.mk.inj (Option.some.inj hend)
      exact hskip hnotMapped ht
    · obtain ⟨rfl, rfl⟩ := Prod.mk.inj (Option.some.inj hend)
      trivial
  | ok u =>
    have hports : mappedPorts env root brList s₀ br = br.ports.map fun port => (br, port) :=
      if_pos (hmapped.mpr ⟨t, hrun⟩)
    have hcut : turns env root brList s₀ =
        portTurns (before.flatMap (mappedPorts env root brList s₀)) ++
          (portTurns (br.ports.map fun port => (br, port)) ++
            portTurns (after.flatMap (mappedPorts env root brList s₀))) := by
      have hflat : brList.flatMap (mappedPorts env root brList s₀) =
          before.flatMap (mappedPorts env root brList s₀) ++
            (mappedPorts env root brList s₀ br ++
              after.flatMap (mappedPorts env root brList s₀)) := by
        conv_lhs => arg 2; rw [hbr]
        rw [List.flatMap_append, List.flatMap_cons]
      rw [turns, hflat, portTurns_append, portTurns_append, hports]
    have hloop := linkPorts_turns h hmain hcut
      (fun iface t₁ ports port ports' ifaces ifaces' master t₂ t₃ h₁ h₂ h₃ h₄ h₅ =>
        ⟨before, after, s, hbr, hbefore, .port hmain hrun h₁ h₂ h₃ h₄ h₅⟩) ht
    rw [List.flatMap_append, List.flatMap_singleton, portTurns_append, hports]
    intro r' s' hend
    exact hloop t rfl r' s' hend

theorem linkIfaces_turns (hdistinct : Distinct brList) (h : TurnRules env root brList s₀ I)
    (h₀ : I [] s₀) (hrun : linkIfaces env root brList s₀ = some (.ok (), s')) :
    I (turns env root brList s₀) s' := by
  have hloop : Prog.Runs (· = s₀) (linkIfaces env root brList)
      (fun _ => I (turns env root brList s₀)) fun _ => True :=
    Prog.Triple.forEachReached
      (I := fun before => I (portTurns (before.flatMap (mappedPorts env root brList s₀))))
      (fun _ _ _ _ hbr hbefore ht => linkBridge_turns hdistinct h hbr hbefore ht) h₀
  exact hloop s₀ rfl _ _ hrun

/-! ## Each interface has one turn -/

theorem turn_mem {t : Turn} (ht : t ∈ turns env root brList s₀) : ∃ br ∈ brList,
    ∃ port ∈ br.ports, t = .port br port ∨ ∃ iface ∈ port.ifaces, t = .iface br port iface := by
  obtain ⟨⟨br, port⟩, hmem, ht⟩ := List.mem_flatMap.mp ht
  obtain ⟨br', hbr', hmem⟩ := List.mem_flatMap.mp hmem
  unfold mappedPorts at hmem
  split_ifs at hmem
  · obtain ⟨port', hport', heq⟩ := List.mem_map.mp hmem
    obtain ⟨rfl, rfl⟩ := Prod.mk.inj heq
    refine ⟨br', hbr', port', hport', ?_⟩
    rcases List.mem_cons.mp ht with rfl | ht
    · exact .inl rfl
    · obtain ⟨iface, hiface, rfl⟩ := List.mem_map.mp ht
      exact .inr ⟨iface, hiface, rfl⟩
  · cases hmem

theorem iface_mem {br : OvsBridge} {port : OvsPort} {iface : OvsIf}
    (h : .iface br port iface ∈ turns env root brList s₀) :
    br ∈ brList ∧ port ∈ br.ports ∧ iface ∈ port.ifaces := by
  obtain ⟨br', hbr, port', hport, heq | ⟨iface', hiface, heq⟩⟩ := turn_mem h
  · cases heq
  · cases heq
    exact ⟨hbr, hport, hiface⟩

theorem BridgeCall.mem {iface : OvsIf} {t : OvsState} (h : BridgeCall env root br s iface t) :
    iface ∈ br.ifaces := by
  cases h with
  | main hmain =>
    rw [hmain.ifaces]
    exact List.mem_cons_self
  | port hmain _ hports _ _ hifaces _ =>
    rw [hmain.ifaces, hports]
    apply List.mem_cons_of_mem
    apply List.mem_flatMap.mpr ⟨_, List.mem_append_right _ List.mem_cons_self, ?_⟩
    rw [hifaces]
    exact List.mem_append_right _ List.mem_cons_self

theorem port_mem_ifaces {br : OvsBridge} {port : OvsPort} {iface : OvsIf} (hport : port ∈ br.ports)
    (hiface : iface ∈ port.ifaces) : iface ∈ br.ifaces :=
  List.mem_flatMap.mpr ⟨port, List.mem_append_right _ hport, hiface⟩

theorem Distinct.nodup_ifaces (h : Distinct brList) {before after : List OvsBridge}
    {br : OvsBridge} (hsplit : brList = before ++ br :: after) : br.ifaces.Nodup := by
  have hnodup := h.nodup
  rw [allIfaces_split hsplit] at hnodup
  exact (List.nodup_append.mp (List.nodup_append.mp hnodup).2.1).1

theorem BridgeCall.unique (hnodup : br.ifaces.Nodup) {iface : OvsIf}
    (hmem : iface ∈ br.ports.flatMap OvsPort.ifaces) {t t' : OvsState}
    (h : BridgeCall env root br s iface t) (h' : BridgeCall env root br s iface t') : t = t' := by
  -- an interface of a port does not stand for the bridge
  have hother : ¬ MainIface br iface := by
    intro hmain
    rw [hmain.ifaces, List.nodup_cons] at hnodup
    exact hnodup.1 hmem
  have hport : ∀ {ports port ports'}, (br.ports.flatMap OvsPort.ifaces).Nodup →
      br.ports = ports ++ port :: ports' → (port.ifaces.flatMap fun x => [x]).Nodup := by
    intro ports port ports' hnodup hports
    rw [List.flatMap_singleton']
    rw [hports, List.flatMap_append, List.flatMap_cons] at hnodup
    exact (List.nodup_append.mp (List.nodup_append.mp hnodup).2.1).1
  cases h with
  | main hmain => exact absurd hmain hother
  | port hmain hlinked hports hbefore hmaster hifaces hlast =>
    cases h' with
    | main hmain' => exact absurd hmain' hother
    | port hmain' hlinked' hports' hbefore' hmaster' hifaces' hlast' =>
      obtain rfl := hmain.unique hmain'
      rw [hmain.ifaces, List.nodup_cons] at hnodup
      rw [hlinked] at hlinked'
      obtain rfl := (Prod.mk.inj (Option.some.inj hlinked')).2
      obtain ⟨rfl, rfl, -⟩ := Keyed.split_unique hnodup.2 hports hports'
        (by rw [hifaces]; exact List.mem_append_right _ List.mem_cons_self)
        (by rw [hifaces']; exact List.mem_append_right _ List.mem_cons_self)
      rw [hbefore] at hbefore'
      obtain rfl := (Prod.mk.inj (Option.some.inj hbefore')).2
      rw [hmaster] at hmaster'
      obtain ⟨heq, rfl⟩ := Prod.mk.inj (Option.some.inj hmaster')
      obtain rfl := Except.ok.inj heq
      obtain ⟨rfl, -, -⟩ := Keyed.split_unique (hport hnodup.2 hports) hifaces hifaces'
        (List.mem_singleton_self iface) (List.mem_singleton_self iface)
      rw [hlast] at hlast'
      exact (Prod.mk.inj (Option.some.inj hlast')).2

theorem linkCall_unique (hdistinct : Distinct brList) {br br' : OvsBridge} {port : OvsPort}
    {iface : OvsIf} (hport : port ∈ br.ports) (hiface : iface ∈ port.ifaces) {t t' : OvsState}
    (h : LinkCall env root brList s₀ br iface t)
    (h' : LinkCall env root brList s₀ br' iface t') : br = br' ∧ t = t' := by
  have hmem : iface ∈ br.ports.flatMap OvsPort.ifaces := List.mem_flatMap.mpr ⟨port, hport, hiface⟩
  have hin : iface ∈ br.ifaces := port_mem_ifaces hport hiface
  obtain ⟨done, rest, s, hsplit, hdone, hcall⟩ := h
  obtain ⟨done', rest', u, hsplit', hdone', hcall'⟩ := h'
  obtain ⟨rfl, rfl, -⟩ := Keyed.split_unique hdistinct.nodup hsplit hsplit' hin hcall'.mem
  rw [hdone] at hdone'
  obtain rfl := (Prod.mk.inj (Option.some.inj hdone')).2
  exact ⟨rfl, hcall.unique (hdistinct.nodup_ifaces hsplit) hmem hcall'⟩

theorem Distinct.main_ne (hdistinct : Distinct brList) {br br' : OvsBridge} (hbr : br ∈ brList)
    (hbr' : br' ∈ brList) {main iface : OvsIf} (hmain : MainIface br main) {port : OvsPort}
    (hport : port ∈ br'.ports) (hiface : iface ∈ port.ifaces) : main ≠ iface := by
  rintro rfl
  obtain ⟨before, after, hsplit⟩ := List.append_of_mem hbr
  obtain ⟨before', after', hsplit'⟩ := List.append_of_mem hbr'
  have hmem : main ∈ br.ifaces := by
    rw [hmain.ifaces]
    exact List.mem_cons_self
  obtain ⟨-, rfl, -⟩ := Keyed.split_unique hdistinct.nodup hsplit hsplit' hmem
    (port_mem_ifaces hport hiface)
  have hnodup := hdistinct.nodup_ifaces hsplit
  rw [hmain.ifaces, List.nodup_cons] at hnodup
  exact hnodup.1 (List.mem_flatMap.mpr ⟨port, hport, hiface⟩)

end

end Plotnetcfg.Openvswitch
