import Plotnetcfg.Handlers.Openvswitch.Neighbours

/-! The linking ends at a port of a bridge that cannot be mapped. Without the port it goes on with
the later ports and bridges. -/

namespace Plotnetcfg.Openvswitch

structure Warned (s t : OvsState) : Prop where
  nsList : t.world.nsList = s.world.nsList
  free : t.world.free = s.world.free
  nss : ∀ n, ∃ warnings, t.world.nss n = { s.world.nss n with warnings := warnings }
  ifs : t.world.ifs = s.world.ifs
  link : t.link = s.link

section
variable {env : OvsEnv} {root : NsPtr} {br : OvsBridge} {iface ovsMaster : OvsIf} {s t : OvsState}

theorem Warned.refl (s : OvsState) : Warned s s := ⟨rfl, rfl, fun _ => ⟨_, rfl⟩, rfl, rfl⟩

theorem Warned.listed (h : Warned s t) : t.world.listed = s.world.listed := by
  apply World.listed_congr h.nsList
  intro n
  obtain ⟨warnings, hn⟩ := h.nss n
  rw [hn]

theorem Warned.weight (henv : env.ByName) (hinv : LinkInv (fun _ => True) root [] s)
    (h : Warned s t) (e : IfPtr) : ifaceWeight env br iface t e = ifaceWeight env br iface s e := by
  have htwins : World.Twins (fun _ => False) s.world t.world :=
    ⟨h.nsList, h.free, h.nss, fun x => ⟨_, by rw [h.ifs]⟩, fun x _ => by rw [h.ifs]⟩
  have hcontest : Contest root none (fun _ => False) s.world t.world := by
    refine ⟨htwins, hinv.scanned, hinv.root, fun _ => False.elim, fun _ => False.elim,
      fun _ _ hname => ?_, fun hsome => ?_⟩
    · cases hname
    · cases hsome
  unfold ifaceWeight
  rw [h.link]
  cases br.system.bind (·.ifaces.head?) with
  | none => rfl
  | some main =>
    have hends : Prog.Ends (Contest root none fun _ => False)
        (linkIfaceSearch env br.dpType (s.link main.ptr) iface e s.world)
        (linkIfaceSearch env br.dpType (s.link main.ptr) iface e t.world) := by
      apply linkIfaceSearch_alike henv (s.link main.ptr) _ e s.world t.world hcontest
      intro _ hname
      cases hname
    dsimp only
    rcases hrun : linkIfaceSearch env br.dpType (s.link main.ptr) iface e s.world with
      _ | ⟨err | weight, w⟩
    · rw [hrun] at hends
      rw [hends.eq_none]
    · rw [hrun] at hends
      obtain ⟨w', hrun', -⟩ := hends.right
      rw [hrun']
    · rw [hrun] at hends
      obtain ⟨w', hrun', -⟩ := hends.right
      rw [hrun']

/-! ## What does nothing -/

theorem linkPort_empty {port : OvsPort} (hempty : port.ifaces = []) (s : OvsState) :
    linkPort env root br ovsMaster port s = some (.ok (), s) := by
  have hcount : ¬ 1 < port.ifaceCount := by
    rw [port.counted, hempty]
    exact Nat.not_lt_zero 1
  unfold linkPort
  rw [Prog.bind_ok s (portMaster_sole hcount s), hempty]
  rfl

theorem linkPorts_empty {ports : List OvsPort} (hempty : ∀ port ∈ ports, port.ifaces = [])
    (s : OvsState) :
    Prog.forEach ports (linkPort env root br ovsMaster) s = some (.ok (), s) := by
  induction ports with
  | nil => rfl
  | cons port ports ih =>
    rw [Prog.forEach_cons, Prog.bind_ok s (linkPort_empty (hempty port List.mem_cons_self) s)]
    exact ih fun q hq => hempty q (List.mem_cons_of_mem port hq)

/-- A bridge whose main interface no device can be. -/
structure Absent (env : OvsEnv) (br : OvsBridge) (s : OvsState) : Prop where
  unlinked : ∀ ovsMaster, MainIface br ovsMaster → s.link ovsMaster.ptr = none
  weightless : ∀ ovsMaster, MainIface br ovsMaster →
    ∀ e ∈ s.world.listed, ifaceWeight env br ovsMaster s e = 0

theorem linkIface_absent (henv : env.ByName) (hinv : LinkInv (fun _ => True) root [] s)
    (habsent : Absent env br s) (hmain : MainIface br ovsMaster) (h : Warned s t)
    {r : Except Int Unit} {t' : OvsState}
    (hrun : linkIface env root br ovsMaster true t = some (r, t')) :
    r = .error (ENOENT : Int) ∧ Warned s t' := by
  have hnone : t.link ovsMaster.ptr = none := by
    rw [h.link]
    exact habsent.unlinked ovsMaster hmain
  have hnodup : t.world.listed.Nodup := by
    rw [h.listed]
    exact hinv.scanned.nodup
  have hzero : ∀ e ∈ t.world.listed, ifaceWeight env br ovsMaster t e = 0 := by
    intro e he
    rw [h.listed] at he
    rw [h.weight henv hinv]
    exact habsent.weightless ovsMaster hmain e he
  have hmapping := linkIface_mapping hnone hnodup hrun
  have hwinner : (ifaceTally env br ovsMaster t).winner = none :=
    Tally.winner_none.mpr fun e he => (hzero e he).le
  have htied : ¬ (ifaceTally env br ovsMaster t).Tied :=
    Tally.not_tied_of_none fun e he => (hzero e he).le
  refine ⟨hmapping.missing.mpr ⟨htied, rfl, hwinner⟩, hmapping.nsList.trans h.nsList,
    hmapping.free.trans h.free, fun n => ?_, ?_, ?_⟩
  · obtain ⟨warnings, hn⟩ := hmapping.nss n
    obtain ⟨warnings', hn'⟩ := h.nss n
    exact ⟨warnings, by rw [hn, hn']⟩
  · rw [← h.ifs]
    funext x
    rw [hmapping.ifs, if_neg]
    rintro ⟨hwrites, hx, hmarks⟩
    obtain ⟨system, hsystem, hsole⟩ := hmain
    have hhead : br.system.bind (·.ifaces.head?) = some ovsMaster := by simp [hsystem, hsole]
    have hweight := hzero x hx
    rw [ifaceWeight_marks hwrites hhead] at hweight
    exact (markWeight_pos hmarks).ne' hweight
  · rw [hmapping.link, hwinner, ← h.link, ← hnone]
    exact Function.update_eq_self _ _

theorem linkBridge_absent (henv : env.ByName) (hinv : LinkInv (fun _ => True) root [] s)
    (habsent : Absent env br s) :
    Prog.Runs (Warned s) (linkBridge env root br) (fun _ => Warned s) fun _ => False := by
  intro t h r t' hrun
  by_cases hmain : ∃ ovsMaster, MainIface br ovsMaster
  swap
  · obtain ⟨text, hskipped⟩ := linkBridge_skipped env root (not_exists.mp hmain)
    rw [hskipped] at hrun
    obtain ⟨rfl, rfl⟩ := Prod.mk.inj (Option.some.inj hrun)
    refine ⟨h.nsList, h.free, fun n => ?_, h.ifs, h.link⟩
    obtain ⟨warnings, hn⟩ := h.nss n
    show ∃ warnings, (t.world.modifyNs root (·.labelAdd text)).nss n = _
    rw [World.modifyNs_nss, hn]
    split_ifs
    · exact ⟨_, rfl⟩
    · exact ⟨_, rfl⟩
  obtain ⟨ovsMaster, hmain⟩ := hmain
  rw [linkBridge_main env root hmain] at hrun
  rcases hlinked : linkIface env root br ovsMaster true t with _ | ⟨r₁, t₁⟩
  · rw [Prog.bind_fault t (by unfold Prog.attempt; rw [hlinked]; rfl)] at hrun
    cases hrun
  obtain ⟨rfl, h₁⟩ := linkIface_absent henv hinv habsent hmain h hlinked
  rw [Prog.bind_ok t (Prog.attempt_eq_some.mpr ⟨_, hlinked, rfl⟩)] at hrun
  dsimp only at hrun
  rw [if_pos (.inl rfl)] at hrun
  obtain ⟨rfl, rfl⟩ := Prod.mk.inj (Option.some.inj hrun)
  exact h₁

theorem linkIfaces_absent (henv : env.ByName) (hinv : LinkInv (fun _ => True) root [] s)
    {brList : List OvsBridge} (habsent : ∀ br ∈ brList, Absent env br s) :
    Prog.Runs (Warned s) (linkIfaces env root brList) (fun _ => Warned s) fun _ => False :=
  Prog.Triple.forEach fun br hbr => linkBridge_absent henv hinv (habsent br hbr)

/-! ## What the interfaces before the ambiguous one have taken -/

/-- `x` is what the search for one of `ifaces` finds, when they are linked from `s`. -/
def Taken (env : OvsEnv) (root : NsPtr) (br : OvsBridge) (port : OvsPort) (master : Option IfPtr)
    (ifaces : List OvsIf) (s : OvsState) (x : IfPtr) : Prop :=
  ∃ iface t, Prog.Reached (linkPortIface env root br port master) ifaces s iface t ∧
    (ifaceTally env br iface t).choice = some x

structure TakenBy (env : OvsEnv) (root : NsPtr) (br : OvsBridge) (port : OvsPort)
    (master : Option IfPtr) (ifaces : List OvsIf) (s t : OvsState) (x : IfPtr) : Prop where
  inv : LinkInv (fun _ => True) root [] t
  listed : x ∈ t.world.listed
  taken : Taken env root br port master ifaces s x → (t.world.ifs x).master = master
  free : ¬ Taken env root br port master ifaces s x →
    (t.world.ifs x).master = (s.world.ifs x).master

section
variable {port : OvsPort} {master : Option IfPtr} {x : IfPtr}

/-- The turn of an interface of a port changes the master of what its search finds. -/
theorem linkPortIface_takes (hinv : LinkInv (fun _ => True) root [] s)
    (hnone : s.link iface.ptr = none) (hx : x ∈ s.world.listed)
    (hrun : linkPortIface env root br port master iface s = some (.ok (), t)) :
    (t.world.ifs x).master = if (ifaceTally env br iface s).choice = some x then master
      else (s.world.ifs x).master := by
  obtain ⟨s₁, s₂, e, hturn⟩ := linkPortIface_turn env root br port master iface s s rfl _ _ hrun
  have hmapping := linkIface_mapping hnone hinv.scanned.nodup hturn.search
  have hchoice : s₁.link iface.ptr = (ifaceTally env br iface s).choice := by
    rw [hmapping.link, Function.update_self, Tally.choice, if_neg (hmapping.mapped.mp rfl).1]
  rw [hturn.enslaves.master, ← hchoice]
  cases hturn.obtains with
  | found hlink heq =>
    rw [hlink, heq, hturn.looked.world.master]
    by_cases hxe : x = e
    · rw [if_pos hxe, if_pos (congrArg some hxe.symm)]
    · rw [if_neg hxe, if_neg fun h => hxe (Option.some.inj h).symm]
  | created hlink hcreate heq =>
    have hxe : x ≠ e := by
      rintro rfl
      apply hinv.scanned.fresh x _ hx
      rw [← hmapping.free, hcreate.adds.free]
      exact List.mem_cons_self
    rw [hlink, if_neg hxe, if_neg (by simp), heq]
    dsimp only
    rw [hcreate.adds.ifs x hxe, hturn.looked.world.master]

theorem taken_concat {pre : List OvsIf} {k : OvsIf}
    (hpre : Prog.forEach pre (linkPortIface env root br port master) s = some (.ok (), t)) :
    Taken env root br port master (pre ++ [k]) s x ↔
      Taken env root br port master pre s x ∨ (ifaceTally env br k t).choice = some x := by
  unfold Taken
  constructor
  · rintro ⟨iface, u, hreached, hchoice⟩
    rcases Prog.reached_append.mp hreached with hreached | ⟨v, hv, hreached⟩
    · exact .inl ⟨iface, u, hreached, hchoice⟩
    · obtain rfl : t = v := congrArg Prod.snd (Option.some.inj (hpre.symm.trans hv))
      rcases Prog.reached_cons.mp hreached with ⟨rfl, rfl⟩ | ⟨_, _, hnil⟩
      · exact .inr hchoice
      · exact absurd hnil Prog.not_reached_nil
  · rintro (⟨iface, u, hreached, hchoice⟩ | hchoice)
    · exact ⟨iface, u, Prog.reached_append.mpr (.inl hreached), hchoice⟩
    · exact ⟨k, t, ⟨pre, [], rfl, hpre⟩, hchoice⟩

theorem linkPortIfaces_takes {ifaces : List OvsIf} (hdistinct : (ifaces.map OvsIf.ptr).Nodup)
    (hnone : ∀ i ∈ ifaces, s.link i.ptr = none) (hinv : LinkInv (fun _ => True) root [] s)
    (hx : x ∈ s.world.listed) :
    Prog.Runs (· = s) (Prog.forEach ifaces (linkPortIface env root br port master))
      (fun _ t => TakenBy env root br port master ifaces s t x) fun _ => True := by
  apply Prog.Triple.forEachReached (I := fun pre t => TakenBy env root br port master pre s t x)
  · intro pre k post t hsplit hpre ht u hu r v hrun
    rw [hu] at hrun
    cases r with
    | error err => trivial
    | ok _ =>
      have hkne : ∀ i ∈ pre, k.ptr ≠ i.ptr := by
        rw [hsplit, List.map_append, List.nodup_append] at hdistinct
        intro i hi heq
        apply hdistinct.2.2 i.ptr (List.mem_map_of_mem hi) k.ptr _ heq.symm
        rw [List.map_cons]
        exact List.mem_cons_self
      have hfree : t.link k.ptr = none := by
        have hspare : Prog.Spares linkOf (· = k.ptr)
            (Prog.forEach pre (linkPortIface env root br port master)) :=
          Prog.Spares.forEach fun i hi =>
            (linkPortIface_spares br port master i).mono fun _ hptr => hptr ▸ hkne i hi
        apply (hspare s _ t hpre k.ptr rfl).trans
        exact hnone k (hsplit ▸ List.mem_append_right _ List.mem_cons_self)
      have htakes := linkPortIface_takes ht.inv hfree ht.listed hrun
      have hkeeps : Keeps root x v.world :=
        linkPortIface_created env root (fun _ _ => Keeps.named) br port master k
          ⟨ht.inv.scanned, ht.inv.root, ht.listed⟩
          (fun _ _ _ _ _ h hcreates => h.creates hcreates) t rfl _ _ hrun
      refine ⟨linkPortIface_triple peerInvariant_true env br port master k t ht.inv _ _ hrun,
        hkeeps.listed, fun htaken => ?_, fun hfree => ?_⟩
      · rw [htakes]
        split_ifs with hchoice
        · rfl
        · exact ht.taken (((taken_concat hpre).mp htaken).resolve_right hchoice)
      · rw [taken_concat hpre, not_or] at hfree
        rw [htakes, if_neg hfree.2]
        exact ht.free hfree.1
  · refine ⟨hinv, hx, ?_, fun _ => rfl⟩
    rintro ⟨iface, t, hreached, -⟩
    exact absurd hreached Prog.not_reached_nil

end

end

/-! ## The turn of the port -/

section
variable {env : OvsEnv} {root : NsPtr} {brList : List OvsBridge} {s₀ s₁ : OvsState}
  {port q : OvsPort} {iface j : OvsIf} {e : IfPtr} (turn : PortTurn env root brList s₀ port)

def PortTurn.ahead : List OvsIf :=
  port.ifaces ++ turn.later.flatMap OvsPort.ifaces ++ allIfaces turn.rest

theorem PortTurn.ifaces_eq : allIfaces brList = allIfaces turn.done ++
    turn.ovsMaster :: turn.earlier.flatMap OvsPort.ifaces ++ turn.ahead := by
  have hsplit := congrArg allIfaces turn.split
  have hbr := turn.main.ifaces
  rw [turn.ports] at hbr
  rw [hsplit]
  unfold PortTurn.ahead allIfaces
  rw [List.flatMap_append, List.flatMap_cons, hbr]
  simp

theorem PortTurn.inv (hinv : LinkInv (fun _ => True) root [] s₀) :
    LinkInv (fun _ => True) root [] turn.start := by
  have hbefore := linkIfaces_triple peerInvariant_true env turn.done s₀ hinv _ _ turn.run
  have hlinked := linkIface_triple peerInvariant_true env turn.br turn.ovsMaster true _ hbefore _ _
    turn.mainRun
  exact Prog.Triple.forEach (fun p _ => linkPort_triple peerInvariant_true env turn.br turn.ovsMaster p)
    _ hlinked _ _ turn.earlierRun

/-- The configuration in front of the port. -/
def PortTurn.past : List OvsBridge := turn.done ++ [{ turn.br with ports := turn.earlier }]

theorem PortTurn.past_run : linkIfaces env root turn.past s₀ = some (.ok (), turn.start) := by
  have hmain : MainIface { turn.br with ports := turn.earlier } turn.ovsMaster := turn.main
  have hports : turn.earlier = turn.earlier ++ [] := (List.append_nil _).symm
  have hresumes : linkIfaces env root (turn.done ++ [{ turn.br with ports := turn.earlier }]) s₀ =
      (Prog.forEach [] (linkPort env root turn.br turn.ovsMaster) >>= fun _ =>
        linkIfaces env root []) turn.start :=
    linkIfaces_resumes hmain turn.mainRun turn.run hports turn.earlierRun
  exact hresumes

theorem PortTurn.resumes : linkIfaces env root brList s₀ =
    (Prog.forEach (port :: turn.later) (linkPort env root turn.br turn.ovsMaster) >>= fun _ =>
      linkIfaces env root turn.rest) turn.start := by
  have hsplit := congrArg (fun l => linkIfaces env root l s₀) turn.split
  exact hsplit.trans (linkIfaces_resumes turn.main turn.mainRun turn.run turn.ports turn.earlierRun)

section
variable (hdistinct : ((allIfaces brList).map OvsIf.ptr).Nodup)
include hdistinct

theorem PortTurn.unlinked (hnone : ∀ i ∈ allIfaces brList, s₀.link i.ptr = none)
    (hj : j ∈ turn.ahead) : turn.start.link j.ptr = none := by
  have hall := turn.ifaces_eq
  have hne : ∀ i ∈ allIfaces turn.done ++ turn.ovsMaster :: turn.earlier.flatMap OvsPort.ifaces,
      j.ptr ≠ i.ptr := by
    rw [hall, List.map_append, List.nodup_append] at hdistinct
    intro i hi heq
    exact hdistinct.2.2 i.ptr (List.mem_map_of_mem hi) j.ptr (List.mem_map_of_mem hj) heq.symm
  have hdone := linkIfaces_spares turn.done s₀ _ _ turn.run j.ptr
    fun i hi => hne i (List.mem_append_left _ hi)
  have hmain := linkIface_spares turn.br turn.ovsMaster true _ _ _ turn.mainRun j.ptr
    (hne _ (List.mem_append_right _ List.mem_cons_self))
  have hearlier := linkPorts_spares turn.br turn.ovsMaster turn.earlier _ _ _ turn.earlierRun j.ptr
    fun p hp i hi => hne i (List.mem_append_right _
      (List.mem_cons_of_mem _ (List.mem_flatMap.mpr ⟨p, hp, hi⟩)))
  calc turn.start.link j.ptr = turn.linked.link j.ptr := hearlier
    _ = turn.before.link j.ptr := hmain
    _ = s₀.link j.ptr := hdone
    _ = none := hnone j (hall ▸ List.mem_append_right _ hj)

variable {i : OvsIf} (hi : i ∈ port.ifaces)
include hi

theorem PortTurn.without_split : withoutPort port brList =
    turn.done ++ { turn.br with ports := turn.earlier ++ turn.later } :: turn.rest := by
  rw [withoutPort_split hdistinct turn.split turn.mem_port hi,
    without_member hdistinct turn.mem_bridge turn.ports hi]

theorem PortTurn.without_resumes : linkIfaces env root (withoutPort port brList) s₀ =
    (Prog.forEach turn.later (linkPort env root turn.br turn.ovsMaster) >>= fun _ =>
      linkIfaces env root turn.rest) turn.start := by
  rw [turn.without_split hdistinct hi]
  have hmain : MainIface { turn.br with ports := turn.earlier ++ turn.later } turn.ovsMaster :=
    turn.main
  exact linkIfaces_resumes hmain turn.mainRun turn.run rfl turn.earlierRun

theorem PortTurn.without_made : Made env root (withoutPort port brList) s₀ q e ↔
    Made env root turn.past s₀ q e ∨
      PortsMade env root turn.br turn.ovsMaster turn.later turn.start q e ∨
      ∃ t, Prog.forEach turn.later (linkPort env root turn.br turn.ovsMaster) turn.start =
        some (.ok (), t) ∧ Made env root turn.rest t q e := by
  rw [turn.without_split hdistinct hi]
  have hmain : MainIface { turn.br with ports := turn.earlier ++ turn.later } turn.ovsMaster :=
    turn.main
  exact made_resumes hmain turn.mainRun turn.run rfl turn.earlierRun

end

variable (member : MemberTurn env root brList s₀ turn iface)
  (hsearch : linkIface env root turn.br iface false member.start = some (.error (ERANGE : Int), s₁))
include member hsearch

theorem PortTurn.stops :
    linkPort env root turn.br turn.ovsMaster port turn.start = some (.error (ERANGE : Int), s₁) := by
  obtain ⟨earlier, later, hifaces, hearlier⟩ := member.reached
  have hiface : linkPortIface env root turn.br port member.master iface member.start =
      some (.error (ERANGE : Int), s₁) := by
    unfold linkPortIface
    rw [Prog.bind_error _ hsearch]
  unfold linkPort
  rw [Prog.bind_ok _ member.masterRun, hifaces, Prog.forEach_append, Prog.bind_ok _ hearlier,
    Prog.forEach_cons, Prog.bind_error _ hiface]

theorem PortTurn.ends : linkIfaces env root brList s₀ = some (.error (ERANGE : Int), s₁) := by
  have hport := turn.stops member hsearch
  have hports : Prog.forEach (port :: turn.later) (linkPort env root turn.br turn.ovsMaster)
      turn.start = some (.error (ERANGE : Int), s₁) := by
    rw [Prog.forEach_cons, Prog.bind_error _ hport]
  rw [turn.resumes, Prog.bind_error _ hports]

/-- For the other ports interfaces are made before. -/
theorem PortTurn.made_iff (hne : q ≠ port) : Made env root brList s₀ q e ↔
    Made env root turn.past s₀ q e := by
  have hsplit := congrArg (fun l => Made env root l s₀ q e) turn.split
  unfold PortTurn.past
  rw [hsplit, made_resumes turn.main turn.mainRun turn.run turn.ports turn.earlierRun, or_iff_left]
  have hport := turn.stops member hsearch
  rintro (⟨t, hreached, -⟩ | ⟨t, hrun, -⟩)
  · rcases Prog.reached_cons.mp hreached with ⟨heq, -⟩ | ⟨u, hrun, -⟩
    · exact hne heq.symm
    · rw [hport] at hrun
      cases hrun
  · rw [Prog.forEach_cons, Prog.bind_error _ hport] at hrun
    cases hrun

end

/-! ## What the port takes before -/

section
variable {env : OvsEnv} {root : NsPtr} {brList : List OvsBridge} {s₀ s₁ : OvsState}
  {port : OvsPort} {iface k : OvsIf} {x : IfPtr} {turn : PortTurn env root brList s₀ port}
  (hdistinct : ((allIfaces brList).map OvsIf.ptr).Nodup)
  (hinv : LinkInv (fun _ => True) root [] s₀)
  (hnone : ∀ i ∈ allIfaces brList, s₀.link i.ptr = none)
  (member : MemberTurn env root brList s₀ turn iface)

theorem MemberTurn.linked_inv (member : MemberTurn env root brList s₀ turn iface)
    (hinv : LinkInv (fun _ => True) root [] s₀) : LinkInv (fun _ => True) root [] member.linked :=
  portMaster_triple peerInvariant_true turn.br turn.ovsMaster port _ (turn.inv hinv) _ _
    member.masterRun

theorem MemberTurn.inv (member : MemberTurn env root brList s₀ turn iface)
    (hinv : LinkInv (fun _ => True) root [] s₀) : LinkInv (fun _ => True) root [] member.start := by
  obtain ⟨earlier, later, -, hearlier⟩ := member.reached
  exact Prog.Triple.forEach (fun i _ =>
    linkPortIface_triple peerInvariant_true env turn.br port member.master i) _
    (member.linked_inv hinv) _ _ hearlier

include hdistinct in
theorem port_ptrs (turn : PortTurn env root brList s₀ port) : (port.ifaces.map OvsIf.ptr).Nodup := by
  rw [turn.ifaces_eq, PortTurn.ahead] at hdistinct
  simp only [List.map_append, List.nodup_append] at hdistinct
  exact hdistinct.2.1.1.1

include hdistinct hnone in
theorem MemberTurn.linked_unlinked {i : OvsIf} (hi : i ∈ port.ifaces) :
    member.linked.link i.ptr = none := by
  have hspare := portMaster_spares turn.br turn.ovsMaster port _ _ _ member.masterRun i.ptr trivial
  apply Eq.trans hspare
  exact turn.unlinked hdistinct hnone (List.mem_append_left _ (List.mem_append_left _ hi))

include hdistinct hnone in
theorem MemberTurn.unlinked : member.start.link iface.ptr = none := by
  obtain ⟨earlier, later, hifaces, hearlier⟩ := member.reached
  have hptrs := port_ptrs hdistinct turn
  have hne : ∀ i ∈ earlier, iface.ptr ≠ i.ptr := by
    rw [hifaces, List.map_append, List.nodup_append] at hptrs
    intro i hi heq
    apply hptrs.2.2 i.ptr (List.mem_map_of_mem hi) iface.ptr _ heq.symm
    rw [List.map_cons]
    exact List.mem_cons_self
  have hspare : Prog.Spares linkOf (· = iface.ptr)
      (Prog.forEach earlier (linkPortIface env root turn.br port member.master)) :=
    Prog.Spares.forEach fun i hi =>
      (linkPortIface_spares turn.br port member.master i).mono fun _ hptr => hptr ▸ hne i hi
  apply Eq.trans (hspare _ _ _ hearlier iface.ptr rfl)
  exact member.linked_unlinked hdistinct hnone (hifaces ▸ List.mem_append_right _ List.mem_cons_self)

theorem portMaster_keeps {br : OvsBridge} {ovsMaster : OvsIf} {master : Option IfPtr} {s t : OvsState}
    (hs : LinkInv (fun _ => True) root [] s) (hx : x ∈ s.world.listed)
    (hrun : portMaster root br ovsMaster port s = some (.ok master, t)) :
    x ∈ t.world.listed ∧ (t.world.ifs x).master = (s.world.ifs x).master := by
  cases portMaster_turn root br ovsMaster port s s rfl _ _ hrun with
  | sole _ heq =>
    rw [heq]
    exact ⟨hx, rfl⟩
  | @several u c _ hcreate henslaves _ =>
    have hne : x ≠ c := by
      rintro rfl
      apply hs.scanned.fresh x _ hx
      rw [hcreate.adds.free]
      exact List.mem_cons_self
    constructor
    · rw [henslaves.frame.listed]
      exact (hcreate.adds.mem_listed hs.scanned hs.root).mpr (.inr hx)
    · rw [henslaves.master, if_neg hne, hcreate.adds.ifs x hne]

/-- The search for an interface of the port finds `x`. -/
def PortTurn.Finds (turn : PortTurn env root brList s₀ port) (x : IfPtr) : Prop :=
  ∃ k, ∃ member : MemberTurn env root brList s₀ turn k,
    (ifaceTally env turn.br k member.start).choice = some x

variable (hsearch : linkIface env root turn.br iface false member.start =
  some (.error (ERANGE : Int), s₁))

include hdistinct hinv hnone hsearch in
theorem MemberTurn.taken_iff {earlier later : List OvsIf}
    (hifaces : port.ifaces = earlier ++ iface :: later)
    (hearlier : Prog.forEach earlier (linkPortIface env root turn.br port member.master)
      member.linked = some (.ok (), member.start)) :
    Taken env root turn.br port member.master earlier member.linked x ↔ turn.Finds x := by
  constructor
  · rintro ⟨k, t, hreached, hchoice⟩
    refine ⟨k, ⟨member.master, member.linked, t, member.masterRun, ?_⟩, hchoice⟩
    rw [hifaces]
    exact Prog.reached_append.mpr (.inl hreached)
  · rintro ⟨k, ⟨master, linked, t, hmaster, hreached⟩, hchoice⟩
    obtain ⟨rfl, rfl⟩ : member.master = master ∧ member.linked = linked := by
      simpa [member.masterRun] using hmaster
    rw [hifaces] at hreached
    rcases Prog.reached_append.mp hreached with hreached | ⟨u, hu, hreached⟩
    · exact ⟨k, t, hreached, hchoice⟩
    obtain rfl : member.start = u := congrArg Prod.snd (Option.some.inj (hearlier.symm.trans hu))
    rcases Prog.reached_cons.mp hreached with ⟨rfl, rfl⟩ | ⟨v, hv, -⟩
    · have hmapping := linkIface_mapping (member.unlinked hdistinct hnone)
        (member.inv hinv).scanned.nodup hsearch
      dsimp only at hchoice
      rw [Tally.choice, if_pos (hmapping.ambiguous.mp rfl)] at hchoice
      cases hchoice
    · unfold linkPortIface at hv
      rw [Prog.bind_error _ hsearch] at hv
      cases hv

include hdistinct hinv hnone hsearch in
theorem MemberTurn.masters (hx : x ∈ turn.start.world.listed) :
    (turn.Finds x → (s₁.world.ifs x).master = member.master) ∧
    (¬ turn.Finds x → (s₁.world.ifs x).master = (turn.start.world.ifs x).master) := by
  obtain ⟨earlier, later, hifaces, hearlier⟩ := member.reached
  have hptrs := port_ptrs hdistinct turn
  rw [hifaces, List.map_append] at hptrs
  obtain ⟨hlisted, hkept⟩ := portMaster_keeps (turn.inv hinv) hx member.masterRun
  have htaken : TakenBy env root turn.br port member.master earlier member.linked member.start x :=
    linkPortIfaces_takes (List.nodup_append.mp hptrs).1
      (fun i hi => member.linked_unlinked hdistinct hnone (hifaces ▸ List.mem_append_left _ hi))
      (member.linked_inv hinv) hlisted _ rfl _ _ hearlier
  have hsteady := linkIface_looked env root turn.br iface false _ _ rfl _ _ hsearch
  rw [← member.taken_iff hdistinct hinv hnone hsearch hifaces hearlier, hsteady.world.master, ← hkept]
  exact ⟨htaken.taken, htaken.free⟩

end

/-! ## With the port and without it -/

section
variable {env : OvsEnv} {root : NsPtr} {brList : List OvsBridge} {s₀ s₁ s' : OvsState}
  {port q : OvsPort} {iface i j : OvsIf} {e : IfPtr} {r' : Except Int Unit}
  {turn : PortTurn env root brList s₀ port} (henv : env.ByName)
  (hdistinct : ((allIfaces brList).map OvsIf.ptr).Nodup)
  (hinv : LinkInv (fun _ => True) root [] s₀)
  (hnone : ∀ i ∈ allIfaces brList, s₀.link i.ptr = none)

theorem mem_rest_ahead {br : OvsBridge} (hbr : br ∈ turn.rest) (hj : j ∈ br.ifaces) :
    j ∈ turn.ahead := List.mem_append_right _ (List.mem_flatMap.mpr ⟨br, hbr, hj⟩)

theorem main_mem_ifaces {br : OvsBridge} {ovsMaster : OvsIf} (hmain : MainIface br ovsMaster) :
    ovsMaster ∈ br.ifaces := by
  rw [hmain.ifaces]
  exact List.mem_cons_self

section
variable (hi : i ∈ port.ifaces) (hlater : ∀ q ∈ turn.later, q.ifaces = [])
  (habsent : ∀ br ∈ turn.rest, Absent env br turn.start)
include henv hdistinct hinv hi hlater habsent

theorem PortTurn.without_ends
    (hrun' : linkIfaces env root (withoutPort port brList) s₀ = some (r', s')) :
    Warned turn.start s' := by
  rw [turn.without_resumes hdistinct hi, Prog.bind_ok _ (linkPorts_empty hlater _)] at hrun'
  have hpost := linkIfaces_absent henv (turn.inv hinv) habsent _ (.refl _) _ _ hrun'
  cases r' with
  | error err => exact hpost.elim
  | ok u => exact hpost

theorem PortTurn.without_made_iff : Made env root (withoutPort port brList) s₀ q e ↔
    Made env root turn.past s₀ q e := by
  rw [turn.without_made hdistinct hi, or_iff_left]
  rintro (⟨t, ⟨pre, post, hsplit, hpre⟩, r, t', hrun, hnew, hlisted⟩ | ⟨t, hrun, br, u,
    ⟨pre, post, hsplit, hpre⟩, ovsMaster, v, hmain, hlinked, -⟩)
  · -- a port without interfaces makes nothing
    have hempty : q.ifaces = [] :=
      hlater q (hsplit ▸ List.mem_append_right _ List.mem_cons_self)
    rw [linkPort_empty hempty] at hrun
    obtain ⟨-, rfl⟩ := Prod.mk.inj (Option.some.inj hrun)
    exact hnew hlisted
  · rw [linkPorts_empty hlater] at hrun
    obtain ⟨-, rfl⟩ := Prod.mk.inj (Option.some.inj hrun)
    have hmem : ∀ x ∈ pre ++ [br], Absent env x turn.start := by
      intro x hx
      apply habsent
      rw [hsplit, List.append_cons]
      exact List.mem_append_left _ hx
    have hwarned := linkIfaces_absent henv (turn.inv hinv)
      (fun x hx => hmem x (List.mem_append_left _ hx)) _ (.refl _) _ _ hpre
    have hmissing := linkIface_absent henv (turn.inv hinv)
      (hmem br (List.mem_append_right _ (List.mem_singleton_self br))) hmain hwarned hlinked
    cases hmissing.1

end

variable (member : MemberTurn env root brList s₀ turn iface)
  (hsearch : linkIface env root turn.br iface false member.start = some (.error (ERANGE : Int), s₁))

theorem MemberTurn.mem_port (member : MemberTurn env root brList s₀ turn iface) :
    iface ∈ port.ifaces := by
  obtain ⟨earlier, later, hifaces, -⟩ := member.reached
  rw [hifaces]
  exact List.mem_append_right _ List.mem_cons_self

include hdistinct hsearch in
theorem MemberTurn.link_kept (hq : q ∈ allPorts brList) (hne : q ≠ port) (hj : j ∈ q.ifaces) :
    s₁.link j.ptr = turn.start.link j.ptr :=
  linkPort_spares turn.br turn.ovsMaster port _ _ _ (turn.stops member hsearch) j.ptr fun _ hi =>
    (other_ptr hdistinct (mem_allPorts turn.mem_bridge turn.mem_port) hq hne hi hj).symm

include hdistinct hsearch in
theorem MemberTurn.owns_iff (hq : q ∈ allPorts brList) (hne : q ≠ port) :
    Owns env root brList s₀ s₁ q e ↔ Owns env root brList s₀ turn.start q e := by
  unfold Owns
  refine or_congr_left (exists_congr fun j => and_congr_right fun hj => ?_)
  rw [member.link_kept hdistinct hsearch hq hne hj]

include hinv hsearch in
theorem MemberTurn.owned_listed (hne : q ≠ port) (howns : Owns env root brList s₀ turn.start q e) :
    e ∈ turn.start.world.listed := by
  rcases howns with ⟨j, -, hlink⟩ | hmade
  · exact (turn.inv hinv).links j.ptr e hlink
  · exact Made.listed hinv ((turn.made_iff member hsearch hne).mp hmade) turn.past_run

include hnone hdistinct in
theorem PortTurn.absent (turn : PortTurn env root brList s₀ port)
    (hbridges : ∀ br ∈ turn.rest, ∀ ovsMaster, MainIface br ovsMaster →
      ∀ e ∈ turn.start.world.listed, ifaceWeight env br ovsMaster turn.start e = 0) :
    ∀ br ∈ turn.rest, Absent env br turn.start := by
  intro br hbr
  refine ⟨fun ovsMaster hmain => ?_, hbridges br hbr⟩
  exact turn.unlinked hdistinct hnone (mem_rest_ahead hbr (main_mem_ifaces hmain))

include henv hdistinct hinv hnone hsearch in
theorem MemberTurn.unaffected (hspared : Spared env root brList s₀ port)
    (hrun' : linkIfaces env root (withoutPort port brList) s₀ = some (r', s'))
    (hq : q ∈ allPorts brList) (hne : q ≠ port) :
    Unaffected env root brList s₀ port s₁ s' q := by
  have hlater := hspared.ports turn
  have habsent := turn.absent hdistinct hnone (hspared.bridges turn)
  have hwarned := turn.without_ends henv hdistinct hinv member.mem_port hlater habsent hrun'
  refine ⟨fun j hj => ?_, fun e => ?_, fun e howns => ?_⟩
  · rw [hwarned.link, member.link_kept hdistinct hsearch hq hne hj]
  · rw [turn.made_iff member hsearch hne,
      turn.without_made_iff henv hdistinct hinv member.mem_port hlater habsent]
  · rw [member.owns_iff hdistinct hsearch hq hne] at howns
    have hlisted := member.owned_listed hinv hsearch hne howns
    obtain ⟨htaken, hfree⟩ := member.masters hdistinct hinv hnone hsearch hlisted
    rw [hwarned.ifs]
    by_cases htook : ∃ k, ∃ member' : MemberTurn env root brList s₀ turn k,
        (ifaceTally env turn.br k member'.start).choice = some e
    · rw [htaken htook]
      obtain ⟨k, member', hchoice⟩ := htook
      have hsame := hspared.masters turn k member' e hchoice q hq hne howns
      have hmaster : member'.master = member.master := by
        have heq := member'.masterRun.symm.trans member.masterRun
        exact Except.ok.inj (congrArg Prod.fst (Option.some.inj heq))
      rw [hsame, hmaster]
    · exact (hfree htook).symm

end

/-! ## What would get a link -/

section
variable {env : OvsEnv} {root : NsPtr} {br : OvsBridge} {iface ovsMaster : OvsIf} {port : OvsPort}
  {s t : OvsState}

theorem tied_winner {required : Bool} {r : Except Int Unit} (hmapping : Mapping env br iface required s r t)
    (htied : (ifaceTally env br iface s).Tied) : (t.link iface.ptr).isSome := by
  rw [hmapping.link, Function.update_self, Option.isSome_iff_ne_none]
  intro hnone
  exact Tally.not_tied_of_none (Tally.winner_none.mp hnone) htied

/-- Unless memory runs out an interface of a port has a link after its turn, though it may be the
first of several. -/
theorem linkPortIface_links (hinv : LinkInv (fun _ => True) root [] s)
    (hnone : s.link iface.ptr = none) (master : Option IfPtr) :
    Prog.Triple (· = s) (linkPortIface env root br port master iface)
      (fun _ t => (t.link iface.ptr).isSome)
      fun err t => err = ENOMEM ∨ (t.link iface.ptr).isSome := by
  intro u hu r t hrun
  rw [hu] at hrun
  cases r with
  | error err =>
    rcases linkPortIface_stops env root br port master iface s s rfl _ _ hrun with
      hsearch | ⟨rfl, -⟩
    · have hmapping := linkIface_mapping hnone hinv.scanned.nodup hsearch
      refine .inr (tied_winner hmapping ?_)
      by_contra htied
      have hok := hmapping.mapped.mpr ⟨htied, fun h => absurd h Bool.false_ne_true⟩
      cases hok
    · exact .inl rfl
  | ok u =>
    obtain ⟨s₁, s₂, e, hturn⟩ := linkPortIface_turn env root br port master iface s s rfl _ _ hrun
    show (t.link iface.ptr).isSome
    rw [hturn.link]
    cases hturn.obtains with
    | found hlink heq =>
      rw [heq, hlink]
      rfl
    | created _ _ heq =>
      rw [heq]
      dsimp only
      rw [Function.update_self]
      rfl

theorem portMaster_stops (s : OvsState) :
    Prog.Triple (· = s) (portMaster root br ovsMaster port) (fun _ _ => True)
      fun err _ => err = ENOMEM := by
  have hcreate : Prog.Triple (· = s) (createIface root port.name br.name) (fun _ _ => True)
      fun err _ => err = ENOMEM :=
    (createIface_stops root port.name br.name s).weakenError fun _ _ h => h.1
  have hmodify : ∀ f, Prog.Triple (fun _ => True) (modifyWorld f) (fun _ _ => True)
      fun err _ => err = ENOMEM := by
    intro f s _ r s' hrun
    obtain ⟨rfl, -⟩ := Prod.mk.inj (Option.some.inj hrun)
    trivial
  unfold portMaster
  apply Prog.Triple.bind (Q := fun _ s' => s' = s) (Prog.Triple.get fun s' hs => hs)
  intro s₁
  apply Prog.Triple.ite
  · intro _
    apply Prog.Triple.bind hcreate
    intro c
    apply Prog.Triple.bind (hmodify _)
    intro _
    apply Prog.Triple.bind (hmodify _)
    exact fun _ => Prog.Triple.pure fun _ _ => trivial
  · exact fun _ => Prog.Triple.pure fun _ _ => trivial

theorem linkPort_links {ifaces : List OvsIf} (hifaces : port.ifaces = iface :: ifaces)
    (hfirst : ∀ i ∈ ifaces, iface.ptr ≠ i.ptr) (hinv : LinkInv (fun _ => True) root [] s)
    (hnone : s.link iface.ptr = none) :
    Prog.Triple (· = s) (linkPort env root br ovsMaster port)
      (fun _ t => (t.link iface.ptr).isSome)
      fun err t => err = ENOMEM ∨ (t.link iface.ptr).isSome := by
  have hmaster : Prog.Triple (· = s) (portMaster root br ovsMaster port)
      (fun _ t => LinkInv (fun _ => True) root [] t ∧ t.link iface.ptr = none)
      fun err t => err = ENOMEM ∨ (t.link iface.ptr).isSome := by
    intro u hu r t hrun
    rw [hu] at hrun
    cases r with
    | error err => exact .inl (portMaster_stops s s rfl _ _ hrun)
    | ok master =>
      refine ⟨portMaster_triple peerInvariant_true br ovsMaster port s hinv _ _ hrun, ?_⟩
      exact (portMaster_spares br ovsMaster port s _ _ hrun iface.ptr trivial).trans hnone
  unfold linkPort
  apply Prog.Triple.bind hmaster
  rintro master t ⟨ht, hfree⟩
  rw [hifaces, Prog.forEach_cons]
  have hlast : Prog.Spares linkOf (· = iface.ptr)
      (Prog.forEach ifaces (linkPortIface env root br port master)) := by
    apply Prog.Spares.forEach
    intro i hi
    apply (linkPortIface_spares br port master i).mono
    rintro _ rfl
    exact hfirst i hi
  have hkeep : Prog.Triple (fun t => (t.link iface.ptr).isSome)
      (Prog.forEach ifaces (linkPortIface env root br port master))
      (fun _ t => (t.link iface.ptr).isSome)
      fun err t => err = ENOMEM ∨ (t.link iface.ptr).isSome :=
    (hlast.runs rfl fun link => link.isSome = true).weakenError fun _ _ h => .inr h
  exact Prog.Triple.bind (linkPortIface_links ht hfree master) (fun _ => hkeep) t rfl

theorem linkBridge_links (hmain : MainIface br ovsMaster)
    (hother : ∀ port ∈ br.ports, ∀ i ∈ port.ifaces, ovsMaster.ptr ≠ i.ptr)
    (hnodup : s.world.listed.Nodup) (hnone : s.link ovsMaster.ptr = none) {e : IfPtr}
    (he : e ∈ s.world.listed) (hweight : ifaceWeight env br ovsMaster s e ≠ 0)
    {r : Except Int Unit} (hrun : linkBridge env root br s = some (r, t)) :
    (t.link ovsMaster.ptr).isSome := by
  rw [linkBridge_main env root hmain] at hrun
  rcases hlinked : linkIface env root br ovsMaster true s with _ | ⟨r₁, s₁⟩
  · rw [Prog.bind_fault s (by unfold Prog.attempt; rw [hlinked]; rfl)] at hrun
    cases hrun
  have hmapping := linkIface_mapping hnone hnodup hlinked
  have hlink : (s₁.link ovsMaster.ptr).isSome := by
    rw [hmapping.link, Function.update_self, Option.isSome_iff_ne_none]
    intro hall
    exact hweight (le_antisymm (Tally.winner_none.mp hall e he) (ifaceWeight_nonneg e))
  rw [Prog.bind_ok s (Prog.attempt_eq_some.mpr ⟨_, hlinked, rfl⟩)] at hrun
  cases r₁ with
  | error err =>
    dsimp only at hrun
    split_ifs at hrun
    · obtain ⟨-, rfl⟩ := Prod.mk.inj (Option.some.inj hrun)
      exact hlink
    · obtain ⟨-, rfl⟩ := Prod.mk.inj (Option.some.inj hrun)
      exact hlink
  | ok u =>
    have hspare := linkPorts_spares br ovsMaster br.ports s₁ r t hrun ovsMaster.ptr hother
    show (linkOf ovsMaster.ptr t).isSome
    rw [hspare]
    exact hlink

end

/-! ## What the other ports miss -/

section
variable {env : OvsEnv} {root : NsPtr} {brList : List OvsBridge} {s₀ s₁ s' : OvsState}
  {port : OvsPort} {iface : OvsIf} {r' : Except Int Unit} {turn : PortTurn env root brList s₀ port}
  (henv : env.ByName) (hdistinct : ((allIfaces brList).map OvsIf.ptr).Nodup)
  (hinv : LinkInv (fun _ => True) root [] s₀)
  (hnone : ∀ i ∈ allIfaces brList, s₀.link i.ptr = none)
  (member : MemberTurn env root brList s₀ turn iface)
  (hsearch : linkIface env root turn.br iface false member.start = some (.error (ERANGE : Int), s₁))
  (hrun' : linkIfaces env root (withoutPort port brList) s₀ = some (r', s'))
  (hall : ∀ q ∈ allPorts brList, q ≠ port → Unaffected env root brList s₀ port s₁ s' q)

include hdistinct in
theorem PortTurn.ahead_nodup (turn : PortTurn env root brList s₀ port) :
    (turn.ahead.map OvsIf.ptr).Nodup := by
  rw [turn.ifaces_eq, List.map_append] at hdistinct
  exact (List.nodup_append.mp hdistinct).2.1

theorem PortTurn.later_mem {q : OvsPort} (turn : PortTurn env root brList s₀ port)
    (hq : q ∈ turn.later) : q ∈ allPorts brList := by
  apply mem_allPorts turn.mem_bridge
  rw [turn.ports]
  exact List.mem_append_right _ (List.mem_append_right _ (List.mem_cons_of_mem _ hq))

include hdistinct in
/-- What follows the first interface `j` of a later port. -/
theorem PortTurn.later_ptr {before after : List OvsPort} {q : OvsPort} {j : OvsIf}
    {js : List OvsIf} (hsplit : turn.later = before ++ q :: after) (hj : q.ifaces = j :: js) :
    (∀ i ∈ port.ifaces, i.ptr ≠ j.ptr) ∧
      ∀ i ∈ js ++ after.flatMap OvsPort.ifaces ++ allIfaces turn.rest, j.ptr ≠ i.ptr := by
  have hahead : turn.ahead = port.ifaces ++ before.flatMap OvsPort.ifaces ++
      j :: (js ++ after.flatMap OvsPort.ifaces ++ allIfaces turn.rest) := by
    unfold PortTurn.ahead
    rw [hsplit, List.flatMap_append, List.flatMap_cons, hj]
    simp
  have hptrs := turn.ahead_nodup hdistinct
  rw [hahead, List.map_append, List.map_cons, List.nodup_append, List.nodup_cons] at hptrs
  obtain ⟨-, ⟨hfresh, -⟩, hapart⟩ := hptrs
  refine ⟨fun i hi => hapart i.ptr (List.mem_map_of_mem (List.mem_append_left _ hi)) j.ptr
    List.mem_cons_self, fun i hi heq => hfresh ?_⟩
  rw [heq]
  exact List.mem_map_of_mem hi

theorem PortTurn.later_ahead {q : OvsPort} (turn : PortTurn env root brList s₀ port)
    (hq : q ∈ turn.later) {j : OvsIf} (hj : j ∈ q.ifaces) : j ∈ turn.ahead := by
  unfold PortTurn.ahead
  simp only [List.mem_append, List.mem_flatMap]
  exact .inl (.inr ⟨q, hq, hj⟩)

include hdistinct hinv hnone member hrun' in
/-- The first of the later ports that has interfaces gets a link for the first of them. -/
theorem MemberTurn.later_links (hmemory : r' ≠ .error (ENOMEM : Int)) {before after : List OvsPort}
    {q : OvsPort} {j : OvsIf} {js : List OvsIf} (hsplit : turn.later = before ++ q :: after)
    (hempty : ∀ x ∈ before, x.ifaces = []) (hj : q.ifaces = j :: js) :
    (s'.link j.ptr).isSome := by
  have hother := (turn.later_ptr hdistinct hsplit hj).2
  have hq : q ∈ turn.later := hsplit ▸ List.mem_append_right _ List.mem_cons_self
  have hfree : turn.start.link j.ptr = none :=
    turn.unlinked hdistinct hnone (turn.later_ahead hq (hj ▸ List.mem_cons_self))
  rw [turn.without_resumes hdistinct member.mem_port, hsplit, Prog.forEach_append,
    Prog.bind_assoc, Prog.bind_ok _ (linkPorts_empty hempty _), Prog.forEach_cons,
    Prog.bind_assoc] at hrun'
  have hafter : Prog.Spares linkOf (· = j.ptr)
      (Prog.forEach after (linkPort env root turn.br turn.ovsMaster) >>= fun _ =>
        linkIfaces env root turn.rest) := by
    apply Prog.Spares.bind
    · apply (linkPorts_spares turn.br turn.ovsMaster after).mono
      rintro _ rfl x hx i hi
      apply hother
      exact List.mem_append_left _ (List.mem_append_right _ (List.mem_flatMap.mpr ⟨x, hx, hi⟩))
    · intro _
      apply (linkIfaces_spares turn.rest).mono
      rintro _ rfl i hi
      exact hother i (List.mem_append_right _ hi)
  have hkeep : Prog.Triple (fun t => (t.link j.ptr).isSome)
      (Prog.forEach after (linkPort env root turn.br turn.ovsMaster) >>= fun _ =>
        linkIfaces env root turn.rest) (fun _ t => (t.link j.ptr).isSome)
      fun err t => err = ENOMEM ∨ (t.link j.ptr).isSome :=
    (hafter.runs rfl fun link => link.isSome = true).weakenError fun _ _ h => .inr h
  have hlinks : Prog.Triple (· = turn.start) (linkPort env root turn.br turn.ovsMaster q)
      (fun _ t => (t.link j.ptr).isSome)
      fun err t => err = ENOMEM ∨ (t.link j.ptr).isSome :=
    linkPort_links hj (fun i hi => hother i (List.mem_append_left _ (List.mem_append_left _ hi)))
      (turn.inv hinv) hfree
  have hpost := Prog.Triple.bind hlinks (fun _ => hkeep) turn.start rfl _ _ hrun'
  cases r' with
  | ok u => exact hpost
  | error err => exact hpost.resolve_left fun h => hmemory (congrArg Except.error h)

include hdistinct hinv hnone member hsearch hrun' hall in
/-- A later port with interfaces would have got a link. -/
theorem MemberTurn.later_empty (hmemory : r' ≠ .error (ENOMEM : Int)) :
    ∀ q ∈ turn.later, q.ifaces = [] := by
  cases hfind : turn.later.find? fun q => !q.ifaces.isEmpty with
  | none =>
    intro q hq
    have hempty := List.find?_eq_none.mp hfind q hq
    simpa using hempty
  | some q =>
    exfalso
    obtain ⟨hsome, before, after, hsplit, hbefore⟩ := List.find?_eq_some_iff_append.mp hfind
    obtain ⟨j, js, hj⟩ := List.exists_cons_of_ne_nil (by simpa using hsome)
    have hq : q ∈ turn.later := hsplit ▸ List.mem_append_right _ List.mem_cons_self
    have hjq : j ∈ q.ifaces := hj ▸ List.mem_cons_self
    have hne : q ≠ port := by
      rintro rfl
      exact (turn.later_ptr hdistinct hsplit hj).1 j hjq rfl
    have hsome := member.later_links hdistinct hinv hnone hrun' hmemory hsplit
      (fun x hx => by simpa using hbefore x hx) hj
    have hsame := (hall q (turn.later_mem hq) hne).link j hjq
    rw [member.link_kept hdistinct hsearch (turn.later_mem hq) hne hjq,
      turn.unlinked hdistinct hnone (turn.later_ahead hq hjq)] at hsame
    rw [hsame] at hsome
    cases hsome

include hdistinct in
/-- The main interface of a later bridge is none of those behind it. -/
theorem PortTurn.main_ptr {before after : List OvsBridge} {br : OvsBridge} {m : OvsIf}
    (hsplit : turn.rest = before ++ br :: after) (hmain : MainIface br m) :
    (∀ p ∈ br.ports, ∀ i ∈ p.ifaces, m.ptr ≠ i.ptr) ∧ ∀ i ∈ allIfaces after, m.ptr ≠ i.ptr := by
  have hbr : br ∈ brList := by
    rw [turn.split, hsplit]
    exact List.mem_append_right _ (List.mem_cons_of_mem _
      (List.mem_append_right _ List.mem_cons_self))
  constructor
  · have hptrs := (nodup_parts hdistinct).1 br hbr
    rw [hmain.ifaces, List.map_cons, List.nodup_cons] at hptrs
    intro p hp i hi heq
    exact hptrs.1 (heq ▸ List.mem_map_of_mem (List.mem_flatMap.mpr ⟨p, hp, hi⟩))
  · obtain ⟨-, -, hrestPtrs⟩ := split_ptr hdistinct turn.split
    intro i hi heq
    exact (split_ptr hrestPtrs hsplit).2.1 m (main_mem_ifaces hmain) i hi heq.symm

include henv hdistinct hinv hnone member hrun' in
/-- The first of the later bridges that has a device for its main interface gets a link for it. -/
theorem MemberTurn.rest_links (hlater : ∀ q ∈ turn.later, q.ifaces = [])
    {before after : List OvsBridge} {br : OvsBridge} {m : OvsIf}
    (hsplit : turn.rest = before ++ br :: after) (hmain : MainIface br m)
    (habsent : ∀ x ∈ before, Absent env x turn.start) {e : IfPtr}
    (he : e ∈ turn.start.world.listed) (hweight : ifaceWeight env br m turn.start e ≠ 0) :
    (s'.link m.ptr).isSome := by
  have hbr : br ∈ turn.rest := hsplit ▸ List.mem_append_right _ List.mem_cons_self
  have hfree := turn.unlinked hdistinct hnone (mem_rest_ahead hbr (main_mem_ifaces hmain))
  obtain ⟨hother, hbehind⟩ := turn.main_ptr hdistinct hsplit hmain
  rw [turn.without_resumes hdistinct member.mem_port, Prog.bind_ok _ (linkPorts_empty hlater _),
    hsplit] at hrun'
  unfold linkIfaces at hrun'
  rw [Prog.forEach_append] at hrun'
  have hskips := linkIfaces_absent henv (turn.inv hinv) habsent turn.start (.refl _)
  unfold linkIfaces at hskips
  rcases hfirst : Prog.forEach before (linkBridge env root) turn.start with _ | ⟨err | _, u⟩
  · rw [Prog.bind_fault _ hfirst] at hrun'
    cases hrun'
  · exact (hskips _ _ hfirst).elim
  have hwarned : Warned turn.start u := hskips _ _ hfirst
  rw [Prog.bind_ok _ hfirst, Prog.forEach_cons] at hrun'
  have hafter : ∀ _ : Unit, Prog.Spares linkOf (· = m.ptr)
      (Prog.forEach after (linkBridge env root)) := by
    intro _
    apply (linkIfaces_spares after).mono
    rintro _ rfl
    exact hbehind
  obtain ⟨r₁, v, hbridge, hkept⟩ := Prog.Spares.after hafter hrun'
  have hlast : s'.link m.ptr = v.link m.ptr := hkept m.ptr rfl
  rw [hlast]
  apply linkBridge_links hmain hother _ _ _ _ hbridge
  · rw [hwarned.listed]
    exact (turn.inv hinv).scanned.nodup
  · rw [hwarned.link, hfree]
  · exact e
  · rw [hwarned.listed]
    exact he
  · rw [hwarned.weight henv (turn.inv hinv)]
    exact hweight

include hdistinct hnone member hsearch hall in
/-- The main interface of a later bridge gets no link. -/
theorem MemberTurn.rest_unlinked {br : OvsBridge} (hbr : br ∈ turn.rest) {m : OvsIf}
    (hmain : MainIface br m) : s'.link m.ptr = none := by
  have hmem := main_mem_ifaces hmain
  have hfree := turn.unlinked hdistinct hnone (mem_rest_ahead hbr hmem)
  obtain ⟨system, hsystem, hsole⟩ := id hmain
  have hm : m ∈ system.ifaces := hsole ▸ List.mem_singleton_self m
  have hq : system ∈ allPorts brList := by
    have hbr' : br ∈ brList := by
      rw [turn.split]
      exact List.mem_append_right _ (List.mem_cons_of_mem _ hbr)
    apply mem_allPorts hbr'
    rw [hsystem]
    exact List.mem_append_left _ (List.mem_singleton_self system)
  have hne : system ≠ port := by
    rintro rfl
    exact (split_ptr hdistinct turn.split).2.1 m (mem_bridge_ifaces turn.mem_port hm) m
      (List.mem_flatMap.mpr ⟨br, hbr, hmem⟩) rfl
  have hsame := (hall system hq hne).link m hm
  rw [member.link_kept hdistinct hsearch hq hne hm, hfree] at hsame
  exact hsame

include henv hdistinct hinv hnone member hsearch hrun' hall in
/-- A later bridge whose main interface there is would have got a link. -/
theorem MemberTurn.rest_weightless (hlater : ∀ q ∈ turn.later, q.ifaces = []) :
    ∀ br ∈ turn.rest, ∀ ovsMaster, MainIface br ovsMaster →
      ∀ e ∈ turn.start.world.listed, ifaceWeight env br ovsMaster turn.start e = 0 := by
  classical
  let weightless (br : OvsBridge) : Prop := ∀ ovsMaster, MainIface br ovsMaster →
    ∀ e ∈ turn.start.world.listed, ifaceWeight env br ovsMaster turn.start e = 0
  cases hfind : turn.rest.find? fun br => decide (¬ weightless br) with
  | none =>
    intro br hbr
    have hzero := List.find?_eq_none.mp hfind br hbr
    have hzero : weightless br := by simpa using hzero
    exact hzero
  | some br =>
    exfalso
    obtain ⟨hweighs, before, after, hsplit, hbefore⟩ := List.find?_eq_some_iff_append.mp hfind
    have hweighs : ¬ weightless br := of_decide_eq_true hweighs
    obtain ⟨m, hmain, e, he, hweight⟩ : ∃ m, MainIface br m ∧ ∃ e ∈ turn.start.world.listed,
        ifaceWeight env br m turn.start e ≠ 0 := by
      by_contra hnot
      apply hweighs
      intro m hmain e he
      by_contra hweight
      exact hnot ⟨m, hmain, e, he, hweight⟩
    have hbr : br ∈ turn.rest := hsplit ▸ List.mem_append_right _ List.mem_cons_self
    have habsent : ∀ x ∈ before, Absent env x turn.start := by
      intro x hx
      have hzero : weightless x := by simpa using hbefore x hx
      refine ⟨fun ovsMaster hm => turn.unlinked hdistinct hnone ?_, hzero⟩
      exact mem_rest_ahead (hsplit ▸ List.mem_append_left _ hx) (main_mem_ifaces hm)
    have hsome := member.rest_links henv hdistinct hinv hnone hrun' hlater hsplit hmain habsent he
      hweight
    rw [member.rest_unlinked hdistinct hnone hsearch hall hbr hmain] at hsome
    cases hsome

include henv hdistinct hinv hnone hsearch in
/-- The other ports are unaffected if and only if nothing that has an interface comes later, and
nothing was taken from them. -/
theorem MemberTurn.unaffected_iff
    (hrun' : linkIfaces env root (withoutPort port brList) s₀ = some (r', s'))
    (hmemory : r' ≠ .error (ENOMEM : Int)) :
    (∀ q ∈ allPorts brList, q ≠ port → Unaffected env root brList s₀ port s₁ s' q) ↔
      Spared env root brList s₀ port := by
  refine ⟨fun hall => ?_, fun hspared q hq hne =>
    member.unaffected henv hdistinct hinv hnone hsearch hspared hrun' hq hne⟩
  have hlater := member.later_empty hdistinct hinv hnone hsearch hrun' hall hmemory
  have hbridges := member.rest_weightless henv hdistinct hinv hnone hsearch hrun' hall hlater
  have habsent := turn.absent hdistinct hnone hbridges
  have hwarned := turn.without_ends henv hdistinct hinv member.mem_port hlater habsent hrun'
  have hunique : ∀ turn' : PortTurn env root brList s₀ port, turn = turn' :=
    fun turn' => turn.unique hdistinct turn' member.mem_port
  refine ⟨fun turn' => (turn'.not_member hdistinct turn).elim, fun turn' => ?_, fun turn' => ?_,
    fun turn' k member' e hchoice q hq hne howns => ?_⟩
  · rw [← hunique turn']
    exact hlater
  · rw [← hunique turn']
    exact hbridges
  · obtain rfl := hunique turn'
    have hlisted := member.owned_listed hinv hsearch hne howns
    have hmaster := (hall q hq hne).master e ((member.owns_iff hdistinct hsearch hq hne).mpr howns)
    rw [hwarned.ifs, (member.masters hdistinct hinv hnone hsearch hlisted).1 ⟨k, member', hchoice⟩]
      at hmaster
    have hsame : member.master = member'.master := by
      have heq := member.masterRun.symm.trans member'.masterRun
      exact Except.ok.inj (congrArg Prod.fst (Option.some.inj heq))
    rw [hmaster, hsame]

end

end Plotnetcfg.Openvswitch
