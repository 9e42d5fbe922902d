import Plotnetcfg.Handlers.Openvswitch.ParseSafety

/-! What the parser leaves: apart from warnings about a reply that is refused it only allocates,
and the interfaces it returns have different addresses. -/

namespace Plotnetcfg.Openvswitch

/-- The interfaces of a bridge, those of its own port first. -/
def OvsBridge.ifaces (br : OvsBridge) : List OvsIf :=
  (br.system.toList ++ br.ports).flatMap OvsPort.ifaces

def allIfaces (brList : List OvsBridge) : List OvsIf := brList.flatMap OvsBridge.ifaces

/-- The interfaces have different addresses, all handed out before `next`. -/
structure Allocated (next : OvsIfPtr) (ifaces : List OvsIf) : Prop where
  nodup : (ifaces.map OvsIf.ptr).Nodup
  lt : ∀ i ∈ ifaces, i.ptr < next

theorem Allocated.sublist {next : OvsIfPtr} {l l' : List OvsIf} (h : Allocated next l)
    (hsub : l'.Sublist l) : Allocated next l' :=
  ⟨h.nodup.sublist (hsub.map _), fun i hi => h.lt i (hsub.subset hi)⟩

theorem Allocated.perm {next : OvsIfPtr} {l l' : List OvsIf} (h : Allocated next l)
    (hperm : l'.Perm l) : Allocated next l' :=
  ⟨(hperm.map _).nodup_iff.mpr h.nodup, fun i hi => h.lt i (hperm.mem_iff.mp hi)⟩

theorem Allocated.concat {next : OvsIfPtr} {l : List OvsIf} (h : Allocated next l) {iface : OvsIf}
    (hptr : iface.ptr = next) : Allocated (next + 1) (l ++ [iface]) where
  nodup := by
    rw [List.map_append, List.map_singleton, hptr]
    apply h.nodup.append (List.nodup_singleton _)
    rw [List.disjoint_singleton, List.mem_map]
    rintro ⟨i, hi, heq⟩
    exact absurd heq (Nat.ne_of_lt (h.lt i hi))
  lt i hi := by
    rcases List.mem_append.mp hi with hi | hi
    · exact Nat.lt_succ_of_lt (h.lt i hi)
    · rw [List.mem_singleton.mp hi, hptr]
      exact Nat.lt_succ_self next

/-! ## What the steps of the parser do not touch -/

theorem parseOptions_ptr (iface : OvsIf) (jif : Option Json) :
    Prog.Runs (fun _ => True) (parseOptions iface jif) (fun iface' _ => iface'.ptr = iface.ptr)
      fun _ => True := by
  have hsame : ∀ {iface' : OvsIf}, iface'.ptr = iface.ptr →
      Prog.Runs (fun _ => True) (pure iface' : OvsProg OvsIf)
        (fun iface' _ => iface'.ptr = iface.ptr) fun _ => True :=
    fun h => Prog.Triple.pure fun _ _ => h
  unfold parseOptions
  apply Prog.Triple.bind (Q := fun _ _ => True) Prog.Triple.const
  intro isMap
  apply Prog.Triple.ite
  · intro _
    apply Prog.Triple.ite
    · intro _
      apply Prog.Triple.bind (Q := fun _ _ => True) Prog.Triple.const
      intro localIp
      apply Prog.Triple.bind (Q := fun _ _ => True) Prog.Triple.const
      intro remoteIp
      apply Prog.Triple.bind (Q := fun _ _ => True) Prog.Triple.const
      exact fun key => hsame rfl
    intro _
    apply Prog.Triple.ite
    · intro _
      apply Prog.Triple.bind (Q := fun _ _ => True) Prog.Triple.const
      exact fun peer => hsame rfl
    intro _
    apply Prog.Triple.ite
    · intro _
      apply Prog.Triple.bind (Q := fun _ _ => True) Prog.Triple.const
      exact fun hwDev => hsame rfl
    · exact fun _ => hsame rfl
  · exact fun _ => hsame rfl

theorem parsePortInfo_kept (port : OvsPort) (jport : Option Json) :
    Prog.Runs (fun _ => True) (parsePortInfo port jport)
      (fun port' _ => port'.name = port.name ∧ port'.ifaces = port.ifaces) fun _ => True := by
  have htag : ∀ jval, Prog.Runs (fun _ => True) (parseTag port jval)
      (fun port' _ => port'.name = port.name ∧ port'.ifaces = port.ifaces) fun _ => True := by
    intro jval
    apply Prog.Triple.bind (Q := fun _ _ => True) Prog.Triple.const
    intro noTag
    apply Prog.Triple.ite
    · exact fun _ => Prog.Triple.pure fun _ _ => ⟨rfl, rfl⟩
    · exact fun _ => Prog.Triple.pure fun _ _ => ⟨rfl, rfl⟩
  have htrunks : ∀ (port' : OvsPort) jarr, (parseTrunks port' jarr).name = port'.name ∧
      (parseTrunks port' jarr).ifaces = port'.ifaces := by
    intro port' jarr
    simp only [parseTrunks]
    split_ifs <;> exact ⟨rfl, rfl⟩
  have hbond : ∀ (port' : OvsPort) jval, Prog.Runs (fun _ => True) (parseBondMode port' jval)
      (fun port'' _ => port''.name = port'.name ∧ port''.ifaces = port'.ifaces)
      fun _ => True := by
    intro port' jval
    apply Prog.Triple.bind (Q := fun _ _ => True) Prog.Triple.const
    intro noBond
    apply Prog.Triple.ite
    · exact fun _ => Prog.Triple.pure fun _ _ => ⟨rfl, rfl⟩
    · intro _
      apply Prog.Triple.bind (Q := fun _ _ => True) Prog.Triple.const
      exact fun bondMode => Prog.Triple.pure fun _ _ => ⟨rfl, rfl⟩
  unfold parsePortInfo
  apply Prog.Triple.bind (htag _)
  intro port₁ s hport r s' hrun
  have hpost := hbond _ _ s trivial r s' hrun
  cases r with
  | error e => trivial
  | ok port' =>
    obtain ⟨hname, hifaces⟩ := htrunks port₁ (jsonArrayGet (jsonObjectGet jport (cstr "trunks")) 1)
    exact ⟨(hpost.1.trans hname).trans hport.1, (hpost.2.trans hifaces).trans hport.2⟩

/-! ## The parser -/

section
variable {I : OvsState → Prop}
  (hI : ∀ s, I s → I { s with link := Function.update s.link s.next none, next := s.next + 1 })
  (warnings : NsPtr)
  (hwarn : ∀ s text, I s → I { s with world := s.world.modifyNs warnings (·.labelAdd text) })
  (jresult : Option Json)

include hwarn in
theorem reject_keeps {α : Type} {P : OvsState → Prop} {Q : α → OvsState → Prop}
    (hP : ∀ s, P s → I s) (text : CStr) :
    Prog.Runs P (reject warnings text : OvsProg α) Q I :=
  Prog.Triple.bind (Q := fun _ => I) (Prog.Triple.modify fun s hs => hwarn s _ (hP s hs)) fun _ =>
    Prog.Triple.throw fun _ => id

include hwarn in
theorem withRow_keeps {α : Type} {P : OvsState → Prop} {Q : α → OvsState → Prop}
    (hP : ∀ s, P s → I s) (table what : CStr) (uuid : Option Json) (body : Json → CStr → OvsProg α)
    (hbody : ∀ row name, Prog.Runs P (body row name) Q I) :
    Prog.Runs P (withRow warnings jresult table what uuid body) Q I := by
  unfold withRow
  apply Prog.Triple.bind (Q := fun _ => P)
  · apply Prog.Triple.bind (Q := fun _ => P) (Prog.Triple.deref fun _ _ s => id)
    exact fun _ => Prog.Triple.pure fun s => id
  intro uuidTag
  apply Prog.Triple.ite
  · intro _
    cases rowNew jresult table uuid with
    | none => exact reject_keeps warnings hwarn hP _
    | some row =>
      cases hname : jsonStringValue (jsonObjectGet (some row) (cstr "name")) with
      | none =>
        simp only [hname]
        exact reject_keeps warnings hwarn hP _
      | some name =>
        simp only [hname]
        exact hbody row name
  · exact fun _ => reject_keeps warnings hwarn hP _

theorem destructPort_keeps (port : OvsPort) : Prog.Runs I (destructPort port) (fun _ => I) I := by
  unfold destructPort
  apply Prog.Triple.ite
  · intro _ s _ r s' hrun
    cases hrun
  · exact fun _ => Prog.Triple.pure fun _ => id

theorem destructBridge_keeps (br : OvsBridge) :
    Prog.Runs I (destructBridge br) (fun _ => I) I :=
  Prog.Triple.forEach fun port _ => destructPort_keeps port

include hI hwarn in
theorem parseIface_keeps (others : List OvsIf) (uuid : Option Json) (port : OvsPort) :
    Prog.Runs (fun s => I s ∧ Allocated s.next (others ++ port.ifaces))
      (parseIface warnings jresult uuid port)
      (fun port' s => I s ∧ Allocated s.next (others ++ port'.ifaces)) I := by
  apply withRow_keeps warnings hwarn jresult fun _ h => h.1
  intro jif name
  cases htype : jsonStringValue (jsonObjectGet (some jif) (cstr "type")) with
  | none => exact reject_keeps warnings hwarn (fun _ h => h.1) _
  | some type =>
    have halloc : Prog.Runs (fun s => I s ∧ Allocated s.next (others ++ port.ifaces)) callocIf
        (fun ptr s => I s ∧ ptr + 1 = s.next ∧ Allocated ptr (others ++ port.ifaces))
        I := by
      intro s hs r s' hrun
      obtain ⟨rfl, rfl⟩ := Prod.mk.inj (Option.some.inj hrun)
      exact ⟨hI s hs.1, rfl, hs.2⟩
    apply Prog.Triple.bind halloc
    intro ptr
    apply Prog.Triple.bind (Prog.Triple.unchanged_and (fun s => parseOptions_triple s _ jif)
      (parseOptions_ptr { ptr := ptr, name := name, type := type } (some jif)))
    intro iface
    apply Prog.Triple.pure
    rintro s ⟨hptr, hs, hnext, hallocated⟩
    refine ⟨hs, ?_⟩
    show Allocated s.next (others ++ (port.ifaces ++ [iface]))
    rw [← hnext, ← List.append_assoc]
    exact hallocated.concat hptr

include hI hwarn in
theorem parsePort_keeps (others : List OvsIf) (uuid : Option Json) (br : OvsBridge) :
    Prog.Runs (fun s => I s ∧ Allocated s.next (others ++ br.ifaces))
      (parsePort warnings jresult uuid br)
      (fun br' s => I s ∧ Allocated s.next (others ++ br'.ifaces)) I := by
  apply withRow_keeps warnings hwarn jresult fun _ h => h.1
  intro jport name
  have hunchanged : ∀ s, Prog.Runs (· = s) (parsePortInfo { name := name } (some jport))
      (fun _ s' => s' = s) fun _ => False :=
    fun s => (parsePortInfo_triple s name jport).weaken (fun _ => id) fun _ _ h => h.1
  have hempty : ∀ (port : OvsPort) (s : OvsState),
      (port.name = name ∧ port.ifaces = []) ∧ I s ∧ Allocated s.next (others ++ br.ifaces) →
      I s ∧ Allocated s.next (others ++ br.ifaces ++ port.ifaces) := by
    rintro port s ⟨⟨-, hnone⟩, hs⟩
    rwa [hnone, List.append_nil]
  apply Prog.Triple.bind ((Prog.Triple.unchanged_and hunchanged
    (parsePortInfo_kept { name := name } (some jport))).weaken (fun _ => id) hempty)
  intro port
  apply Prog.Triple.bind (members_triple _)
  intro uuids
  apply Prog.Triple.of_and
  intro _
  have hifaces := Prog.Triple.foldM (I := fun (port : OvsPort) s =>
      I s ∧ Allocated s.next (others ++ br.ifaces ++ port.ifaces))
    (fun port uuid => parseIface_keeps hI warnings hwarn jresult (others ++ br.ifaces) uuid port)
    uuids port
  apply Prog.Triple.bind (hifaces.onError fun _ => destructPort_keeps port)
  intro port'
  apply Prog.Triple.ite
  · intro _
    apply Prog.Triple.pure
    rintro s ⟨hs, hallocated⟩
    -- a port of the same name is dropped
    have hperm : (br.system.toList.flatMap OvsPort.ifaces ++ (others ++
        (port'.ifaces ++ br.ports.flatMap OvsPort.ifaces))).Perm
        (others ++ br.ifaces ++ port'.ifaces) := by
      rw [List.perm_iff_count]
      intro i
      simp only [OvsBridge.ifaces, List.flatMap_append, List.count_append]
      omega
    have hsub := (hallocated.perm hperm).sublist (List.sublist_append_right _ _)
    exact ⟨hs, by simpa [OvsBridge.ifaces] using hsub⟩
  · intro _
    apply Prog.Triple.pure
    rintro s ⟨hs, hallocated⟩
    exact ⟨hs, by simpa [OvsBridge.ifaces] using hallocated⟩

include hI hwarn in
theorem parseBridge_keeps (others : List OvsIf) (uuid : Option Json) :
    Prog.Runs (fun s => I s ∧ Allocated s.next others) (parseBridge warnings jresult uuid)
      (fun br s => I s ∧ Allocated s.next (others ++ br.ifaces)) I := by
  apply withRow_keeps warnings hwarn jresult fun _ h => h.1
  intro jbridge name
  cases dpTypeNamed (dpTypeOf (some jbridge)) with
  | none => exact reject_keeps warnings hwarn (fun _ h => h.1) _
  | some dpType =>
    apply Prog.Triple.bind (members_triple _)
    intro uuids
    apply Prog.Triple.of_and
    intro _
    have hport : ∀ (br : OvsBridge) uuid, Prog.Runs
        (fun s => I s ∧ Allocated s.next (others ++ br.ifaces))
        ((parsePort warnings jresult uuid br).onError fun _ => destructBridge br)
        (fun br' s => I s ∧ Allocated s.next (others ++ br'.ifaces)) I :=
      fun br uuid => (parsePort_keeps hI warnings hwarn jresult others uuid br).onError
        fun _ => destructBridge_keeps br
    have hports := Prog.Triple.foldM hport uuids { name := name, dpType := dpType }
    exact hports.weaken (fun s hs => by simpa [OvsBridge.ifaces] using hs) fun _ _ => id

include hI hwarn in
theorem parse_keeps (answer : Except CStr Json) :
    Prog.Runs I (parse warnings answer) (fun brList s => I s ∧ Allocated s.next (allIfaces brList))
      I := by
  have hreject : ∀ text, Prog.Runs I (reject warnings text : OvsProg (List OvsBridge))
      (fun brList s => I s ∧ Allocated s.next (allIfaces brList)) I :=
    fun text => reject_keeps warnings hwarn (fun _ h => h) text
  cases answer with
  | error text => exact hreject _
  | ok jroot =>
    apply Prog.Triple.ite
    · exact fun _ => hreject _
    intro _
    apply Prog.Triple.ite
    · exact fun _ => hreject _
    intro _
    apply Prog.Triple.ite
    · exact fun _ => hreject _
    intro _
    apply Prog.Triple.ite
    · exact fun _ => hreject _
    intro _
    apply Prog.Triple.bind (members_triple _)
    intro uuids
    apply Prog.Triple.of_and
    intro _
    apply Prog.Triple.ite
    · exact fun _ => Prog.Triple.throw fun _ => id
    intro _
    have hbridge : ∀ jresult (brList : List OvsBridge) uuid, Prog.Runs
        (fun s => I s ∧ Allocated s.next (allIfaces brList))
        (do
          let br ← parseBridge warnings jresult uuid
          pure (brList ++ [br]))
        (fun brList s => I s ∧ Allocated s.next (allIfaces brList)) I := by
      intro jresult brList uuid
      apply Prog.Triple.bind (parseBridge_keeps hI warnings hwarn jresult (allIfaces brList) uuid)
      intro br
      apply Prog.Triple.pure
      rintro s ⟨hs, hallocated⟩
      exact ⟨hs, by simpa [allIfaces] using hallocated⟩
    have hbridges := Prog.Triple.foldM
      (hbridge (jsonObjectGet (some jroot) (cstr "result"))) uuids []
    exact hbridges.weaken (fun s hs => ⟨hs, List.nodup_nil, nofun⟩) fun _ _ => id

end

end Plotnetcfg.Openvswitch
