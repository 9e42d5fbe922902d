import Plotnetcfg.Netns.Collect
import Plotnetcfg.Netns.Sysfs

/-! What the first loop of `netns_fill_list` starts from: the list that has been built, whose entries
have neither interfaces nor ids. -/

namespace Plotnetcfg.Netns

def Unidentified (list : List NetnsEntry) : Prop := ∀ x ∈ list, x.ids = []

section
variable {list : List NetnsEntry}

theorem Unidentified.append (h : Unidentified list) {entry : NetnsEntry} (hentry : entry.ids = []) :
    Unidentified (list ++ [entry]) := by
  intro x hx
  rcases List.mem_append.mp hx with hx | hx
  · exact h x hx
  · rw [List.mem_singleton.mp hx]
    exact hentry

theorem Unidentified.of_map {list' : List NetnsEntry} (h : Unidentified list)
    (hsame : list'.map (·.ids) = list.map (·.ids)) : Unidentified list' := by
  intro x hx
  have hmem : x.ids ∈ list.map (·.ids) := hsame ▸ List.mem_map_of_mem hx
  obtain ⟨y, hy, hids⟩ := List.mem_map.mp hmem
  rw [← hids]
  exact h y hy

theorem Unidentified.labelAdd {s : ScanState} (h : Unidentified s.list) (text : CStr) :
    Unidentified (s.labelAdd text).list := h.of_map (labelAdd_map _ (fun _ _ => rfl) text s)

theorem Unidentified.modify (h : Unidentified list) (i : Nat) {f : NetnsEntry → NetnsEntry}
    (hf : ∀ x, (f x).ids = x.ids) : Unidentified (list.modify i f) := by
  apply h.of_map
  apply List.ext_getElem
  · simp
  · intro j hj hj'
    rw [List.getElem_map, List.getElem_map, List.getElem_modify]
    split_ifs
    · exact hf _
    · rfl

def NoIds {E : Type} (r : Except E NetnsEntry) (list : List NetnsEntry) : Prop :=
  Unidentified list ∧ ∀ entry, r = .ok entry → entry.ids = []

theorem noIds_error {E : Type} (h : Unidentified list) (e : E) : NoIds (.error e) list := by
  refine ⟨h, fun entry he => ?_⟩
  cases he

theorem noIds_ok {E : Type} (h : Unidentified list) {entry : NetnsEntry} (hentry : entry.ids = []) :
    NoIds (.ok entry : Except E NetnsEntry) list := by
  refine ⟨h, fun entry' he => ?_⟩
  rw [← Except.ok.inj he]
  exact hentry

theorem netnsGetVarEntry_noIds (strerror : Errno → CStr) (root : KernelNs) (d : VarDirent)
    {s : ScanState} (h : Unidentified s.list) :
    NoIds (netnsGetVarEntry strerror root d s).1 (netnsGetVarEntry strerror root d s).2.list := by
  unfold netnsGetVarEntry
  dsimp only
  cases d.calloc with
  | false => exact noIds_error h _
  | true =>
    cases d.openNs with
    | error e => exact noIds_error (h.labelAdd _) _
    | ok fd =>
      cases d.setns with
      | some e => exact noIds_error (h.labelAdd _) _
      | none =>
        simp only [Bool.not_true, Bool.false_eq_true, if_false]
        generalize netnsGetKernelId _ = kernelId
        by_cases hneg : kernelId < 0
        · simp only [if_pos hneg]
          exact noIds_error h _
        simp only [if_neg hneg]
        by_cases hdup : (netnsCheckDuplicate s.list kernelId).isSome
        · simp only [if_pos hdup]
          exact noIds_error h _
        simp only [if_neg hdup]
        cases d.strdup with
        | false => exact noIds_error h _
        | true =>
          simp only [Bool.not_true, Bool.false_eq_true, if_false]
          by_cases hroot : (netnsSwitchRoot root d.rootOpen d.rootSetns ⟨fd, s.list⟩).1 = 0
          · simp only [if_pos hroot, netnsSwitchRoot_list]
            exact noIds_ok h rfl
          · simp only [if_neg hroot, netnsSwitchRoot_list]
            exact noIds_error h _

theorem netnsAddVarEntries_unidentified (strerror : Errno → CStr) (root : KernelNs)
    (ds : List VarDirent) {s : ScanState} (h : Unidentified s.list) :
    Unidentified (netnsAddVarEntries strerror root ds s).2.list := by
  induction ds generalizing s with
  | nil => exact h
  | cons d ds ih =>
    have hget := netnsGetVarEntry_noIds strerror root d h
    unfold netnsAddVarEntries
    split_ifs
    · exact ih h
    · split
      · next entry s' hrun =>
        rw [hrun] at hget
        exact ih (hget.1.append (hget.2 entry rfl))
      · next err s' hrun =>
        rw [hrun] at hget
        split_ifs
        · exact ih hget.1
        · exact hget.1

theorem netnsGetProcEntry_noIds (d : ProcDirent) (h : Unidentified list) :
    NoIds (netnsGetProcEntry d list).1 (netnsGetProcEntry d list).2 := by
  by_cases hneg : netnsGetKernelId (d.link.map nsText) < 0
  · simp only [netnsGetProcEntry, hneg, if_true]
    exact noIds_error h _
  cases hfind : list.findIdx? (·.kernelId == netnsGetKernelId (d.link.map nsText)) with
  | some i =>
    simp only [netnsGetProcEntry, hneg, if_false, hfind]
    apply noIds_error (h.modify i _)
    intro x
    split_ifs
    · rfl
    · rfl
  | none =>
    simp only [netnsGetProcEntry, hneg, if_false, hfind]
    cases d.calloc with
    | false => exact noIds_error h _
    | true =>
      simp only [Bool.not_true, Bool.false_eq_true, if_false]
      split
      · exact noIds_ok h rfl
      · exact noIds_error h _

theorem netnsAddProcEntries_unidentified (ds : List ProcDirent) (h : Unidentified list) :
    Unidentified (netnsAddProcEntries ds list).2 := by
  induction ds generalizing list with
  | nil => exact h
  | cons d ds ih =>
    have hget := netnsGetProcEntry_noIds d h
    rw [netnsAddProcEntries]
    split
    · exact ih h
    · split
      · next entry list' hrun =>
        rw [hrun] at hget
        exact ih (hget.1.append (hget.2 entry rfl))
      · next err list' hrun =>
        rw [hrun] at hget
        split
        · exact ih hget.1
        · exact hget.1

theorem netnsNewList_unidentified {env : ScanEnv} {supported : Bool} {s : ScanState}
    (h : netnsNewList env supported = .ok s) : Unidentified s.list := by
  unfold netnsNewList at h
  dsimp only at h
  have hone (entry : NetnsEntry) (hids : entry.ids = []) : Unidentified [entry] := by
    intro x hx
    rw [List.mem_singleton.mp hx]
    exact hids
  split_ifs at h
  · rw [← Except.ok.inj h]
    exact hone _ rfl
  · cases hopen : env.rootOpen with
    | some e =>
      rw [hopen] at h
      cases h
    | none =>
      rw [hopen] at h
      rw [← Except.ok.inj h]
      exact hone _ rfl

theorem netnsList_unidentified {env : ScanEnv} {strerror : Errno → CStr} {supported : Bool}
    {s : ScanState} (h : netnsList env strerror supported = .ok s) : Unidentified s.list := by
  cases supported with
  | false => exact netnsNewList_unidentified h
  | true =>
    have h : netnsBuildList strerror env = .ok s := h
    unfold netnsBuildList netnsNamedList at h
    cases hnew : netnsNewList env true with
    | error err =>
      rw [hnew] at h
      cases h
    | ok s₁ =>
      rw [hnew] at h
      have hnamed : Unidentified (netnsAddVarList strerror env.root env.varDir s₁).2.list := by
        have hstart := netnsNewList_unidentified hnew
        unfold netnsAddVarList
        cases env.varDir with
        | none => exact hstart
        | some ds => exact netnsAddVarEntries_unidentified strerror env.root ds hstart
      dsimp only at h
      split_ifs at h
      dsimp only at h
      split_ifs at h
      rw [← Except.ok.inj h]
      unfold netnsAddProcList
      cases env.procDir with
      | none => exact hnamed
      | some ds => exact netnsAddProcEntries_unidentified ds hnamed

theorem netnsList_ne_nil {env : ScanEnv} {strerror : Errno → CStr} {supported : Bool}
    {s : ScanState} (h : netnsList env strerror supported = .ok s) : s.list ≠ [] := by
  cases supported with
  | false =>
    have h : netnsNewList env false = .ok s := h
    unfold netnsNewList at h
    cases hcalloc : env.calloc with
    | false =>
      rw [hcalloc] at h
      cases h
    | true =>
      rw [hcalloc] at h
      rw [← Except.ok.inj h]
      exact List.cons_ne_nil _ _
  | true =>
    obtain ⟨s₀, hnamed, hproc⟩ := netnsBuildList_spec h
    have hroot := netnsAddProcEntries_rootFirst env.processes (netnsNamedList_spec hnamed).2.rootFirst
    rw [hproc] at hroot
    intro hnil
    rw [hnil] at hroot
    exact hroot

end

end Plotnetcfg.Netns

namespace Plotnetcfg.Handlers

def startState (list : List NetnsEntry) (free : List IfPtr) : ListState where
  scan :=
    { world :=
        { ifs := fun _ => {}
          nss := fun n => (list[n]?).getD {}
          nsList := List.range list.length
          free := free }
      priv := fun _ => .unset }
  ainfo := []

theorem startState_fresh {list : List NetnsEntry} {free : List IfPtr} (hids : Netns.Unidentified list)
    (hfree : free.Nodup) : Fresh (startState list free).scan.world where
  nsList := List.nodup_range
  free := hfree
  ifs _ := rfl
  ids n := by
    show ((list[n]?).getD {}).ids = []
    cases hn : list[n]? with
    | none => rfl
    | some x => exact hids x (List.mem_of_getElem? hn)

end Plotnetcfg.Handlers
