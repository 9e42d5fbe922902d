import Plotnetcfg.Frontends.DotText
import Plotnetcfg.Frontends.JsonDocument

/-! What the output with `--config-only` tells about the state of the interfaces: the JSON
frontend nothing, the dot frontend which slaves are passive. -/

namespace Plotnetcfg

def IfEntry.configOnly (x : IfEntry) : IfEntry :=
  { x with
    flags := { x.flags with up := false, hasLink := false, passiveSlave := false }
    activeSlave := none
    properties := x.properties.filter fun prop => prop.type ≠ .state }

def World.configOnly (w : World) : World where
  ifs e := (w.ifs e).configOnly
  nss := w.nss
  nsList := w.nsList
  free := []

/-- The same name space list, but for the state of the interfaces. -/
structure SameConfig (w w' : World) : Prop where
  nsList : w'.nsList = w.nsList
  nss : w'.nss = w.nss
  ifs : ∀ e, (w'.ifs e).configOnly = (w.ifs e).configOnly

theorem SameConfig.configOnly {w w' : World} (h : SameConfig w w') :
    w'.configOnly = w.configOnly := by
  simp only [World.configOnly, h.nsList, h.nss, h.ifs]

namespace Frontends

section
variable (w : World) {mask : PropMask} (hmask : mask.state = false)

theorem ifid_configOnly : ifid w.configOnly = ifid w := rfl

/-! ## JSON -/

include hmask in
theorem labelPropertiesToObject_configOnly (x : IfEntry) :
    labelPropertiesToObject x.configOnly.properties mask =
      labelPropertiesToObject x.properties mask := by
  have hstate : labelPropMatchMask .state mask = false := hmask
  unfold labelPropertiesToObject IfEntry.configOnly
  rw [List.foldl_filter]
  congr 1
  funext jobj prop
  by_cases hprop : prop.type = .state
  · simp [hprop, hstate]
  · simp [hprop]

include hmask in
theorem ifObj_configOnly : ifObj w.configOnly mask = ifObj w mask := by
  have hstate : labelPropMatchMask .state mask = false := hmask
  funext e
  have hinfo : labelPropertiesToObject (w.configOnly.ifs e).properties mask =
      labelPropertiesToObject (w.ifs e).properties mask :=
    labelPropertiesToObject_configOnly hmask (w.ifs e)
  simp only [ifObj, hinfo, hstate]
  rfl

include hmask in
theorem interfacesToArray_configOnly :
    interfacesToArray w.configOnly mask = interfacesToArray w mask := by
  funext list
  simp only [interfacesToArray, ifObj_configOnly w hmask]
  rfl

include hmask in
theorem jsonOutput_configOnly (version date : CStr) :
    jsonOutput w.configOnly version date mask = jsonOutput w version date mask := by
  have hns : nsObj w.configOnly mask = nsObj w mask := by
    funext ns
    simp only [nsObj, interfacesToArray_configOnly w hmask]
    rfl
  simp only [jsonOutput, namespacesToObject, hns]
  rfl

/-! ## dot -/

include hmask in
theorem outputLabelProperties_configOnly (x : IfEntry) :
    outputLabelProperties x.configOnly.properties mask =
      outputLabelProperties x.properties mask := by
  have hstate : labelPropMatchMask .state mask = false := hmask
  unfold outputLabelProperties IfEntry.configOnly
  induction x.properties with
  | nil => rfl
  | cons prop properties ih =>
    by_cases hprop : prop.type = .state
    · simpa [hprop, hstate] using ih
    · simpa [hprop] using ih

include hmask in
theorem nodeText_configOnly : nodeText w.configOnly mask = nodeText w mask := by
  have hstate : labelPropMatchMask .state mask = false := hmask
  funext ptr
  have hproperties : outputLabelProperties (w.configOnly.ifs ptr).properties mask =
      outputLabelProperties (w.ifs ptr).properties mask :=
    outputLabelProperties_configOnly hmask (w.ifs ptr)
  simp only [nodeText, nodeLabel, nodeState, hproperties, hstate]
  rfl

include hmask in
theorem netnsText_configOnly : netnsText w.configOnly mask = netnsText w mask := by
  funext ns
  simp only [netnsText, outputIfacesPass1, nodeText_configOnly w hmask]
  rfl

end

/-- Two texts that are made piece by piece are the same when no piece differs at a character. -/
theorem flatMap_eq_iff {A B : Type} {l : List A} {f g : A → List B} (differs : A → Prop)
    (hsame : ∀ a ∈ l, ¬ differs a → f a = g a)
    (hdiffers : ∀ a ∈ l, differs a →
      ∃ p x q y q', x ≠ y ∧ f a = p ++ x :: q ∧ g a = p ++ y :: q') :
    l.flatMap f = l.flatMap g ↔ ∀ a ∈ l, ¬ differs a := by
  induction l with
  | nil => simp
  | cons a l ih =>
    have ih := ih (fun b hb => hsame b (List.mem_cons_of_mem _ hb))
      fun b hb => hdiffers b (List.mem_cons_of_mem _ hb)
    rw [List.flatMap_cons, List.flatMap_cons, List.forall_mem_cons]
    by_cases ha : differs a
    · obtain ⟨p, x, q, y, q', hne, hf, hg⟩ := hdiffers a List.mem_cons_self ha
      rw [hf, hg, List.append_assoc, List.append_assoc, List.append_cancel_left_eq,
        List.cons_append, List.cons_append]
      apply iff_of_false
      · exact fun heq => hne (List.cons.inj heq).1
      · exact fun hand => hand.1 ha
    · rw [hsame a List.mem_cons_self ha, List.append_cancel_left_eq, ih]
      exact (and_iff_right ha).symm

section
variable (w : World)

/-- What `output_ifaces_pass2` prints for an interface with a master, up to the style. -/
def masterText (ptr : IfPtr) : CStr := (masterEdge w ptr).flatMap (DotEdge.text w)

def otherText (ptr : IfPtr) : CStr :=
  (physfnEdge w ptr ++ linkEdge w ptr ++ peerEdge w ptr).flatMap (DotEdge.text w)

theorem edgesText_eq : (dotEdges w).flatMap (DotEdge.text w) =
    w.listed.flatMap fun ptr => masterText w ptr ++ otherText w ptr := by
  simp only [dotEdges, outputIfacesPass2, World.listed, masterText, otherText,
    List.flatMap_assoc, List.flatMap_append, List.append_assoc]

theorem otherText_configOnly : otherText w.configOnly = otherText w := rfl

theorem masterText_eq (ptr : IfPtr) : masterText w ptr = match (w.ifs ptr).master with
    | some master => (quote (ifid w ptr) ++ cstr " -> " ++ quote (ifid w master)) ++
        style (w.ifs ptr).flags.passiveSlave ++
        (labelAttr (if (w.ifs ptr).link.isNone then (w.ifs ptr).edgeLabel else none) ++ cstr "]\n")
    | none => [] := by
  unfold masterText masterEdge
  cases (w.ifs ptr).master with
  | none => rfl
  | some master => simp [DotEdge.text]

theorem dotOutput_eq (version date : CStr) (mask : PropMask) : dotOutput version date w mask =
    (cstr "// generated by plotnetcfg " ++ version ++ cstr " on " ++ date ++
      cstr "digraph \x7b\ncompound=true;\nnode [shape=box]\n" ++
      (w.nsList.flatMap (netnsText w mask) ++
        if needInitNet w mask then cstr "\"cluster//\"[label=\"root netns\",penwidth=0];\n"
        else [])) ++
    ((w.listed.flatMap fun ptr => masterText w ptr ++ otherText w ptr) ++
      (outputWarnings w ++ cstr "\x7d\n")) := by
  rw [dotOutput, edgesText_eq]
  simp only [List.append_assoc]

end

theorem style_differs {weak weak' : Bool} (h : weak ≠ weak') : ∃ x q y q', x ≠ y ∧
    style weak = cstr " [style=" ++ x :: q ∧ style weak' = cstr " [style=" ++ y :: q' := by
  cases weak with
  | false =>
    obtain rfl : weak' = true := Bool.eq_true_of_not_eq_false h.symm
    exact ⟨115, cstr "olid", 100, cstr "ashed", by decide, rfl, rfl⟩
  | true =>
    obtain rfl : weak' = false := Bool.eq_false_of_not_eq_true h.symm
    exact ⟨100, cstr "ashed", 115, cstr "olid", by decide, rfl, rfl⟩

theorem at_middle {A : Type} (before fixed q after : List A) (x : A) :
    before ++ (fixed ++ x :: q) ++ after = (before ++ fixed) ++ x :: (q ++ after) := by
  simp only [List.append_assoc, List.cons_append]

section
variable {w w' : World} (h : SameConfig w w')
include h

theorem ifid_eq : ifid w' = ifid w := by
  rw [← ifid_configOnly w', ← ifid_configOnly w, h.configOnly]

theorem master_eq (ptr : IfPtr) : (w'.ifs ptr).master = (w.ifs ptr).master := by
  have hmaster : (w'.ifs ptr).configOnly.master = (w.ifs ptr).configOnly.master := by
    rw [h.ifs]
  exact hmaster

theorem masterText_differs {ptr : IfPtr} (hmaster : (w.ifs ptr).master.isSome)
    (hpassive : (w'.ifs ptr).flags.passiveSlave ≠ (w.ifs ptr).flags.passiveSlave) :
    ∃ p x q y q', x ≠ y ∧ masterText w' ptr = p ++ x :: q ∧ masterText w ptr = p ++ y :: q' := by
  obtain ⟨m, hm⟩ := Option.isSome_iff_exists.mp hmaster
  obtain ⟨x, q, y, q', hne, hx, hy⟩ := style_differs hpassive
  rw [masterText_eq, masterText_eq, ifid_eq h, master_eq h, hm]
  dsimp only
  rw [hx, hy]
  exact ⟨_, x, _, y, _, hne, at_middle _ _ _ _ _, at_middle _ _ _ _ _⟩

theorem masterText_same {ptr : IfPtr} (hsame : ¬ ((w.ifs ptr).master.isSome ∧
      (w'.ifs ptr).flags.passiveSlave ≠ (w.ifs ptr).flags.passiveSlave)) :
    masterText w' ptr = masterText w ptr := by
  rw [masterText_eq, masterText_eq, ifid_eq h, master_eq h]
  cases hm : (w.ifs ptr).master with
  | none => rfl
  | some m =>
    have hpassive : (w'.ifs ptr).flags.passiveSlave = (w.ifs ptr).flags.passiveSlave := by
      simpa [hm] using hsame
    have hlink : (w'.ifs ptr).configOnly.link = (w.ifs ptr).configOnly.link := by
      rw [h.ifs]
    have hlabel : (w'.ifs ptr).configOnly.edgeLabel = (w.ifs ptr).configOnly.edgeLabel := by
      rw [h.ifs]
    unfold IfEntry.configOnly at hlink hlabel
    dsimp only at hlink hlabel ⊢
    rw [hpassive, hlink, hlabel]

/-- With `--config-only` the JSON output is the same for the same configuration, and the dot
output when the same slaves are passive. -/
theorem configOnly_output {mask : PropMask} (hmask : mask.state = false) (version date : CStr) :
    jsonOutput w' version date mask = jsonOutput w version date mask ∧
    (dotOutput version date w' mask = dotOutput version date w mask ↔
      ∀ e ∈ w.listed, (w.ifs e).master.isSome →
        (w'.ifs e).flags.passiveSlave = (w.ifs e).flags.passiveSlave) := by
  have hlisted : w'.listed = w.listed :=
    World.listed_congr h.nsList fun n => by rw [h.nss]
  constructor
  · rw [← jsonOutput_configOnly w' hmask, ← jsonOutput_configOnly w hmask, h.configOnly]
  · have hnetns : netnsText w' mask = netnsText w mask := by
      rw [← netnsText_configOnly w' hmask, ← netnsText_configOnly w hmask, h.configOnly]
    have hinit : needInitNet w' mask = needInitNet w mask := by
      have hconfig : ∀ v : World, needInitNet v.configOnly mask = needInitNet v mask := fun _ => rfl
      rw [← hconfig w', ← hconfig w, h.configOnly]
    have hwarnings : outputWarnings w' = outputWarnings w := by
      have hconfig : ∀ v : World, outputWarnings v.configOnly = outputWarnings v := fun _ => rfl
      rw [← hconfig w', ← hconfig w, h.configOnly]
    have hother : otherText w' = otherText w := by
      rw [← otherText_configOnly w', ← otherText_configOnly w, h.configOnly]
    rw [dotOutput_eq, dotOutput_eq, hnetns, hinit, hwarnings, h.nsList, hlisted, hother,
      List.append_cancel_left_eq, List.append_cancel_right_eq,
      flatMap_eq_iff fun e => (w.ifs e).master.isSome ∧
        (w'.ifs e).flags.passiveSlave ≠ (w.ifs e).flags.passiveSlave]
    · simp only [not_and, ne_eq, not_not]
    · intro e _ hsame
      rw [masterText_same h hsame]
    · rintro e - ⟨hmaster, hpassive⟩
      obtain ⟨p, x, q, y, q', hne, hx, hy⟩ := masterText_differs h hmaster hpassive
      refine ⟨p, x, q ++ otherText w e, y, q' ++ otherText w e, hne, ?_, ?_⟩
      · rw [hx, List.append_assoc, List.cons_append]
      · rw [hy, List.append_assoc, List.cons_append]

end

def bondWith (passive : Bool) : World where
  ifs e := match e with
    | 1 => { ifName := cstr "eth0", master := some 2, flags := { passiveSlave := passive } }
    | 2 => { ifName := cstr "bond0", driver := some (cstr "bonding") }
    | _ => {}
  nss _ := { ifaces := [1, 2] }
  nsList := [0]
  free := []

theorem bondWith_sameConfig : SameConfig (bondWith false) (bondWith true) := by
  refine ⟨rfl, rfl, fun e => ?_⟩
  unfold bondWith
  dsimp only
  split <;> rfl

def bondUp (passive : Bool) : World :=
  (bondWith passive).modifyIf 1 fun e =>
    { e with flags := { e.flags with up := true, hasLink := true } }

theorem bondUp_sameConfig (passive : Bool) : SameConfig (bondWith passive) (bondUp passive) := by
  refine ⟨rfl, rfl, fun e => ?_⟩
  by_cases he : e = 1
  · subst he
    rfl
  · rw [bondUp, World.modifyIf_ifs, if_neg he]

theorem configOnly_output_bond :
    jsonOutput (bondWith true) (cstr "0.4") (cstr "today\n") ⟨false, true⟩ =
        jsonOutput (bondWith false) (cstr "0.4") (cstr "today\n") ⟨false, true⟩ ∧
      dotOutput (cstr "0.4") (cstr "today\n") (bondUp true) ⟨false, true⟩ =
        dotOutput (cstr "0.4") (cstr "today\n") (bondWith true) ⟨false, true⟩ := by
  refine ⟨(configOnly_output bondWith_sameConfig rfl (cstr "0.4") (cstr "today\n")).1,
    (configOnly_output (bondUp_sameConfig true) rfl (cstr "0.4") (cstr "today\n")).2.mpr ?_⟩
  intro e _ _
  by_cases he : e = 1
  · subst he
    rfl
  · rw [bondUp, World.modifyIf_ifs, if_neg he]

/-- The edge from the slave to the bond is dashed or solid. -/
theorem dotOutput_reveals : SameConfig (bondWith false) (bondWith true) ∧
    dotOutput (cstr "0.4") (cstr "today\n") (bondWith true) ⟨false, true⟩ ≠
      dotOutput (cstr "0.4") (cstr "today\n") (bondWith false) ⟨false, true⟩ :=
  ⟨bondWith_sameConfig, by decide +kernel⟩

end Frontends

end Plotnetcfg
