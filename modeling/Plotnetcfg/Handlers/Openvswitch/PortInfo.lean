import Plotnetcfg.Handlers.Openvswitch.Parse

/-! The settings of a port across their OVSDB encoding. A column that holds a set of atoms is a
bare atom, which is its one element, or a tagged array of any number of elements. -/

namespace Plotnetcfg.Openvswitch

inductive EncodesSet : List Json → Json → Prop where
  | atom (x : Json) : EncodesSet [x] x
  | set (l : List Json) : EncodesSet l (.arr [.str (cstr "set"), .arr l])

def vlanAtom (vlan : UInt32) : Json := .int vlan.toNat

structure PortSettings where
  tag : Option UInt32
  trunks : List UInt32
  bondMode : Option CStr

structure EncodesPort (p : PortSettings) (jport : Json) : Prop where
  tag : ∃ column, jsonObjectGet (some jport) (cstr "tag") = some column ∧
    EncodesSet (p.tag.toList.map vlanAtom) column
  trunks : ∃ column, jsonObjectGet (some jport) (cstr "trunks") = some column ∧
    EncodesSet (p.trunks.map vlanAtom) column
  bondMode : ∃ column, jsonObjectGet (some jport) (cstr "bond_mode") = some column ∧
    EncodesSet (p.bondMode.toList.map .str) column

def OvsPort.Has (port : OvsPort) (p : PortSettings) : Prop :=
  port.tag = p.tag.getD 0 ∧ port.trunks.getD [] = p.trunks ∧
    port.trunksCount.toNat = p.trunks.length ∧ port.bondMode = p.bondMode

/-- `parse_port_info` reads the settings off the row, into a port as `calloc` left it. -/
def SettingsSurvive (p : PortSettings) (jport : Json) (name : CStr) (s : OvsState) : Prop :=
  ∃ port, parsePortInfo { name := name } (some jport) s = some (.ok port, s) ∧ port.Has p

/-! ## What the parser makes of a column -/

/-- Every array that encodes a set has the tag that `is_empty` takes for an empty set. -/
theorem isEmpty_column {l : List Json} {column : Json} (h : EncodesSet l column)
    (hatoms : ∀ x ∈ l, jsonIsArray (some x) = false) (s : OvsState) :
    isEmpty (some column) s = some (.ok (jsonIsArray (some column)), s) := by
  cases h with
  | atom x =>
    have hx := hatoms column (List.mem_singleton_self column)
    unfold isEmpty
    rw [hx]
    rfl
  | set l => rfl

theorem vlanAtom_not_array (vlans : List UInt32) :
    ∀ x ∈ vlans.map vlanAtom, jsonIsArray (some x) = false := by
  intro x hx
  obtain ⟨v, -, rfl⟩ := List.mem_map.mp hx
  rfl

theorem strAtom_not_array (l : List CStr) :
    ∀ x ∈ l.map Json.str, jsonIsArray (some x) = false := by
  intro x hx
  obtain ⟨v, -, rfl⟩ := List.mem_map.mp hx
  rfl

theorem integerValue_vlanAtom (vlan : UInt32) :
    UInt32.ofInt (jsonIntegerValue (some (vlanAtom vlan))) = vlan := by
  have hlt : (vlan.toNat : Int) < 2 ^ 32 := by
    have := vlan.toNat_lt
    omega
  simp only [vlanAtom, jsonIntegerValue, UInt32.ofInt]
  rw [Int.emod_eq_of_lt (by omega) hlt]
  simp

section
variable (port : OvsPort) {column : Json} (s : OvsState)

theorem parseTag_run {tag : Option UInt32} (h : EncodesSet (tag.toList.map vlanAtom) column) :
    ∃ port', parseTag port (some column) s = some (.ok port', s) ∧
      port'.tag = (if jsonIsArray (some column) then port.tag
        else UInt32.ofInt (jsonIntegerValue (some column))) ∧
      port'.trunksCount = port.trunksCount ∧ port'.trunks = port.trunks ∧
      port'.bondMode = port.bondMode := by
  unfold parseTag
  rw [Prog.bind_ok s (isEmpty_column h (vlanAtom_not_array _) s)]
  cases jsonIsArray (some column) with
  | true => exact ⟨port, rfl, rfl, rfl, rfl, rfl⟩
  | false => exact ⟨_, rfl, rfl, rfl, rfl, rfl⟩

theorem stringValue_bond {bond : Option CStr} (h : EncodesSet (bond.toList.map .str) column)
    (harr : jsonIsArray (some column) = false) :
    bond.isSome ∧ jsonStringValue (some column) = bond := by
  generalize hl : bond.toList.map Json.str = l at h
  cases h with
  | atom x =>
    cases bond with
    | none => simp at hl
    | some b =>
      obtain rfl : Json.str b = column := by simpa using hl
      exact ⟨rfl, rfl⟩
  | set l => simp [jsonIsArray] at harr

theorem parseBondMode_run {bond : Option CStr}
    (h : EncodesSet (bond.toList.map .str) column) :
    ∃ port', parseBondMode port (some column) s = some (.ok port', s) ∧
      port'.bondMode = (if jsonIsArray (some column) then port.bondMode else bond) ∧
      port'.tag = port.tag ∧ port'.trunks = port.trunks ∧
      port'.trunksCount = port.trunksCount := by
  unfold parseBondMode
  rw [Prog.bind_ok s (isEmpty_column h (strAtom_not_array _) s)]
  cases harr : jsonIsArray (some column) with
  | true => exact ⟨port, rfl, rfl, rfl, rfl, rfl⟩
  | false =>
    obtain ⟨hsome, hvalue⟩ := stringValue_bond h harr
    obtain ⟨b, rfl⟩ := Option.isSome_iff_exists.mp hsome
    rw [hvalue]
    exact ⟨_, rfl, rfl, rfl, rfl, rfl⟩

end

/-! ## Which encodings survive -/

theorem tag_survives {tag : Option UInt32} {column : Json}
    (h : EncodesSet (tag.toList.map vlanAtom) column) :
    (if jsonIsArray (some column) then 0
      else UInt32.ofInt (jsonIntegerValue (some column))) = tag.getD 0 ↔
      (jsonIsArray (some column) = true → tag.getD 0 = 0) := by
  generalize hl : tag.toList.map vlanAtom = l at h
  cases h with
  | atom x =>
    cases tag with
    | none => simp at hl
    | some t =>
      obtain rfl : vlanAtom t = column := by simpa using hl
      simp only [Option.getD_some, integerValue_vlanAtom]
      simp [vlanAtom, jsonIsArray]
  | set l => simp [jsonIsArray, eq_comm]

theorem bond_survives {bond : Option CStr} {column : Json} :
    (if jsonIsArray (some column) then none else bond) = bond ↔
      (jsonIsArray (some column) = true → bond = none) := by
  split_ifs with harr
  · simp [harr, eq_comm]
  · simp [harr]

theorem parseTrunks_tag (port : OvsPort) (jarr : Option Json) :
    (parseTrunks port jarr).tag = port.tag := by
  simp only [parseTrunks]
  split_ifs <;> rfl

theorem parseTrunks_bondMode (port : OvsPort) (jarr : Option Json) :
    (parseTrunks port jarr).bondMode = port.bondMode := by
  simp only [parseTrunks]
  split_ifs <;> rfl

theorem parseTrunks_count (port : OvsPort) (jarr : Option Json) (hzero : port.trunksCount = 0) :
    (parseTrunks port jarr).trunksCount = UInt32.ofNat (jsonArraySize jarr) := by
  simp only [parseTrunks]
  split_ifs with hpos
  · rfl
  · rw [hzero]
    exact (UInt32.le_zero_iff.mp (UInt32.not_lt.mp hpos)).symm

theorem parseTrunks_trunks (port : OvsPort) (jarr : Option Json) (hzero : port.trunksCount = 0)
    (hnull : port.trunks = none) : (parseTrunks port jarr).trunks.getD [] =
      ((jsonArrayElems jarr).take (parseTrunks port jarr).trunksCount.toNat).map fun j =>
        UInt32.ofInt (jsonIntegerValue (some j)) := by
  simp only [parseTrunks]
  split_ifs
  · rfl
  · rw [hzero, hnull]
    rfl

theorem trunks_survive {trunks : List UInt32} {column : Json}
    (h : EncodesSet (trunks.map vlanAtom) column) (port : OvsPort) (hzero : port.trunksCount = 0)
    (hnull : port.trunks = none) :
    (parseTrunks port (jsonArrayGet (some column) 1)).trunks.getD [] = trunks ∧
        (parseTrunks port (jsonArrayGet (some column) 1)).trunksCount.toNat = trunks.length ↔
      jsonIsArray (some column) = true ∧ trunks.length < 2 ^ 32 := by
  generalize hl : trunks.map vlanAtom = l at h
  cases h with
  | atom x =>
    have hlen : trunks.length = 1 := by simpa using congrArg List.length hl
    have hsize : jsonArrayGet (some column) 1 = none := by
      obtain ⟨t, -, rfl⟩ := List.mem_map.mp (hl ▸ List.mem_singleton_self column)
      rfl
    have harr : jsonIsArray (some column) = false :=
      vlanAtom_not_array trunks column (hl ▸ List.mem_singleton_self column)
    rw [parseTrunks_count port _ hzero, hsize, hlen, harr]
    simp [jsonArraySize, jsonArrayElems]
  | set l =>
    have hget : jsonArrayGet (some (.arr [.str (cstr "set"), .arr l])) 1 = some (.arr l) := rfl
    have hlen : l.length = trunks.length := by rw [← hl, List.length_map]
    have hsize : jsonArraySize (some (.arr l)) = trunks.length := hlen
    rw [parseTrunks_trunks port _ hzero hnull, parseTrunks_count port _ hzero, hget, hsize]
    have hread : (l.take (UInt32.ofNat trunks.length).toNat).map (fun j =>
        UInt32.ofInt (jsonIntegerValue (some j))) =
        trunks.take (UInt32.ofNat trunks.length).toNat := by
      rw [← hl, ← List.map_take, List.map_map]
      exact (List.map_congr_left fun t _ => integerValue_vlanAtom t).trans (List.map_id _)
    have hcount : (UInt32.ofNat trunks.length).toNat = trunks.length ↔ trunks.length < 2 ^ 32 := by
      rw [UInt32.toNat_ofNat']
      exact Nat.mod_eq_iff_lt (by decide)
    simp only [jsonArrayElems, jsonIsArray, true_and, hread, hcount]
    refine ⟨fun hkept => hkept.2, fun hlt => ⟨?_, hlt⟩⟩
    rw [hcount.mpr hlt, List.take_length]

theorem parsePortInfo_run {p : PortSettings} {jport : Json} (h : EncodesPort p jport)
    {tag trunks bond : Json} (htag : jsonObjectGet (some jport) (cstr "tag") = some tag)
    (htrunks : jsonObjectGet (some jport) (cstr "trunks") = some trunks)
    (hbond : jsonObjectGet (some jport) (cstr "bond_mode") = some bond) (name : CStr)
    (s : OvsState) : ∃ port port₀ : OvsPort,
      parsePortInfo { name := name } (some jport) s = some (.ok port, s) ∧
      (port₀.trunksCount = 0 ∧ port₀.trunks = none) ∧
      port.tag = (if jsonIsArray (some tag) then 0
        else UInt32.ofInt (jsonIntegerValue (some tag))) ∧
      port.trunks = (parseTrunks port₀ (jsonArrayGet (some trunks) 1)).trunks ∧
      port.trunksCount = (parseTrunks port₀ (jsonArrayGet (some trunks) 1)).trunksCount ∧
      port.bondMode = (if jsonIsArray (some bond) then none else p.bondMode) := by
  have htagEnc : EncodesSet (p.tag.toList.map vlanAtom) tag := by
    obtain ⟨_, hcol, henc⟩ := h.tag
    rwa [← Option.some.inj (htag.symm.trans hcol)] at henc
  have hbondEnc : EncodesSet (p.bondMode.toList.map .str) bond := by
    obtain ⟨_, hcol, henc⟩ := h.bondMode
    rwa [← Option.some.inj (hbond.symm.trans hcol)] at henc
  obtain ⟨port₀, hrun₀, htag₀, hcount₀, htrunks₀, hbond₀⟩ :=
    parseTag_run { name := name } s htagEnc
  obtain ⟨port, hrun, hbondMode, htag₁, htrunks₁, hcount₁⟩ :=
    parseBondMode_run (parseTrunks port₀ (jsonArrayGet (some trunks) 1)) s hbondEnc
  refine ⟨port, port₀, ?_, ⟨hcount₀, htrunks₀⟩, ?_, htrunks₁, hcount₁, ?_⟩
  · unfold parsePortInfo
    rw [htag, htrunks, hbond, Prog.bind_ok s hrun₀]
    exact hrun
  · rw [htag₁, parseTrunks_tag, htag₀]
  · rw [hbondMode, parseTrunks_bondMode, hbond₀]

/-- The settings of a port survive if and only if no tag other than 0 and no bond mode stands
in a tagged array, and the trunks do, with less than 2³² of them. -/
theorem settingsSurvive_iff {p : PortSettings} {jport : Json} (h : EncodesPort p jport)
    (name : CStr) (s : OvsState) :
    SettingsSurvive p jport name s ↔
      (jsonIsArray (jsonObjectGet (some jport) (cstr "tag")) = true → p.tag.getD 0 = 0) ∧
      (jsonIsArray (jsonObjectGet (some jport) (cstr "trunks")) = true ∧
        p.trunks.length < 2 ^ 32) ∧
      (jsonIsArray (jsonObjectGet (some jport) (cstr "bond_mode")) = true →
        p.bondMode = none) := by
  obtain ⟨tag, htag, htagEnc⟩ := h.tag
  obtain ⟨trunks, htrunks, htrunksEnc⟩ := h.trunks
  obtain ⟨bond, hbond, hbondEnc⟩ := h.bondMode
  obtain ⟨port, port₀, hrun, ⟨hzero, hnull⟩, hporttag, hporttrunks, hportcount, hportbond⟩ :=
    parsePortInfo_run h htag htrunks hbond name s
  rw [htag, htrunks, hbond, ← tag_survives htagEnc, ← bond_survives,
    ← trunks_survive htrunksEnc port₀ hzero hnull, ← hporttag, ← hporttrunks, ← hportcount,
    ← hportbond]
  constructor
  · rintro ⟨port', hrun', htag', htrunks', hcount', hbond'⟩
    obtain rfl : port = port' := by
      rw [hrun] at hrun'
      exact Except.ok.inj (Prod.mk.inj (Option.some.inj hrun')).1
    exact ⟨htag', ⟨htrunks', hcount'⟩, hbond'⟩
  · rintro ⟨htag', ⟨htrunks', hcount'⟩, hbond'⟩
    exact ⟨port, hrun, htag', htrunks', hcount', hbond'⟩

def portRow (tag trunks bondMode : Json) : Json :=
  .obj [(cstr "tag", tag), (cstr "trunks", trunks), (cstr "bond_mode", bondMode)]

theorem encodesPort_row {p : PortSettings} {tag trunks bondMode : Json}
    (htag : EncodesSet (p.tag.toList.map vlanAtom) tag)
    (htrunks : EncodesSet (p.trunks.map vlanAtom) trunks)
    (hbond : EncodesSet (p.bondMode.toList.map .str) bondMode) :
    EncodesPort p (portRow tag trunks bondMode) :=
  ⟨⟨tag, rfl, htag⟩, ⟨trunks, rfl, htrunks⟩, ⟨bondMode, rfl, hbond⟩⟩

def setOf (l : List Json) : Json := .arr [.str (cstr "set"), .arr l]

def startState : OvsState where
  world := { ifs := fun _ => {}, nss := fun _ => {}, nsList := [0], free := [] }
  link := fun _ => none
  next := 0

theorem settingsSurvive_access_port :
    SettingsSurvive ⟨some 5, [10, 20], none⟩
      (portRow (vlanAtom 5) (setOf [vlanAtom 10, vlanAtom 20]) (setOf [])) (cstr "p0")
      startState :=
  (settingsSurvive_iff (p := ⟨some 5, [10, 20], none⟩)
    (encodesPort_row (.atom _) (.set _) (.set _)) (cstr "p0") startState).mpr
    ⟨by decide, by decide, by decide⟩

/-- The only trunk of a port, as a bare atom, is lost. -/
theorem settings_lost_bare_trunk : ¬ ∀ (p : PortSettings) (jport : Json) (name : CStr)
    (s : OvsState), EncodesPort p jport → SettingsSurvive p jport name s := by
  intro hall
  obtain ⟨port, hrun, hport⟩ := hall ⟨none, [100], none⟩
    (portRow (setOf []) (vlanAtom 100) (setOf [])) (cstr "p0") startState
    (encodesPort_row (.set _) (.atom _) (.set _))
  have hread : parsePortInfo { name := cstr "p0" }
      (some (portRow (setOf []) (vlanAtom 100) (setOf []))) startState =
        some (.ok { name := cstr "p0" }, startState) := rfl
  rw [hread] at hrun
  obtain rfl : { name := cstr "p0" } = port := Except.ok.inj (Prod.mk.inj (Option.some.inj hrun)).1
  exact absurd hport.2.1 (by decide)

end Plotnetcfg.Openvswitch
