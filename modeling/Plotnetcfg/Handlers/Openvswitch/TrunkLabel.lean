import Plotnetcfg.Lib.Buffer
import Plotnetcfg.Handlers.Openvswitch.EdgeLabels
import Plotnetcfg.Handlers.Openvswitch.PortInfo

/-! The label that `label_port_or_iface` prints for the trunks of a port, into a buffer whose
size is computed from their number. -/

namespace Plotnetcfg.Openvswitch

/-- `sprintf` to a pointer into a buffer, and the pointer moved by what it returns. -/
def sprintf (text : CStr) (out : Buffer UInt8 × Nat) : Option (Buffer UInt8 × Nat) :=
  (out.1.storeAll out.2 (text ++ [0])).map fun buf => (buf, out.2 + text.length)

/-- The argument of `malloc`, an `unsigned int`. -/
def trunksSize (trunksCount : UInt32) : UInt32 := 16 * trunksCount + 7 + 1

section
variable (trunks : List UInt32)

def printTrunk (out : Buffer UInt8 × Nat) (i : Nat) : Option (Buffer UInt8 × Nat) :=
  trunks[i]?.bind fun vlan => sprintf (cstr ", " ++ decimal vlan.toNat) out

/-- The buffer and the pointer behind the text after a number of turns of the loop; without a
result it has read or stored outside of an allocation. -/
def printTrunks (trunksCount : UInt32) (turns : Nat) : Option (Buffer UInt8 × Nat) :=
  trunks[0]?.bind fun vlan =>
    (sprintf (cstr "trunks " ++ decimal vlan.toNat)
        (Buffer.malloc (trunksSize trunksCount).toNat, 0)).bind fun out =>
      (List.range' 1 turns).foldlM (printTrunk trunks) out

/-- The label: the loop makes its turns for the numbers from the second on. -/
def trunksLabel (trunksCount : UInt32) : Option (Buffer UInt8) :=
  (printTrunks trunks trunksCount (trunksCount.toNat - 1)).map Prod.fst

end

def trunksText (trunks : List UInt32) : CStr :=
  cstr "trunks " ++ joinWith (cstr ", ") (trunks.map fun vlan => decimal vlan.toNat)

/-! ## The text -/

theorem trunksText_concat (trunks : List UInt32) (vlan : UInt32) :
    trunksText (trunks ++ [vlan]) = cstr "trunks " ++
      ((trunks.map fun vlan => decimal vlan.toNat).flatMap (· ++ cstr ", ") ++
        decimal vlan.toNat) := by
  rw [trunksText, List.map_append, List.map_singleton, joinWith_concat]

theorem trunksText_append {trunks : List UInt32} (h : trunks ≠ []) (vlan : UInt32) :
    trunksText (trunks ++ [vlan]) = trunksText trunks ++ (cstr ", " ++ decimal vlan.toNat) := by
  obtain ⟨before, last, rfl⟩ := (List.eq_nil_or_concat' trunks).resolve_left h
  rw [trunksText_concat, trunksText_concat, List.map_append, List.flatMap_append]
  simp only [List.map_singleton, List.flatMap_singleton, List.append_assoc]

theorem length_decimal_vlan (vlan : UInt32) : (decimal vlan.toNat).length ≤ 10 :=
  length_decimal_le (by decide) (Nat.lt_trans vlan.toNat_lt (by decide))

/-- Every number takes at most twelve bytes, with what separates it. -/
theorem length_trunksText_le {trunks : List UInt32} (h : trunks ≠ []) :
    (trunksText trunks).length + 1 ≤ 16 * trunks.length + 8 := by
  have hfront : (cstr "trunks ").length = 7 := by decide
  have hsep : (cstr ", ").length = 2 := by decide
  induction trunks using List.reverseRecOn with
  | nil => exact absurd rfl h
  | append_singleton trunks vlan ih =>
    have hvlan := length_decimal_vlan vlan
    by_cases hnil : trunks = []
    · subst hnil
      have hone : trunksText ([] ++ [vlan]) = cstr "trunks " ++ decimal vlan.toNat := by
        rw [trunksText_concat]
        rfl
      rw [hone, List.length_append, hfront, List.nil_append, List.length_singleton]
      omega
    · have hbefore := ih hnil
      rw [trunksText_append hnil, List.length_append, List.length_append, hsep,
        List.length_append, List.length_singleton]
      omega

/-! ## The buffer -/

theorem sprintf_filled {front old text : CStr} {size : Nat}
    (hold : old.length ≤ text.length + 1) (hroom : (front ++ text).length + 1 ≤ size) :
    sprintf text (Buffer.filled none (front ++ old) size, front.length) =
      some (Buffer.filled none (front ++ text ++ [0]) size, (front ++ text).length) := by
  have hlength : (text ++ [(0 : UInt8)]).length = text.length + 1 := List.length_append
  rw [List.length_append] at hroom
  have hstore : (Buffer.filled none (front ++ old) size).storeAll front.length (text ++ [0]) =
      some (Buffer.filled none (front ++ (text ++ [0])) size) :=
    Buffer.storeAll_over none front old (text ++ [0]) (by omega) (by omega)
  rw [sprintf]
  simp only [hstore, Option.map_some, List.append_assoc, List.length_append]

section
variable {trunks : List UInt32}

theorem trunksSize_toNat (h : trunks.length < 2 ^ 28) :
    (trunksSize (UInt32.ofNat trunks.length)).toNat = 16 * trunks.length + 8 := by
  have hcount : (UInt32.ofNat trunks.length).toNat = trunks.length :=
    UInt32.toNat_ofNat_of_lt' (by simp [UInt32.size]; omega)
  simp [trunksSize, UInt32.toNat_add, UInt32.toNat_mul, hcount]
  omega

theorem printTrunks_succ (trunksCount : UInt32) (turns : Nat) :
    printTrunks trunks trunksCount (turns + 1) =
      (printTrunks trunks trunksCount turns).bind fun out => printTrunk trunks out (turns + 1) := by
  unfold printTrunks
  rw [List.range'_concat]
  simp [Option.bind_assoc, Nat.add_comm]

theorem take_ne_nil {k : Nat} (hk : k < trunks.length) : trunks.take (k + 1) ≠ [] := by
  apply List.ne_nil_of_length_pos
  rw [List.length_take]
  omega

theorem length_trunksText_take {k : Nat} (hk : k < trunks.length) :
    (trunksText (trunks.take (k + 1))).length + 1 ≤ 16 * trunks.length + 8 := by
  have hle := length_trunksText_le (take_ne_nil hk)
  rw [List.length_take] at hle
  omega

/-- The invariant of the loop. -/
theorem printTrunks_eq (hlt : trunks.length < 2 ^ 28) {k : Nat} (hk : k < trunks.length) :
    printTrunks trunks (UInt32.ofNat trunks.length) k =
      some (Buffer.filled none (trunksText (trunks.take (k + 1)) ++ [0]) (16 * trunks.length + 8),
        (trunksText (trunks.take (k + 1))).length) := by
  have hroom := length_trunksText_take hk
  induction k with
  | zero =>
    have hfirst : trunks.take (0 + 1) = [] ++ [trunks[0]] := by
      rw [List.take_add_one, List.take_zero, List.getElem?_eq_getElem hk]
      rfl
    have htext : trunksText (trunks.take (0 + 1)) =
        [] ++ (cstr "trunks " ++ decimal trunks[0].toNat) := by
      rw [hfirst, trunksText_concat]
      rfl
    rw [htext] at hroom ⊢
    have hnone : ([] : CStr).length ≤
        (cstr "trunks " ++ decimal trunks[0].toNat).length + 1 := Nat.zero_le _
    have hprint := sprintf_filled hnone hroom
    rw [List.append_nil, List.length_nil] at hprint
    rw [printTrunks, List.getElem?_eq_getElem hk, trunksSize_toNat hlt, Buffer.malloc,
      Option.bind_some, hprint]
    rfl
  | succ k ih =>
    have hnext : trunks.take (k + 1 + 1) = trunks.take (k + 1) ++ [trunks[k + 1]] := by
      rw [List.take_add_one, List.getElem?_eq_getElem hk]
      rfl
    have hk' : k < trunks.length := by omega
    have hbefore := ih hk' (length_trunksText_take hk')
    rw [hnext, trunksText_append (take_ne_nil hk')] at hroom ⊢
    rw [printTrunks_succ, hbefore, Option.bind_some, printTrunk, List.getElem?_eq_getElem hk,
      Option.bind_some]
    exact sprintf_filled (by simp) hroom

theorem zero_not_mem_trunksText (trunks : List UInt32) : 0 ∉ trunksText trunks := by
  have hdigits (vlan : UInt32) : 0 ∉ decimal vlan.toNat := by
    intro hzero
    exact absurd (decimal_isDigit _ 0 hzero) (by decide)
  induction trunks using List.reverseRecOn with
  | nil => decide
  | append_singleton trunks vlan ih =>
    by_cases hnil : trunks = []
    · subst hnil
      have hfront : 0 ∉ cstr "trunks " := by decide
      rw [trunksText_concat]
      simp [hfront, hdigits]
    · have hsep : 0 ∉ cstr ", " := by decide
      rw [trunksText_append hnil]
      simp [ih, hsep, hdigits]

theorem parseTrunks_trunksCount {port : OvsPort} (jarr : Option Json)
    (hzero : port.trunksCount = 0) (hnull : port.trunks = none) :
    (parseTrunks port jarr).trunksCount =
      UInt32.ofNat ((parseTrunks port jarr).trunks.getD []).length := by
  have hcount := parseTrunks_count port jarr hzero
  have hle : (UInt32.ofNat (jsonArraySize jarr)).toNat ≤ (jsonArrayElems jarr).length := by
    rw [UInt32.toNat_ofNat']
    exact Nat.mod_le _ _
  rw [parseTrunks_trunks port jarr hzero hnull, List.length_map, List.length_take, hcount,
    Nat.min_eq_left hle, UInt32.ofNat_toNat]

/-- After every turn the buffer holds the text of the trunks so far, whose NUL is inside; in the
end it is the label of the port. -/
theorem trunksLabel_fits (hpos : 1 ≤ trunks.length) (hlt : trunks.length < 2 ^ 28) :
    (∀ k < trunks.length, ∃ buf,
      printTrunks trunks (UInt32.ofNat trunks.length) k =
        some (buf, (trunksText (trunks.take (k + 1))).length) ∧
      buf.length = 16 * trunks.length + 8 ∧
      (trunksText (trunks.take (k + 1))).length + 1 ≤ 16 * trunks.length + 8 ∧
      Buffer.Terminated 0 buf (trunksText (trunks.take (k + 1)))) ∧
    (∃ buf, trunksLabel trunks (UInt32.ofNat trunks.length) = some buf ∧
      Buffer.Terminated 0 buf (trunksText trunks)) ∧
    ∀ (port : OvsPort) (x : IfEntry), port.tag = 0 → port.trunks = some trunks →
      port.trunksCount = UInt32.ofNat trunks.length →
        (labelPortOrIface port x).edgeLabel = some (trunksText trunks) := by
  have hcount : (UInt32.ofNat trunks.length).toNat = trunks.length :=
    UInt32.toNat_ofNat_of_lt' (by simp [UInt32.size]; omega)
  have hturn {k : Nat} (hk : k < trunks.length) :
      Buffer.Terminated 0
        (Buffer.filled none (trunksText (trunks.take (k + 1)) ++ [0]) (16 * trunks.length + 8))
        (trunksText (trunks.take (k + 1))) :=
    Buffer.terminated_filled none _ (zero_not_mem_trunksText _)
  refine ⟨fun k hk => ?_, ?_, fun port x htag htrunks hport => ?_⟩
  · have hroom := length_trunksText_take hk
    refine ⟨_, printTrunks_eq hlt hk, ?_, hroom, hturn hk⟩
    apply Buffer.length_filled
    rw [List.length_append, List.length_singleton]
    exact hroom
  · have hlast : trunks.length - 1 < trunks.length := by omega
    have hall : trunks.take (trunks.length - 1 + 1) = trunks := by
      apply List.take_of_length_le
      omega
    have hend := hturn hlast
    rw [hall] at hend
    refine ⟨_, ?_, hend⟩
    rw [trunksLabel, hcount, printTrunks_eq hlt hlast, hall]
    rfl
  · have hne : port.trunksCount ≠ 0 := by
      intro hzero
      rw [hport] at hzero
      rw [hzero] at hcount
      exact absurd hcount (by simp; omega)
    rw [labelPortOrIface_edgeLabel, portLabel, if_neg (by simpa using htag), if_pos hne, htrunks]
    rfl

theorem trunksLabel_fits_two : ∃ buf,
    trunksLabel [4294967295, 0] 2 = some buf ∧
      Buffer.Terminated 0 buf (cstr "trunks 4294967295, 0") := by
  have hpos : 1 ≤ ([4294967295, 0] : List UInt32).length := by decide
  have hlt : ([4294967295, 0] : List UInt32).length < 2 ^ 28 := by decide
  exact (trunksLabel_fits hpos hlt).2.1

end

end Plotnetcfg.Openvswitch
