import Plotnetcfg.Handlers.Openvswitch.Parse

/-! Which replies of ovsdb the parser reads without following a null pointer and without
freeing memory twice. A row is readable if the parser gets through it, and accepted if the
parser then returns no error for it. -/

namespace Plotnetcfg.Openvswitch

/-- The first element of an array, which tells what the array stands for. -/
def tagOf (j : Option Json) : Option CStr := jsonStringValue (jsonArrayGet j 0)

def membersOf (jarr : Option Json) : List (Option Json) :=
  if tagOf jarr = some (cstr "set") then (jsonArrayElems (jsonArrayGet jarr 1)).map some
  else [jarr]

def strMember (j : Json) (key : CStr) : Option CStr :=
  jsonStringValue (jsonObjectGet (some j) key)

/-! ## Interfaces -/

/-- Up to the option searched for, every key is a string, and the option's value is. -/
def OptionReadable (searchName : CStr) : List Json → Prop
  | [] => True
  | jkv :: rest => ∃ key, jsonStringValue (jsonArrayGet (some jkv) 0) = some key ∧
    if key = searchName then (jsonStringValue (jsonArrayGet (some jkv) 1)).isSome = true
    else OptionReadable searchName rest

def optionNames (type : CStr) : List CStr :=
  if type = cstr "vxlan" ∨ type = cstr "geneve" ∨ type = cstr "gre" then
    [cstr "local_ip", cstr "remote_ip", cstr "key"]
  else if type = cstr "patch" then [cstr "peer"]
  else if type = cstr "dpdk" then [cstr "dpdk-devargs"]
  else []

def OptionsReadable (type : CStr) (jif : Json) : Prop :=
  ∃ tag, tagOf (jsonObjectGet (some jif) (cstr "options")) = some tag ∧
    (tag = cstr "map" → ∀ name ∈ optionNames type, OptionReadable name
      (jsonArrayElems (jsonArrayGet (jsonObjectGet (some jif) (cstr "options")) 1)))

section
variable (jresult : Option Json)

def namedRow (table : CStr) (uuid : Option Json) : Option (Json × CStr) :=
  if tagOf uuid = some (cstr "uuid") then
    (rowNew jresult table uuid).bind fun row =>
      (strMember row (cstr "name")).map fun name => (row, name)
  else none

def IfaceAccepted (uuid : Option Json) : Prop :=
  ∃ jif name, namedRow jresult (cstr "Interface") uuid = some (jif, name) ∧
    (strMember jif (cstr "type")).isSome

def IfaceReadable (uuid : Option Json) : Prop :=
  (tagOf uuid).isSome ∧ ∀ jif name, namedRow jresult (cstr "Interface") uuid = some (jif, name) →
    ∀ type, strMember jif (cstr "type") = some type → OptionsReadable type jif

/-! ## Ports -/

def HasTrunks (jport : Json) : Prop :=
  UInt32.ofNat (jsonArraySize (jsonArrayGet (jsonObjectGet (some jport) (cstr "trunks")) 1)) ≠ 0

def PortInfoReadable (jport : Json) : Prop :=
  (jsonIsArray (jsonObjectGet (some jport) (cstr "tag")) = true →
    (tagOf (jsonObjectGet (some jport) (cstr "tag"))).isSome) ∧
  (tagOf (jsonObjectGet (some jport) (cstr "bond_mode")) = some (cstr "set") ∨
    (strMember jport (cstr "bond_mode")).isSome)

def ifacesOf (jport : Json) : List (Option Json) :=
  membersOf (jsonObjectGet (some jport) (cstr "interfaces"))

def PortAccepted (uuid : Option Json) : Prop :=
  ∃ jport name, namedRow jresult (cstr "Port") uuid = some (jport, name) ∧
    ∀ iface ∈ ifacesOf jport, IfaceAccepted jresult iface

/-- A port with trunks is freed twice when one of its interfaces is refused. -/
def PortReadable (uuid : Option Json) : Prop :=
  (tagOf uuid).isSome ∧ ∀ jport name, namedRow jresult (cstr "Port") uuid = some (jport, name) →
    PortInfoReadable jport ∧ (tagOf (jsonObjectGet (some jport) (cstr "interfaces"))).isSome ∧
    Prog.InOrder (IfaceAccepted jresult) (fun _ => IfaceReadable jresult) (ifacesOf jport) ∧
    (HasTrunks jport → ∀ iface ∈ ifacesOf jport, IfaceAccepted jresult iface)

/-! ## Bridges -/

/-- A port that is freed with its bridge and then has trunks to free twice. -/
def FreedTwice (brName : CStr) (uuid : Option Json) : Prop :=
  ∃ jport name, namedRow jresult (cstr "Port") uuid = some (jport, name) ∧ name ≠ brName ∧
    HasTrunks jport

def portsOf (jbridge : Json) : List (Option Json) :=
  membersOf (jsonObjectGet (some jbridge) (cstr "ports"))

def BridgeAccepted (uuid : Option Json) : Prop :=
  ∃ jbridge name, namedRow jresult (cstr "Bridge") uuid = some (jbridge, name) ∧
    (dpTypeNamed (dpTypeOf (some jbridge))).isSome ∧
    ∀ port ∈ portsOf jbridge, PortAccepted jresult port

def BridgeReadable (uuid : Option Json) : Prop :=
  (tagOf uuid).isSome ∧
    ∀ jbridge name, namedRow jresult (cstr "Bridge") uuid = some (jbridge, name) →
      (dpTypeNamed (dpTypeOf (some jbridge))).isSome →
      (tagOf (jsonObjectGet (some jbridge) (cstr "ports"))).isSome ∧
      Prog.InOrder (PortAccepted jresult) (fun before port => PortReadable jresult port ∧
        (¬ PortAccepted jresult port → ∀ other ∈ before, ¬ FreedTwice jresult name other))
        (portsOf jbridge)

end

/-! ## Replies -/

def resultOf (jroot : Json) : Option Json :=
  let jerror := jsonObjectGet (some jroot) (cstr "error")
  if jerror.isSome && !jsonIsNull jerror then none else jsonObjectGet (some jroot) (cstr "result")

def bridgesOf (jroot : Json) : Option Json :=
  let jovs := jsonObjectGet (resultOf jroot) (cstr "Open_vSwitch")
  if jsonObjectSize jovs = 1 then
    jsonObjectGet (jsonObjectGet (jsonObjectFirst jovs) (cstr "new")) (cstr "bridges")
  else none

def ReplyReadable : Except CStr Json → Prop
  | .error _ => True
  | .ok jroot => ∀ bridges, bridgesOf jroot = some bridges → (tagOf (some bridges)).isSome ∧
      Prog.InOrder (BridgeAccepted (resultOf jroot)) (fun _ => BridgeReadable (resultOf jroot))
        (membersOf (some bridges))

/-! ## The parser of an interface -/

section
variable (s : OvsState)

theorem tagIs_run {j : Option Json} {t : CStr} (h : tagOf j = some t) (tag : CStr) :
    tagIs j tag s = some (.ok (t == tag), s) := by
  unfold tagIs
  unfold tagOf at h
  rw [h]
  rfl

theorem safe_tagIs_bind {α : Type} (j : Option Json) (tag : CStr) (f : Bool → OvsProg α) :
    Prog.Safe (tagIs j tag >>= f) s ↔ ∃ t, tagOf j = some t ∧ Prog.Safe (f (t == tag)) s := by
  cases h : tagOf j with
  | none =>
    have hrun : tagIs j tag s = none := by
      unfold tagIs
      unfold tagOf at h
      rw [h]
      rfl
    simp [Prog.Safe, Prog.bind_fault s hrun]
  | some t =>
    simp [Prog.Safe, Prog.bind_ok s (tagIs_run s h tag)]

theorem safe_reject {α : Type} (ns : NsPtr) (text : CStr) :
    Prog.Safe (reject ns text : OvsProg α) s := nofun

theorem reject_triple {α : Type} {P : OvsState → Prop} {Q : α → OvsState → Prop} {E : Prop}
    (ns : NsPtr) (text : CStr) (h : E) :
    Prog.Runs P (reject ns text : OvsProg α) Q fun _ => E :=
  Prog.Triple.bind (Q := fun _ _ => True) (Prog.Triple.modify fun _ _ => trivial) fun _ =>
    Prog.Triple.throw fun _ _ => h

theorem safe_searchStrOption (searchName : CStr) (options : List Json) :
    Prog.Safe (searchStrOption searchName options) s ↔ OptionReadable searchName options := by
  induction options with
  | nil => exact iff_of_true (Prog.safe_pure none s) trivial
  | cons jkv rest ih =>
    unfold searchStrOption OptionReadable
    rw [Prog.safe_deref_bind]
    refine exists_congr fun key => and_congr_right fun _ => ?_
    split_ifs
    · rw [Prog.safe_deref_bind, Option.isSome_iff_exists]
      exact exists_congr fun value => and_iff_left (Prog.safe_pure _ s)
    · exact ih

theorem searchStrOption_triple (searchName : CStr) (options : List Json) :
    Prog.Runs (· = s) (searchStrOption searchName options) (fun _ s' => s' = s)
      fun _ => False := by
  induction options with
  | nil => exact Prog.Triple.pure fun _ => id
  | cons jkv rest ih =>
    refine Prog.Triple.bind (Prog.Triple.deref fun _ _ _ => id) fun key => ?_
    refine Prog.Triple.ite (fun _ => ?_) fun _ => ih
    exact Prog.Triple.bind (Prog.Triple.deref fun _ _ _ => id) fun value =>
      Prog.Triple.pure fun _ => id

theorem safe_search_bind {α : Type} (searchName : CStr) (options : List Json)
    (f : Option CStr → OvsProg α) {c : Prop} (hf : ∀ value, Prog.Safe (f value) s ↔ c) :
    Prog.Safe (searchStrOption searchName options >>= f) s ↔
      OptionReadable searchName options ∧ c := by
  have hnext : ∀ value s', s' = s → (Prog.Safe (f value) s' ↔ c) := by
    rintro value _ rfl
    exact hf value
  rw [Prog.safe_bind_iff (searchStrOption_triple s searchName options) rfl hnext,
    safe_searchStrOption]

theorem ifaceIsTunnel_iff (iface : OvsIf) : ifaceIsTunnel iface = true ↔
    iface.type = cstr "vxlan" ∨ iface.type = cstr "geneve" ∨ iface.type = cstr "gre" := by
  simp [ifaceIsTunnel, or_assoc]

theorem safe_parseOptions (iface : OvsIf) (jif : Json) :
    Prog.Safe (parseOptions iface (some jif)) s ↔ OptionsReadable iface.type jif := by
  have hpure : ∀ x : OvsIf, Prog.Safe (pure x : OvsProg OvsIf) s ↔ True :=
    fun x => iff_of_true (Prog.safe_pure x s) trivial
  unfold parseOptions isMap OptionsReadable
  rw [safe_tagIs_bind]
  refine exists_congr fun tag => and_congr_right fun _ => ?_
  by_cases htag : tag = cstr "map"
  · rw [if_pos (beq_iff_eq.mpr htag)]
    simp only [htag, forall_const, optionNames, ← ifaceIsTunnel_iff]
    split_ifs
    · rw [safe_search_bind s _ _ _ fun _ => safe_search_bind s _ _ _ fun _ =>
        safe_search_bind s _ _ _ fun _ => hpure _]
      simp
    · rw [safe_search_bind s _ _ _ fun _ => hpure _]
      simp
    · rw [safe_search_bind s _ _ _ fun _ => hpure _]
      simp
    · simp [hpure]
  · rw [if_neg (by simpa using htag)]
    simp [htag, hpure]

theorem parseOptions_triple (iface : OvsIf) (jif : Json) :
    Prog.Runs (· = s) (parseOptions iface (some jif)) (fun _ s' => s' = s)
      fun _ => False := by
  have htag : ∀ j tag, Prog.Runs (· = s) (tagIs j tag) (fun _ s' => s' = s)
      fun _ => False := fun j tag =>
    Prog.Triple.bind (Prog.Triple.deref fun _ _ _ => id) fun _ => Prog.Triple.pure fun _ => id
  refine Prog.Triple.bind (htag _ _) fun isMap => ?_
  refine Prog.Triple.ite (fun _ => ?_) fun _ => Prog.Triple.pure fun _ => id
  refine Prog.Triple.ite (fun _ => ?_) fun _ => Prog.Triple.ite (fun _ => ?_) fun _ =>
    Prog.Triple.ite (fun _ => ?_) fun _ => Prog.Triple.pure fun _ => id
  · exact Prog.Triple.bind (searchStrOption_triple s _ _) fun _ =>
      Prog.Triple.bind (searchStrOption_triple s _ _) fun _ =>
      Prog.Triple.bind (searchStrOption_triple s _ _) fun _ => Prog.Triple.pure fun _ => id
  · exact Prog.Triple.bind (searchStrOption_triple s _ _) fun _ => Prog.Triple.pure fun _ => id
  · exact Prog.Triple.bind (searchStrOption_triple s _ _) fun _ => Prog.Triple.pure fun _ => id

variable (warnings : NsPtr) (jresult : Option Json)

section
variable {α : Type} (table what : CStr) (uuid : Option Json) (body : Json → CStr → OvsProg α)

theorem withRow_untagged (h : tagOf uuid = none) :
    withRow warnings jresult table what uuid body s = none := by
  unfold withRow isUuid tagIs
  unfold tagOf at h
  rw [h]
  rfl

theorem withRow_some {row : Json} {name : CStr}
    (h : namedRow jresult table uuid = some (row, name)) :
    withRow warnings jresult table what uuid body s = body row name s := by
  unfold namedRow strMember at h
  split_ifs at h with htag
  obtain ⟨row', hrow, hmap⟩ := Option.bind_eq_some_iff.mp h
  obtain ⟨name', hname, hpair⟩ := Option.map_eq_some_iff.mp hmap
  obtain ⟨rfl, rfl⟩ := Prod.mk.inj hpair
  unfold withRow isUuid
  rw [Prog.bind_ok s (tagIs_run s htag _)]
  simp [hrow, hname]

theorem withRow_none {tag : CStr} (htag : tagOf uuid = some tag)
    (h : namedRow jresult table uuid = none) :
    ∃ s', withRow warnings jresult table what uuid body s = some (.error EINVAL, s') := by
  unfold withRow isUuid
  rw [Prog.bind_ok s (tagIs_run s htag _)]
  unfold namedRow strMember at h
  by_cases huuid : tag = cstr "uuid"
  · rw [if_pos (by rw [htag, huuid])] at h
    rw [if_pos (beq_iff_eq.mpr huuid)]
    cases hrow : rowNew jresult table uuid with
    | none => exact ⟨_, rfl⟩
    | some row =>
      cases hname : jsonStringValue (jsonObjectGet (some row) (cstr "name")) with
      | none =>
        simp only [hname]
        exact ⟨_, rfl⟩
      | some name => simp [hrow, hname] at h
  · rw [if_neg (by simpa using huuid)]
    exact ⟨_, rfl⟩

theorem safe_withRow : Prog.Safe (withRow warnings jresult table what uuid body) s ↔
    (tagOf uuid).isSome ∧
      ∀ row name, namedRow jresult table uuid = some (row, name) →
        Prog.Safe (body row name) s := by
  unfold Prog.Safe
  cases htag : tagOf uuid with
  | none => simp [withRow_untagged s warnings jresult table what uuid body htag]
  | some tag =>
    cases hrow : namedRow jresult table uuid with
    | none =>
      obtain ⟨s', hrun⟩ := withRow_none s warnings jresult table what uuid body htag hrow
      simp [hrun]
    | some rn =>
      obtain ⟨row, name⟩ := rn
      simp [withRow_some s warnings jresult table what uuid body hrow]

theorem withRow_triple {Q : α → OvsState → Prop} {E : Prop}
    (hnone : namedRow jresult table uuid = none → E)
    (hbody : ∀ row name, namedRow jresult table uuid = some (row, name) →
      Prog.Runs (fun _ => True) (body row name) Q fun _ => E) :
    Prog.Runs (fun _ => True) (withRow warnings jresult table what uuid body) Q fun _ => E := by
  intro s _ r s' hrun
  cases htag : tagOf uuid with
  | none =>
    rw [withRow_untagged s warnings jresult table what uuid body htag] at hrun
    cases hrun
  | some tag =>
    cases hrow : namedRow jresult table uuid with
    | none =>
      obtain ⟨s₁, hrun₁⟩ := withRow_none s warnings jresult table what uuid body htag hrow
      obtain ⟨rfl, rfl⟩ := Prod.mk.inj (Option.some.inj (hrun₁.symm.trans hrun))
      exact hnone hrow
    | some rn =>
      obtain ⟨row, name⟩ := rn
      rw [withRow_some s warnings jresult table what uuid body hrow] at hrun
      exact hbody row name hrow s trivial r s' hrun

end

theorem safe_parseIface (uuid : Option Json) (port : OvsPort) :
    Prog.Safe (parseIface warnings jresult uuid port) s ↔ IfaceReadable jresult uuid := by
  unfold parseIface IfaceReadable
  rw [safe_withRow]
  refine and_congr_right fun _ => forall_congr' fun jif => forall_congr' fun name =>
    imp_congr_right fun _ => ?_
  unfold strMember
  cases htype : jsonStringValue (jsonObjectGet (some jif) (cstr "type")) with
  | none => simp [safe_reject]
  | some type =>
    have hcalloc : callocIf s = some (.ok s.next,
        { s with link := Function.update s.link s.next none, next := s.next + 1 }) := rfl
    simp only [Option.some.injEq, forall_eq']
    unfold Prog.Safe
    rw [Prog.bind_ok s hcalloc]
    have hoptions := parseOptions_triple
      { s with link := Function.update s.link s.next none, next := s.next + 1 }
      { ptr := s.next, name := name, type := type } jif
    have hnext := Prog.safe_bind_iff hoptions rfl (c := True) (f := fun iface =>
      (pure (port.append iface) : OvsProg OvsPort))
      fun iface s' _ => iff_of_true (Prog.safe_pure _ s') trivial
    rw [and_true, safe_parseOptions] at hnext
    exact hnext

theorem parseIface_triple (uuid : Option Json) (port : OvsPort) :
    Prog.Runs (fun _ => True) (parseIface warnings jresult uuid port)
      (fun port' _ => IfaceAccepted jresult uuid ∧ port'.trunks = port.trunks)
      fun _ => ¬ IfaceAccepted jresult uuid := by
  refine withRow_triple warnings jresult _ _ uuid _ ?_ fun jif name hrow => ?_
  · rintro hnone ⟨jif, name, hrow, -⟩
    simp [hnone] at hrow
  · cases htype : jsonStringValue (jsonObjectGet (some jif) (cstr "type")) with
    | none =>
      refine reject_triple _ _ ?_
      rintro ⟨jif', name', hrow', htype'⟩
      obtain ⟨rfl, rfl⟩ := Prod.mk.inj (Option.some.inj (hrow.symm.trans hrow'))
      simp [strMember, htype] at htype'
    | some type =>
      have haccepted : IfaceAccepted jresult uuid :=
        ⟨jif, name, hrow, by simp [strMember, htype]⟩
      refine Prog.Triple.bind (Q := fun _ _ => True) (fun s _ r s' hrun => ?_) fun ptr => ?_
      · obtain ⟨rfl, rfl⟩ := Prod.mk.inj (Option.some.inj hrun)
        trivial
      · refine Prog.Triple.bind (Q := fun _ _ => True) (fun s _ r s' hrun => ?_) fun iface => ?_
        · have hpost := parseOptions_triple s _ jif s rfl r s' hrun
          cases r with
          | ok iface => trivial
          | error e => exact hpost.elim
        · exact Prog.Triple.pure fun _ _ => ⟨haccepted, rfl⟩

/-! ## The parser of a port -/

theorem safe_isEmpty_bind {α : Type} (j : Option Json) (f : Bool → OvsProg α) :
    Prog.Safe (isEmpty j >>= f) s ↔ if jsonIsArray j = true then
      ∃ t, tagOf j = some t ∧ Prog.Safe (f (t == cstr "set")) s else Prog.Safe (f false) s := by
  unfold isEmpty isSet
  split_ifs
  · exact safe_tagIs_bind s j _ f
  · rfl

theorem isEmpty_triple (j : Option Json) :
    Prog.Runs (· = s) (isEmpty j) (fun _ s' => s' = s) fun _ => False := by
  refine Prog.Triple.ite (fun _ => ?_) fun _ => Prog.Triple.pure fun _ => id
  exact Prog.Triple.bind (Prog.Triple.deref fun _ _ _ => id) fun _ => Prog.Triple.pure fun _ => id

theorem parseTag_triple (port : OvsPort) (jval : Option Json) :
    Prog.Runs (· = s) (parseTag port jval)
      (fun port' s' => s' = s ∧ port'.trunks = port.trunks) fun _ => False := by
  refine Prog.Triple.bind (isEmpty_triple s jval) fun noTag => ?_
  exact Prog.Triple.ite (fun _ => Prog.Triple.pure fun _ h => ⟨h, rfl⟩) fun _ =>
    Prog.Triple.pure fun _ h => ⟨h, rfl⟩

theorem safe_parseTag_bind {α : Type} (port : OvsPort) (jval : Option Json)
    (f : OvsPort → OvsProg α) {c : Prop} (hf : ∀ port, Prog.Safe (f port) s ↔ c) :
    Prog.Safe (parseTag port jval >>= f) s ↔
      (jsonIsArray jval = true → (tagOf jval).isSome) ∧ c := by
  have hnext : ∀ port' s', s' = s → (Prog.Safe (f port') s' ↔ c) := by
    rintro port' _ rfl
    exact hf port'
  have hkeep : Prog.Runs (· = s) (parseTag port jval) (fun _ s' => s' = s)
      fun _ => False := (parseTag_triple s port jval).weaken (fun _ => id) fun _ _ h => h.1
  have htag : Prog.Safe (parseTag port jval) s ↔
      (jsonIsArray jval = true → (tagOf jval).isSome) := by
    have hend : ∀ b : Bool, Prog.Safe (if b = true then pure port
        else pure { port with tag := UInt32.ofInt (jsonIntegerValue jval) } : OvsProg OvsPort) s := by
      intro b
      split_ifs <;> exact Prog.safe_pure _ s
    unfold parseTag
    rw [safe_isEmpty_bind]
    by_cases harr : jsonIsArray jval = true
    · rw [if_pos harr]
      simp only [hend, and_true, harr, forall_const, Option.isSome_iff_exists]
    · rw [if_neg harr]
      exact iff_of_true (hend false) fun h => absurd h harr
  rw [Prog.safe_bind_iff hkeep rfl hnext, htag]

/-- A bond mode that `is_empty` does not take for empty has to be a string. -/
theorem safe_parseBondMode (port : OvsPort) (jval : Option Json) :
    Prog.Safe (parseBondMode port jval) s ↔
      tagOf jval = some (cstr "set") ∨ (jsonStringValue jval).isSome := by
  unfold parseBondMode
  rw [safe_isEmpty_bind]
  have hderef : Prog.Safe (do
      let bondMode ← Prog.deref (jsonStringValue jval)
      pure { port with bondMode := some bondMode } : OvsProg OvsPort) s ↔
        (jsonStringValue jval).isSome := by
    rw [Prog.safe_deref_bind, Option.isSome_iff_exists]
    exact exists_congr fun value => and_iff_left (Prog.safe_pure _ s)
  cases jval with
  | none => simpa [jsonIsArray, tagOf, jsonArrayGet, jsonArrayElems, jsonStringValue] using hderef
  | some j =>
    cases j with
    | arr elems =>
      have hstr : jsonStringValue (some (.arr elems)) = none := rfl
      rw [hstr] at hderef
      simp only [jsonIsArray, if_true, hstr, Option.isSome_none, Bool.false_eq_true, or_false]
      constructor
      · rintro ⟨t, htag, hsafe⟩
        by_cases ht : t = cstr "set"
        · rw [htag, ht]
        · rw [if_neg (by simpa using ht)] at hsafe
          exact absurd (hderef.mp hsafe) (by simp)
      · intro htag
        exact ⟨_, htag, by simp [Prog.safe_pure]⟩
    | _ => simpa [jsonIsArray, tagOf, jsonArrayGet, jsonArrayElems, jsonStringValue] using hderef

theorem safe_parsePortInfo (port : OvsPort) (jport : Json) :
    Prog.Safe (parsePortInfo port (some jport)) s ↔ PortInfoReadable jport := by
  unfold parsePortInfo PortInfoReadable
  exact safe_parseTag_bind s port _ _ fun port' => safe_parseBondMode s _ _

theorem parseTrunks_isSome (port : OvsPort) (jarr : Option Json) (hnull : port.trunks = none) :
    (parseTrunks port jarr).trunks.isSome ↔ UInt32.ofNat (jsonArraySize jarr) ≠ 0 := by
  simp only [parseTrunks]
  split_ifs with hpos
  · simpa using UInt32.ne_of_lt hpos |>.symm
  · rw [hnull]
    have hzero := UInt32.le_zero_iff.mp (UInt32.not_lt.mp hpos)
    simp [hzero]

theorem parseBondMode_triple (port : OvsPort) (jval : Option Json) :
    Prog.Runs (· = s) (parseBondMode port jval)
      (fun port' s' => s' = s ∧ port'.trunks = port.trunks) fun _ => False := by
  refine Prog.Triple.bind (isEmpty_triple s jval) fun noBond => ?_
  refine Prog.Triple.ite (fun _ => Prog.Triple.pure fun _ h => ⟨h, rfl⟩) fun _ => ?_
  exact Prog.Triple.bind (Prog.Triple.deref fun _ _ _ => id) fun _ =>
    Prog.Triple.pure fun _ h => ⟨h, rfl⟩

theorem parsePortInfo_triple (name : CStr) (jport : Json) :
    Prog.Runs (· = s) (parsePortInfo { name := name } (some jport))
      (fun port s' => s' = s ∧ (port.trunks.isSome ↔ HasTrunks jport)) fun _ => False := by
  refine Prog.Triple.bind (parseTag_triple s _ _) fun port => ?_
  rintro s₁ ⟨rfl, hnull⟩ r s' hrun
  have hpost := parseBondMode_triple s₁ _ _ s₁ rfl r s' hrun
  cases r with
  | error e => exact hpost
  | ok port' =>
    refine ⟨hpost.1, ?_⟩
    rw [hpost.2]
    exact parseTrunks_isSome port _ hnull

theorem members_untagged {jarr : Option Json} (h : tagOf jarr = none) : members jarr s = none := by
  unfold members isSet tagIs
  unfold tagOf at h
  rw [h]
  rfl

theorem members_run {jarr : Option Json} {tag : CStr} (h : tagOf jarr = some tag) :
    members jarr s = some (.ok (membersOf jarr), s) := by
  unfold members isSet membersOf
  rw [Prog.bind_ok s (tagIs_run s h _), h]
  by_cases hset : tag = cstr "set"
  · rw [if_pos (beq_iff_eq.mpr hset), if_pos (by rw [hset])]
    rfl
  · rw [if_neg (by simpa using hset), if_neg (by simpa using hset)]
    rfl

theorem safe_members_bind {α : Type} (jarr : Option Json)
    (f : List (Option Json) → OvsProg α) :
    Prog.Safe (members jarr >>= f) s ↔ (tagOf jarr).isSome ∧ Prog.Safe (f (membersOf jarr)) s := by
  cases htag : tagOf jarr with
  | none => simp [Prog.Safe, Prog.bind_fault s (members_untagged s htag)]
  | some tag => simp [Prog.Safe, Prog.bind_ok s (members_run s htag)]

omit s in
theorem members_triple {P E : OvsState → Prop} (jarr : Option Json) :
    Prog.Runs P (members jarr) (fun l s => l = membersOf jarr ∧ P s) E := by
  intro s hs r s' hrun
  cases htag : tagOf jarr with
  | none =>
    rw [members_untagged s htag] at hrun
    cases hrun
  | some tag =>
    rw [members_run s htag] at hrun
    obtain ⟨rfl, rfl⟩ := Prod.mk.inj (Option.some.inj hrun)
    exact ⟨rfl, hs⟩

/-! ## Lists of interfaces -/

section
variable (uuids : List (Option Json)) (port : OvsPort)

omit s in
theorem parseIfaces_step (_ : List (Option Json)) (uuid : Option Json) (port' : OvsPort)
    (h : port'.trunks = port.trunks) :
    Prog.Runs (fun _ => True) (parseIface warnings jresult uuid port')
      (fun port'' _ => IfaceAccepted jresult uuid ∧ port''.trunks = port.trunks)
      fun _ => ¬ IfaceAccepted jresult uuid :=
  (parseIface_triple warnings jresult uuid port').weaken (fun _ => id) fun _ _ hpost =>
    ⟨hpost.1, hpost.2.trans h⟩

theorem safe_parseIfaces : Prog.Safe (parseIfaces warnings jresult uuids port) s ↔
    Prog.InOrder (IfaceAccepted jresult) (fun _ => IfaceReadable jresult) uuids :=
  Prog.safe_foldM (R := fun _ (port' : OvsPort) => port'.trunks = port.trunks)
    (parseIfaces_step warnings jresult port)
    (fun _ uuid port s _ => safe_parseIface s warnings jresult uuid port) uuids [] rfl s

omit s in
theorem parseIfaces_triple : Prog.Runs (fun _ => True) (parseIfaces warnings jresult uuids port)
    (fun port' _ => (∀ uuid ∈ uuids, IfaceAccepted jresult uuid) ∧ port'.trunks = port.trunks)
    fun _ => ¬ ∀ uuid ∈ uuids, IfaceAccepted jresult uuid :=
  Prog.foldM_triple (R := fun _ (port' : OvsPort) => port'.trunks = port.trunks)
    (parseIfaces_step warnings jresult port) uuids [] rfl

end

/-! ## Ports -/

theorem safe_destructPort (port : OvsPort) :
    Prog.Safe (destructPort port) s ↔ port.trunks.isSome = false := by
  unfold destructPort
  cases port.trunks with
  | none => exact iff_of_true (Prog.safe_pure () s) rfl
  | some trunks => simp [Prog.Safe]

theorem safe_destructBridge (br : OvsBridge) :
    Prog.Safe (destructBridge br) s ↔ ¬ ∃ port ∈ br.ports, port.trunks.isSome := by
  unfold destructBridge
  induction br.ports generalizing s with
  | nil => simp [Prog.Safe, Prog.forEach, Prog.pure]
  | cons port ports ih =>
    have hkeep : Prog.Runs (· = s) (destructPort port) (fun _ s' => s' = s)
        fun _ => False := by
      unfold destructPort
      split_ifs
      · exact fun _ _ _ _ hrun => by cases hrun
      · exact Prog.Triple.pure fun _ => id
    have hnext : ∀ u s', s' = s → (Prog.Safe (Prog.forEach ports destructPort) s' ↔
        ¬ ∃ port ∈ ports, port.trunks.isSome) := fun (_ : Unit) s' _ => ih s'
    rw [Prog.forEach_cons, Prog.safe_bind_iff hkeep rfl hnext, safe_destructPort]
    simp

theorem parsePort_triple (uuid : Option Json) (br : OvsBridge) :
    Prog.Runs (fun _ => True) (parsePort warnings jresult uuid br)
      (fun br' _ => PortAccepted jresult uuid ∧ br'.name = br.name ∧
        ((∃ port ∈ br'.ports, port.trunks.isSome) ↔
          (∃ port ∈ br.ports, port.trunks.isSome) ∨ FreedTwice jresult br.name uuid))
      fun _ => ¬ PortAccepted jresult uuid := by
  refine withRow_triple warnings jresult _ _ uuid _ ?_ fun jport name hrow => ?_
  · rintro hnone ⟨jport, name, hrow, -⟩
    simp [hnone] at hrow
  have hrow' : ∀ jport' name', namedRow jresult (cstr "Port") uuid = some (jport', name') →
      jport = jport' ∧ name = name' := fun jport' name' h =>
    Prod.mk.inj (Option.some.inj (hrow.symm.trans h))
  have haccepted : PortAccepted jresult uuid ↔
      ∀ iface ∈ ifacesOf jport, IfaceAccepted jresult iface := by
    constructor
    · rintro ⟨jport', name', h, hall⟩
      obtain ⟨rfl, rfl⟩ := hrow' jport' name' h
      exact hall
    · exact fun hall => ⟨jport, name, hrow, hall⟩
  have hfreed : FreedTwice jresult br.name uuid ↔ name ≠ br.name ∧ HasTrunks jport := by
    constructor
    · rintro ⟨jport', name', h, hne, htrunks⟩
      obtain ⟨rfl, rfl⟩ := hrow' jport' name' h
      exact ⟨hne, htrunks⟩
    · exact fun h => ⟨jport, name, hrow, h.1, h.2⟩
  rw [haccepted, hfreed]
  have hinfo : Prog.Runs (fun _ => True) (parsePortInfo { name := name } (some jport))
      (fun port _ => (port.trunks.isSome ↔ HasTrunks jport) ∧ True)
      fun _ => ¬ ∀ iface ∈ ifacesOf jport, IfaceAccepted jresult iface := by
    intro s _ r s' hrun
    have hpost := parsePortInfo_triple s name jport s rfl r s' hrun
    cases r with
    | error e => exact hpost.elim
    | ok port => exact ⟨hpost.2, trivial⟩
  refine Prog.Triple.bind hinfo fun port => Prog.Triple.of_and fun htrunks => ?_
  refine Prog.Triple.bind (members_triple _) fun uuids => Prog.Triple.of_and ?_
  rintro rfl
  refine Prog.Triple.bind ((parseIfaces_triple warnings jresult (ifacesOf jport) port).onError
    fun _ => Prog.Triple.const) fun port' => ?_
  refine Prog.Triple.ite (fun hname => ?_) fun hname => ?_
  · refine Prog.Triple.pure fun _ hport => ⟨hport.1, rfl, ?_⟩
    simp [hname]
  · refine Prog.Triple.pure fun _ hport => ⟨hport.1, rfl, ?_⟩
    have hsome : port'.trunks.isSome ↔ HasTrunks jport := by rw [hport.2, htrunks]
    simp only [List.mem_append, List.mem_singleton, or_and_right, exists_or, exists_eq_left,
      hsome, ne_eq, hname, not_false_eq_true, true_and]

theorem safe_parsePort (uuid : Option Json) (br : OvsBridge) :
    Prog.Safe (parsePort warnings jresult uuid br) s ↔ PortReadable jresult uuid := by
  unfold parsePort PortReadable
  rw [safe_withRow]
  refine and_congr_right fun _ => forall_congr' fun jport => forall_congr' fun name =>
    imp_congr_right fun _ => ?_
  have hnext : ∀ port s', s' = s ∧ (port.trunks.isSome ↔ HasTrunks jport) → (Prog.Safe (do
      let uuids ← members (jsonObjectGet (some jport) (cstr "interfaces"))
      let port ← (parseIfaces warnings jresult uuids port).onError fun _ => destructPort port
      if name = br.name then pure { br with system := some port }
      else pure { br with ports := br.ports ++ [port] }) s' ↔
        (tagOf (jsonObjectGet (some jport) (cstr "interfaces"))).isSome ∧
        Prog.InOrder (IfaceAccepted jresult) (fun _ => IfaceReadable jresult) (ifacesOf jport) ∧
        (HasTrunks jport → ∀ iface ∈ ifacesOf jport, IfaceAccepted jresult iface)) := by
    rintro port s' ⟨-, htrunks⟩
    have hend : ∀ (port : OvsPort) s, Prog.Safe (if name = br.name then
        pure { br with system := some port }
        else pure { br with ports := br.ports ++ [port] } : OvsProg OvsBridge) s := by
      intro port s
      split_ifs <;> exact Prog.safe_pure _ s
    have hdestruct : ∀ s, Prog.Safe (destructPort port) s ↔ ¬ HasTrunks jport := by
      intro s
      rw [safe_destructPort, ← htrunks, Bool.not_eq_true]
    have hifaces := (parseIfaces_triple warnings jresult (ifacesOf jport) port).weaken
      (fun _ => id) fun _ _ h => h.1
    rw [safe_members_bind, Prog.safe_bind_of_safe hend, ← ifacesOf,
      Prog.safe_onError_iff hifaces (fun _ => hdestruct), safe_parseIfaces, not_imp_not]
  rw [Prog.safe_bind_iff (parsePortInfo_triple s name jport) rfl hnext, safe_parsePortInfo]

/-! ## Bridges -/

section
variable (uuids : List (Option Json)) (br : OvsBridge)

/-- The bridge after some of its ports: what is freed twice with it. -/
def PortsSoFar (before : List (Option Json)) (br' : OvsBridge) : Prop :=
  br'.name = br.name ∧ ((∃ port ∈ br'.ports, port.trunks.isSome) ↔
    ∃ uuid ∈ before, FreedTwice jresult br.name uuid)

omit s in
theorem parsePorts_step (before : List (Option Json)) (uuid : Option Json) (br' : OvsBridge)
    (h : PortsSoFar jresult br before br') :
    Prog.Runs (fun _ => True)
      ((parsePort warnings jresult uuid br').onError fun _ => destructBridge br')
      (fun br'' _ => PortAccepted jresult uuid ∧ PortsSoFar jresult br (before ++ [uuid]) br'')
      fun _ => ¬ PortAccepted jresult uuid := by
  refine Prog.Triple.onError ((parsePort_triple warnings jresult uuid br').weaken (fun _ => id)
    fun br'' _ hpost => ⟨hpost.1, hpost.2.1.trans h.1, ?_⟩) fun _ => Prog.Triple.const
  rw [hpost.2.2, h.1, h.2]
  simp only [List.mem_append, List.mem_singleton, or_and_right, exists_or, exists_eq_left]

theorem safe_parsePorts_step (before : List (Option Json)) (uuid : Option Json)
    (br' : OvsBridge) (h : PortsSoFar jresult br before br') :
    Prog.Safe ((parsePort warnings jresult uuid br').onError fun _ => destructBridge br') s ↔
      PortReadable jresult uuid ∧ (¬ PortAccepted jresult uuid →
        ∀ other ∈ before, ¬ FreedTwice jresult br.name other) := by
  have hdestruct : ∀ s, Prog.Safe (destructBridge br') s ↔
      ∀ other ∈ before, ¬ FreedTwice jresult br.name other := by
    intro s
    rw [safe_destructBridge, h.2]
    simp
  have hport := (parsePort_triple warnings jresult uuid br').weaken (fun _ => id)
    fun _ _ h => h.1
  rw [Prog.safe_onError_iff hport (fun _ => hdestruct), safe_parsePort]

theorem portsSoFar_nil (hports : br.ports = []) : PortsSoFar jresult br [] br :=
  ⟨rfl, by simp [hports]⟩

theorem safe_parsePorts (hports : br.ports = []) :
    Prog.Safe (parsePorts warnings jresult uuids br) s ↔
      Prog.InOrder (PortAccepted jresult) (fun before uuid => PortReadable jresult uuid ∧
        (¬ PortAccepted jresult uuid → ∀ other ∈ before, ¬ FreedTwice jresult br.name other))
        uuids :=
  Prog.safe_foldM (parsePorts_step warnings jresult br)
    (fun before uuid br' s h => safe_parsePorts_step s warnings jresult br before uuid br' h)
    uuids [] (portsSoFar_nil jresult br hports) s

omit s in
theorem parsePorts_triple (hports : br.ports = []) :
    Prog.Runs (fun _ => True) (parsePorts warnings jresult uuids br)
      (fun _ _ => ∀ uuid ∈ uuids, PortAccepted jresult uuid)
      fun _ => ¬ ∀ uuid ∈ uuids, PortAccepted jresult uuid :=
  (Prog.foldM_triple (parsePorts_step warnings jresult br) uuids []
    (portsSoFar_nil jresult br hports)).weaken (fun _ => id) fun _ _ h => h.1

end

theorem safe_parseBridge (uuid : Option Json) :
    Prog.Safe (parseBridge warnings jresult uuid) s ↔ BridgeReadable jresult uuid := by
  unfold parseBridge BridgeReadable
  rw [safe_withRow]
  refine and_congr_right fun _ => forall_congr' fun jbridge => forall_congr' fun name =>
    imp_congr_right fun _ => ?_
  cases hdp : dpTypeNamed (dpTypeOf (some jbridge)) with
  | none => simp [safe_reject]
  | some dpType =>
    simp only [Option.isSome_some, forall_const]
    rw [safe_members_bind, safe_parsePorts _ _ _ _ _ rfl]
    rfl

theorem parseBridge_triple (uuid : Option Json) :
    Prog.Runs (fun _ => True) (parseBridge warnings jresult uuid)
      (fun _ _ => BridgeAccepted jresult uuid) fun _ => ¬ BridgeAccepted jresult uuid := by
  refine withRow_triple warnings jresult _ _ uuid _ ?_ fun jbridge name hrow => ?_
  · rintro hnone ⟨jbridge, name, hrow, -⟩
    simp [hnone] at hrow
  have haccepted : BridgeAccepted jresult uuid ↔
      (dpTypeNamed (dpTypeOf (some jbridge))).isSome ∧
        ∀ port ∈ portsOf jbridge, PortAccepted jresult port := by
    constructor
    · rintro ⟨jbridge', name', h, hall⟩
      obtain ⟨rfl, rfl⟩ := Prod.mk.inj (Option.some.inj (hrow.symm.trans h))
      exact hall
    · exact fun hall => ⟨jbridge, name, hrow, hall⟩
  rw [haccepted]
  cases hdp : dpTypeNamed (dpTypeOf (some jbridge)) with
  | none => exact reject_triple _ _ (by simp)
  | some dpType =>
    simp only [Option.isSome_some, true_and]
    refine Prog.Triple.bind (members_triple _) fun uuids => Prog.Triple.of_and ?_
    rintro rfl
    exact parsePorts_triple warnings jresult _ _ rfl

/-! ## The reply -/

theorem safe_parseBridges (uuids : List (Option Json)) :
    Prog.Safe (parseBridges warnings jresult uuids) s ↔
      Prog.InOrder (BridgeAccepted jresult) (fun _ => BridgeReadable jresult) uuids := by
  have hstep : ∀ (_ : List (Option Json)) uuid (brList : List OvsBridge), True →
      Prog.Runs (fun _ => True) (do
        let br ← parseBridge warnings jresult uuid
        pure (brList ++ [br]))
        (fun _ _ => BridgeAccepted jresult uuid ∧ True) fun _ => ¬ BridgeAccepted jresult uuid :=
    fun _ uuid brList _ => Prog.Triple.bind (parseBridge_triple warnings jresult uuid) fun br =>
      Prog.Triple.pure fun _ h => ⟨h, trivial⟩
  have hsafe : ∀ (_ : List (Option Json)) uuid (brList : List OvsBridge) s, True →
      (Prog.Safe (do
        let br ← parseBridge warnings jresult uuid
        pure (brList ++ [br])) s ↔ BridgeReadable jresult uuid) := by
    intro _ uuid brList s _
    rw [Prog.safe_bind_of_safe fun br s => Prog.safe_pure _ s, safe_parseBridge]
  exact Prog.safe_foldM hstep hsafe uuids [] trivial s

/-- The parser gets through exactly the readable replies. -/
theorem safe_parse (answer : Except CStr Json) :
    Prog.Safe (parse warnings answer) s ↔ ReplyReadable answer := by
  cases answer with
  | error text => exact iff_of_true (safe_reject s _ _) trivial
  | ok jroot =>
    unfold parse ReplyReadable bridgesOf resultOf
    dsimp only
    generalize jsonObjectGet (some jroot) (cstr "error") = jerror
    by_cases herror : (jerror.isSome && !jsonIsNull jerror) = true
    · have hnone : jsonObjectSize (jsonObjectGet none (cstr "Open_vSwitch")) ≠ 1 := by decide
      simp only [herror, if_true, if_neg hnone]
      exact iff_of_true (safe_reject s _ _) nofun
    · simp only [if_neg herror]
      generalize jsonObjectGet (some jroot) (cstr "result") = jresult
      cases hovs : jsonObjectGet jresult (cstr "Open_vSwitch") with
      | none => exact iff_of_true (safe_reject s _ _) nofun
      | some jovs =>
        rw [if_neg (by simp)]
        by_cases hsize : jsonObjectSize (some jovs) = 1
        · rw [if_neg (not_not.mpr hsize), if_pos hsize]
          generalize jsonObjectGet (jsonObjectGet (jsonObjectFirst (some jovs)) (cstr "new"))
            (cstr "bridges") = jarr
          cases jarr with
          | none => exact iff_of_true (safe_reject s _ _) nofun
          | some bridges =>
            rw [if_neg (by simp), safe_members_bind]
            simp only [Option.some.injEq, forall_eq']
            refine and_congr_right fun _ => ?_
            cases hl : membersOf (some bridges) with
            | nil =>
              refine iff_of_true nofun fun pre x post hsplit => ?_
              simp at hsplit
            | cons uuid uuids => exact safe_parseBridges s warnings jresult (uuid :: uuids)
        · rw [if_pos hsize, if_neg hsize]
          exact iff_of_true (safe_reject s _ _) nofun

end

end Plotnetcfg.Openvswitch
