import Plotnetcfg.Handlers.FillList
import Plotnetcfg.Handlers.Openvswitch.Creations
import Plotnetcfg.Handlers.PrivateUse

/-! When the ids of interfaces are unique: those of the kernel always are, those that
`create_iface` makes for one bridge and one name are not. -/

namespace Plotnetcfg.Openvswitch

def UniqueIds (w : World) : Prop :=
  ∀ e ∈ w.listed, ∀ e' ∈ w.listed, e ≠ e' → ifid w e ≠ ifid w e'

/-- Names as the kernel gives them; `root` is the name space without one. -/
structure KernelNames (root : NsPtr) (w : World) : Prop where
  scanned : w.Scanned
  rootListed : root ∈ w.nsList
  rootName : (w.nss root).name = none
  named : ∀ n ∈ w.nsList, n ≠ root → ∃ a, (w.nss n).name = some a ∧ a ≠ []
  distinct : ∀ n ∈ w.nsList, ∀ n' ∈ w.nsList, n ≠ n' → (w.nss n).name ≠ (w.nss n').name
  kernel : ∀ e ∈ w.listed, (w.ifs e).internalNs = none
  noSlash : ∀ e ∈ w.listed, 47 ∉ (w.ifs e).ifName
  short : ∀ e ∈ w.listed, (w.ifs e).ifName.length < IFNAMSIZ
  ifNames : ∀ n ∈ w.nsList, ∀ e ∈ (w.nss n).ifaces, ∀ e' ∈ (w.nss n).ifaces,
    e ≠ e' → (w.ifs e).ifName ≠ (w.ifs e').ifName

/-- The names of name spaces differ where `nsid` shows them. -/
def NsidsTold (w : World) : Prop :=
  ∀ n ∈ w.nsList, ∀ n' ∈ w.nsList, n ≠ n' → ∀ a ∈ (w.nss n).name, ∀ b ∈ (w.nss n').name,
    (a ++ cstr "/").take NETNS_MAX ≠ (b ++ cstr "/").take NETNS_MAX

/-- No name of a name space begins as a created id does. -/
def NoOvsNames (w : World) : Prop :=
  ∀ n ∈ w.nsList, ∀ a ∈ (w.nss n).name, ¬ cstr "/ovs:" <+: a

/-- What is shown of a created interface after the name of its name space. -/
def createdText (internalNs name : CStr) : CStr := (internalNs ++ cstr "/" ++ name).take (IFID_MAX - 1)

/-- The invariant of the linking: the ids of the listed interfaces can be told apart. -/
structure Told (root : NsPtr) (w : World) : Prop where
  scanned : w.Scanned
  rootListed : root ∈ w.nsList
  rootName : (w.nss root).name = none
  named : ∀ n ∈ w.nsList, n ≠ root → ∃ a, (w.nss n).name = some a ∧ a ≠ []
  nsids : NsidsTold w
  noSlash : ∀ e ∈ w.listed, (w.ifs e).internalNs = none → 47 ∉ (w.ifs e).ifName
  short : ∀ e ∈ w.listed, (w.ifs e).internalNs = none → (w.ifs e).ifName.length < IFNAMSIZ
  ifNames : ∀ e ∈ w.listed, ∀ e' ∈ w.listed, e ≠ e' → (w.ifs e).ns = (w.ifs e').ns →
    (w.ifs e).internalNs = none → (w.ifs e').internalNs = none →
    (w.ifs e).ifName ≠ (w.ifs e').ifName
  created : ∀ e ∈ w.listed, ∀ i, (w.ifs e).internalNs = some i →
    (w.ifs e).ns = root ∧ cstr "ovs:" <+: i
  ovsNames : ∀ e ∈ w.listed, ∀ i, (w.ifs e).internalNs = some i → NoOvsNames w
  texts : ∀ e ∈ w.listed, ∀ e' ∈ w.listed, e ≠ e' → ∀ i, (w.ifs e).internalNs = some i →
    ∀ i', (w.ifs e').internalNs = some i' →
      createdText i (w.ifs e).ifName ≠ createdText i' (w.ifs e').ifName

theorem KernelNames.told {root : NsPtr} {w : World} (h : KernelNames root w) (hn : NsidsTold w) :
    Told root w where
  scanned := h.scanned
  rootListed := h.rootListed
  rootName := h.rootName
  named := h.named
  nsids := hn
  noSlash e he _ := h.noSlash e he
  short e he _ := h.short e he
  ifNames e he e' he' hne hns _ _ := by
    obtain ⟨n, hn, hmem⟩ := World.mem_listed.mp he
    obtain ⟨n', hn', hmem'⟩ := World.mem_listed.mp he'
    rw [h.scanned.home n hn e hmem, h.scanned.home n' hn' e' hmem'] at hns
    subst hns
    exact h.ifNames n hn e hmem e' hmem' hne
  created e he i hi := by
    rw [h.kernel e he] at hi
    cases hi
  ovsNames e he i hi := by
    rw [h.kernel e he] at hi
    cases hi
  texts e he _ _ _ i hi := by
    rw [h.kernel e he] at hi
    cases hi

/-! ## Ids -/

section
variable {root : NsPtr} {w : World} (h : Told root w)
include h

theorem Told.nsid_eq {n : NsPtr} (hn : n ∈ w.nsList) (hne : n ≠ root) :
    ∃ a, (w.nss n).name = some a ∧ a ≠ [] ∧ nsid (w.nss n) = (a ++ cstr "/").take NETNS_MAX := by
  obtain ⟨a, ha, hnil⟩ := h.named n hn hne
  refine ⟨a, ha, hnil, ?_⟩
  unfold nsid
  rw [ha]
  rfl

theorem Told.nsid_root : nsid (w.nss root) = cstr "/" := by
  unfold nsid
  rw [h.rootName]

theorem Told.nsid_length {n : NsPtr} (hn : n ∈ w.nsList) : (nsid (w.nss n)).length ≤ NETNS_MAX := by
  by_cases hroot : n = root
  · rw [hroot, h.nsid_root]
    decide
  · obtain ⟨a, -, -, hnsid⟩ := h.nsid_eq hn hroot
    rw [hnsid, List.length_take]
    exact Nat.min_le_left _ _

theorem Told.nsid_ne {n n' : NsPtr} (hn : n ∈ w.nsList) (hn' : n' ∈ w.nsList) (hne : n ≠ n') :
    nsid (w.nss n) ≠ nsid (w.nss n') := by
  have hlong : ∀ {m : NsPtr}, m ∈ w.nsList → m ≠ root → nsid (w.nss m) ≠ cstr "/" := by
    intro m hm hroot heq
    obtain ⟨a, -, hnil, hnsid⟩ := h.nsid_eq hm hroot
    have hlength := congrArg List.length (hnsid.symm.trans heq)
    have hpos := List.length_pos_iff.mpr hnil
    rw [List.length_take, List.length_append] at hlength
    have hslash : (cstr "/").length = 1 := by decide
    rw [hslash] at hlength
    unfold NETNS_MAX NAME_MAX at hlength
    omega
  by_cases hroot : n = root
  · rw [hroot, h.nsid_root]
    exact (hlong hn' fun heq => hne (hroot.trans heq.symm)).symm
  by_cases hroot' : n' = root
  · rw [hroot', h.nsid_root]
    exact hlong hn hroot
  obtain ⟨a, ha, -, hnsid⟩ := h.nsid_eq hn hroot
  obtain ⟨b, hb, -, hnsid'⟩ := h.nsid_eq hn' hroot'
  rw [hnsid, hnsid']
  exact h.nsids n hn n' hn' hne a ha b hb

theorem Told.ifid_kernel {e : IfPtr} (he : e ∈ w.listed) (hkernel : (w.ifs e).internalNs = none) :
    ifid w e = nsid (w.nss (w.ifs e).ns) ++ cstr "/" ++ (w.ifs e).ifName := by
  have hnsid := h.nsid_length (h.scanned.ns_mem he)
  have hname := h.short e he hkernel
  unfold ifid fits
  dsimp only
  rw [hkernel, Option.getD_none, List.append_nil]
  apply List.take_of_length_le
  have hslash : (cstr "/").length = 1 := by decide
  rw [List.length_append, List.length_append, hslash]
  unfold NETNS_MAX NAME_MAX at hnsid
  unfold IFNAMSIZ at hname
  unfold IFID_MAX INTERNAL_NS_MAX NETNS_MAX NAME_MAX IFNAMSIZ
  omega

theorem Told.ifid_created {e : IfPtr} (he : e ∈ w.listed) {i : CStr}
    (hi : (w.ifs e).internalNs = some i) :
    ifid w e = cstr "/" ++ createdText i (w.ifs e).ifName := by
  unfold ifid fits createdText
  dsimp only
  rw [hi, (h.created e he i hi).1, h.nsid_root, Option.getD_some, List.append_assoc,
    List.append_assoc, List.append_assoc]
  rfl

omit h in
theorem slash_inj {a b x y : CStr} (hx : 47 ∉ x) (hy : 47 ∉ y)
    (heq : a ++ cstr "/" ++ x = b ++ cstr "/" ++ y) : a = b ∧ x = y := by
  have hrev : ∀ c z : CStr, (c ++ cstr "/" ++ z).reverse = z.reverse ++ 47 :: c.reverse := by
    intro c z
    rw [List.reverse_append, List.reverse_append]
    rfl
  have heq := congrArg List.reverse heq
  rw [hrev, hrev] at heq
  have hxr : 47 ∉ x.reverse := fun hmem => hx (List.mem_reverse.mp hmem)
  have hyr : 47 ∉ y.reverse := fun hmem => hy (List.mem_reverse.mp hmem)
  have hinj : ∀ {p q c d : CStr}, 47 ∉ q → p ++ 47 :: c = q ++ 47 :: d → ∀ r, q = p ++ r →
      r = [] := by
    intro p q c d hq hpq r hr
    subst hr
    rw [List.append_assoc, List.append_cancel_left_eq] at hpq
    cases r with
    | nil => rfl
    | cons k r =>
      obtain ⟨rfl, -⟩ := List.cons.inj hpq
      exact absurd (List.mem_append_right p List.mem_cons_self) hq
  have hsame : y.reverse = x.reverse := by
    rcases List.append_eq_append_iff.mp heq with ⟨r, hr, -⟩ | ⟨r, hr, -⟩
    · rw [hr, hinj hyr heq r hr, List.append_nil]
    · rw [hr, hinj hxr heq.symm r hr, List.append_nil]
  rw [hsame, List.append_cancel_left_eq] at heq
  exact ⟨List.reverse_injective (List.cons.inj heq).2, (List.reverse_injective hsame).symm⟩

omit h in
/-- The slash behind a short name is none of those of `/ovs:`. -/
theorem prefix_ovs_of_append {a x : CStr} (hnil : a ≠ [])
    (hpre : cstr "/ovs:" <+: (a ++ cstr "/").take NETNS_MAX ++ cstr "/" ++ x) :
    cstr "/ovs:" <+: a := by
  have hovs : (cstr "/ovs:").length = 5 := by decide
  have hpos := List.length_pos_iff.mpr hnil
  by_cases hlong : 5 ≤ a.length
  · have hname : a.take NETNS_MAX <+: (a ++ cstr "/").take NETNS_MAX ++ cstr "/" ++ x := by
      rw [List.append_assoc]
      apply List.IsPrefix.trans _ (List.prefix_append _ _)
      rw [List.take_append]
      exact List.prefix_append _ _
    have hle : (cstr "/ovs:").length ≤ (a.take NETNS_MAX).length := by
      rw [hovs, List.length_take]
      unfold NETNS_MAX NAME_MAX
      omega
    exact (List.prefix_of_prefix_length_le hpre hname hle).trans (List.take_prefix _ _)
  · have hall : (a ++ cstr "/").take NETNS_MAX = a ++ cstr "/" := by
      apply List.take_of_length_le
      rw [List.length_append, show (cstr "/").length = 1 by decide]
      unfold NETNS_MAX NAME_MAX
      omega
    obtain ⟨rest, hrest⟩ := hpre
    have hat := congrArg (·[a.length]?) hrest
    have hslash : (a ++ cstr "/" ++ cstr "/" ++ x)[a.length]? = some 47 := by
      rw [List.append_assoc, List.append_assoc, List.getElem?_append_right (le_refl _), Nat.sub_self]
      rfl
    rw [hall, hslash, List.getElem?_append_left (by omega)] at hat
    have hnone : ∀ k < 5, 0 < k → (cstr "/ovs:")[k]? ≠ some 47 := by decide
    exact absurd hat (hnone a.length (by omega) hpos)

theorem Told.kernel_ne {e e' : IfPtr} (he : e ∈ w.listed) (he' : e' ∈ w.listed) (hne : e ≠ e')
    (hk : (w.ifs e).internalNs = none) (hk' : (w.ifs e').internalNs = none) :
    ifid w e ≠ ifid w e' := by
  intro heq
  rw [h.ifid_kernel he hk, h.ifid_kernel he' hk'] at heq
  obtain ⟨hns, hname⟩ := slash_inj (h.noSlash e he hk) (h.noSlash e' he' hk') heq
  by_cases hsame : (w.ifs e).ns = (w.ifs e').ns
  · exact h.ifNames e he e' he' hne hsame hk hk' hname
  · exact h.nsid_ne (h.scanned.ns_mem he) (h.scanned.ns_mem he') hsame hns

/-- A created id begins with the name of its name space, which no id of the kernel does. -/
theorem Told.kernel_ne_created {e e' : IfPtr} (he : e ∈ w.listed) (he' : e' ∈ w.listed)
    (hk : (w.ifs e).internalNs = none) {i : CStr} (hi : (w.ifs e').internalNs = some i) :
    ifid w e ≠ ifid w e' := by
  obtain ⟨-, br, rfl⟩ := h.created e' he' i hi
  have hpre : cstr "/ovs:" <+: ifid w e' := by
    rw [h.ifid_created he' hi, createdText]
    exact ⟨(br ++ cstr "/" ++ (w.ifs e').ifName).take 523, rfl⟩
  intro heq
  rw [← heq, h.ifid_kernel he hk] at hpre
  by_cases hroot : (w.ifs e).ns = root
  · rw [hroot, h.nsid_root] at hpre
    obtain ⟨rest, hrest⟩ := hpre
    exact absurd hrest nofun
  · obtain ⟨a, ha, hnil, hnsid⟩ := h.nsid_eq (h.scanned.ns_mem he) hroot
    rw [hnsid] at hpre
    exact h.ovsNames e' he' _ hi _ (h.scanned.ns_mem he) a ha (prefix_ovs_of_append hnil hpre)

theorem Told.created_ne {e e' : IfPtr} (he : e ∈ w.listed) (he' : e' ∈ w.listed) (hne : e ≠ e')
    {i i' : CStr} (hi : (w.ifs e).internalNs = some i) (hi' : (w.ifs e').internalNs = some i') :
    ifid w e ≠ ifid w e' := by
  rw [h.ifid_created he hi, h.ifid_created he' hi']
  exact fun heq => h.texts e he e' he' hne i hi i' hi' (List.append_cancel_left heq)

theorem Told.uniqueIds : UniqueIds w := by
  intro e he e' he' hne
  cases hi : (w.ifs e).internalNs with
  | none =>
    cases hi' : (w.ifs e').internalNs with
    | none => exact h.kernel_ne he he' hne hi hi'
    | some i' => exact h.kernel_ne_created he he' hi hi'
  | some i =>
    cases hi' : (w.ifs e').internalNs with
    | none => exact (h.kernel_ne_created he' he hi' hi).symm
    | some i' => exact h.created_ne he he' hne hi hi'

end

/-! ## Runs -/

section
variable {root : NsPtr} {w w' : World}

theorem NoOvsNames.named_congr (h : NoOvsNames w) (hn : Named w w') : NoOvsNames w' := by
  intro n hm
  rw [hn.nsName]
  exact h n (hn.frame.nsList ▸ hm)

theorem NoOvsNames.creates {s s' : OvsState} {name brName : CStr} {e : IfPtr}
    (h : NoOvsNames s.world) (hcreate : Creates root name brName s s' e) : NoOvsNames s'.world := by
  intro n hm
  rw [hcreate.nsName]
  exact h n (hcreate.adds.nsList ▸ hm)

theorem Told.named_congr (h : Told root w) (hn : Named w w') : Told root w' := by
  have hlisted : ∀ {e}, e ∈ w'.listed ↔ e ∈ w.listed := by
    intro e
    rw [hn.frame.listed]
  have hlist : ∀ {n}, n ∈ w'.nsList ↔ n ∈ w.nsList := by
    intro n
    rw [hn.frame.nsList]
  refine ⟨h.scanned.frame hn.frame, hlist.mpr h.rootListed, ?_, fun n hm hne => ?_, ?_,
    fun e he => ?_, fun e he => ?_, fun e he e' he' hne => ?_, fun e he i hi => ?_,
    fun e he i hi => ?_, fun e he e' he' hne i hi i' hi' => ?_⟩
  · rw [hn.nsName, h.rootName]
  · rw [hn.nsName]
    exact h.named n (hlist.mp hm) hne
  · intro n hm n' hm' hne
    rw [hn.nsName, hn.nsName]
    exact h.nsids n (hlist.mp hm) n' (hlist.mp hm') hne
  · rw [hn.internalNs, (hn.frame.kept e).ifName]
    exact h.noSlash e (hlisted.mp he)
  · rw [hn.internalNs, (hn.frame.kept e).ifName]
    exact h.short e (hlisted.mp he)
  · rw [hn.internalNs, hn.internalNs, (hn.frame.kept e).ifName, (hn.frame.kept e').ifName,
      (hn.frame.kept e).ns, (hn.frame.kept e').ns]
    exact h.ifNames e (hlisted.mp he) e' (hlisted.mp he') hne
  · rw [hn.internalNs] at hi
    rw [(hn.frame.kept e).ns]
    exact h.created e (hlisted.mp he) i hi
  · rw [hn.internalNs] at hi
    exact (h.ovsNames e (hlisted.mp he) i hi).named_congr hn
  · rw [hn.internalNs] at hi hi'
    rw [(hn.frame.kept e).ifName, (hn.frame.kept e').ifName]
    exact h.texts e (hlisted.mp he) e' (hlisted.mp he') hne i hi i' hi'

/-- No name space's name looks like a created id, and no interface was created before for the same
text, as far as an id shows it. -/
structure TextFresh (root : NsPtr) (brName name : CStr) (w : World) : Prop where
  names : NoOvsNames w
  texts : ∀ e ∈ (w.nss root).ifaces, ∀ i ∈ (w.ifs e).internalNs,
    createdText i (w.ifs e).ifName ≠ createdText (cstr "ovs:" ++ brName) name

theorem Told.creates {s s' : OvsState} {name brName : CStr} {e : IfPtr} (h : Told root s.world)
    (hcreate : Creates root name brName s s' e) (hfresh : TextFresh root brName name s.world) :
    Told root s'.world := by
  have hadds := hcreate.adds
  have hlisted : ∀ {x}, x ∈ s'.world.listed → x ≠ e → x ∈ s.world.listed := fun hx hne =>
    ((hadds.mem_listed h.scanned h.rootListed).mp hx).resolve_left hne
  have hlist : ∀ {n}, n ∈ s'.world.nsList ↔ n ∈ s.world.nsList := by
    intro n
    rw [hadds.nsList]
  have hkernel : ∀ {x}, (s'.world.ifs x).internalNs = none → x ≠ e := by
    rintro x hx rfl
    rw [hcreate.internalNs] at hx
    cases hx
  -- the new text is none of the others
  have hnew : ∀ x ∈ s'.world.listed, x ≠ e → ∀ i, (s'.world.ifs x).internalNs = some i →
      createdText i (s'.world.ifs x).ifName ≠ createdText (cstr "ovs:" ++ brName) name := by
    intro x hx hne i hi
    rw [hadds.ifs x hne] at hi ⊢
    have hx := hlisted hx hne
    obtain ⟨n, hn, hmem⟩ := World.mem_listed.mp hx
    have hroot := (h.created x hx i hi).1
    rw [h.scanned.home n hn x hmem] at hroot
    exact hfresh.texts x (hroot ▸ hmem) i hi
  refine ⟨hadds.scanned h.scanned h.rootListed, hlist.mpr h.rootListed, ?_, fun n hn hne => ?_,
    ?_, fun x hx hk => ?_, fun x hx hk => ?_, fun x hx x' hx' hne hns hk hk' => ?_,
    fun x hx i hi => ?_, fun _ _ _ _ => hfresh.names.creates hcreate,
    fun x hx x' hx' hne i hi i' hi' => ?_⟩
  · rw [hcreate.nsName, h.rootName]
  · rw [hcreate.nsName]
    exact h.named n (hlist.mp hn) hne
  · intro n hn n' hn' hne
    rw [hcreate.nsName, hcreate.nsName]
    exact h.nsids n (hlist.mp hn) n' (hlist.mp hn') hne
  · have hne := hkernel hk
    rw [hadds.ifs x hne] at hk ⊢
    exact h.noSlash x (hlisted hx hne) hk
  · have hne := hkernel hk
    rw [hadds.ifs x hne] at hk ⊢
    exact h.short x (hlisted hx hne) hk
  · have hxe := hkernel hk
    have hxe' := hkernel hk'
    rw [hadds.ifs x hxe] at hns hk ⊢
    rw [hadds.ifs x' hxe'] at hns hk' ⊢
    exact h.ifNames x (hlisted hx hxe) x' (hlisted hx' hxe') hne hns hk hk'
  · by_cases hxe : x = e
    · subst hxe
      rw [hcreate.internalNs, Option.some.injEq] at hi
      exact ⟨hadds.ns, hi ▸ List.prefix_append _ _⟩
    · rw [hadds.ifs x hxe] at hi ⊢
      exact h.created x (hlisted hx hxe) i hi
  · by_cases hxe : x = e
    · subst hxe
      rw [hcreate.internalNs, Option.some.injEq] at hi
      rw [← hi, hcreate.ifName]
      exact (hnew x' hx' (Ne.symm hne) i' hi').symm
    by_cases hxe' : x' = e
    · subst hxe'
      rw [hcreate.internalNs, Option.some.injEq] at hi'
      rw [← hi', hcreate.ifName]
      exact hnew x hx hxe i hi
    rw [hadds.ifs x hxe] at hi ⊢
    rw [hadds.ifs x' hxe'] at hi' ⊢
    exact h.texts x (hlisted hx hxe) x' (hlisted hx' hxe') hne i hi i' hi'

def TextsFresh (env : OvsEnv) (root : NsPtr) (answer : Except CStr Json) (w : World) : Prop :=
  ∀ brList s, parse root answer (postState w) = some (.ok brList, s) →
    ∀ br name t, CreateCall env root brList s br name t → TextFresh root br.name name t.world

theorem handleReply_told (env : OvsEnv) {answer : Except CStr Json} (h : Told root w)
    (hfresh : TextsFresh env root answer w) {r : Except Int Unit} {s : OvsState}
    (hrun : handleReply env root answer (postState w) = some (r, s)) : Told root s.world := by
  have hwarn : ∀ (s : OvsState) text, Named w s.world →
      Named w (s.world.modifyNs root (·.labelAdd text)) :=
    fun s text hs => hs.trans (labelAdd_steady _ _ _).toNamed
  have hparse := parse_keeps (I := fun s => Named w s.world) (fun _ hs => hs) root hwarn answer
    (postState w) (.refl w)
  unfold handleReply at hrun
  cases hp : parse root answer (postState w) with
  | none =>
    rw [Prog.bind_fault _ hp] at hrun
    cases hrun
  | some rs =>
    obtain ⟨r₁, s₁⟩ := rs
    have hs₁ := hparse r₁ s₁ hp
    cases r₁ with
    | error err =>
      rw [Prog.bind_error _ hp] at hrun
      obtain ⟨rfl, rfl⟩ := Prod.mk.inj (Option.some.inj hrun)
      exact h.named_congr hs₁
    | ok brList =>
      rw [Prog.bind_ok _ hp] at hrun
      have htold : Told root s₁.world := h.named_congr hs₁.1
      have hlink := linkIfaces_created env root (fun _ _ hn ht => Told.named_congr ht hn) brList
        htold fun br name t t' e hcall ht hcreate =>
          ht.creates hcreate (hfresh brList s₁ hp br name t hcall)
      split_ifs at hrun
      · obtain ⟨rfl, rfl⟩ := Prod.mk.inj (Option.some.inj hrun)
        exact htold
      · have hpost := hlink s₁ rfl r s hrun
        cases r with
        | ok u => exact hpost
        | error err => exact hpost

end

theorem ovsGlobalPost_told (env : OvsEnv) {root : NsPtr} {answer : Option (Except CStr Json)}
    {w : World} (h : Told root w) (hfresh : ∀ a ∈ answer, TextsFresh env root a w) :
    Prog.Runs (· = w) (Handlers.ovsGlobalPost env root answer) (fun _ => Told root) (Told root) := by
  rintro _ rfl r w' hrun
  unfold Handlers.ovsGlobalPost at hrun
  cases answer with
  | none =>
    obtain ⟨rfl, rfl⟩ := Prod.mk.inj (Option.some.inj hrun)
    exact h
  | some a =>
    obtain ⟨⟨r₁, s₁⟩, hreply, heq⟩ := Option.map_eq_some_iff.mp hrun
    have htold := handleReply_told env h (hfresh a rfl) hreply
    cases r₁ with
    | error err =>
      obtain ⟨rfl, rfl⟩ := Prod.mk.inj heq
      split_ifs
      · exact htold
      · exact htold
    | ok u =>
      obtain ⟨rfl, rfl⟩ := Prod.mk.inj heq
      exact htold

/-- Ids are unique in every state reached from a scanned topology if each created id is a new
one. -/
theorem uniqueIds_filled (ovs : OvsEnv) (env : Handlers.HandlerEnv) {root : NsPtr}
    {answer : Option (Except CStr Json)} {s s' : Handlers.ScanState}
    (hkernel : KernelNames root s.world) (hnsids : NsidsTold s.world)
    (hfresh : ∀ t, Handlers.fillListResolve s = some (.ok (), t) →
      ∀ a ∈ answer, TextsFresh ovs root a t.world) {r : Except Handlers.Stop Unit}
    (hrun : Handlers.fillListPost ovs env root answer s = some (r, s')) : UniqueIds s'.world := by
  have htold := hkernel.told hnsids
  have hresolve := Handlers.fillListResolve_keepsNames s.world s (.refl _)
  have hglobal : ∀ t, Handlers.fillListResolve s = some (.ok (), t) →
      Prog.Runs (· = t) (Handlers.onWorld (Handlers.ovsGlobalPost ovs root answer))
        (fun _ t' => Told root t'.world) (fun t' => Told root t'.world) := by
    intro t ht
    unfold Handlers.onWorld
    apply Prog.Triple.zoom
    rintro _ rfl
    apply Prog.Triple.mapError
    exact ovsGlobalPost_told ovs (htold.named_congr (hresolve _ _ ht)) (hfresh _ ht)
  have hpost : Prog.Runs (fun t => Told root t.world)
      (Handlers.ifHandlerPost (Handlers.ifHandlers env)) (fun _ t => Told root t.world)
      (fun t => Told root t.world) := by
    intro t ht r t' hrun
    have hnamed := Handlers.ifHandlerPost_keepsNames env t.world t (.refl _) r t' hrun
    cases r with
    | ok u => exact ht.named_congr hnamed
    | error stop => exact ht.named_congr hnamed
  have hfill : Prog.Runs (· = s) (Handlers.fillListPost ovs env root answer)
      (fun _ t => Told root t.world) (fun t => Told root t.world) := by
    apply Prog.Triple.bind (Q := fun _ t => Handlers.fillListResolve s = some (.ok (), t))
    · rintro _ rfl r t ht
      cases r with
      | ok u => exact ht
      | error stop => exact htold.named_congr (hresolve _ _ ht)
    · rintro - t ht
      exact Prog.Triple.bind (hglobal t ht) (fun _ => hpost) t rfl
  have hend := hfill s rfl r s' hrun
  cases r with
  | ok u => exact hend.uniqueIds
  | error stop => exact hend.uniqueIds

/-! ## Configurations whose texts are fresh -/

def OvsPort.names (port : OvsPort) : List CStr :=
  (if 1 < port.ifaceCount then [port.name] else []) ++ port.ifaces.map OvsIf.name

def portTexts (br : OvsBridge) (port : OvsPort) : List CStr :=
  port.names.map (createdText (cstr "ovs:" ++ br.name))

def configTexts (brList : List OvsBridge) : List CStr :=
  brList.flatMap fun br => br.ports.flatMap (portTexts br)

/-- All that was created is for a text of `l`. -/
structure TextsIn (root : NsPtr) (l : List CStr) (w : World) : Prop where
  names : NoOvsNames w
  texts : ∀ e ∈ (w.nss root).ifaces, ∀ i ∈ (w.ifs e).internalNs, createdText i (w.ifs e).ifName ∈ l

section
variable {env : OvsEnv} {root : NsPtr} {l l' : List CStr}

theorem TextsIn.mono {w : World} (h : TextsIn root l w) (hsub : ∀ t ∈ l, t ∈ l') :
    TextsIn root l' w := ⟨h.names, fun e he i hi => hsub _ (h.texts e he i hi)⟩

theorem TextsIn.named_congr {w w' : World} (h : TextsIn root l w) (hn : Named w w') :
    TextsIn root l w' := by
  refine ⟨h.names.named_congr hn, fun e he i hi => ?_⟩
  rw [hn.frame.ifaces] at he
  rw [hn.internalNs] at hi
  rw [(hn.frame.kept e).ifName]
  exact h.texts e he i hi

theorem TextsIn.creates {s s' : OvsState} {name brName : CStr} {e : IfPtr}
    (h : TextsIn root l s.world) (hcreate : Creates root name brName s s' e)
    (hname : createdText (cstr "ovs:" ++ brName) name ∈ l) : TextsIn root l s'.world := by
  refine ⟨h.names.creates hcreate, fun x hx i hi => ?_⟩
  by_cases hxe : x = e
  · subst hxe
    rw [hcreate.internalNs] at hi
    obtain rfl := Option.some.inj hi
    rwa [hcreate.ifName]
  · rw [hcreate.adds.ifaces, if_pos rfl, List.mem_append, List.mem_singleton] at hx
    rw [hcreate.adds.ifs x hxe] at hi ⊢
    exact h.texts x (hx.resolve_right hxe) i hi

theorem TextsIn.fresh {w : World} {brName name : CStr} (h : TextsIn root l w)
    (hnot : createdText (cstr "ovs:" ++ brName) name ∉ l) : TextFresh root brName name w :=
  ⟨h.names, fun e he i hi heq => hnot (heq ▸ h.texts e he i hi)⟩

theorem PortCreate.name_mem {br : OvsBridge} {ovsMaster : OvsIf} {port : OvsPort}
    {s t : OvsState} {name : CStr} (h : PortCreate env root br ovsMaster port s name t) :
    createdText (cstr "ovs:" ++ br.name) name ∈ portTexts br port := by
  apply List.mem_map_of_mem
  cases h with
  | own hcount =>
    rw [OvsPort.names, if_pos hcount]
    exact List.mem_append_left _ (List.mem_singleton_self _)
  | member hmaster hifaces =>
    apply List.mem_append_right
    apply List.mem_map_of_mem
    rw [hifaces]
    exact List.mem_append_right _ List.mem_cons_self

theorem CreateCall.text_mem {brList : List OvsBridge} {s t : OvsState} {br : OvsBridge}
    {name : CStr} (h : CreateCall env root brList s br name t) :
    createdText (cstr "ovs:" ++ br.name) name ∈ configTexts brList := by
  obtain ⟨done, rest, s', hsplit, -, hcall⟩ := h
  cases hcall with
  | port hmain hlinked hports hbefore hcall =>
    rename_i ovsMaster ports ports' port s₁ s₂
    have hbr : br ∈ brList := hsplit ▸ List.mem_append_right _ List.mem_cons_self
    have hport : port ∈ br.ports := hports ▸ List.mem_append_right _ List.mem_cons_self
    exact List.mem_flatMap.mpr ⟨br, hbr, List.mem_flatMap.mpr ⟨port, hport, hcall.name_mem⟩⟩

/-- When a call for a port comes, what was created is for the texts before it. -/
theorem PortCreate.fresh {br : OvsBridge} {ovsMaster : OvsIf} {port : OvsPort} {s t : OvsState}
    {name : CStr} (h : PortCreate env root br ovsMaster port s name t)
    (hin : TextsIn root l s.world) (hnodup : (l ++ portTexts br port).Nodup) :
    TextFresh root br.name name t.world := by
  have hnamed : ∀ w w', Named w w' → ∀ {l : List CStr}, TextsIn root l w → TextsIn root l w' :=
    fun _ _ hn _ ht => ht.named_congr hn
  cases h with
  | own hcount =>
    apply hin.fresh
    intro hmem
    refine (List.nodup_append.mp hnodup).2.2 _ hmem _ ?_ rfl
    exact (PortCreate.own hcount : PortCreate env root br ovsMaster port s port.name s).name_mem
  | member hmaster hifaces hbefore hsearch hnone =>
    rename_i master ifaces ifaces' iface u u'
    let own := (if 1 < port.ifaceCount then [port.name] else []).map
      (createdText (cstr "ovs:" ++ br.name))
    let earlier := l ++ own ++ ifaces.map fun i => createdText (cstr "ovs:" ++ br.name) i.name
    have hmasterIn := portMaster_created root (I := TextsIn root earlier)
      (fun w w' hn => hnamed w w' hn) br ovsMaster port
      (hin.mono fun x hx => List.mem_append_left _ (List.mem_append_left _ hx))
      (fun t' e hcount hcreate => by
        refine TextsIn.creates (hin.mono fun x hx => ?_) hcreate ?_
        · exact List.mem_append_left _ (List.mem_append_left _ hx)
        · simp [earlier, own, hcount]) s rfl _ _ hmaster
    have hifacesIn := linkPortIfaces_created env root (I := TextsIn root earlier)
      (fun w w' hn => hnamed w w' hn) br port master ifaces hmasterIn
      (fun pre i post t₁ t₂ t₃ e hsplit _ _ _ ht hcreate => by
        refine ht.creates hcreate (List.mem_append_right _ (List.mem_map.mpr ⟨i, ?_, rfl⟩))
        rw [hsplit]
        exact List.mem_append_right _ List.mem_cons_self) u rfl _ _ hbefore
    have hlooked := (linkIface_looked env root br iface false u' u' rfl _ _ hsearch).1
    apply (hifacesIn.named_congr hlooked.world.toNamed).fresh
    have hnodup' : (earlier ++ createdText (cstr "ovs:" ++ br.name) iface.name ::
        ifaces'.map fun i => createdText (cstr "ovs:" ++ br.name) i.name).Nodup := by
      rw [portTexts, OvsPort.names, hifaces] at hnodup
      simpa [earlier, own, Function.comp_def] using hnodup
    exact fun hmem => (List.nodup_append.mp hnodup').2.2 _ hmem _ List.mem_cons_self rfl

theorem textsFresh_of_distinct {answer : Except CStr Json} {w : World}
    (hnames : NoOvsNames w) (hkernel : ∀ e ∈ (w.nss root).ifaces, (w.ifs e).internalNs = none)
    (hdistinct : ∀ brList s, parse root answer (postState w) = some (.ok brList, s) →
      (configTexts brList).Nodup) : TextsFresh env root answer w := by
  intro brList s hparse br name t hcall
  have hnamed : ∀ w w', Named w w' → ∀ {l : List CStr}, TextsIn root l w → TextsIn root l w' :=
    fun _ _ hn _ ht => ht.named_congr hn
  have hstart : TextsIn root [] s.world := by
    have hworld := (parse_keeps (I := fun s => Named w s.world) (fun _ hs => hs) root
      (fun s text hs => hs.trans (labelAdd_steady _ _ _).toNamed) answer (postState w) (.refl w) _ _
      hparse).1
    refine TextsIn.named_congr ⟨hnames, fun e he i hi => ?_⟩ hworld
    rw [hkernel e he] at hi
    cases hi
  obtain ⟨done, rest, s', hsplit, hdone, hcall⟩ := hcall
  have hdoneIn := linkIfaces_created env root (I := TextsIn root (configTexts done))
    (fun w w' hn => hnamed w w' hn) done (hstart.mono nofun)
    (fun br name t t' e hcall ht hcreate => ht.creates hcreate hcall.text_mem) s rfl _ _ hdone
  cases hcall with
  | port hmain hlinked hports hbefore hcall =>
    rename_i ovsMaster ports ports' port s₁ s₂
    let earlier := configTexts done ++ ports.flatMap (portTexts br)
    have hmainIn := hdoneIn.named_congr
      (linkIface_looked env root br ovsMaster true s' s' rfl _ _ hlinked).1.world.toNamed
    have hportsIn := linkPorts_created env root (I := TextsIn root earlier)
      (fun w w' hn => hnamed w w' hn) br ovsMaster ports
      (hmainIn.mono fun x hx => List.mem_append_left _ hx)
      (fun pre port post t name t' t'' e hsplit _ hcall ht hcreate => by
        refine ht.creates hcreate (List.mem_append_right _ (List.mem_flatMap.mpr
          ⟨port, ?_, hcall.name_mem⟩))
        rw [hsplit]
        exact List.mem_append_right _ List.mem_cons_self) s₁ rfl _ _ hbefore
    apply hcall.fresh hportsIn
    have hnodup := hdistinct brList s hparse
    rw [configTexts, hsplit, List.flatMap_append, List.flatMap_cons, hports, List.flatMap_append,
      List.flatMap_cons] at hnodup
    have hsub : (earlier ++ portTexts br port).Sublist (configTexts done ++
        (ports.flatMap (portTexts br) ++ (portTexts br port ++ ports'.flatMap (portTexts br)) ++
          configTexts rest)) := by
      simp only [earlier, List.append_assoc]
      exact ((List.sublist_append_left _ _).append_left _).append_left _
    exact hnodup.sublist hsub

end

theorem bondWorld_kernelNames : KernelNames 0 (bondWorld "br0") := by
  have hlisted : ∀ e ∈ (bondWorld "br0").listed, e = 1 := fun e he => List.mem_singleton.mp he
  have hlist : ∀ n ∈ (bondWorld "br0").nsList, n = 0 := fun n hn => List.mem_singleton.mp hn
  refine ⟨bondWorld_scanned _, List.mem_singleton_self 0, rfl,
    fun n hn hne => absurd (hlist n hn) hne,
    fun n hn n' hn' hne => absurd ((hlist n hn).trans (hlist n' hn').symm) hne,
    fun e he => ?_, fun e he => ?_, fun e he => ?_, fun n _ e he e' he' hne => ?_⟩
  · rw [hlisted e he]
    rfl
  · rw [hlisted e he]
    decide
  · rw [hlisted e he]
    decide
  · exact absurd ((List.mem_singleton.mp he).trans (List.mem_singleton.mp he').symm) hne

theorem bondWorld_name (n : NsPtr) : ((bondWorld "br0").nss n).name = none := rfl

theorem bondWorld_nsidsTold : NsidsTold (bondWorld "br0") := by
  intro n _ n' _ _ a ha
  rw [bondWorld_name] at ha
  cases ha

theorem bondWorld_noOvsNames : NoOvsNames (bondWorld "br0") := by
  intro n _ a ha
  rw [bondWorld_name] at ha
  cases ha

def bondScan : Handlers.ScanState where
  world := bondWorld "br0"
  priv := fun _ => .unset

def filled (member : String) : Option World :=
  match Handlers.fillListPost default Handlers.plainEnv 0 (some (bondReply "br0" member)) bondScan with
  | some (.ok (), s) => some s.world
  | _ => none

theorem filled_eq_some {member : String} {w : World} (h : filled member = some w) :
    ∃ s, Handlers.fillListPost default Handlers.plainEnv 0 (some (bondReply "br0" member))
      bondScan = some (.ok (), s) ∧ s.world = w := by
  unfold filled at h
  split at h
  · rename_i s hrun
    exact ⟨s, hrun, Option.some.inj h⟩
  · cases h

theorem uniqueIds_filled_bond : ∃ s,
    Handlers.fillListPost default Handlers.plainEnv 0 (some (bondReply "br0" "Z")) bondScan =
      some (.ok (), s) ∧ s.world.listed = [1, 2, 3, 4] ∧ UniqueIds s.world := by
  have hcheck : ((filled "Z").any fun w => decide (w.listed = [1, 2, 3, 4])) = true := by
    decide +kernel
  have htexts : ((Handlers.fillListResolve bondScan).all fun r =>
      (parse 0 (bondReply "br0" "Z") (postState r.2.world)).all fun r =>
        decide (∀ brList ∈ r.1.toOption, (configTexts brList).Nodup)) = true := by
    decide +kernel
  obtain ⟨w, hfilled, hall⟩ := (Option.any_eq_true _ _).mp hcheck
  obtain ⟨s, hrun, rfl⟩ := filled_eq_some hfilled
  refine ⟨s, hrun, of_decide_eq_true hall, uniqueIds_filled default Handlers.plainEnv
    bondWorld_kernelNames bondWorld_nsidsTold ?_ hrun⟩
  rintro t ht _ ⟨⟩
  have hnamed : Named (bondWorld "br0") t.world :=
    Handlers.fillListResolve_keepsNames _ bondScan (.refl _) _ _ ht
  apply textsFresh_of_distinct (bondWorld_noOvsNames.named_congr hnamed)
  · intro e he
    rw [hnamed.frame.ifaces] at he
    rw [hnamed.internalNs]
    exact bondWorld_kernelNames.kernel e (World.mem_listed.mpr ⟨0, List.mem_singleton_self 0, he⟩)
  · intro brList s' hparse
    have hparsed := (Option.all_eq_true _ _).mp htexts _ ht
    exact of_decide_eq_true ((Option.all_eq_true _ _).mp hparsed _ hparse) brList rfl

/-- The entry created for a bond and the one created for its member of the same name have the
same id. -/
theorem bond_same_id : KernelNames 0 bondScan.world ∧ NsidsTold bondScan.world ∧
    (∃ br s, parse 0 (bondReply "br0" "X") (postState bondScan.world) = some (.ok [br], s) ∧
      ((br.system.toList ++ br.ports).map OvsPort.name).Nodup ∧
      ((allIfaces [br]).map OvsIf.name).Nodup) ∧
    ∃ s, Handlers.fillListPost default Handlers.plainEnv 0 (some (bondReply "br0" "X")) bondScan =
      some (.ok (), s) ∧ 2 ∈ s.world.listed ∧ 3 ∈ s.world.listed ∧
      ifid s.world 2 = ifid s.world 3 := by
  have hcheck : ((filled "X").any fun w =>
      decide (2 ∈ w.listed ∧ 3 ∈ w.listed ∧ ifid w 2 = ifid w 3)) = true := by
    decide +kernel
  have hnames : ((replyRun default 0 (bondReply "br0" "X") (bondWorld "br0")).any fun r =>
      decide (∃ br ∈ r.1, r.1 = [br] ∧ ((br.system.toList ++ br.ports).map OvsPort.name).Nodup ∧
        ((allIfaces [br]).map OvsIf.name).Nodup)) = true := by
    decide +kernel
  obtain ⟨w, hfilled, hall⟩ := (Option.any_eq_true _ _).mp hcheck
  obtain ⟨s, hrun, rfl⟩ := filled_eq_some hfilled
  obtain ⟨⟨brList, s₁, s₂⟩, hreply, hbridges⟩ := (Option.any_eq_true _ _).mp hnames
  obtain ⟨br, -, hsole, hports, hifaces⟩ := of_decide_eq_true hbridges
  dsimp only at hsole
  subst hsole
  exact ⟨bondWorld_kernelNames, bondWorld_nsidsTold,
    ⟨br, s₁, (replyRun_eq_some hreply).1, hports, hifaces⟩, s, hrun, of_decide_eq_true hall⟩

end Plotnetcfg.Openvswitch
