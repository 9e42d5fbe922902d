import Plotnetcfg.Netns.Scan
import Plotnetcfg.Lib.Keyed

/-! The list that `netns_fill_list` builds from `/var/run/netns` and `/proc`: one entry for each
name space, which does not depend on the order in which `/proc` is read. -/

namespace Plotnetcfg.Netns

def netnsNamedList (strerror : Errno → CStr) (env : ScanEnv) : Except Int ScanState :=
  match netnsNewList env true with
  | .error err => .error err
  | .ok s =>
    let (err, s) := netnsAddVarList strerror env.root env.varDir s
    if err ≠ 0 then .error err else .ok s

/-- `netns_fill_list` up to its first loop. -/
def netnsBuildList (strerror : Errno → CStr) (env : ScanEnv) : Except Int ScanState :=
  match netnsNamedList strerror env with
  | .error err => .error err
  | .ok s =>
    let (err, s) := netnsAddProcList env.procDir s
    if err ≠ 0 then .error err else .ok s

theorem netnsFillListScan_eq (strerror : Errno → CStr) (env : ScanEnv) :
    netnsFillListScan strerror env true =
      match netnsBuildList strerror env with
      | .error err => (err, [])
      | .ok s => match env.sysfsInit with
        | some e => (e, [])
        | none => scanEntries env 0 s.list s.cur := by
  unfold netnsFillListScan netnsBuildList netnsNamedList
  cases netnsNewList env true with
  | error err => rfl
  | ok s =>
    simp only [if_true]
    by_cases hvar : (netnsAddVarList strerror env.root env.varDir s).1 = 0
    · simp only [hvar, ne_eq, not_true_eq_false, if_false]
      split_ifs <;> rfl
    · simp only [ne_eq, if_pos hvar]

/-! ## The entries before `/proc` is read -/

/-- Names with a kernel id of their own, and without a process. -/
structure Named (list : List NetnsEntry) : Prop where
  distinct : (list.map (·.kernelId)).Nodup
  noPid : ∀ e ∈ list, e.pid = 0

theorem labelAdd_map {B : Type} (f : NetnsEntry → B)
    (hf : ∀ e text, f (e.labelAdd text) = f e) (text : CStr) (s : ScanState) :
    (s.labelAdd text).list.map f = s.list.map f := by
  obtain ⟨cur, list⟩ := s
  cases list with
  | nil => rfl
  | cons e list => simp [ScanState.labelAdd, hf]

theorem Named.labelAdd {s : ScanState} (h : Named s.list) (text : CStr) :
    Named (s.labelAdd text).list := by
  refine ⟨?_, fun e he => ?_⟩
  · rw [labelAdd_map _ fun _ _ => rfl]
    exact h.distinct
  · have hpids : (s.labelAdd text).list.map (·.pid) = s.list.map (·.pid) :=
      labelAdd_map _ (fun _ _ => rfl) text s
    have hmem : e.pid ∈ s.list.map (·.pid) := hpids ▸ List.mem_map_of_mem he
    obtain ⟨e', he', heq⟩ := List.mem_map.mp hmem
    rw [← heq]
    exact h.noPid e' he'

theorem Named.append {list : List NetnsEntry} (h : Named list) {entry : NetnsEntry}
    (hpid : entry.pid = 0) (hnew : netnsCheckDuplicate list entry.kernelId = none) :
    Named (list ++ [entry]) := by
  have hne : ∀ e ∈ list, ¬ e.kernelId = entry.kernelId := by
    simpa [netnsCheckDuplicate] using hnew
  refine ⟨?_, fun e he => ?_⟩
  · rw [List.map_append, List.nodup_append]
    refine ⟨h.distinct, List.nodup_singleton _, ?_⟩
    intro k hk k' hk'
    obtain ⟨e, he, rfl⟩ := List.mem_map.mp hk
    rw [List.map_singleton, List.mem_singleton] at hk'
    rw [hk']
    exact hne e he
  · rcases List.mem_append.mp he with he | he
    · exact h.noPid e he
    · rw [List.mem_singleton.mp he, hpid]

theorem netnsSwitchRoot_list (root : KernelNs) (rootOpen rootSetns : SysResult) (s : ScanState) :
    (netnsSwitchRoot root rootOpen rootSetns s).2.list = s.list := by
  unfold netnsSwitchRoot
  cases rootOpen <;> cases rootSetns <;> rfl

theorem netnsGetVarEntry_named (strerror : Errno → CStr) (root : KernelNs) (d : VarDirent)
    {s : ScanState} (h : Named s.list) :
    Named (netnsGetVarEntry strerror root d s).2.list ∧
      ∀ entry, (netnsGetVarEntry strerror root d s).1 = .ok entry →
        entry.pid = 0 ∧
          netnsCheckDuplicate (netnsGetVarEntry strerror root d s).2.list entry.kernelId = none := by
  unfold netnsGetVarEntry
  dsimp only
  cases d.calloc with
  | false => exact ⟨h, nofun⟩
  | true =>
    cases d.openNs with
    | error e => exact ⟨h.labelAdd _, nofun⟩
    | ok fd =>
      cases d.setns with
      | some e => exact ⟨h.labelAdd _, nofun⟩
      | none =>
        simp only [Bool.not_true, Bool.false_eq_true, if_false]
        generalize netnsGetKernelId _ = kernelId
        by_cases hneg : kernelId < 0
        · simp only [if_pos hneg]
          exact ⟨h, nofun⟩
        · simp only [if_neg hneg]
          by_cases hdup : (netnsCheckDuplicate s.list kernelId).isSome
          · simp only [if_pos hdup]
            exact ⟨h, nofun⟩
          · simp only [if_neg hdup]
            cases d.strdup with
            | false => exact ⟨h, nofun⟩
            | true =>
              simp only [Bool.not_true, Bool.false_eq_true, if_false]
              by_cases hroot : (netnsSwitchRoot root d.rootOpen d.rootSetns ⟨fd, s.list⟩).1 = 0
              · simp only [if_pos hroot, netnsSwitchRoot_list]
                refine ⟨h, fun entry he => ?_⟩
                obtain rfl := Except.ok.inj he
                exact ⟨rfl, by simpa using hdup⟩
              · simp only [if_neg hroot, netnsSwitchRoot_list]
                exact ⟨h, nofun⟩

theorem netnsAddVarEntries_named (strerror : Errno → CStr) (root : KernelNs)
    (ds : List VarDirent) {s : ScanState} (h : Named s.list) :
    Named (netnsAddVarEntries strerror root ds s).2.list := by
  induction ds generalizing s with
  | nil => exact h
  | cons d ds ih =>
    have hget := netnsGetVarEntry_named strerror root d h
    unfold netnsAddVarEntries
    split_ifs
    · exact ih h
    · split
      · next entry s' hrun =>
        rw [hrun] at hget
        obtain ⟨hpid, hnew⟩ := hget.2 entry rfl
        exact ih (hget.1.append hpid hnew)
      · next err s' hrun =>
        rw [hrun] at hget
        split_ifs
        · exact ih hget.1
        · exact hget.1

/-! ## Reading `/proc` -/

def ProcDirent.Reads (d : ProcDirent) (n : KernelNs) : Prop :=
  isDot d.name = false ∧ startsWithDigit d.name = true ∧ d.link = .ok n

/-- What `/proc` holds: a process has its number as its name. A name space link that can be
read can be opened. -/
structure ProcListing (ds : List ProcDirent) : Prop where
  pid : ∀ d ∈ ds, startsWithDigit d.name = true →
    ∃ pid, 0 < pid ∧ pid < 2 ^ 31 ∧ d.name = decimal pid
  nodup : (ds.map (·.name)).Nodup
  opened : ∀ d ∈ ds, ∀ n, d.Reads n → d.openNs = none

/-- The process `d` of the name space `n` has the smallest number among those of `ds`. -/
structure IsFirst (ds : List ProcDirent) (n : KernelNs) (d : ProcDirent) : Prop where
  mem : d ∈ ds
  reads : d.Reads n
  le : ∀ d' ∈ ds, d'.Reads n → pidOf d.name ≤ pidOf d'.name

structure EntryOf (n : KernelNs) (d : ProcDirent) (e : NetnsEntry) : Prop where
  kernelId : e.kernelId = n.toNat
  pid : e.pid = pidOf d.name
  name : e.name = some (netnsProcEntryName d.name d.comm d.strdup)

theorem pidOf_decimal {pid : Nat} (h : pid < 2 ^ 31) : pidOf (decimal pid) = pid := by
  have hlong : (pid : Int) ≤ LONG_MAX := by
    unfold LONG_MAX
    omega
  unfold pidOf
  rw [strtol_decimal pid hlong]
  exact Int.bmod_eq_of_le (by omega) (by omega)

theorem ProcListing.pidOf_pos {ds : List ProcDirent} (h : ProcListing ds) {d : ProcDirent}
    (hd : d ∈ ds) {n : KernelNs} (hn : d.Reads n) : 0 < pidOf d.name := by
  obtain ⟨pid, hpos, hlt, hname⟩ := h.pid d hd hn.2.1
  rw [hname, pidOf_decimal hlt]
  omega

theorem ProcListing.isFirst_unique {ds : List ProcDirent} (h : ProcListing ds) {n : KernelNs}
    {d d' : ProcDirent} (hd : IsFirst ds n d) (hd' : IsFirst ds n d') : d = d' := by
  have hpid := le_antisymm (hd.le d' hd'.mem hd'.reads) (hd'.le d hd.mem hd.reads)
  obtain ⟨p, -, hp, hname⟩ := h.pid d hd.mem hd.reads.2.1
  obtain ⟨p', -, hp', hname'⟩ := h.pid d' hd'.mem hd'.reads.2.1
  rw [hname, hname', pidOf_decimal hp, pidOf_decimal hp'] at hpid
  obtain rfl : p = p' := by exact_mod_cast hpid
  exact List.inj_on_of_nodup_map h.nodup hd.mem hd'.mem (hname.trans hname'.symm)

/-- After the names `pre` the list has the entries `named` of before, and one for each name space
of a process that none of them is for. -/
structure ProcInv (named : List NetnsEntry) (pre : List ProcDirent) (list : List NetnsEntry) :
    Prop where
  distinct : (list.map (·.kernelId)).Nodup
  split : ∃ found, list = named ++ found ∧ ∀ e ∈ found, ∃ n d, IsFirst pre n d ∧ EntryOf n d e
  covers : ∀ d ∈ pre, ∀ n, d.Reads n → ∃ e ∈ list, e.kernelId = n.toNat

/-- What a process with a smaller number does to the entry of its name space. -/
def takeOver (d : ProcDirent) (dup : NetnsEntry) : NetnsEntry :=
  if dup.pid ≠ 0 ∧ pidOf d.name < dup.pid then
    { dup with pid := pidOf d.name, name := some (netnsProcEntryName d.name d.comm d.strdup) }
  else dup

section
variable {named list : List NetnsEntry} {pre : List ProcDirent} {d : ProcDirent}

theorem takeOver_kernelId (e : NetnsEntry) : (takeOver d e).kernelId = e.kernelId := by
  unfold takeOver
  split_ifs <;> rfl

theorem ProcInv.skip (h : ProcInv named pre list) (hd : ∀ n, ¬ d.Reads n) :
    ProcInv named (pre ++ [d]) list := by
  refine ⟨h.distinct, ?_, fun d' hd' n hn => ?_⟩
  · obtain ⟨found, hlist, hfound⟩ := h.split
    refine ⟨found, hlist, fun e he => ?_⟩
    obtain ⟨n, d', hfirst, hentry⟩ := hfound e he
    refine ⟨n, d', ⟨List.mem_append_left _ hfirst.mem, hfirst.reads, fun d'' hd'' hn => ?_⟩, hentry⟩
    rcases List.mem_append.mp hd'' with hd'' | hd''
    · exact hfirst.le d'' hd'' hn
    · rw [List.mem_singleton.mp hd''] at hn
      exact absurd hn (hd n)
  · rcases List.mem_append.mp hd' with hd' | hd'
    · exact h.covers d' hd' n hn
    · rw [List.mem_singleton.mp hd'] at hn
      exact absurd hn (hd n)

theorem IsFirst.append_ne {n m : KernelNs} {d' : ProcDirent} (h : IsFirst pre m d')
    (hn : d.Reads n) (hne : n ≠ m) : IsFirst (pre ++ [d]) m d' := by
  refine ⟨List.mem_append_left _ h.mem, h.reads, fun d'' hd'' hm => ?_⟩
  rcases List.mem_append.mp hd'' with hd'' | hd''
  · exact h.le d'' hd'' hm
  · rw [List.mem_singleton.mp hd''] at hm
    exact absurd (Except.ok.inj (hn.2.2.symm.trans hm.2.2)) hne

theorem IsFirst.takeOver {n : KernelNs} {d' : ProcDirent} (h : IsFirst pre n d')
    (hn : d.Reads n) {e : NetnsEntry} (he : EntryOf n d' e) (hpos : 0 < pidOf d'.name) :
    ∃ d'', IsFirst (pre ++ [d]) n d'' ∧ EntryOf n d'' (takeOver d e) := by
  unfold Netns.takeOver
  by_cases hlt : pidOf d.name < e.pid
  · rw [if_pos ⟨by rw [he.pid]; exact hpos.ne', hlt⟩]
    refine ⟨d, ⟨by simp, hn, fun d'' hd'' hm => ?_⟩, ⟨he.kernelId, rfl, rfl⟩⟩
    rcases List.mem_append.mp hd'' with hd'' | hd''
    · exact (he.pid ▸ hlt).le.trans (h.le d'' hd'' hm)
    · rw [List.mem_singleton.mp hd'']
  · rw [if_neg fun hx => hlt hx.2]
    refine ⟨d', ⟨List.mem_append_left _ h.mem, h.reads, fun d'' hd'' hm => ?_⟩, he⟩
    rcases List.mem_append.mp hd'' with hd'' | hd''
    · exact h.le d'' hd'' hm
    · rw [List.mem_singleton.mp hd'', ← he.pid]
      exact not_lt.mp hlt

theorem ProcInv.isFirst_of_new (h : ProcInv named pre list) {n : KernelNs} (hn : d.Reads n)
    (hnew : ∀ e ∈ list, e.kernelId ≠ n.toNat) : IsFirst (pre ++ [d]) n d := by
  refine ⟨by simp, hn, fun d' hd' hm => ?_⟩
  rcases List.mem_append.mp hd' with hd' | hd'
  · obtain ⟨e, he, hid⟩ := h.covers d' hd' n hm
    exact absurd hid (hnew e he)
  · rw [List.mem_singleton.mp hd']

theorem ProcInv.append (h : ProcInv named pre list) {n : KernelNs} (hn : d.Reads n)
    (hnew : ∀ e ∈ list, e.kernelId ≠ n.toNat) {e : NetnsEntry} (he : EntryOf n d e) :
    ProcInv named (pre ++ [d]) (list ++ [e]) := by
  refine ⟨?_, ?_, fun d' hd' m hm => ?_⟩
  · rw [List.map_append, List.map_singleton, List.nodup_append]
    refine ⟨h.distinct, List.nodup_singleton _, fun k hk k' hk' => ?_⟩
    obtain ⟨e', he', rfl⟩ := List.mem_map.mp hk
    rw [List.mem_singleton.mp hk', he.kernelId]
    exact hnew e' he'
  · obtain ⟨found, hlist, hfound⟩ := h.split
    refine ⟨found ++ [e], by rw [hlist, List.append_assoc], fun e' he' => ?_⟩
    rcases List.mem_append.mp he' with he' | he'
    · obtain ⟨m, d', hfirst, hentry⟩ := hfound e' he'
      have hmem : e' ∈ list := by rw [hlist]; exact List.mem_append_right _ he'
      have hne : n ≠ m := by
        rintro rfl
        exact hnew e' hmem hentry.kernelId
      exact ⟨m, d', hfirst.append_ne hn hne, hentry⟩
    · rw [List.mem_singleton.mp he']
      exact ⟨n, d, h.isFirst_of_new hn hnew, he⟩
  · rcases List.mem_append.mp hd' with hd' | hd'
    · obtain ⟨e', he', hid⟩ := h.covers d' hd' m hm
      exact ⟨e', List.mem_append_left _ he', hid⟩
    · rw [List.mem_singleton.mp hd'] at hm
      obtain rfl : n = m := Except.ok.inj (hn.2.2.symm.trans hm.2.2)
      exact ⟨e, by simp, he.kernelId⟩

/-- A second process of a listed name space: only the entry of that name space may change, and
not when it has no process. -/
theorem ProcInv.dup (h : ProcInv named pre list) (hnamed : ∀ e ∈ named, e.pid = 0)
    (hpos : ∀ d' ∈ pre, ∀ n, d'.Reads n → 0 < pidOf d'.name) {n : KernelNs} (hn : d.Reads n)
    (hdup : ∃ e ∈ list, e.kernelId = n.toNat) :
    ProcInv named (pre ++ [d])
      (list.map fun e => if e.kernelId == (n.toNat : Int) then Netns.takeOver d e else e) := by
  have hid : ∀ e : NetnsEntry,
      (if e.kernelId == (n.toNat : Int) then Netns.takeOver d e else e).kernelId = e.kernelId := by
    intro e
    split_ifs
    · exact takeOver_kernelId e
    · rfl
  refine ⟨?_, ?_, fun d' hd' m hm => ?_⟩
  · rw [List.map_map]
    have hsame : (list.map fun e => (if e.kernelId == (n.toNat : Int) then Netns.takeOver d e
        else e).kernelId) = list.map (·.kernelId) := List.map_congr_left fun e _ => hid e
    exact hsame ▸ h.distinct
  · obtain ⟨found, hlist, hfound⟩ := h.split
    refine ⟨found.map fun e => if e.kernelId == (n.toNat : Int) then Netns.takeOver d e else e,
      ?_, fun e' he' => ?_⟩
    · rw [hlist, List.map_append]
      congr 1
      have hkeep : ∀ e ∈ named,
          (if e.kernelId == (n.toNat : Int) then Netns.takeOver d e else e) = e := by
        intro e he
        have hsame : Netns.takeOver d e = e := if_neg fun hx => hx.1 (hnamed e he)
        rw [hsame, ite_self]
      exact (List.map_congr_left hkeep).trans (List.map_id' named)
    · obtain ⟨e, he, rfl⟩ := List.mem_map.mp he'
      obtain ⟨m, d', hfirst, hentry⟩ := hfound e he
      by_cases hnm : n = m
      · subst hnm
        rw [if_pos (beq_iff_eq.mpr hentry.kernelId)]
        obtain ⟨d'', hfirst', hentry'⟩ :=
          hfirst.takeOver hn hentry (hpos d' hfirst.mem n hfirst.reads)
        exact ⟨n, d'', hfirst', hentry'⟩
      · have hne : ¬ (e.kernelId == (n.toNat : Int)) = true := by
          intro hk
          have hk := (eq_of_beq hk).symm.trans hentry.kernelId
          exact hnm (UInt32.toNat_inj.mp (by exact_mod_cast hk))
        rw [if_neg hne]
        exact ⟨m, d', hfirst.append_ne hn hnm, hentry⟩
  · have hlisted : ∃ e ∈ list, e.kernelId = m.toNat := by
      rcases List.mem_append.mp hd' with hd' | hd'
      · exact h.covers d' hd' m hm
      · rw [List.mem_singleton.mp hd'] at hm
        obtain rfl : n = m := Except.ok.inj (hn.2.2.symm.trans hm.2.2)
        exact hdup
    obtain ⟨e, he, hek⟩ := hlisted
    exact ⟨_, List.mem_map_of_mem he, (hid e).trans hek⟩

/-- One name of `/proc`. Only without memory for a new entry is reading given up. -/
theorem netnsGetProcEntry_procInv (h : ProcInv named pre list) (hnamed : ∀ e ∈ named, e.pid = 0)
    (hpos : ∀ d' ∈ pre, ∀ n, d'.Reads n → 0 < pidOf d'.name) (hdot : isDot d.name = false)
    (hdigit : startsWithDigit d.name = true) (hopened : ∀ n, d.Reads n → d.openNs = none) :
    match netnsGetProcEntry d list with
    | (.ok entry, list') => ProcInv named (pre ++ [d]) (list' ++ [entry])
    | (.error err, list') => err ≠ 0 ∧ (err < 0 → ProcInv named (pre ++ [d]) list') := by
  unfold netnsGetProcEntry
  cases hlink : d.link with
  | error e =>
    have hneg : netnsGetKernelId ((Except.error e : Except Errno KernelNs).map nsText) < 0 :=
      netnsGetKernelId_error e
    simp only [if_pos hneg]
    refine ⟨by decide, fun _ => h.skip ?_⟩
    intro n hn
    exact absurd (hlink.symm.trans hn.2.2) nofun
  | ok n =>
    have hn : d.Reads n := ⟨hdot, hdigit, hlink⟩
    have hid : netnsGetKernelId ((Except.ok n : Except Errno KernelNs).map nsText) = n.toNat :=
      netnsGetKernelId_nsText n
    have hnn : ¬ ((n.toNat : Int) < 0) := by omega
    rw [hid]
    simp only [if_neg hnn]
    cases hfind : list.findIdx? (·.kernelId == (n.toNat : Int)) with
    | some i =>
      obtain ⟨hi, hkey, -⟩ := List.findIdx?_eq_some_iff_getElem.mp hfind
      have hmap := Keyed.modify_findIdx h.distinct hfind (Netns.takeOver d)
      show _ ∧ (_ → ProcInv named (pre ++ [d]) (list.modify i (Netns.takeOver d)))
      rw [hmap]
      exact ⟨by decide, fun _ => h.dup hnamed hpos hn ⟨_, List.getElem_mem hi, eq_of_beq hkey⟩⟩
    | none =>
      have hnew : ∀ e ∈ list, e.kernelId ≠ n.toNat := by
        intro e he hk
        have hne := List.findIdx?_eq_none_iff.mp hfind e he
        rw [hk, beq_self_eq_true] at hne
        exact absurd hne nofun
      cases d.calloc with
      | false => exact ⟨by decide, fun hneg => absurd hneg (by decide)⟩
      | true =>
        rw [hopened n hn]
        exact h.append hn hnew ⟨rfl, rfl, rfl⟩

theorem netnsAddProcEntries_procInv (ds : List ProcDirent) {list' : List NetnsEntry}
    (h : ProcInv named pre list) (hnamed : ∀ e ∈ named, e.pid = 0) (hds : ProcListing (pre ++ ds))
    (hrun : netnsAddProcEntries ds list = (0, list')) : ProcInv named (pre ++ ds) list' := by
  induction ds generalizing pre list with
  | nil =>
    obtain rfl : list = list' := congrArg Prod.snd hrun
    rwa [List.append_nil]
  | cons d ds ih =>
    have hassoc : pre ++ d :: ds = pre ++ [d] ++ ds := by simp
    have hds' : ProcListing (pre ++ [d] ++ ds) := hassoc ▸ hds
    rw [hassoc]
    rw [netnsAddProcEntries] at hrun
    by_cases hskip : (isDot d.name || !startsWithDigit d.name) = true
    · rw [if_pos hskip] at hrun
      refine ih (h.skip fun n hn => ?_) hds' hrun
      rw [hn.1, hn.2.1] at hskip
      exact absurd hskip (by decide)
    · rw [if_neg hskip] at hrun
      have hname : isDot d.name = false ∧ startsWithDigit d.name = true := by simpa using hskip
      have hpos : ∀ d' ∈ pre, ∀ n, d'.Reads n → 0 < pidOf d'.name :=
        fun d' hd' n hn => hds.pidOf_pos (List.mem_append_left _ hd') hn
      have hstep := netnsGetProcEntry_procInv h hnamed hpos hname.1 hname.2
        fun n hn => hds.opened d (by simp) n hn
      rcases hget : netnsGetProcEntry d list with ⟨err | entry, list₁⟩
      · rw [hget] at hstep hrun
        dsimp only at hstep hrun
        by_cases hneg : err < 0
        · rw [if_pos hneg] at hrun
          exact ih (hstep.2 hneg) hds' hrun
        · rw [if_neg hneg] at hrun
          exact absurd (congrArg Prod.fst hrun) hstep.1
      · rw [hget] at hstep hrun
        exact ih hstep hds' hrun

end

/-! ## The list as built -/

theorem netnsProcEntryName_prefix {pid : Nat} (h : pid < 2 ^ 31) (comm : Option (List UInt8)) :
    (cstr "PID " ++ decimal pid).IsPrefix (netnsProcEntryName (decimal pid) comm true) := by
  have hlen : (cstr "PID " ++ decimal pid).length ≤ PATH_MAX - 1 := by
    have hdigits : (decimal pid).length ≤ 10 :=
      length_decimal_le (by decide) (h.trans (by decide))
    rw [List.length_append]
    have hpid : (cstr "PID ").length = 4 := rfl
    unfold PATH_MAX
    omega
  have hfits : ∀ rest, (cstr "PID " ++ decimal pid).IsPrefix
      (fits PATH_MAX (cstr "PID " ++ decimal pid ++ rest)) := by
    intro rest
    exact List.prefix_take_iff.mpr ⟨List.prefix_append _ rest, hlen⟩
  unfold netnsProcEntryName
  cases comm with
  | none => exact List.prefix_take_iff.mpr ⟨List.prefix_rfl, hlen⟩
  | some content =>
    have hrest := hfits (cstr " (" ++ commText (decimal pid) content ++ cstr ")")
    simpa only [if_true, List.append_assoc] using hrest

def ScanEnv.processes (env : ScanEnv) : List ProcDirent := env.procDir.getD []

/-- The name of a process entry: it starts with the number of the process, unless there was no
memory for it. -/
def NamedAfter (d : ProcDirent) (e : NetnsEntry) : Prop :=
  ∃ name, e.name = some name ∧
    if d.strdup then (cstr "PID " ++ d.name).IsPrefix name else name = cstr "?"

/-- An entry that was found in `/proc`: it is that of the process of its name space with the
smallest number. -/
structure Discovered (ds : List ProcDirent) (e : NetnsEntry) (n : KernelNs) (d : ProcDirent) :
    Prop where
  first : IsFirst ds n d
  entry : EntryOf n d e
  named : NamedAfter d e

structure Canonical (env : ScanEnv) (named list : List NetnsEntry) : Prop where
  distinct : (list.map (·.kernelId)).Nodup
  rootFirst : RootFirst env.root list
  processes : ∀ d ∈ env.processes, ∀ n, d.Reads n → ∃ e ∈ list, e.kernelId = n.toNat
  usable : ∀ ds, env.varDir = some ds → ∀ d ∈ ds, ∀ n, d.enters = some n → d.Returns →
    ∃ e ∈ list, e.kernelId = n.toNat
  discovered : ∃ found, list = named ++ found ∧
    ∀ e ∈ found, ∃ n d, Discovered env.processes e n d

theorem netnsNamedList_spec {strerror : Errno → CStr} {env : ScanEnv} {s : ScanState}
    (h : netnsNamedList strerror env = .ok s) :
    Named s.list ∧ VarInv env.root (env.varDir.getD []) s := by
  rcases netnsNewList_supported env with ⟨-, hnew⟩ | ⟨-, err, hnew⟩
  · have hinit : Named [{ kernelId := env.root.toNat, fd := env.root }] :=
      ⟨List.nodup_singleton _, by simp⟩
    unfold netnsNamedList netnsAddVarList at h
    rw [hnew] at h
    cases hdir : env.varDir with
    | none =>
      simp only [hdir, ne_eq, not_true_eq_false, if_false] at h
      obtain rfl := Except.ok.inj h
      exact ⟨hinit, varInv_init env.root⟩
    | some ds =>
      simp only [hdir] at h
      have hnamed := netnsAddVarEntries_named strerror env.root ds (s := ⟨env.root, _⟩) hinit
      rcases netnsAddVarEntries_spec strerror ds (varInv_init env.root) with
        ⟨s', hrun, hinv, -⟩ | ⟨err, s', herr, hrun, -⟩
      · rw [hrun] at h hnamed
        obtain rfl := Except.ok.inj h
        exact ⟨hnamed, hinv⟩
      · rw [hrun] at h
        simp only [if_pos herr] at h
        exact absurd h nofun
  · unfold netnsNamedList at h
    rw [hnew] at h
    exact absurd h nofun

theorem netnsBuildList_spec {strerror : Errno → CStr} {env : ScanEnv} {s : ScanState}
    (h : netnsBuildList strerror env = .ok s) :
    ∃ s₀, netnsNamedList strerror env = .ok s₀ ∧
      netnsAddProcEntries env.processes s₀.list = (0, s.list) := by
  unfold netnsBuildList at h
  cases hnamed : netnsNamedList strerror env with
  | error err =>
    rw [hnamed] at h
    exact absurd h nofun
  | ok s₀ =>
    refine ⟨s₀, rfl, ?_⟩
    rw [hnamed] at h
    unfold netnsAddProcList at h
    unfold ScanEnv.processes
    cases hdir : env.procDir with
    | none =>
      simp only [hdir, ne_eq, not_true_eq_false, if_false] at h
      obtain rfl := Except.ok.inj h
      rfl
    | some ds =>
      simp only [hdir] at h
      by_cases herr : (netnsAddProcEntries ds s₀.list).1 = 0
      · simp only [herr, ne_eq, not_true_eq_false, if_false] at h
        obtain rfl := Except.ok.inj h
        exact Prod.ext herr rfl
      · simp only [ne_eq, if_pos herr] at h
        exact absurd h nofun

theorem procInv_init {list : List NetnsEntry} (h : Named list) : ProcInv list [] list :=
  ⟨h.distinct, ⟨[], by simp⟩, by simp⟩

theorem EntryOf.namedAfter {n : KernelNs} {d : ProcDirent} {e : NetnsEntry} (h : EntryOf n d e)
    {pid : Nat} (hpid : pid < 2 ^ 31) (hname : d.name = decimal pid) : NamedAfter d e := by
  refine ⟨_, h.name, ?_⟩
  cases d.strdup with
  | true =>
    rw [hname]
    exact netnsProcEntryName_prefix hpid d.comm
  | false => rfl

theorem ProcInv.canonical {env : ScanEnv} {s₀ s : ScanState} (hds : ProcListing env.processes)
    (hnamed : VarInv env.root (env.varDir.getD []) s₀)
    (hrun : netnsAddProcEntries env.processes s₀.list = (0, s.list))
    (h : ProcInv s₀.list env.processes s.list) : Canonical env s₀.list s.list where
  distinct := h.distinct
  rootFirst := by
    have hfirst := netnsAddProcEntries_rootFirst env.processes hnamed.rootFirst
    rwa [hrun] at hfirst
  processes := h.covers
  usable ds hdir d hd n hn hback := by
    have hlisted : Listed env.root (env.varDir.getD []) n := by
      rw [hdir]
      exact .inr ⟨d, hd, hn, hback⟩
    obtain ⟨e, he, hid⟩ := (hnamed.kernelIds n).mpr hlisted
    obtain ⟨found, hlist, -⟩ := h.split
    exact ⟨e, hlist ▸ List.mem_append_left _ he, hid⟩
  discovered := by
    obtain ⟨found, hlist, hfound⟩ := h.split
    refine ⟨found, hlist, fun e he => ?_⟩
    obtain ⟨n, d, hfirst, hentry⟩ := hfound e he
    obtain ⟨pid, -, hpid, hname⟩ := hds.pid d hfirst.mem hfirst.reads.2.1
    exact ⟨n, d, hfirst, hentry, hentry.namedAfter hpid hname⟩

/-- What is compared of the entries that were found in `/proc`. -/
def key (e : NetnsEntry) : Int × Int × Option CStr := (e.kernelId, e.pid, e.name)

theorem EntryOf.key_eq {n : KernelNs} {d : ProcDirent} {e e' : NetnsEntry} (h : EntryOf n d e)
    (h' : EntryOf n d e') : key e = key e' := by
  unfold key
  rw [h.kernelId, h.pid, h.name, h'.kernelId, h'.pid, h'.name]

theorem IsFirst.perm {ds ds' : List ProcDirent} (hperm : ds.Perm ds') {n : KernelNs}
    {d : ProcDirent} (h : IsFirst ds n d) : IsFirst ds' n d :=
  ⟨hperm.mem_iff.mp h.mem, h.reads, fun d' hd' hn => h.le d' (hperm.mem_iff.mpr hd') hn⟩

theorem ProcListing.perm {ds ds' : List ProcDirent} (hperm : ds.Perm ds') (h : ProcListing ds) :
    ProcListing ds' where
  pid d hd := h.pid d (hperm.mem_iff.mpr hd)
  nodup := (hperm.map (·.name)).nodup_iff.mp h.nodup
  opened d hd := h.opened d (hperm.mem_iff.mpr hd)

/-- What one order of the names finds, every other order does. -/
theorem ProcInv.key_mem {named list list' : List NetnsEntry} {ds ds' : List ProcDirent}
    (hperm : ds.Perm ds') (hds : ProcListing ds) (h : ProcInv named ds list)
    (h' : ProcInv named ds' list') {k : Int × Int × Option CStr}
    (hk : k ∈ (list.drop named.length).map key) : k ∈ (list'.drop named.length).map key := by
  obtain ⟨found, hlist, hfound⟩ := h.split
  obtain ⟨found', hlist', hfound'⟩ := h'.split
  rw [hlist, List.drop_left] at hk
  rw [hlist', List.drop_left]
  obtain ⟨e, he, rfl⟩ := List.mem_map.mp hk
  obtain ⟨n, d, hfirst, hentry⟩ := hfound e he
  have hfirst' := hfirst.perm hperm
  obtain ⟨e', he', hid⟩ := h'.covers d hfirst'.mem n hfirst'.reads
  rw [hlist'] at he'
  rcases List.mem_append.mp he' with he' | he'
  · -- the entries of before have none of the name spaces found
    have hdistinct := h.distinct
    rw [hlist, List.map_append, List.nodup_append] at hdistinct
    have hne := hdistinct.2.2 _ (List.mem_map_of_mem he') _ (List.mem_map_of_mem he)
    exact absurd (hid.trans hentry.kernelId.symm) hne
  · obtain ⟨m, d', hfirst'', hentry''⟩ := hfound' e' he'
    obtain rfl : n = m := by
      have hnm := hid.symm.trans hentry''.kernelId
      exact UInt32.toNat_inj.mp (by exact_mod_cast hnm)
    obtain rfl := (hds.perm hperm).isFirst_unique hfirst' hfirst''
    exact List.mem_map.mpr ⟨e', he', hentry''.key_eq hentry⟩

/-- The list is canonical, and what is found in `/proc` does not depend on the order in which
the processes are listed. -/
theorem netnsBuildList_canonical {strerror : Errno → CStr} {env : ScanEnv} {s : ScanState}
    (hds : ProcListing env.processes) (h : netnsBuildList strerror env = .ok s) :
    ∃ s₀, netnsNamedList strerror env = .ok s₀ ∧ (∀ e ∈ s₀.list, e.pid = 0) ∧
      Canonical env s₀.list s.list ∧
      ∀ ds' s', env.processes.Perm ds' →
        netnsBuildList strerror { env with procDir := some ds' } = .ok s' →
        ∀ k, k ∈ (s.list.drop s₀.list.length).map key ↔
          k ∈ (s'.list.drop s₀.list.length).map key := by
  obtain ⟨s₀, h₀, hrun⟩ := netnsBuildList_spec h
  obtain ⟨hnamed, hvar⟩ := netnsNamedList_spec h₀
  have hinv := netnsAddProcEntries_procInv env.processes (procInv_init hnamed) hnamed.noPid hds hrun
  refine ⟨s₀, h₀, hnamed.noPid, hinv.canonical hds hvar hrun, fun ds' s' hperm h' k => ?_⟩
  obtain ⟨s₁, h₁, hrun'⟩ := netnsBuildList_spec h'
  obtain rfl : s₀ = s₁ := Except.ok.inj (h₀.symm.trans h₁)
  have hds' : ProcListing ds' := hds.perm hperm
  have hinv' := netnsAddProcEntries_procInv ds' (procInv_init hnamed) hnamed.noPid hds' hrun'
  exact ⟨hinv.key_mem hperm hds hinv', hinv'.key_mem hperm.symm hds' hinv⟩

def twoProcesses (strdup : Bool) : ScanEnv where
  root := 1
  varDir := some [{ name := cstr "a", openNs := .ok 2 }]
  procDir := some [{ name := cstr "1", link := .ok 1 },
    { name := cstr "7", link := .ok 3 }, { name := cstr "net", link := .error ENOENT },
    { name := cstr "4", link := .ok 3, strdup := strdup }, { name := cstr "5", link := .ok 2 }]

theorem twoProcesses_listing (strdup : Bool) : ProcListing (twoProcesses strdup).processes where
  pid := by
    have hall : ∀ d ∈ (twoProcesses strdup).processes, startsWithDigit d.name = true →
        ∃ pid ∈ [1, 4, 5, 7], d.name = decimal pid := by
      cases strdup <;> decide
    intro d hd hdigit
    obtain ⟨pid, hpid, hname⟩ := hall d hd hdigit
    have hbounds : ∀ pid ∈ [1, 4, 5, 7], 0 < pid ∧ pid < 2 ^ 31 := by decide
    exact ⟨pid, (hbounds pid hpid).1, (hbounds pid hpid).2, hname⟩
  nodup := by cases strdup <;> decide
  opened := by
    intro d hd n _
    have hall : ∀ d ∈ (twoProcesses strdup).processes, d.openNs = none := by
      cases strdup <;> decide
    exact hall d hd

theorem netnsBuildList_canonical_twoProcesses :
    ∃ s s₀ : ScanState, netnsBuildList (fun _ => []) (twoProcesses true) = .ok s ∧
      Canonical (twoProcesses true) s₀.list s.list := by
  obtain ⟨s, hs⟩ : ∃ s, netnsBuildList (fun _ => []) (twoProcesses true) = .ok s := ⟨_, rfl⟩
  obtain ⟨s₀, -, -, h, -⟩ := netnsBuildList_canonical (twoProcesses_listing true) hs
  exact ⟨s, s₀, hs, h⟩

/-- Without memory for the second name, the entry of process 4 does not have its number. -/
theorem netnsBuildList_no_name :
    ProcListing (twoProcesses false).processes ∧
      ∃ s, netnsBuildList (fun _ => []) (twoProcesses false) = .ok s ∧
        ∃ e ∈ s.list, e.kernelId = 3 ∧ e.pid = 4 ∧ e.name = some (cstr "?") ∧
          ¬ (decimal 4).IsInfix (cstr "?") :=
  ⟨twoProcesses_listing false, _, rfl, by decide⟩

end Plotnetcfg.Netns
