import Plotnetcfg.Core.Topology
import Mathlib.Data.List.Basic

/-! Finding the name spaces and scanning them (`netns.c`). The name space the process is
in is hidden state: `setns` moves it, and every scan of a list entry reads it. -/

namespace Plotnetcfg.Netns

def PATH_MAX : Nat := 4096
def NETNS_RUN_DIR : CStr := cstr "/var/run/netns"

/-- What `readlink` says of a name space link. -/
def nsText (n : KernelNs) : CStr := cstr "net:[" ++ decimal n.toNat ++ cstr "]"

def netnsGetKernelId (link : Except Errno CStr) : Int :=
  match link with
  | .error e => -(e : Int)
  | .ok dest =>
    if dest.take 5 ≠ cstr "net:[" then -(EINVAL : Int)
    else match beforeLast 93 dest with
      | none => -(EINVAL : Int)
      | some dest =>
        let s := dest.drop 5
        let (result, rest) := strtol s
        if s = [] ∨ rest ≠ [] then -(EINVAL : Int) else result

/-- The outcome of a system call that yields nothing but may fail. -/
abbrev SysResult := Option Errno

/-- A name in `/var/run/netns`, with the outcome of each call made for it. -/
structure VarDirent where
  name : CStr
  calloc : Bool := true
  /-- `open` of the path, and the name space the file refers to -/
  openNs : Except Errno KernelNs
  setns : SysResult := none
  selfLink : SysResult := none
  strdup : Bool := true
  rootOpen : SysResult := none
  rootSetns : SysResult := none

structure ProcDirent where
  name : CStr
  /-- `readlink` of the process's name space link -/
  link : Except Errno KernelNs
  calloc : Bool := true
  openNs : SysResult := none
  comm : Option (List UInt8) := none
  strdup : Bool := true

/-- The list under construction and the name space the process is in. -/
structure ScanState where
  cur : KernelNs
  list : List NetnsEntry

def ScanState.labelAdd (text : CStr) (s : ScanState) : ScanState :=
  { s with list := s.list.modifyHead (·.labelAdd text) }

def netnsCheckDuplicate (list : List NetnsEntry) (kernelId : Int) : Option NetnsEntry :=
  list.find? (·.kernelId == kernelId)

/-- `netns_switch_root`: -1 when the kernel has no name spaces. -/
def netnsSwitchRoot (root : KernelNs) (rootOpen rootSetns : SysResult) (s : ScanState) :
    Int × ScanState :=
  match rootOpen with
  | some e => (if e = ENOENT then -1 else e, s)
  | none =>
    match rootSetns with
    | some e => (if e = ENOENT then -1 else e, s)
    | none => (0, { s with cur := root })

section
variable (strerror : Errno → CStr) (root : KernelNs)

def netnsGetVarEntry (d : VarDirent) (s : ScanState) : Except Int NetnsEntry × ScanState :=
  let path := fits PATH_MAX (NETNS_RUN_DIR ++ cstr "/" ++ d.name)
  let wrong (e : Errno) := cstr "Wrong " ++ path ++ cstr ": " ++ strerror e
  if !d.calloc then (.error ENOMEM, s)
  else match d.openNs with
    | .error e => (.error (-1), s.labelAdd (wrong e))
    | .ok fd =>
      match d.setns with
      | some e => (.error (-1), s.labelAdd (wrong e))
      | none =>
        let s := { s with cur := fd }
        let kernelId := netnsGetKernelId (match d.selfLink with
          | some e => .error e
          | none => .ok (nsText s.cur))
        if kernelId < 0 then (.error (-kernelId), s)
        -- a second name for a listed name space: the process stays in it
        else if (netnsCheckDuplicate s.list kernelId).isSome then (.error (-1), s)
        else if !d.strdup then (.error ENOMEM, s)
        else
          let (err, s) := netnsSwitchRoot root d.rootOpen d.rootSetns s
          if err = 0 then (.ok { kernelId := kernelId, name := some d.name, fd := fd }, s)
          else (.error err, s)

def isDot (name : CStr) : Bool := name = cstr "." || name = cstr ".."

def netnsAddVarEntries : List VarDirent → ScanState → Int × ScanState
  | [], s => (0, s)
  | d :: ds, s =>
    if isDot d.name then netnsAddVarEntries ds s
    else match netnsGetVarEntry strerror root d s with
      | (.ok entry, s) => netnsAddVarEntries ds { s with list := s.list ++ [entry] }
      | (.error err, s) => if err < 0 then netnsAddVarEntries ds s else (err, s)

def netnsAddVarList (dir : Option (List VarDirent)) (s : ScanState) : Int × ScanState :=
  match dir with
  | none => (0, s)
  | some ds => netnsAddVarEntries strerror root ds s

end

/-- The buffer first holds the path; `read` overwrites its start, and only the last byte
read, when a newline, becomes a NUL. -/
def commText (spid : CStr) (content : List UInt8) : CStr :=
  let path := fits PATH_MAX (cstr "/proc/" ++ spid ++ cstr "/comm") ++ [0]
  let content := content.take PATH_MAX
  let content := if content.getLast? = some 10 then content.dropLast ++ [0] else content
  untilNul ((content ++ path.drop content.length).take (PATH_MAX - 1))

def netnsProcEntryName (spid : CStr) (comm : Option (List UInt8)) (strdup : Bool) : CStr :=
  let buf := match comm with
    | some content =>
      fits PATH_MAX (cstr "PID " ++ spid ++ cstr " (" ++ commText spid content ++ cstr ")")
    | none => fits PATH_MAX (cstr "PID " ++ spid)
  if strdup then buf else cstr "?"

/-- The conversion of `atol`'s result to `pid_t`. -/
def pidOf (spid : CStr) : Int := Int.bmod (strtol spid).1 (2 ^ 32)

/-- The name spaces of `/proc` are only read: the process stays where it is. -/
def netnsGetProcEntry (d : ProcDirent) (list : List NetnsEntry) :
    Except Int NetnsEntry × List NetnsEntry :=
  let kernelId := netnsGetKernelId (d.link.map nsText)
  if kernelId < 0 then (.error (-1), list)
  else
    let pid := pidOf d.name
    let name := netnsProcEntryName d.name d.comm d.strdup
    match list.findIdx? (·.kernelId == kernelId) with
    | some i =>
      (.error (-1), list.modify i fun dup =>
        if dup.pid ≠ 0 ∧ pid < dup.pid then { dup with pid := pid, name := some name } else dup)
    | none =>
      if !d.calloc then (.error ENOMEM, list)
      else match d.openNs, d.link with
        | none, .ok fd =>
          (.ok { kernelId := kernelId, pid := pid, fd := fd, name := some name }, list)
        | _, _ => (.error (-1), list)

def startsWithDigit (name : CStr) : Bool := (name.head?.map isDigit).getD false

def netnsAddProcEntries : List ProcDirent → List NetnsEntry → Int × List NetnsEntry
  | [], list => (0, list)
  | d :: ds, list =>
    if isDot d.name || !startsWithDigit d.name then netnsAddProcEntries ds list
    else match netnsGetProcEntry d list with
      | (.ok entry, list) => netnsAddProcEntries ds (list ++ [entry])
      | (.error err, list) => if err < 0 then netnsAddProcEntries ds list else (err, list)

def netnsAddProcList (dir : Option (List ProcDirent)) (s : ScanState) : Int × ScanState :=
  match dir with
  | none => (0, s)
  | some ds =>
    let (err, list) := netnsAddProcEntries ds s.list
    (err, { s with list := list })

/-- The outcomes of the calls `netns_fill_list` makes besides those for the directory
entries. The functions give the outcome for the n-th entry of the list. -/
structure ScanEnv where
  /-- the name space of process 1, where the process starts -/
  root : KernelNs
  calloc : Bool := true
  rootLink : SysResult := none
  rootOpen : SysResult := none
  varDir : Option (List VarDirent)
  procDir : Option (List ProcDirent)
  sysfsInit : SysResult := none
  setns : Nat → SysResult := fun _ => none
  sysfsMount : Nat → SysResult := fun _ => none
  ifList : Nat → SysResult := fun _ => none
  netnsHandlerScan : Nat → SysResult := fun _ => none

def netnsNewList (env : ScanEnv) (supported : Bool) : Except Int ScanState :=
  if !env.calloc then .error ENOMEM
  else if !supported then .ok ⟨env.root, [{}]⟩
  else
    let kernelId := netnsGetKernelId (match env.rootLink with
      | some e => .error e
      | none => .ok (nsText env.root))
    if kernelId < 0 then .error (-kernelId)
    else match env.rootOpen with
      | some e => .error e
      | none => .ok ⟨env.root, [{ kernelId := kernelId, fd := env.root }]⟩

/-- The calls that read the name space the process is in. -/
inductive ScanFn where
  | sysfsMount
  | ifList
  | netnsHandlerScan
deriving DecidableEq

structure ScanCall where
  fn : ScanFn
  entry : NetnsEntry
  cur : KernelNs

def scanEntries (env : ScanEnv) : Nat → List NetnsEntry → KernelNs → Int × List ScanCall
  | _, [], _ => (0, [])
  | n, entry :: list, cur =>
    match (if entry.name.isSome then env.setns n else none) with
    | some e => (e, [])
    | none =>
      -- only a named entry is switched to
      let cur := if entry.name.isSome then entry.fd else cur
      let mount : ScanCall := ⟨.sysfsMount, entry, cur⟩
      let ifs : ScanCall := ⟨.ifList, entry, cur⟩
      let handler : ScanCall := ⟨.netnsHandlerScan, entry, cur⟩
      match env.sysfsMount n with
      | some e => (e, [mount])
      | none =>
        match env.ifList n with
        | some e => (e, [mount, ifs])
        | none =>
          match env.netnsHandlerScan n with
          | some e => (e, [mount, ifs, handler])
          | none =>
            let (err, calls) := scanEntries env (n + 1) list cur
            (err, mount :: ifs :: handler :: calls)

/-- `netns_fill_list` up to the end of its first loop: the list before scanning, the error
code, and the calls that scan. -/
def netnsFillListScan (strerror : Errno → CStr) (env : ScanEnv) (supported : Bool) :
    Int × List ScanCall :=
  match netnsNewList env supported with
  | .error err => (err, [])
  | .ok s =>
    let (err, s) := if supported then netnsAddVarList strerror env.root env.varDir s else (0, s)
    if err ≠ 0 then (err, [])
    else
      let (err, s) := if supported then netnsAddProcList env.procDir s else (0, s)
      if err ≠ 0 then (err, [])
      else match env.sysfsInit with
        | some e => (e, [])
        | none => scanEntries env 0 s.list s.cur

/-! ## Kernel ids -/

theorem netnsGetKernelId_nsText (n : KernelNs) :
    netnsGetKernelId (.ok (nsText n)) = (n.toNat : Int) := by
  have hpre : (nsText n).take 5 = cstr "net:[" := rfl
  have hlast : beforeLast 93 (nsText n) = some (cstr "net:[" ++ decimal n.toNat) :=
    beforeLast_concat 93 _
  have hdrop : (cstr "net:[" ++ decimal n.toNat).drop 5 = decimal n.toNat := rfl
  have hmax : (n.toNat : Int) ≤ LONG_MAX := by
    have := n.toNat_lt
    unfold LONG_MAX
    omega
  simp [netnsGetKernelId, hpre, hlast, hdrop, strtol_decimal _ hmax, decimal_ne_nil]

theorem netnsGetKernelId_error (e : Errno) : netnsGetKernelId (.error e) < 0 := by
  simp [netnsGetKernelId]

/-! ## Where a directory entry leaves the process -/

/-- The name space `netns_get_var_entry` switches to for the name, if it gets that far. -/
def VarDirent.enters (d : VarDirent) : Option KernelNs :=
  if isDot d.name || !d.calloc || d.setns.isSome then none
  else match d.openNs with
    | .error _ => none
    | .ok fd => some fd

def VarDirent.Returns (d : VarDirent) : Prop := d.rootOpen = none ∧ d.rootSetns = none

/-- `netns_switch_root` reports an error other than missing name space support. -/
def VarDirent.RootFails (d : VarDirent) : Prop :=
  (∃ e, d.rootOpen = some e ∧ e ≠ ENOENT) ∨
    (d.rootOpen = none ∧ ∃ e, d.rootSetns = some e ∧ e ≠ ENOENT)

def Listed (root : KernelNs) (pre : List VarDirent) (n : KernelNs) : Prop :=
  n = root ∨ ∃ e ∈ pre, e.enters = some n ∧ e.Returns

def Aborts (root : KernelNs) (pre : List VarDirent) (d : VarDirent) : Prop :=
  isDot d.name = false ∧ (d.calloc = false ∨ ∃ n, d.enters = some n ∧
    (d.selfLink ≠ none ∨ ¬ Listed root pre n ∧ (d.strdup = false ∨ d.RootFails)))

/-- The last name that was switched to belongs to the root name space, or is the first name
of its name space and was switched back from. -/
def LastReturns (root : KernelNs) (ds : List VarDirent) : Prop :=
  ∀ pre d post n, ds = pre ++ d :: post → d.enters = some n → (∀ e ∈ post, e.enters = none) →
    n = root ∨ ¬ Listed root pre n ∧ d.Returns

theorem listed_concat (root : KernelNs) (pre : List VarDirent) (d : VarDirent) (n : KernelNs) :
    Listed root (pre ++ [d]) n ↔ Listed root pre n ∨ d.enters = some n ∧ d.Returns := by
  simp only [Listed, List.mem_append, List.mem_singleton]
  constructor
  · rintro (h | ⟨e, he | rfl, h⟩)
    · exact .inl (.inl h)
    · exact .inl (.inr ⟨e, he, h⟩)
    · exact .inr h
  · rintro ((h | ⟨e, he, h⟩) | h)
    · exact .inl h
    · exact .inr ⟨e, .inl he, h⟩
    · exact .inr ⟨d, .inr rfl, h⟩

theorem lastReturns_nil (root : KernelNs) : LastReturns root [] := by
  intro pre d post n h
  simp at h

theorem lastReturns_concat_none {root : KernelNs} {pre : List VarDirent} {d : VarDirent}
    (hd : d.enters = none) : LastReturns root (pre ++ [d]) ↔ LastReturns root pre := by
  constructor
  · intro h p x q n hsplit hx hq
    refine h p x (q ++ [d]) n (by simp [hsplit]) hx fun e he => ?_
    rcases List.mem_append.mp he with he | he
    · exact hq e he
    · simpa [List.mem_singleton.mp he] using hd
  · intro h p x q n hsplit hx hq
    rcases List.eq_nil_or_concat' q with rfl | ⟨q', y, rfl⟩
    · obtain ⟨-, heq⟩ := List.append_inj' hsplit rfl
      obtain rfl : d = x := by simpa using heq
      simp [hd] at hx
    · have hsplit' : pre ++ [d] = (p ++ x :: q') ++ [y] := by simpa using hsplit
      obtain ⟨heq, -⟩ := List.append_inj' hsplit' rfl
      exact h p x q' n heq hx fun e he => hq e (by simp [he])

theorem lastReturns_concat_some {root : KernelNs} {pre : List VarDirent} {d : VarDirent}
    {n : KernelNs} (hd : d.enters = some n) :
    LastReturns root (pre ++ [d]) ↔ n = root ∨ ¬ Listed root pre n ∧ d.Returns := by
  constructor
  · intro h
    exact h pre d [] n rfl hd (by simp)
  · intro h p x q m hsplit hx hq
    rcases List.eq_nil_or_concat' q with rfl | ⟨q', y, rfl⟩
    · obtain ⟨rfl, heq⟩ := List.append_inj' hsplit rfl
      obtain rfl : d = x := by simpa using heq
      obtain rfl : n = m := by simpa [hd] using hx
      exact h
    · have hsplit' : pre ++ [d] = (p ++ x :: q') ++ [y] := by simpa using hsplit
      obtain ⟨-, heq⟩ := List.append_inj' hsplit' rfl
      obtain rfl : d = y := by simpa using heq
      have := hq d (by simp)
      simp [hd] at this

/-- The root name space is first, without a name; the other entries are named and hold a file
of their name space. -/
def RootFirst (root : KernelNs) : List NetnsEntry → Prop
  | [] => False
  | r :: rest => (r.name = none ∧ r.pid = 0 ∧ r.kernelId = root.toNat) ∧
      ∀ e ∈ rest, e.name.isSome ∧ e.kernelId = e.fd.toNat

theorem RootFirst.labelAdd {root : KernelNs} {s : ScanState} (h : RootFirst root s.list)
    (text : CStr) : RootFirst root (s.labelAdd text).list := by
  obtain ⟨cur, list⟩ := s
  cases list with
  | nil => exact h
  | cons r rest => exact h

theorem RootFirst.append {root : KernelNs} {list : List NetnsEntry} (h : RootFirst root list)
    {entry : NetnsEntry} (hname : entry.name.isSome) (hid : entry.kernelId = entry.fd.toNat) :
    RootFirst root (list ++ [entry]) := by
  cases list with
  | nil => exact h.elim
  | cons r rest =>
    refine ⟨h.1, fun e he => ?_⟩
    rcases List.mem_append.mp he with he | he
    · exact h.2 e he
    · rw [List.mem_singleton.mp he]
      exact ⟨hname, hid⟩

theorem RootFirst.rename {root : KernelNs} {list : List NetnsEntry} (h : RootFirst root list)
    (i : Nat) (pid : Int) (name : CStr) :
    RootFirst root (list.modify i fun dup =>
      if dup.pid ≠ 0 ∧ pid < dup.pid then { dup with pid := pid, name := some name } else dup) := by
  cases list with
  | nil => exact h.elim
  | cons r rest =>
    cases i with
    | zero =>
      have hr : ¬ (r.pid ≠ 0 ∧ pid < r.pid) := fun hp => hp.1 h.1.2.1
      simpa only [List.modify_zero_cons, if_neg hr] using h
    | succ i =>
      rw [List.modify_succ_cons]
      refine ⟨h.1, fun e he => ?_⟩
      obtain ⟨j, hj, rfl⟩ := List.getElem_of_mem he
      rw [List.getElem_modify]
      have hrest := h.2 _ (List.getElem_mem (by simpa using hj))
      split
      · split
        · exact ⟨rfl, hrest.2⟩
        · exact hrest
      · exact hrest

structure VarInv (root : KernelNs) (pre : List VarDirent) (s : ScanState) : Prop where
  rootFirst : RootFirst root s.list
  kernelIds : ∀ n : KernelNs, (∃ e ∈ s.list, e.kernelId = n.toNat) ↔ Listed root pre n
  cur : s.cur = root ↔ LastReturns root pre

theorem labelAdd_kernelIds (text : CStr) (s : ScanState) (k : Int) :
    (∃ e ∈ (s.labelAdd text).list, e.kernelId = k) ↔ ∃ e ∈ s.list, e.kernelId = k := by
  obtain ⟨cur, list⟩ := s
  cases list with
  | nil => rfl
  | cons e list => simp [ScanState.labelAdd, NetnsEntry.labelAdd]

theorem netnsCheckDuplicate_isSome (list : List NetnsEntry) (k : Int) :
    (netnsCheckDuplicate list k).isSome = true ↔ ∃ e ∈ list, e.kernelId = k := by
  simp [netnsCheckDuplicate, List.find?_isSome]

theorem netnsSwitchRoot_cases (root : KernelNs) (d : VarDirent) (s : ScanState) :
    (d.Returns ∧ netnsSwitchRoot root d.rootOpen d.rootSetns s = (0, { s with cur := root })) ∨
    (¬ d.Returns ∧ ¬ d.RootFails ∧ netnsSwitchRoot root d.rootOpen d.rootSetns s = (-1, s)) ∨
    (d.RootFails ∧ ∃ e : Errno, netnsSwitchRoot root d.rootOpen d.rootSetns s = ((e : Int), s)) := by
  unfold netnsSwitchRoot VarDirent.Returns VarDirent.RootFails
  cases ho : d.rootOpen with
  | some e =>
    by_cases he : e = ENOENT
    · simp [he]
    · simp only [he, if_false]
      exact .inr (.inr ⟨.inl ⟨e, rfl, he⟩, e, rfl⟩)
  | none =>
    cases hs : d.rootSetns with
    | none => simp
    | some e =>
      by_cases he : e = ENOENT
      · simp [he]
      · simp only [he, if_false]
        exact .inr (.inr ⟨.inr ⟨trivial, e, rfl, he⟩, e, rfl⟩)

section
variable {root : KernelNs} {pre : List VarDirent} {d : VarDirent}
  {s : ScanState}

theorem VarInv.skip {s' : ScanState} (hs : VarInv root pre s) (hd : d.enters = none)
    (hfirst : RootFirst root s'.list) (hcur : s'.cur = s.cur)
    (hids : ∀ k, (∃ e ∈ s'.list, e.kernelId = k) ↔ ∃ e ∈ s.list, e.kernelId = k) :
    VarInv root (pre ++ [d]) s' where
  rootFirst := hfirst
  kernelIds n := by
    rw [hids, hs.kernelIds, listed_concat]
    simp [hd]
  cur := by rw [hcur, hs.cur, lastReturns_concat_none hd]

theorem netnsGetVarEntry_spec (strerror : Errno → CStr) (hs : VarInv root pre s) (hdot : isDot d.name = false) :
    match netnsGetVarEntry strerror root d s with
    | (.ok entry, s') => VarInv root (pre ++ [d]) { s' with list := s'.list ++ [entry] } ∧
        ¬ Aborts root pre d
    | (.error err, s') => if err < 0 then VarInv root (pre ++ [d]) s' ∧ ¬ Aborts root pre d
        else err ≠ 0 ∧ Aborts root pre d := by
  unfold netnsGetVarEntry
  cases halloc : d.calloc with
  | false =>
    have hab : Aborts root pre d := ⟨hdot, .inl halloc⟩
    simpa [ENOMEM] using hab
  | true =>
    cases hopen : d.openNs with
    | error e =>
      have hd : d.enters = none := by simp [VarDirent.enters, hopen]
      simp only [Bool.not_true, Bool.false_eq_true, if_false, Int.reduceNeg, Int.reduceLT, if_true]
      refine ⟨hs.skip hd (hs.rootFirst.labelAdd _) rfl (labelAdd_kernelIds _ s), ?_⟩
      simp [Aborts, halloc, hd]
    | ok fd =>
      cases hset : d.setns with
      | some e =>
        have hd : d.enters = none := by simp [VarDirent.enters, hset]
        simp only [Bool.not_true, Bool.false_eq_true, if_false, Int.reduceNeg, Int.reduceLT, if_true]
        refine ⟨hs.skip hd (hs.rootFirst.labelAdd _) rfl (labelAdd_kernelIds _ s), ?_⟩
        simp [Aborts, halloc, hd]
      | none =>
        have hd : d.enters = some fd := by simp [VarDirent.enters, hopen, hset, hdot, halloc]
        have habort : Aborts root pre d ↔ d.selfLink ≠ none ∨
            ¬ Listed root pre fd ∧ (d.strdup = false ∨ d.RootFails) := by
          simp [Aborts, hdot, halloc, hd]
        cases hself : d.selfLink with
        | some e =>
          have hab := habort.mpr (.inl (by simp [hself]))
          simp [netnsGetKernelId, hab]
        | none =>
          have hnn : ¬ ((fd.toNat : Int) < 0) := by omega
          have hdup := netnsCheckDuplicate_isSome s.list fd.toNat
          rw [hs.kernelIds] at hdup
          simp only [Bool.not_true, Bool.false_eq_true, if_false, netnsGetKernelId_nsText, hnn]
          by_cases hl : Listed root pre fd
          · simp only [if_pos (hdup.mpr hl), Int.reduceNeg, Int.reduceLT, if_true]
            refine ⟨⟨hs.rootFirst, fun n => ?_, ?_⟩, ?_⟩
            · rw [hs.kernelIds, listed_concat, hd]
              constructor
              · exact .inl
              · rintro (h | ⟨h, -⟩)
                · exact h
                · cases h
                  exact hl
            · rw [lastReturns_concat_some hd]
              simp [hl]
            · simp [habort, hself, hl]
          · simp only [if_neg (mt hdup.mp hl)]
            cases hstr : d.strdup with
            | false =>
              have hab := habort.mpr (.inr ⟨hl, .inl hstr⟩)
              simpa [ENOMEM] using hab
            | true =>
              simp only [Bool.not_true, Bool.false_eq_true, if_false]
              rcases netnsSwitchRoot_cases root d { s with cur := fd } with
                ⟨hret, hrun⟩ | ⟨hret, hfail, hrun⟩ | ⟨hfail, e, hrun⟩
              · have hnf : ¬ d.RootFails := by
                  simp [VarDirent.RootFails, hret.1, hret.2]
                simp only [hrun, if_true]
                refine ⟨⟨hs.rootFirst.append rfl rfl, fun n => ?_, ?_⟩, ?_⟩
                · rw [listed_concat, hd, ← hs.kernelIds]
                  simp only [List.mem_append, List.mem_singleton, or_and_right, exists_or,
                    exists_eq_left, Option.some.injEq, hret, and_true, Nat.cast_inj,
                    UInt32.toNat_inj]
                · rw [lastReturns_concat_some hd]
                  simp [hl, hret]
                · simp [habort, hself, hl, hstr, hnf]
              · simp only [hrun, Int.reduceNeg, Int.reduceEq, if_false, Int.reduceLT, if_true]
                refine ⟨⟨hs.rootFirst, fun n => ?_, ?_⟩, ?_⟩
                · rw [hs.kernelIds, listed_concat]
                  simp [hret]
                · rw [lastReturns_concat_some hd]
                  simp [hret]
                · simp [habort, hself, hl, hstr, hfail]
              · have hab := habort.mpr (.inr ⟨hl, .inr hfail⟩)
                have hpos : ¬ ((e : Int) < 0) := by have := e.pos; omega
                simp [hrun, hab]

theorem netnsAddVarEntries_spec (strerror : Errno → CStr) (ds : List VarDirent) (hs : VarInv root pre s) :
    (∃ s', netnsAddVarEntries strerror root ds s = (0, s') ∧ VarInv root (pre ++ ds) s' ∧
      ∀ p d q, ds = p ++ d :: q → ¬ Aborts root (pre ++ p) d) ∨
    (∃ err s', err ≠ 0 ∧ netnsAddVarEntries strerror root ds s = (err, s') ∧
      ∃ p d q, ds = p ++ d :: q ∧ Aborts root (pre ++ p) d) := by
  induction ds generalizing pre s with
  | nil => exact .inl ⟨s, rfl, by simpa using hs, by simp⟩
  | cons d ds ih =>
    -- a name that is passed over leaves the loop to the names behind it
    have next {s1 : ScanState} (hab : ¬ Aborts root pre d) (h1 : VarInv root (pre ++ [d]) s1)
        (hrun : netnsAddVarEntries strerror root (d :: ds) s =
          netnsAddVarEntries strerror root ds s1) :
        (∃ s', netnsAddVarEntries strerror root (d :: ds) s = (0, s') ∧
          VarInv root (pre ++ d :: ds) s' ∧
          ∀ p x q, d :: ds = p ++ x :: q → ¬ Aborts root (pre ++ p) x) ∨
        (∃ err s', err ≠ 0 ∧ netnsAddVarEntries strerror root (d :: ds) s = (err, s') ∧
          ∃ p x q, d :: ds = p ++ x :: q ∧ Aborts root (pre ++ p) x) := by
      rw [hrun]
      rcases ih h1 with ⟨s', hr, hinv, hno⟩ | ⟨err, s', herr, hr, p, x, q, rfl, hx⟩
      · refine .inl ⟨s', hr, by simpa using hinv, fun p x q hsplit => ?_⟩
        cases p with
        | nil =>
          obtain ⟨rfl, -⟩ : d = x ∧ ds = q := by simpa using hsplit
          simpa using hab
        | cons y p =>
          obtain ⟨rfl, htail⟩ : d = y ∧ ds = p ++ x :: q := by simpa using hsplit
          simpa using hno p x q htail
      · exact .inr ⟨err, s', herr, hr, d :: p, x, q, rfl, by simpa using hx⟩
    cases hdot : isDot d.name with
    | true =>
      have hd : d.enters = none := by simp [VarDirent.enters, hdot]
      refine next (fun h => by simp [Aborts, hdot] at h)
        (hs.skip hd hs.rootFirst rfl fun _ => Iff.rfl) ?_
      simp only [netnsAddVarEntries, hdot, if_true]
    | false =>
      have hspec := netnsGetVarEntry_spec strerror hs hdot
      cases hget : netnsGetVarEntry strerror root d s with
      | mk res s1 =>
        rw [hget] at hspec
        cases res with
        | ok entry =>
          refine next hspec.2 hspec.1 ?_
          simp only [netnsAddVarEntries, hdot, Bool.false_eq_true, if_false, hget]
        | error err =>
          by_cases hneg : err < 0
          · simp only [hneg, if_true] at hspec
            refine next hspec.2 hspec.1 ?_
            simp only [netnsAddVarEntries, hdot, Bool.false_eq_true, if_false, hget, hneg, if_true]
          · simp only [hneg, if_false] at hspec
            refine .inr ⟨err, s1, hspec.1, ?_, [], d, ds, rfl, by simpa using hspec.2⟩
            simp only [netnsAddVarEntries, hdot, Bool.false_eq_true, if_false, hget, hneg]

end

/-! ## Where an entry is scanned -/

theorem netnsGetProcEntry_spec {root : KernelNs} {list : List NetnsEntry} (d : ProcDirent)
    (h : RootFirst root list) :
    RootFirst root (netnsGetProcEntry d list).2 ∧
      ∀ entry, (netnsGetProcEntry d list).1 = .ok entry →
        entry.name.isSome ∧ entry.kernelId = entry.fd.toNat := by
  by_cases hneg : netnsGetKernelId (d.link.map nsText) < 0
  · simp only [netnsGetProcEntry, hneg, if_true]
    exact ⟨h, nofun⟩
  · cases hfind : list.findIdx? (·.kernelId == netnsGetKernelId (d.link.map nsText)) with
    | some i =>
      simp only [netnsGetProcEntry, hneg, if_false, hfind]
      exact ⟨h.rename .., nofun⟩
    | none =>
      simp only [netnsGetProcEntry, hneg, if_false, hfind]
      cases d.calloc with
      | false => exact ⟨h, nofun⟩
      | true =>
        simp only [Bool.not_true, Bool.false_eq_true, if_false]
        split
        · next fd _ hlink =>
          refine ⟨h, fun entry he => ?_⟩
          obtain rfl := Except.ok.inj he
          exact ⟨rfl, by simp only [hlink, Except.map, netnsGetKernelId_nsText]⟩
        · exact ⟨h, nofun⟩

theorem netnsAddProcEntries_rootFirst {root : KernelNs} (ds : List ProcDirent)
    {list : List NetnsEntry} (h : RootFirst root list) :
    RootFirst root (netnsAddProcEntries ds list).2 := by
  induction ds generalizing list with
  | nil => exact h
  | cons d ds ih =>
    have hspec := netnsGetProcEntry_spec d h
    rw [netnsAddProcEntries]
    split
    · exact ih h
    · split
      · next entry list' hget =>
        rw [hget] at hspec
        obtain ⟨hname, hid⟩ := hspec.2 entry rfl
        exact ih (hspec.1.append hname hid)
      · next err list' hget =>
        rw [hget] at hspec
        split
        · exact ih hspec.1
        · exact hspec.1

theorem netnsAddProcList_spec {root : KernelNs} (dir : Option (List ProcDirent)) {s : ScanState}
    (h : RootFirst root s.list) :
    RootFirst root (netnsAddProcList dir s).2.list ∧ (netnsAddProcList dir s).2.cur = s.cur := by
  cases dir with
  | none => exact ⟨h, rfl⟩
  | some ds => exact ⟨netnsAddProcEntries_rootFirst ds h, rfl⟩

/-- The call is made in the name space of its entry. Without name space support there is one
name space only. -/
def ScanCall.AtHome (root : KernelNs) (supported : Bool) (c : ScanCall) : Prop :=
  if supported then c.entry.kernelId = c.cur.toNat else c.cur = root

instance (root : KernelNs) (supported : Bool) (c : ScanCall) :
    Decidable (c.AtHome root supported) := by
  unfold ScanCall.AtHome
  infer_instance

theorem scanEntries_forall {env : ScanEnv} {n : Nat} {entry : NetnsEntry}
    {list : List NetnsEntry} {cur : KernelNs} {P : ScanCall → Prop}
    (hentry : ∀ fn, P ⟨fn, entry, if entry.name.isSome then entry.fd else cur⟩)
    (hrest : ∀ cur', ∀ c ∈ (scanEntries env (n + 1) list cur').2, P c) :
    ∀ c ∈ (scanEntries env n (entry :: list) cur).2, P c := by
  rw [scanEntries]
  split
  · simp
  · dsimp only
    split
    · simpa using hentry _
    · split
      · simpa using ⟨hentry .sysfsMount, hentry .ifList⟩
      · split
        · simpa using ⟨hentry .sysfsMount, hentry .ifList, hentry .netnsHandlerScan⟩
        · intro c hc
          simp only [List.mem_cons] at hc
          rcases hc with rfl | rfl | rfl | hc
          · exact hentry _
          · exact hentry _
          · exact hentry _
          · exact hrest _ c hc

theorem scanEntries_named {env : ScanEnv} {root : KernelNs} (list : List NetnsEntry)
    (h : ∀ e ∈ list, e.name.isSome ∧ e.kernelId = e.fd.toNat) (n : Nat) (cur : KernelNs) :
    ∀ c ∈ (scanEntries env n list cur).2, c.AtHome root true := by
  induction list generalizing n cur with
  | nil => simp [scanEntries]
  | cons entry list ih =>
    obtain ⟨hname, hid⟩ := h entry (by simp)
    refine scanEntries_forall (fun fn => ?_) (fun cur' => ih (fun e he => h e (by simp [he])) _ _)
    simp only [ScanCall.AtHome, hname, if_true, hid]

/-- Scanning starts with the root entry, which nothing switches to. -/
theorem scanEntries_atHome {env : ScanEnv} {root : KernelNs} {list : List NetnsEntry}
    (h : RootFirst root list) : ∀ c ∈ (scanEntries env 0 list root).2, c.AtHome root true := by
  cases list with
  | nil => exact h.elim
  | cons r rest =>
    obtain ⟨⟨hname, -, hid⟩, hrest⟩ := h
    refine scanEntries_forall (fun fn => ?_) (fun cur' => scanEntries_named rest hrest 1 cur')
    simp [ScanCall.AtHome, hname, hid]

/-- Scanning happens in the right name space: every call is made in that of its entry, and
reading `/var/run/netns` ends in the root one. -/
def ScansAtHome (strerror : Errno → CStr) (env : ScanEnv) (supported : Bool) : Prop :=
  (∀ c ∈ (netnsFillListScan strerror env supported).2, c.AtHome env.root supported) ∧
  (supported = true → ∀ s s', netnsNewList env supported = .ok s →
    netnsAddVarList strerror env.root env.varDir s = (0, s') → s'.cur = env.root)

def ScanEnv.RootReadable (env : ScanEnv) : Prop :=
  env.calloc = true ∧ env.rootLink = none ∧ env.rootOpen = none

/-- Either a name makes the reading of `/var/run/netns` give up, or the last name switched to
is switched back from. -/
def ScanEnv.SwitchesBack (env : ScanEnv) : Prop :=
  ∀ ds, env.varDir = some ds →
    (∃ pre d post, ds = pre ++ d :: post ∧ Aborts env.root pre d) ∨ LastReturns env.root ds

theorem netnsNewList_supported (env : ScanEnv) :
    (env.RootReadable ∧ netnsNewList env true =
      .ok ⟨env.root, [{ kernelId := env.root.toNat, fd := env.root }]⟩) ∨
    (¬ env.RootReadable ∧ ∃ err, netnsNewList env true = .error err) := by
  have hpos : ¬ ((env.root.toNat : Int) < 0) := by omega
  unfold netnsNewList ScanEnv.RootReadable
  cases env.calloc with
  | false => simp
  | true =>
    cases env.rootLink with
    | some e => simp [netnsGetKernelId]
    | none => cases env.rootOpen <;> simp [netnsGetKernelId_nsText, hpos]

theorem varInv_init (root : KernelNs) :
    VarInv root [] ⟨root, [{ kernelId := root.toNat, fd := root }]⟩ where
  rootFirst := ⟨⟨rfl, rfl, rfl⟩, by simp⟩
  kernelIds n := by simp [Listed, UInt32.toNat_inj, eq_comm]
  cur := by simp [lastReturns_nil]

/-- The reading of `/var/run/netns` gives up, or it ends in the root name space exactly when
the environment switches back. -/
theorem netnsAddVarList_spec (strerror : Errno → CStr) (env : ScanEnv) :
    let s : ScanState := ⟨env.root, [{ kernelId := env.root.toNat, fd := env.root }]⟩
    (∃ s', netnsAddVarList strerror env.root env.varDir s = (0, s') ∧ RootFirst env.root s'.list ∧
      (s'.cur = env.root ↔ env.SwitchesBack)) ∨
    (∃ err s', err ≠ 0 ∧ netnsAddVarList strerror env.root env.varDir s = (err, s') ∧
      env.SwitchesBack) := by
  intro s
  unfold ScanEnv.SwitchesBack netnsAddVarList
  cases hdir : env.varDir with
  | none => exact .inl ⟨s, rfl, (varInv_init env.root).rootFirst, by simp [s]⟩
  | some ds =>
    rcases netnsAddVarEntries_spec strerror ds (varInv_init env.root) with
      ⟨s', hrun, hinv, hno⟩ | ⟨err, s', herr, hrun, habort⟩
    · refine .inl ⟨s', hrun, hinv.rootFirst, ?_⟩
      rw [hinv.cur]
      constructor
      · intro h ds' hds
        obtain rfl := Option.some.inj hds
        exact .inr h
      · intro h
        rcases h ds rfl with ⟨p, d, q, hsplit, hab⟩ | h
        · exact absurd hab (hno p d q hsplit)
        · exact h
    · refine .inr ⟨err, s', herr, hrun, fun ds' hds => .inl ?_⟩
      obtain rfl := Option.some.inj hds
      exact habort

/-- Scanning is in the right name space exactly when the reading of `/var/run/netns` switches
back behind the last name it switched to. -/
theorem scansAtHome_iff (strerror : Errno → CStr) (env : ScanEnv) (supported : Bool) :
    ScansAtHome strerror env supported ↔
      (supported = true → env.RootReadable → env.SwitchesBack) := by
  cases supported with
  | false =>
    refine iff_of_true ⟨?_, nofun⟩ nofun
    unfold netnsFillListScan netnsNewList
    cases env.calloc with
    | false => simp
    | true =>
      simp only [Bool.not_true, Bool.not_false, Bool.false_eq_true, if_false, if_true, ne_eq,
        not_true_eq_false]
      cases env.sysfsInit with
      | some e => simp
      | none =>
        refine scanEntries_forall (fun fn => ?_) (fun cur => by simp [scanEntries])
        simp [ScanCall.AtHome]
  | true =>
    rcases netnsNewList_supported env with ⟨hread, hnew⟩ | ⟨hread, err, hnew⟩
    · rcases netnsAddVarList_spec strerror env with
        ⟨s', hvar, hfirst, hcur⟩ | ⟨err, s', herr, hvar, hback⟩
      · have hproc := netnsAddProcList_spec env.procDir hfirst
        simp only [hread, forall_const]
        rw [← hcur]
        constructor
        · intro h
          exact h.2 rfl _ _ hnew hvar
        · intro h
          refine ⟨?_, fun _ s t hs ht => ?_⟩
          · simp only [netnsFillListScan, hnew, hvar, if_true, ne_eq, not_true_eq_false, if_false]
            split
            · simp
            · split
              · simp
              · rw [hproc.2, h]
                exact scanEntries_atHome hproc.1
          · obtain rfl := Except.ok.inj (hnew.symm.trans hs)
            obtain rfl : s' = t := by simpa [hvar] using ht
            exact h
      · refine iff_of_true ⟨?_, fun _ s t hs ht => ?_⟩ fun _ _ => hback
        · simp [netnsFillListScan, hnew, hvar, herr]
        · obtain rfl := Except.ok.inj (hnew.symm.trans hs)
          exact absurd (by simpa [hvar] using congrArg Prod.fst ht) herr
    · refine iff_of_true ⟨?_, fun _ s t hs => ?_⟩ fun _ h => absurd h hread
      · simp [netnsFillListScan, hnew]
      · simp [hnew] at hs

/-- Two names of one name space that is not the root one: the second is never left. -/
theorem scansAtHome_two_names :
    ¬ ScansAtHome (fun _ => []) ⟨1, true, none, none,
      some [{ name := cstr "a", openNs := .ok 2 }, { name := cstr "b", openNs := .ok 2 }],
      none, none, fun _ => none, fun _ => none, fun _ => none, fun _ => none⟩ true := by
  intro h
  have hcalls := h.1
  revert hcalls
  decide

end Plotnetcfg.Netns
