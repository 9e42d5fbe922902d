import Plotnetcfg.Netns.Canonical

/-! The mount point of sysfs (`sysfs.c`) while the name spaces are scanned. An instance of sysfs
shows the name space it was mounted in, instances are mounted over one another, and who reads the
mount point sees the one on top. -/

namespace Plotnetcfg.Netns

structure SysfsState where
  cur : KernelNs
  /-- the directory of the mount point exists -/
  dir : Bool := false
  /-- what the instances mounted on it show, the one on top first -/
  mounts : List KernelNs := []
  /-- `sysfs_clean` runs at exit -/
  atexit : Bool := false

/-- The outcomes of the calls of `sysfs.c` that `ScanEnv` does not give. -/
structure SysfsEnv where
  /-- `umount2` before the n-th entry is mounted -/
  umountBefore : Nat → SysResult := fun _ => none
  /-- `umount2` once the n-th entry is scanned -/
  umountAfter : Nat → SysResult := fun _ => none
  stat : SysResult := none
  umountClean : SysResult := none
  rmdir : SysResult := none

def sysfsInit (mkdtemp : SysResult) (s : SysfsState) : Int × SysfsState :=
  match mkdtemp with
  | some e => (e, s)
  | none => (0, { s with dir := true, atexit := true })

/-- Only the instance on top goes. Its caller does not learn whether it did. -/
def sysfsUmount (umount2 : SysResult) (s : SysfsState) : SysfsState :=
  match umount2 with
  | some _ => s
  | none => { s with mounts := s.mounts.tail }

def sysfsMount (umount2 mount : SysResult) (s : SysfsState) : Int × SysfsState :=
  let s := sysfsUmount umount2 s
  match mount with
  | some e => (e, s)
  | none => (0, { s with mounts := s.cur :: s.mounts })

/-- A directory with something mounted on it is not removed. -/
def sysfsClean (env : SysfsEnv) (s : SysfsState) : SysfsState :=
  if s.dir ∧ env.stat = none then
    let s := sysfsUmount env.umountClean s
    if s.mounts = [] ∧ env.rmdir = none then { s with dir := false } else s
  else s

def sysfsExit (env : SysfsEnv) (s : SysfsState) : SysfsState :=
  if s.atexit then sysfsClean env s else s

/-- A call of the scan, and the name space that the mount point shows to it. -/
structure SysfsCall where
  call : ScanCall
  shown : Option KernelNs

section
variable (env : ScanEnv) (sysfs : SysfsEnv)

/-- The body of the first loop of `netns_fill_list`, for the n-th entry: an error ends the loop. -/
def sysfsTurn (n : Nat) (entry : NetnsEntry) (s : SysfsState) :
    Int × List SysfsCall × SysfsState :=
  match (if entry.name.isSome then env.setns n else none) with
  | some e => (e, [], s)
  | none =>
    let s := if entry.name.isSome then { s with cur := entry.fd } else s
    let (err, s) := sysfsMount (sysfs.umountBefore n) (env.sysfsMount n) s
    let call (fn : ScanFn) : SysfsCall := ⟨⟨fn, entry, s.cur⟩, s.mounts.head?⟩
    if err ≠ 0 then (err, [call .sysfsMount], s)
    else match env.ifList n with
      | some e => (e, [call .sysfsMount, call .ifList], s)
      | none =>
        let calls := [call .sysfsMount, call .ifList, call .netnsHandlerScan]
        match env.netnsHandlerScan n with
        | some e => (e, calls, s)
        | none => (0, calls, sysfsUmount (sysfs.umountAfter n) s)

def sysfsEntries : Nat → List NetnsEntry → SysfsState → Int × List SysfsCall × SysfsState
  | _, [], s => (0, [], s)
  | n, entry :: list, s =>
    let (err, calls, s) := sysfsTurn env sysfs n entry s
    if err ≠ 0 then (err, calls, s)
    else
      let (err, rest, s) := sysfsEntries (n + 1) list s
      (err, calls ++ rest, s)

def netnsList (strerror : Errno → CStr) (supported : Bool) : Except Int ScanState :=
  if supported then netnsBuildList strerror env else netnsNewList env false

/-- `netns_fill_list` from `sysfs_init` to the end of its first loop. -/
def sysfsScan (s : ScanState) : Int × List SysfsCall × SysfsState :=
  let (err, start) := sysfsInit env.sysfsInit { cur := s.cur }
  if err ≠ 0 then (err, [], start) else sysfsEntries env sysfs 0 s.list start

def netnsFillListSysfs (strerror : Errno → CStr) (supported : Bool) :
    Int × List SysfsCall × SysfsState :=
  match netnsList env strerror supported with
  | .error err => (err, [], { cur := env.root })
  | .ok s => sysfsScan env sysfs s

end

/-- How many of the first `n` entries are left mounted both once they are scanned and before the
next one is mounted. -/
def SysfsEnv.missed (env : SysfsEnv) (n : Nat) : Nat :=
  (List.range n).countP fun i => (env.umountAfter i).isSome && (env.umountBefore (i + 1)).isSome

def SysfsEnv.pending (env : SysfsEnv) : Nat → Nat
  | 0 => 0
  | n + 1 => env.missed n + if (env.umountAfter n).isSome then 1 else 0

section
variable {env : ScanEnv} {sysfs : SysfsEnv} {n m : Nat} {entry : NetnsEntry} {s : SysfsState}

theorem errno_ne_zero (e : Errno) : (e : Int) ≠ 0 := by
  have := e.pos
  omega

theorem sysfsUmount_cur (umount2 : SysResult) (s : SysfsState) :
    (sysfsUmount umount2 s).cur = s.cur := by
  cases umount2 <;> rfl

def sysfsFree (sysfs : SysfsEnv) (n : Nat) (entry : NetnsEntry) (s : SysfsState) : SysfsState :=
  sysfsUmount (sysfs.umountBefore n) (if entry.name.isSome then { s with cur := entry.fd } else s)

def SysfsState.mounted (s : SysfsState) : SysfsState := { s with mounts := s.cur :: s.mounts }

def SysfsState.sees (s : SysfsState) (entry : NetnsEntry) (fn : ScanFn) : SysfsCall :=
  ⟨⟨fn, entry, s.cur⟩, some s.cur⟩

theorem sysfsTurn_cases (env : ScanEnv) (sysfs : SysfsEnv) (n : Nat) (entry : NetnsEntry)
    (s : SysfsState) :
    let free := sysfsFree sysfs n entry s
    let calls := [ScanFn.sysfsMount, .ifList, .netnsHandlerScan].map (free.sees entry)
    (∃ e : Errno, sysfsTurn env sysfs n entry s = (↑e, [], s)) ∨
    (∃ (e : Errno) (c : SysfsCall), c.call.fn = .sysfsMount ∧
      sysfsTurn env sysfs n entry s = (↑e, [c], free)) ∨
    (∃ (e : Errno) (k : Nat), sysfsTurn env sysfs n entry s = (↑e, calls.take k, free.mounted)) ∨
    sysfsTurn env sysfs n entry s =
      (0, calls, sysfsUmount (sysfs.umountAfter n) free.mounted) := by
  intro free calls
  unfold sysfsTurn
  cases hswitch : (if entry.name.isSome then env.setns n else none) with
  | some e => exact .inl ⟨e, rfl⟩
  | none =>
    cases hmount : env.sysfsMount n with
    | some e =>
      refine .inr (.inl ⟨e, ⟨⟨.sysfsMount, entry, free.cur⟩, free.mounts.head?⟩, rfl, ?_⟩)
      exact if_pos (errno_ne_zero e)
    | none =>
      simp only [sysfsMount, ne_eq, not_true_eq_false, if_false]
      cases env.ifList n with
      | some e => exact .inr (.inr (.inl ⟨e, 2, rfl⟩))
      | none =>
        cases env.netnsHandlerScan n with
        | some e => exact .inr (.inr (.inl ⟨e, 3, rfl⟩))
        | none => exact .inr (.inr (.inr rfl))

theorem sysfsTurn_shown {c : SysfsCall} (hc : c ∈ (sysfsTurn env sysfs n entry s).2.1)
    (hreads : c.call.fn ≠ .sysfsMount) : c.shown = some c.call.cur := by
  have hsees : ∀ c ∈ [ScanFn.sysfsMount, .ifList, .netnsHandlerScan].map
      ((sysfsFree sysfs n entry s).sees entry), c.shown = some c.call.cur := by
    intro c hc
    obtain ⟨fn, -, rfl⟩ := List.mem_map.mp hc
    rfl
  rcases sysfsTurn_cases env sysfs n entry s with
    ⟨e, hrun⟩ | ⟨e, c', hmount, hrun⟩ | ⟨e, k, hrun⟩ | hrun
  · simp [hrun] at hc
  · rw [hrun, List.mem_singleton] at hc
    exact absurd (hc ▸ hmount) hreads
  · rw [hrun] at hc
    exact hsees c (List.mem_of_mem_take hc)
  · rw [hrun] at hc
    exact hsees c hc

theorem missed_succ (sysfs : SysfsEnv) (n : Nat) :
    sysfs.missed (n + 1) = sysfs.missed n +
      if (sysfs.umountAfter n).isSome && (sysfs.umountBefore (n + 1)).isSome then 1 else 0 := by
  rw [SysfsEnv.missed, List.range_succ, List.countP_append, List.countP_singleton]
  rfl

theorem missed_mono (sysfs : SysfsEnv) (h : n ≤ m) : sysfs.missed n ≤ sysfs.missed m :=
  (List.range_sublist.mpr h).countP_le

theorem sysfsUmount_mounts (umount2 : SysResult) (s : SysfsState) :
    (sysfsUmount umount2 s).mounts.length =
      if umount2.isSome then s.mounts.length else s.mounts.length - 1 := by
  cases umount2 with
  | none => exact List.length_tail
  | some e => rfl

theorem sysfsFree_length (sysfs : SysfsEnv) (n : Nat) (entry : NetnsEntry) (s : SysfsState) :
    (sysfsFree sysfs n entry s).mounts.length =
      if (sysfs.umountBefore n).isSome then s.mounts.length else s.mounts.length - 1 := by
  rw [sysfsFree, sysfsUmount_mounts]
  split_ifs <;> rfl

theorem pending_le (h : n ≤ m + 1) : sysfs.pending n ≤ sysfs.missed m + 1 := by
  cases n with
  | zero => exact Nat.zero_le _
  | succ n =>
    have hone : (if (sysfs.umountAfter n).isSome = true then 1 else 0) ≤ 1 := by
      split_ifs <;> decide
    exact Nat.add_le_add (missed_mono sysfs (Nat.le_of_succ_le_succ h)) hone

/-- The unmounting before an entry makes up for the one that failed behind the entry before. -/
theorem sysfsFree_le (entry : NetnsEntry) (h : s.mounts.length ≤ sysfs.pending n) :
    (sysfsFree sysfs n entry s).mounts.length ≤ sysfs.missed n := by
  rw [sysfsFree_length]
  cases n with
  | zero =>
    have hnone : s.mounts.length = 0 := Nat.le_zero.mp h
    split_ifs <;> simp [hnone]
  | succ n =>
    rw [SysfsEnv.pending] at h
    by_cases hafter : (sysfs.umountAfter n).isSome = true
    · rw [if_pos hafter] at h
      rw [missed_succ]
      by_cases hbefore : (sysfs.umountBefore (n + 1)).isSome = true
      · rwa [if_pos hbefore, if_pos (by rw [hafter, hbefore]; rfl)]
      · rw [if_neg hbefore]
        exact (Nat.sub_le_of_le_add h).trans (Nat.le_add_right ..)
    · rw [if_neg hafter] at h
      have hlength := h.trans (missed_mono sysfs (Nat.le_succ n))
      split_ifs
      · exact hlength
      · exact (Nat.sub_le ..).trans hlength

/-- A turn leaves at most what the next one starts from, and one that fails at most the instance
it has mounted on top of the ones left behind. -/
theorem sysfsTurn_mounts (env : ScanEnv) (entry : NetnsEntry)
    (h : s.mounts.length ≤ sysfs.pending n) :
    let run := sysfsTurn env sysfs n entry s
    run.2.2.mounts.length ≤ sysfs.missed n + 1 ∧
      (run.1 = 0 → run.2.2.mounts.length ≤ sysfs.pending (n + 1)) := by
  have hfree := sysfsFree_le entry h
  have hmounted : (sysfsFree sysfs n entry s).mounted.mounts.length ≤ sysfs.missed n + 1 :=
    Nat.succ_le_succ hfree
  rcases sysfsTurn_cases env sysfs n entry s with
    ⟨e, hrun⟩ | ⟨e, c, -, hrun⟩ | ⟨e, k, hrun⟩ | hrun
  · have hpending : sysfs.pending n ≤ sysfs.missed n + 1 := pending_le (Nat.le_succ n)
    simp only [hrun]
    exact ⟨h.trans hpending, fun h0 => absurd h0 (errno_ne_zero e)⟩
  · simp only [hrun]
    exact ⟨hfree.trans (Nat.le_succ _), fun h0 => absurd h0 (errno_ne_zero e)⟩
  · simp only [hrun]
    exact ⟨hmounted, fun h0 => absurd h0 (errno_ne_zero e)⟩
  · simp only [hrun, sysfsUmount_mounts, SysfsEnv.pending]
    split_ifs
    · exact ⟨hmounted, fun _ => hmounted⟩
    · exact ⟨(Nat.sub_le ..).trans hmounted, fun _ => Nat.sub_le_of_le_add hmounted⟩

theorem sysfsEntries_cons (env : ScanEnv) (sysfs : SysfsEnv) (n : Nat) (entry : NetnsEntry)
    (list : List NetnsEntry) (s : SysfsState) :
    sysfsEntries env sysfs n (entry :: list) s =
      let turn := sysfsTurn env sysfs n entry s
      if turn.1 ≠ 0 then turn
      else
        let rest := sysfsEntries env sysfs (n + 1) list turn.2.2
        (rest.1, turn.2.1 ++ rest.2.1, rest.2.2) := rfl

/-! ## The whole loop -/

theorem sysfsEntries_shown (list : List NetnsEntry) (n : Nat) (s : SysfsState) :
    ∀ c ∈ (sysfsEntries env sysfs n list s).2.1,
      c.call.fn ≠ .sysfsMount → c.shown = some c.call.cur := by
  induction list generalizing n s with
  | nil => simp [sysfsEntries]
  | cons entry list ih =>
    intro c hc
    rw [sysfsEntries_cons] at hc
    dsimp only at hc
    split_ifs at hc
    · exact sysfsTurn_shown hc
    · rcases List.mem_append.mp hc with hc | hc
      · exact sysfsTurn_shown hc
      · exact ih _ _ c hc

theorem sysfsEntries_mounts (env : ScanEnv) (list : List NetnsEntry)
    (h : s.mounts.length ≤ sysfs.pending n) (hm : n + list.length ≤ m + 1) :
    (sysfsEntries env sysfs n list s).2.2.mounts.length ≤ sysfs.missed m + 1 := by
  induction list generalizing n s with
  | nil => exact h.trans (pending_le hm)
  | cons entry list ih =>
    have hlength : n + 1 + list.length ≤ m + 1 := by
      rw [List.length_cons] at hm
      omega
    obtain ⟨hstop, hnext⟩ := sysfsTurn_mounts env entry h
    rw [sysfsEntries_cons]
    dsimp only
    split_ifs with herr
    · have hn : n ≤ m := by omega
      exact hstop.trans (Nat.succ_le_succ (missed_mono sysfs hn))
    · exact ih (hnext (not_not.mp herr)) hlength

theorem sysfsTurn_dir (env : ScanEnv) (sysfs : SysfsEnv) (n : Nat) (entry : NetnsEntry)
    (s : SysfsState) :
    (sysfsTurn env sysfs n entry s).2.2.dir = s.dir ∧
      (sysfsTurn env sysfs n entry s).2.2.atexit = s.atexit := by
  have humount (umount2 : SysResult) (s : SysfsState) :
      (sysfsUmount umount2 s).dir = s.dir ∧ (sysfsUmount umount2 s).atexit = s.atexit := by
    cases umount2 <;> exact ⟨rfl, rfl⟩
  have hfree : (sysfsFree sysfs n entry s).dir = s.dir ∧
      (sysfsFree sysfs n entry s).atexit = s.atexit := by
    rw [sysfsFree, (humount ..).1, (humount ..).2]
    split_ifs <;> exact ⟨rfl, rfl⟩
  rcases sysfsTurn_cases env sysfs n entry s with
    ⟨e, hrun⟩ | ⟨e, c, -, hrun⟩ | ⟨e, k, hrun⟩ | hrun
  · simp only [hrun, and_self]
  · simp only [hrun, hfree, and_self]
  · simp only [hrun]
    exact hfree
  · simp only [hrun, humount]
    exact hfree

theorem sysfsEntries_scan (list : List NetnsEntry) (n : Nat) (s : SysfsState) :
    ((sysfsEntries env sysfs n list s).1, (sysfsEntries env sysfs n list s).2.1.map (·.call)) =
      scanEntries env n list s.cur := by
  induction list generalizing n s with
  | nil => rfl
  | cons entry list ih =>
    rw [sysfsEntries_cons, scanEntries]
    unfold sysfsTurn
    cases hswitch : (if entry.name.isSome then env.setns n else none) with
    | some e => simp
    | none =>
      have hcur (umount2 : SysResult) : (sysfsUmount umount2
          (if entry.name.isSome then { s with cur := entry.fd } else s)).cur =
            if entry.name.isSome then entry.fd else s.cur := by
        rw [sysfsUmount_cur]
        split_ifs <;> rfl
      cases hmount : env.sysfsMount n with
      | some e => simp [sysfsMount, hcur]
      | none =>
        cases env.ifList n with
        | some e => simp [sysfsMount, hcur]
        | none =>
          cases env.netnsHandlerScan n with
          | some e => simp [sysfsMount, hcur]
          | none =>
            simp only [sysfsMount, hcur, ne_eq, not_true_eq_false, if_false, Prod.mk.injEq,
              List.map_cons, List.cons_append, List.nil_append, List.cons.injEq, true_and]
            refine Prod.ext_iff.mp ((ih (n + 1) _).trans ?_)
            rw [sysfsUmount_cur]

theorem sysfsEntries_dir (env : ScanEnv) (sysfs : SysfsEnv) (list : List NetnsEntry) (n : Nat)
    (s : SysfsState) :
    (sysfsEntries env sysfs n list s).2.2.dir = s.dir ∧
      (sysfsEntries env sysfs n list s).2.2.atexit = s.atexit := by
  induction list generalizing n s with
  | nil => exact ⟨rfl, rfl⟩
  | cons entry list ih =>
    have hturn := sysfsTurn_dir env sysfs n entry s
    rw [sysfsEntries_cons]
    dsimp only
    split_ifs
    · exact hturn
    · exact ⟨(ih _ _).1.trans hturn.1, (ih _ _).2.trans hturn.2⟩

theorem netnsFillListScan_list (env : ScanEnv) (strerror : Errno → CStr) (supported : Bool) :
    netnsFillListScan strerror env supported =
      match netnsList env strerror supported with
      | .error err => (err, [])
      | .ok s => match env.sysfsInit with
        | some e => (e, [])
        | none => scanEntries env 0 s.list s.cur := by
  cases supported with
  | true => exact netnsFillListScan_eq strerror env
  | false =>
    unfold netnsFillListScan netnsList
    cases netnsNewList env false <;> rfl

theorem netnsFillListSysfs_scan (env : ScanEnv) (sysfs : SysfsEnv) (strerror : Errno → CStr)
    (supported : Bool) :
    let run := netnsFillListSysfs env sysfs strerror supported
    (run.1, run.2.1.map (·.call)) = netnsFillListScan strerror env supported := by
  intro run
  rw [netnsFillListScan_list]
  unfold run netnsFillListSysfs
  cases netnsList env strerror supported with
  | error err => rfl
  | ok s =>
    unfold sysfsScan sysfsInit
    cases env.sysfsInit with
    | some e => simp
    | none => exact sysfsEntries_scan s.list 0 _

theorem sysfsClean_le (sysfs : SysfsEnv) (s : SysfsState) :
    (sysfsClean sysfs s).mounts.length ≤ s.mounts.length := by
  have humount : (sysfsUmount sysfs.umountClean s).mounts.length ≤ s.mounts.length := by
    rw [sysfsUmount_mounts]
    split_ifs
    · exact le_rfl
    · exact Nat.sub_le ..
  unfold sysfsClean
  dsimp only
  split_ifs
  · exact humount
  · exact humount
  · exact le_rfl

theorem sysfsClean_mounts (hdir : s.dir = true) (h : s.mounts.length ≤ m + 1)
    (hstat : sysfs.stat = none) (hclean : sysfs.umountClean = none) :
    (sysfsClean sysfs s).mounts.length ≤ m ∧
      (m = 0 → sysfs.rmdir = none → (sysfsClean sysfs s).dir = false) := by
  have humount : (sysfsUmount sysfs.umountClean s).mounts.length ≤ m := by
    rw [sysfsUmount_mounts, hclean]
    exact Nat.sub_le_of_le_add h
  rw [sysfsClean, if_pos ⟨hdir, hstat⟩]
  dsimp only
  split_ifs with hremoved
  · exact ⟨humount, fun _ _ => rfl⟩
  · refine ⟨humount, fun hm hrmdir => absurd ⟨?_, hrmdir⟩ hremoved⟩
    exact List.eq_nil_of_length_eq_zero (Nat.le_zero.mp (hm ▸ humount))

theorem sysfsScan_left (sysfs : SysfsEnv) (t : ScanState) (hlength : t.list.length ≤ m + 1) :
    let left := sysfsExit sysfs (sysfsScan env sysfs t).2.2
    left.mounts.length ≤ sysfs.missed m + 1 ∧
      (sysfs.stat = none → sysfs.umountClean = none →
        left.mounts.length ≤ sysfs.missed m ∧
          (sysfs.missed m = 0 → sysfs.rmdir = none → left.dir = false)) := by
  unfold sysfsScan sysfsInit
  cases env.sysfsInit with
  | some e => simp [sysfsExit]
  | none =>
    let start : SysfsState := { cur := t.cur, dir := true, atexit := true }
    obtain ⟨hdir, hatexit⟩ := sysfsEntries_dir env sysfs t.list 0 start
    have hstart : start.mounts.length ≤ sysfs.pending 0 := Nat.zero_le _
    have hmounts := sysfsEntries_mounts env t.list hstart ((Nat.zero_add _).trans_le hlength)
    have hexit (s : SysfsState) (h : s.atexit = true) : sysfsExit sysfs s = sysfsClean sysfs s :=
      if_pos h
    simp only [ne_eq, not_true_eq_false, if_false]
    rw [hexit _ hatexit]
    exact ⟨(sysfsClean_le sysfs _).trans hmounts, sysfsClean_mounts hdir hmounts⟩

/-- However the scan ends and whichever of its calls fail, what it reads of sysfs is that of the
name space the process is in. Underneath the last instance, one outlives the program only where two
unmountings in a row failed; the last one, and without such a pair the mount point too, goes with
the program where the calls of `sysfs_clean` succeed. -/
theorem netnsFillListSysfs_mounts (env : ScanEnv) (sysfs : SysfsEnv) (strerror : Errno → CStr)
    (supported : Bool) :
    let run := netnsFillListSysfs env sysfs strerror supported
    let left := sysfsExit sysfs run.2.2
    (run.1, run.2.1.map (·.call)) = netnsFillListScan strerror env supported ∧
    (∀ c ∈ run.2.1, c.call.fn ≠ .sysfsMount → c.shown = some c.call.cur) ∧
    ∀ m, (∀ s, netnsList env strerror supported = .ok s → s.list.length ≤ m + 1) →
      left.mounts.length ≤ sysfs.missed m + 1 ∧
        (sysfs.stat = none → sysfs.umountClean = none →
          left.mounts.length ≤ sysfs.missed m ∧
            (sysfs.missed m = 0 → sysfs.rmdir = none → left.dir = false)) := by
  intro run left
  refine ⟨netnsFillListSysfs_scan env sysfs strerror supported, ?_, fun m hm => ?_⟩
  · unfold run netnsFillListSysfs sysfsScan
    cases netnsList env strerror supported with
    | error err => simp
    | ok s =>
      dsimp only
      split_ifs
      · simp
      · exact sysfsEntries_shown s.list 0 _
  · unfold left run netnsFillListSysfs
    cases hlist : netnsList env strerror supported with
    | error err =>
      exact ⟨Nat.zero_le _, fun _ _ => ⟨Nat.zero_le _, fun _ _ => rfl⟩⟩
    | ok s => exact sysfsScan_left sysfs s (hm s hlist)

end

end Plotnetcfg.Netns
