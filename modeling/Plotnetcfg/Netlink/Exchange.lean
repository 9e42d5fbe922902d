import Plotnetcfg.Netlink.Message
import Mathlib.Data.List.TakeWhile
import Mathlib.Data.List.Nodup

/-! Requests and replies (`nl_send`, `nl_recv`, `nl_exchange` in `netlink.c`). The socket is
a list of events: what each `poll`, and the `recvmsg` behind it, comes back with. -/

namespace Plotnetcfg.Netlink

inductive SockEvent where
  | pollErr (e : Errno)
  /-- nothing to read, or an event other than `POLLIN` -/
  | timeout
  | recvErr (e : Errno)
  | datagram (srcPid : UInt32) (data : List UInt8)

structure NlHandle where
  pid : UInt32
  seq : UInt32
deriving DecidableEq

def RECV_BUF_SIZE : Nat := 16384
def NL_RETRY_COUNT : Nat := 16

def addressed (hnd : NlHandle) (n : List UInt8) : Bool :=
  nlmsgPid n == hnd.pid.toNat && nlmsgSeq n == hnd.seq.toNat

/-- The loop of `nl_recv` over one datagram: the value returned, if it returns, and `*dest`.
`alloc` says which entries can be allocated. -/
def recvMsgs (hnd : NlHandle) (isDump : Bool) (alloc : Nat → Bool) :
    List (List UInt8) → List NlMsg → Option Int × List NlMsg
  | [], dest => (none, dest)
  | n :: ns, dest =>
    if !addressed hnd n then recvMsgs hnd isDump alloc ns dest
    else if isDump && nlmsgType n == NLMSG_DONE then (some 0, dest)
    else if nlmsgType n == NLMSG_ERROR then (some (-nlmsgErrError n), [])
    else if !alloc dest.length then (some ENOMEM, [])
    else if !isDump then (some 0, dest ++ [nlmsgCopy n])
    else recvMsgs hnd isDump alloc ns (dest ++ [nlmsgCopy n])

/-- What `nl_recv` returns, `*dest`, the events it used up and those it did not. -/
structure Received where
  err : Int
  dest : List NlMsg
  used : List SockEvent
  rest : List SockEvent

def Received.after (r : Received) (ev : SockEvent) : Received := { r with used := ev :: r.used }

/-- When the events are over nothing arrives any more, and `poll` times out. -/
def recvLoop (hnd : NlHandle) (isDump : Bool) (alloc : Nat → Bool) :
    List SockEvent → List NlMsg → Received
  | [], _ => ⟨ETIME, [], [], []⟩
  | .pollErr e :: evs, _ => ⟨e, [], [.pollErr e], evs⟩
  | .timeout :: evs, _ => ⟨ETIME, [], [.timeout], evs⟩
  | .recvErr e :: evs, _ => ⟨e, [], [.recvErr e], evs⟩
  | .datagram srcPid data :: evs, dest =>
    let ev := SockEvent.datagram srcPid data
    let buf := data.take RECV_BUF_SIZE
    if buf = [] then ⟨EPIPE, [], [ev], evs⟩
    -- not from the kernel
    else if srcPid ≠ 0 then (recvLoop hnd isDump alloc evs dest).after ev
    else match recvMsgs hnd isDump alloc (nlmsgs buf) dest with
      | (some err, dest) => ⟨err, dest, [ev], evs⟩
      | (none, dest) => (recvLoop hnd isDump alloc evs dest).after ev

def nlRecv (hnd : NlHandle) (isDump : Bool) (alloc : Nat → Bool) (evs : List SockEvent) :
    Received :=
  recvLoop hnd isDump alloc evs []

def nlCheckInterruptedDump (dest : List NlMsg) : Bool :=
  dest.any fun entry => nlmsgFlags entry.buf &&& NLM_F_DUMP_INTR != 0

inductive SockOp where
  | send (seq : UInt32)
  | event (ev : SockEvent)

/-- The outcome of each `sendmsg`, and which entries of each attempt can be allocated. -/
structure SockEnv where
  sendmsg : Nat → Option Errno := fun _ => none
  alloc : Nat → Nat → Bool := fun _ _ => true

structure Exchange where
  err : Int
  dest : List NlMsg
  hnd : NlHandle
  ops : List SockOp

def exchangeLoop (env : SockEnv) (isDump : Bool) :
    (retry k : Nat) → NlHandle → List SockEvent → Exchange
  | 0, _, hnd, _ => ⟨EINTR, [], hnd, []⟩
  | retry + 1, k, hnd, evs =>
    let hnd := { hnd with seq := hnd.seq + 1 }
    match env.sendmsg k with
    | some e => ⟨e, [], hnd, [.send hnd.seq]⟩
    | none =>
      let r := nlRecv hnd isDump (env.alloc k) evs
      let ops := .send hnd.seq :: r.used.map .event
      let again :=
        let x := exchangeLoop env isDump retry (k + 1) hnd r.rest
        { x with ops := ops ++ x.ops }
      if r.err = ETIME ∨ r.err = EAGAIN ∨ r.err = EINTR then again
      else if r.err ≠ 0 then ⟨r.err, r.dest, hnd, ops⟩
      else if isDump && nlCheckInterruptedDump r.dest then again
      else ⟨0, r.dest, hnd, ops⟩

def isDump (src : NlMsg) : Bool := nlmsgFlags src.buf &&& NLM_F_DUMP != 0

def nlExchange (env : SockEnv) (hnd : NlHandle) (src : NlMsg) (evs : List SockEvent) : Exchange :=
  exchangeLoop env (isDump src) NL_RETRY_COUNT 0 hnd evs

/-! ## One attempt -/

def isDone (n : List UInt8) : Bool := nlmsgType n == NLMSG_DONE

def SockEvent.msgs : SockEvent → List (List UInt8)
  | .datagram srcPid data => if srcPid = 0 then nlmsgs (data.take RECV_BUF_SIZE) else []
  | _ => []

def answers (hnd : NlHandle) (evs : List SockEvent) : List (List UInt8) :=
  (evs.flatMap SockEvent.msgs).filter (addressed hnd)

def isEnd (n : List UInt8) : Bool := isDone n || nlmsgType n == NLMSG_ERROR

def beforeEnd (ns : List (List UInt8)) : List (List UInt8) := ns.takeWhile fun n => !isEnd n

def firstEnd (ns : List (List UInt8)) : Option (List UInt8) := ns.find? isEnd

/-- The answers end with success: at the end of the dump, the ones before it are copied
behind `dest`; at an error with code 0, none is kept. -/
def Assembled (ns : List (List UInt8)) (dest dest' : List NlMsg) : Prop :=
  ∃ e, firstEnd ns = some e ∧
    if isDone e then dest' = dest ++ (beforeEnd ns).map nlmsgCopy
    else nlmsgErrError e = 0 ∧ dest' = []

theorem Assembled.prepend {as bs : List (List UInt8)} {dest dest' : List NlMsg}
    (h : ∀ n ∈ as, isEnd n = false) (hbs : Assembled bs (dest ++ as.map nlmsgCopy) dest') :
    Assembled (as ++ bs) dest dest' := by
  obtain ⟨e, hend, hdest⟩ := hbs
  have hnone : as.find? isEnd = none := List.find?_eq_none.mpr fun n hn => by simp [h n hn]
  have hbefore : beforeEnd (as ++ bs) = as ++ beforeEnd bs :=
    List.takeWhile_append_of_pos fun n hn => by simp [h n hn]
  refine ⟨e, by rw [firstEnd, List.find?_append, hnone, Option.none_or, ← firstEnd, hend], ?_⟩
  rwa [hbefore, List.map_append, ← List.append_assoc]

section
variable (hnd : NlHandle) (alloc : Nat → Bool)

theorem recvMsgs_dump (ns : List (List UInt8)) (dest : List NlMsg) :
    match recvMsgs hnd true alloc ns dest with
    | (none, dest') => (∀ n ∈ ns.filter (addressed hnd), isEnd n = false) ∧
        dest' = dest ++ (ns.filter (addressed hnd)).map nlmsgCopy
    | (some err, dest') => err = 0 → Assembled (ns.filter (addressed hnd)) dest dest' := by
  induction ns generalizing dest with
  | nil => simp [recvMsgs]
  | cons n ns ih =>
    cases haddr : addressed hnd n with
    | false =>
      rw [List.filter_cons_of_neg (by simp [haddr])]
      simp only [recvMsgs, haddr, Bool.not_false, if_true]
      exact ih dest
    | true =>
      rw [List.filter_cons_of_pos haddr]
      by_cases hdone : nlmsgType n = NLMSG_DONE
      · have hrun : recvMsgs hnd true alloc (n :: ns) dest = (some 0, dest) := by
          simp [recvMsgs, haddr, hdone]
        rw [hrun]
        intro _
        exact ⟨n, by simp [firstEnd, isEnd, isDone, hdone],
          by simp [beforeEnd, isEnd, isDone, hdone]⟩
      · by_cases herr : nlmsgType n = NLMSG_ERROR
        · have hrun : recvMsgs hnd true alloc (n :: ns) dest = (some (-nlmsgErrError n), []) := by
            simp [recvMsgs, haddr, herr, NLMSG_ERROR, NLMSG_DONE]
          rw [hrun]
          intro h0
          refine ⟨n, by simp [firstEnd, isEnd, herr], ?_⟩
          simpa [isDone, hdone] using h0
        · have hend : isEnd n = false := by simp [isEnd, isDone, hdone, herr]
          cases halloc : alloc dest.length with
          | false =>
            have hrun : recvMsgs hnd true alloc (n :: ns) dest = (some (ENOMEM : Int), []) := by
              simp [recvMsgs, haddr, hdone, herr, halloc]
            rw [hrun]
            exact fun h0 => absurd h0 (by decide)
          | true =>
            have hrun : recvMsgs hnd true alloc (n :: ns) dest =
                recvMsgs hnd true alloc ns (dest ++ [nlmsgCopy n]) := by
              simp [recvMsgs, haddr, hdone, herr, halloc]
            rw [hrun]
            have hstep := ih (dest ++ [nlmsgCopy n])
            have hn : ∀ m ∈ [n], isEnd m = false := by simpa using hend
            cases hrest : recvMsgs hnd true alloc ns (dest ++ [nlmsgCopy n]) with
            | mk ret dest' =>
              rw [hrest] at hstep
              cases ret with
              | none =>
                refine ⟨?_, by simp [hstep.2]⟩
                intro m hm
                rcases List.mem_cons.mp hm with rfl | hm
                · exact hend
                · exact hstep.1 m hm
              | some err => exact fun h0 => Assembled.prepend hn (hstep h0)

theorem recvLoop_used (isDump : Bool) (evs : List SockEvent) (dest : List NlMsg) :
    (recvLoop hnd isDump alloc evs dest).used ++ (recvLoop hnd isDump alloc evs dest).rest =
      evs := by
  induction evs generalizing dest with
  | nil => rfl
  | cons ev evs ih =>
    cases ev with
    | datagram srcPid data =>
      rw [recvLoop]
      split
      · rfl
      · split
        · simp [Received.after, ih]
        · split
          · rfl
          · simp [Received.after, ih]
    | _ => rfl

/-- An attempt that succeeds yields the answers to its request up to the end of the dump. -/
theorem recvLoop_dump (evs : List SockEvent) (dest : List NlMsg)
    (h0 : (recvLoop hnd true alloc evs dest).err = 0) :
    Assembled (answers hnd (recvLoop hnd true alloc evs dest).used) dest
      (recvLoop hnd true alloc evs dest).dest := by
  induction evs generalizing dest with
  | nil => simp [recvLoop] at h0
  | cons ev evs ih =>
    cases ev with
    | pollErr e => simp [recvLoop] at h0
    | timeout => simp [recvLoop] at h0
    | recvErr e => simp [recvLoop] at h0
    | datagram srcPid data =>
      rw [recvLoop] at h0 ⊢
      by_cases hbuf : data.take RECV_BUF_SIZE = []
      · rw [if_pos hbuf] at h0
        simp at h0
      · rw [if_neg hbuf] at h0 ⊢
        by_cases hpid : srcPid = 0
        · have hno : ¬ srcPid ≠ 0 := fun h => h hpid
          rw [if_neg hno] at h0 ⊢
          have hmsgs : (SockEvent.datagram srcPid data).msgs = nlmsgs (data.take RECV_BUF_SIZE) := by
            simp [SockEvent.msgs, hpid]
          have hspec := recvMsgs_dump hnd alloc
            (nlmsgs (data.take RECV_BUF_SIZE)) dest
          cases hrun : recvMsgs hnd true alloc (nlmsgs (data.take RECV_BUF_SIZE)) dest with
          | mk ret dest' =>
            rw [hrun] at hspec h0
            cases ret with
            | some err => simpa [answers, hmsgs] using hspec h0
            | none =>
              obtain ⟨hno, rfl⟩ := hspec
              have htail := Assembled.prepend hno (ih _ h0)
              simpa [answers, hmsgs, Received.after] using htail
        · rw [if_pos hpid] at h0 ⊢
          have hmsgs : (SockEvent.datagram srcPid data).msgs = [] := by
            simp [SockEvent.msgs, hpid]
          simpa [answers, hmsgs, Received.after] using ih dest h0

end

/-! ## All attempts -/

def sends (ops : List SockOp) : List UInt32 :=
  ops.filterMap fun
    | .send seq => some seq
    | .event _ => none

def events (ops : List SockOp) : List SockEvent :=
  ops.filterMap fun
    | .send _ => none
    | .event ev => some ev

@[simp] theorem sends_append (as bs : List SockOp) : sends (as ++ bs) = sends as ++ sends bs :=
  List.filterMap_append

@[simp] theorem events_append (as bs : List SockOp) :
    events (as ++ bs) = events as ++ events bs :=
  List.filterMap_append

@[simp] theorem sends_send (seq : UInt32) (ops : List SockOp) :
    sends (.send seq :: ops) = seq :: sends ops := rfl

@[simp] theorem events_send (seq : UInt32) (ops : List SockOp) :
    events (.send seq :: ops) = events ops := rfl

@[simp] theorem sends_events (evs : List SockEvent) : sends (evs.map .event) = [] := by
  induction evs with
  | nil => rfl
  | cons ev evs ih => exact ih

@[simp] theorem events_events (evs : List SockEvent) : events (evs.map .event) = evs := by
  induction evs with
  | nil => rfl
  | cons ev evs ih => exact congrArg _ ih

def nextSeqs (seq : UInt32) (n : Nat) : List UInt32 :=
  (List.range n).map fun i => seq + UInt32.ofNat (i + 1)

theorem length_nextSeqs (seq : UInt32) (n : Nat) : (nextSeqs seq n).length = n := by
  rw [nextSeqs, List.length_map, List.length_range]

theorem nextSeqs_succ (seq : UInt32) (n : Nat) :
    nextSeqs seq (n + 1) = (seq + 1) :: nextSeqs (seq + 1) n := by
  have hseq : ∀ i : Nat, seq + UInt32.ofNat (i + 1 + 1) = seq + 1 + UInt32.ofNat (i + 1) := by
    intro i
    rw [UInt32.ofNat_add (i + 1) 1, UInt32.add_assoc, UInt32.add_comm 1]
    rfl
  simp only [nextSeqs, List.range_succ_eq_map, List.map_cons, List.map_map, Function.comp_def,
    Nat.succ_eq_add_one, hseq]
  rfl

theorem nextSeqs_concat (seq : UInt32) (n : Nat) :
    nextSeqs seq (n + 1) = nextSeqs seq n ++ [seq + UInt32.ofNat (n + 1)] := by
  simp [nextSeqs, List.range_succ]

/-- Few enough requests in a row have different sequence numbers, also when the counter
wraps. -/
theorem nextSeqs_nodup (seq : UInt32) {n : Nat} (hn : n < 2 ^ 32) : (nextSeqs seq n).Nodup := by
  refine List.Nodup.map_on (fun i hi j hj hij => ?_) List.nodup_range
  rw [List.mem_range] at hi hj
  have heq := congrArg UInt32.toNat ((UInt32.add_right_inj seq).mp hij)
  rw [UInt32.toNat_ofNat', UInt32.toNat_ofNat', Nat.mod_eq_of_lt (by omega),
    Nat.mod_eq_of_lt (by omega)] at heq
  omega

/-- The exchange accepts the reply to its `(n + 1)`-th request: `before` is all it did
before sending that request, `cur` what arrived from then on, `rest` was never read. -/
structure Accepts (hnd : NlHandle) (evs : List SockEvent) (x : Exchange) (n : Nat)
    (before : List SockOp) (cur rest : List SockEvent) : Prop where
  pid : x.hnd.pid = hnd.pid
  seq : x.hnd.seq = hnd.seq + UInt32.ofNat (n + 1)
  ops : x.ops = before ++ .send x.hnd.seq :: cur.map .event
  sends : sends before = nextSeqs hnd.seq n
  evs : evs = events before ++ cur ++ rest
  assembled : Assembled (answers x.hnd cur) [] x.dest
  uninterrupted : nlCheckInterruptedDump x.dest = false

theorem Accepts.retry {hnd : NlHandle} {used evs : List SockEvent} {x : Exchange} {n : Nat}
    {before : List SockOp} {cur rest : List SockEvent}
    (h : Accepts { hnd with seq := hnd.seq + 1 } evs x n before cur rest) :
    Accepts hnd (used ++ evs)
      { x with ops := .send (hnd.seq + 1) :: used.map .event ++ x.ops } (n + 1)
      (.send (hnd.seq + 1) :: used.map .event ++ before) cur rest where
  pid := h.pid
  seq := by
    rw [h.seq, UInt32.ofNat_add (n + 1) 1, UInt32.add_assoc, UInt32.add_comm 1]
    rfl
  ops := by simp [h.ops]
  sends := by
    rw [sends_append, sends_send, sends_events, h.sends, nextSeqs_succ]
    rfl
  evs := by
    rw [events_append, events_send, events_events]
    conv_lhs => rw [h.evs]
    simp only [List.append_assoc]
  assembled := h.assembled
  uninterrupted := h.uninterrupted

theorem exchangeLoop_dump (env : SockEnv) (retry k : Nat) (hnd : NlHandle)
    (evs : List SockEvent)
    (h0 : (exchangeLoop env true retry k hnd evs).err = 0) :
    ∃ n < retry, ∃ before cur rest,
      Accepts hnd evs (exchangeLoop env true retry k hnd evs) n before cur rest := by
  induction retry generalizing k hnd evs with
  | zero => simp [exchangeLoop] at h0
  | succ retry ih =>
    rw [exchangeLoop] at h0 ⊢
    cases hsend : env.sendmsg k with
    | some e => simp [hsend] at h0
    | none =>
      simp only [hsend] at h0 ⊢
      have hused := recvLoop_used { hnd with seq := hnd.seq + 1 } (env.alloc k)
        true evs []
      have hrecv := recvLoop_dump { hnd with seq := hnd.seq + 1 } (env.alloc k)
        evs []
      rw [← nlRecv] at hused hrecv
      generalize nlRecv { hnd with seq := hnd.seq + 1 } true (env.alloc k) evs = r at *
      have again (hrun : (exchangeLoop env true retry (k + 1)
          { hnd with seq := hnd.seq + 1 } r.rest).err = 0) :
          ∃ n < retry + 1, ∃ before cur rest, Accepts hnd evs
            { exchangeLoop env true retry (k + 1) { hnd with seq := hnd.seq + 1 } r.rest with
              ops := .send (hnd.seq + 1) :: r.used.map .event ++
                (exchangeLoop env true retry (k + 1) { hnd with seq := hnd.seq + 1 } r.rest).ops }
            n before cur rest := by
        obtain ⟨n, hn, before, cur, rest, hacc⟩ := ih (k + 1) _ r.rest hrun
        exact ⟨n + 1, by omega, _, cur, rest, hused ▸ hacc.retry⟩
      by_cases hretry : r.err = ETIME ∨ r.err = EAGAIN ∨ r.err = EINTR
      · rw [if_pos hretry] at h0 ⊢
        exact again h0
      · rw [if_neg hretry] at h0 ⊢
        by_cases herr : r.err = 0
        · have herr' : ¬ r.err ≠ 0 := fun h => h herr
          rw [if_neg herr'] at h0 ⊢
          by_cases hintr : (true && nlCheckInterruptedDump r.dest) = true
          · rw [if_pos hintr] at h0 ⊢
            exact again h0
          · rw [if_neg hintr]
            refine ⟨0, by omega, [], r.used, r.rest, ?_⟩
            exact {
              pid := rfl
              seq := rfl
              ops := rfl
              sends := rfl
              evs := hused.symm
              assembled := hrecv herr
              uninterrupted := by simpa using hintr }
        · rw [if_pos herr] at h0
          exact absurd h0 herr

end Plotnetcfg.Netlink
