import Plotnetcfg.Netlink.Dump

/-! One handle over a whole session of requests (`nl_exchange` called again and again), and the
kernel at the other end. Its answers may be late, get lost, overtake each other or arrive twice.
Each request has its own sequence number, which is what keeps the answers apart. -/

namespace Plotnetcfg.Netlink

/-! ## Any exchange -/

section
variable (hnd : NlHandle) (isDump : Bool) (alloc : Nat → Bool)

theorem recvMsgs_dest (ns : List (List UInt8)) (dest : List NlMsg) :
    ∀ e ∈ (recvMsgs hnd isDump alloc ns dest).2,
      e ∈ dest ∨ ∃ n ∈ ns.filter (addressed hnd), e = nlmsgCopy n := by
  induction ns generalizing dest with
  | nil => exact fun e he => .inl he
  | cons n ns ih =>
    cases haddr : addressed hnd n with
    | false =>
      rw [List.filter_cons_of_neg (by simp [haddr])]
      simp only [recvMsgs, haddr, Bool.not_false, if_true]
      exact ih dest
    | true =>
      rw [List.filter_cons_of_pos haddr]
      have hcopied : ∀ e ∈ dest ++ [nlmsgCopy n],
          e ∈ dest ∨ ∃ m ∈ n :: ns.filter (addressed hnd), e = nlmsgCopy m := by
        intro e he
        rcases List.mem_append.mp he with he | he
        · exact .inl he
        · exact .inr ⟨n, List.mem_cons_self, List.mem_singleton.mp he⟩
      simp only [recvMsgs, haddr, Bool.not_true, Bool.false_eq_true, if_false]
      intro e he
      split_ifs at he
      · exact .inl he
      · cases he
      · cases he
      · exact hcopied e he
      · rcases ih _ e he with he | ⟨m, hm, rfl⟩
        · exact hcopied e he
        · exact .inr ⟨m, List.mem_cons_of_mem _ hm, rfl⟩

theorem recvLoop_dest (evs : List SockEvent) (dest : List NlMsg) :
    ∀ e ∈ (recvLoop hnd isDump alloc evs dest).dest,
      e ∈ dest ∨ ∃ n ∈ answers hnd (recvLoop hnd isDump alloc evs dest).used, e = nlmsgCopy n := by
  induction evs generalizing dest with
  | nil =>
    intro e he
    cases he
  | cons ev evs ih =>
    cases ev with
    | datagram srcPid data =>
      rw [recvLoop]
      by_cases hbuf : data.take RECV_BUF_SIZE = []
      · rw [if_pos hbuf]
        intro e he
        cases he
      · rw [if_neg hbuf]
        by_cases hpid : srcPid = 0
        · have hno : ¬ srcPid ≠ 0 := fun h => h hpid
          rw [if_neg hno]
          have hmsgs : (SockEvent.datagram srcPid data).msgs = nlmsgs (data.take RECV_BUF_SIZE) := by
            simp [SockEvent.msgs, hpid]
          have hspec := recvMsgs_dest hnd isDump alloc (nlmsgs (data.take RECV_BUF_SIZE)) dest
          cases hrun : recvMsgs hnd isDump alloc (nlmsgs (data.take RECV_BUF_SIZE)) dest with
          | mk ret dest' =>
            rw [hrun] at hspec
            cases ret with
            | some err => simpa [answers, hmsgs] using hspec
            | none =>
              intro e he
              simp only [answers, Received.after, List.flatMap_cons, List.filter_append, hmsgs,
                List.mem_append] at he ⊢
              rcases ih dest' e he with he | ⟨n, hn, rfl⟩
              · rcases hspec e he with he | ⟨n, hn, rfl⟩
                · exact .inl he
                · exact .inr ⟨n, .inl hn, rfl⟩
              · exact .inr ⟨n, .inr hn, rfl⟩
        · rw [if_pos hpid]
          have hmsgs : (SockEvent.datagram srcPid data).msgs = [] := by
            simp [SockEvent.msgs, hpid]
          simpa [answers, hmsgs, Received.after] using ih dest
    | _ =>
      intro e he
      cases he

end

/-- An answer that is not a dump came, or an error message of code 0. -/
def Single (ns : List (List UInt8)) (dest : List NlMsg) : Prop :=
  (∃ n ∈ ns, nlmsgType n ≠ NLMSG_ERROR ∧ dest = [nlmsgCopy n]) ∨
    dest = [] ∧ ∃ n ∈ ns, nlmsgType n = NLMSG_ERROR ∧ nlmsgErrError n = 0

theorem Single.mono {ns ns' : List (List UInt8)} {dest : List NlMsg} (h : Single ns dest)
    (hsub : ns ⊆ ns') : Single ns' dest := by
  rcases h with ⟨n, hn, htype, hdest⟩ | ⟨hdest, n, hn, herr⟩
  · exact .inl ⟨n, hsub hn, htype, hdest⟩
  · exact .inr ⟨hdest, n, hsub hn, herr⟩

section
variable (hnd : NlHandle) (alloc : Nat → Bool)

theorem recvMsgs_single (ns : List (List UInt8)) {ret : Option Int} {dest : List NlMsg}
    (hrun : recvMsgs hnd false alloc ns [] = (ret, dest)) :
    (ret = none → dest = []) ∧ (ret = some 0 → Single (ns.filter (addressed hnd)) dest) := by
  induction ns with
  | nil =>
    obtain ⟨rfl, rfl⟩ := Prod.mk.inj hrun
    exact ⟨fun _ => rfl, fun h => by cases h⟩
  | cons n ns ih =>
    cases haddr : addressed hnd n with
    | false =>
      rw [List.filter_cons_of_neg (by simp [haddr])]
      simp only [recvMsgs, haddr, Bool.not_false, if_true] at hrun
      exact ih hrun
    | true =>
      rw [List.filter_cons_of_pos haddr]
      simp only [recvMsgs, haddr, Bool.not_true, Bool.false_and, Bool.not_false, Bool.false_eq_true,
        if_false, if_true, beq_iff_eq] at hrun
      split_ifs at hrun with herr halloc
      · obtain ⟨rfl, rfl⟩ := Prod.mk.inj hrun
        refine ⟨fun _ => rfl, fun h => .inr ⟨rfl, n, List.mem_cons_self, herr, ?_⟩⟩
        exact neg_eq_zero.mp (Option.some.inj h)
      · obtain ⟨rfl, rfl⟩ := Prod.mk.inj hrun
        exact ⟨fun _ => rfl, fun h => absurd (Option.some.inj h) (by decide)⟩
      · obtain ⟨rfl, rfl⟩ := Prod.mk.inj hrun
        exact ⟨fun h => (by cases h), fun _ => .inl ⟨n, List.mem_cons_self, herr, rfl⟩⟩

theorem recvLoop_single (evs : List SockEvent) (h0 : (recvLoop hnd false alloc evs []).err = 0) :
    Single (answers hnd (recvLoop hnd false alloc evs []).used)
      (recvLoop hnd false alloc evs []).dest := by
  induction evs with
  | nil => simp [recvLoop] at h0
  | cons ev evs ih =>
    cases ev with
    | pollErr e => simp [recvLoop] at h0
    | timeout => simp [recvLoop] at h0
    | recvErr e => simp [recvLoop] at h0
    | datagram srcPid data =>
      rw [recvLoop] at h0 ⊢
      by_cases hbuf : data.take RECV_BUF_SIZE = []
      · rw [if_pos hbuf] at h0
        simp at h0
      · rw [if_neg hbuf] at h0 ⊢
        by_cases hpid : srcPid = 0
        · have hno : ¬ srcPid ≠ 0 := fun h => h hpid
          rw [if_neg hno] at h0 ⊢
          have hmsgs : (SockEvent.datagram srcPid data).msgs = nlmsgs (data.take RECV_BUF_SIZE) := by
            simp [SockEvent.msgs, hpid]
          cases hrun : recvMsgs hnd false alloc (nlmsgs (data.take RECV_BUF_SIZE)) [] with
          | mk ret dest' =>
            obtain ⟨hnone, hsome⟩ := recvMsgs_single hnd alloc _ hrun
            rw [hrun] at h0
            cases ret with
            | some err =>
              have h0 : err = 0 := h0
              simpa [answers, hmsgs] using hsome (congrArg some h0)
            | none =>
              obtain rfl := hnone rfl
              refine (ih h0).mono ?_
              simp [answers, Received.after]
        · rw [if_pos hpid] at h0 ⊢
          have hmsgs : (SockEvent.datagram srcPid data).msgs = [] := by
            simp [SockEvent.msgs, hpid]
          simpa [answers, hmsgs, Received.after] using ih h0

end

structure Numbered (hnd : NlHandle) (retry : Nat) (x : Exchange) (n : Nat) : Prop where
  few : n ≤ retry
  sends : sends x.ops = nextSeqs hnd.seq n
  pid : x.hnd.pid = hnd.pid
  seq : x.hnd.seq = hnd.seq + UInt32.ofNat n

theorem Numbered.retry {hnd : NlHandle} {retry n : Nat} {x : Exchange} {used : List SockEvent}
    (h : Numbered { hnd with seq := hnd.seq + 1 } retry x n) :
    Numbered hnd (retry + 1) { x with ops := .send (hnd.seq + 1) :: used.map .event ++ x.ops }
      (n + 1) where
  few := by
    have hfew := h.few
    omega
  sends := by
    rw [sends_append, sends_send, sends_events, h.sends, nextSeqs_succ]
    rfl
  pid := h.pid
  seq := by
    rw [h.seq, UInt32.ofNat_add n 1, UInt32.add_assoc, UInt32.add_comm 1]
    rfl

theorem Numbered.once (hnd : NlHandle) (retry : Nat) (err : Int) (dest : List NlMsg)
    (used : List SockEvent) :
    Numbered hnd (retry + 1) ⟨err, dest, { hnd with seq := hnd.seq + 1 },
      .send (hnd.seq + 1) :: used.map .event⟩ 1 where
  few := by omega
  sends := by
    rw [sends_send, sends_events]
    rfl
  pid := rfl
  seq := rfl

theorem exchangeLoop_numbered (env : SockEnv) (isDump : Bool) (retry k : Nat) (hnd : NlHandle)
    (evs : List SockEvent) :
    ∃ n, Numbered hnd retry (exchangeLoop env isDump retry k hnd evs) n := by
  induction retry generalizing k hnd evs with
  | zero =>
    refine ⟨0, ?_⟩
    exact { few := le_rfl, sends := rfl, pid := rfl, seq := (UInt32.add_zero _).symm }
  | succ retry ih =>
    rw [exchangeLoop]
    cases hsend : env.sendmsg k with
    | some e => exact ⟨1, Numbered.once hnd retry e [] []⟩
    | none =>
      simp only
      generalize nlRecv { hnd with seq := hnd.seq + 1 } isDump (env.alloc k) evs = r
      obtain ⟨n, hn⟩ := ih (k + 1) { hnd with seq := hnd.seq + 1 } r.rest
      split_ifs
      · exact ⟨n + 1, hn.retry⟩
      · exact ⟨1, Numbered.once hnd retry r.err r.dest r.used⟩
      · exact ⟨n + 1, hn.retry⟩
      · exact ⟨1, Numbered.once hnd retry 0 r.dest r.used⟩

/-- The result is what the last attempt of the exchange received: `cur` arrived behind its last
send. -/
structure Yields (isDump : Bool) (x : Exchange) (before : List SockOp) (cur : List SockEvent) :
    Prop where
  ops : x.ops = before ++ .send x.hnd.seq :: cur.map .event
  dest : ∀ e ∈ x.dest, ∃ n ∈ answers x.hnd cur, e = nlmsgCopy n
  single : isDump = false → Single (answers x.hnd cur) x.dest

theorem exchangeLoop_yields (env : SockEnv) (isDump : Bool) (retry k : Nat) (hnd : NlHandle)
    (evs : List SockEvent) (h0 : (exchangeLoop env isDump retry k hnd evs).err = 0) :
    ∃ before cur, Yields isDump (exchangeLoop env isDump retry k hnd evs) before cur := by
  induction retry generalizing k hnd evs with
  | zero => simp [exchangeLoop] at h0
  | succ retry ih =>
    rw [exchangeLoop] at h0 ⊢
    cases hsend : env.sendmsg k with
    | some e => simp [hsend] at h0
    | none =>
      simp only [hsend] at h0 ⊢
      have hrecv := recvLoop_dest { hnd with seq := hnd.seq + 1 } isDump (env.alloc k) evs []
      have hsingle : isDump = false →
          (nlRecv { hnd with seq := hnd.seq + 1 } isDump (env.alloc k) evs).err = 0 →
          Single (answers { hnd with seq := hnd.seq + 1 }
            (nlRecv { hnd with seq := hnd.seq + 1 } isDump (env.alloc k) evs).used)
            (nlRecv { hnd with seq := hnd.seq + 1 } isDump (env.alloc k) evs).dest := by
        rintro rfl
        exact recvLoop_single _ _ evs
      rw [← nlRecv] at hrecv
      generalize nlRecv { hnd with seq := hnd.seq + 1 } isDump (env.alloc k) evs = r at *
      have hdest : ∀ e ∈ r.dest, ∃ n ∈ answers { hnd with seq := hnd.seq + 1 } r.used,
          e = nlmsgCopy n := fun e he => (hrecv e he).resolve_left List.not_mem_nil
      have again (hrun : (exchangeLoop env isDump retry (k + 1)
          { hnd with seq := hnd.seq + 1 } r.rest).err = 0) :
          ∃ before cur, Yields isDump
            { exchangeLoop env isDump retry (k + 1) { hnd with seq := hnd.seq + 1 } r.rest with
              ops := .send (hnd.seq + 1) :: r.used.map .event ++
                (exchangeLoop env isDump retry (k + 1) { hnd with seq := hnd.seq + 1 }
                  r.rest).ops } before cur := by
        obtain ⟨before, cur, hyields⟩ := ih (k + 1) _ r.rest hrun
        refine ⟨.send (hnd.seq + 1) :: r.used.map .event ++ before, cur, ?_, hyields.dest,
          hyields.single⟩
        simp only [hyields.ops, List.cons_append, List.append_assoc]
      split_ifs at h0 ⊢ with hretry herr hintr
      · exact again h0
      · exact absurd h0 herr
      · exact again h0
      · exact ⟨[], r.used, rfl, hdest, fun hsrc => hsingle hsrc (not_not.mp herr)⟩

/-! ## A session -/

/-- A handle, the events still to come, and the exchanges made so far with their requests. -/
structure Session where
  hnd : NlHandle
  evs : List SockEvent
  turns : List (NlMsg × Exchange) := []

/-- The next exchange; what it leaves unread stays for the ones after it. -/
def Session.exchange (s : Session) (env : SockEnv) (src : NlMsg) : Session :=
  let x := nlExchange env s.hnd src s.evs
  { hnd := x.hnd, evs := s.evs.drop (events x.ops).length, turns := s.turns ++ [(src, x)] }

inductive Session.Reached (hnd : NlHandle) (evs : List SockEvent) : Session → Prop where
  | opened : Reached hnd evs ⟨hnd, evs, []⟩
  | exchange {s : Session} (h : Reached hnd evs s) (env : SockEnv) (src : NlMsg) :
      Reached hnd evs (s.exchange env src)

inductive WireOp where
  | send (seq : UInt32) (src : NlMsg)
  | event (ev : SockEvent)

def SockOp.onWire (src : NlMsg) : SockOp → WireOp
  | .send seq => .send seq src
  | .event ev => .event ev

def turnTrace (turn : NlMsg × Exchange) : List WireOp := turn.2.ops.map (SockOp.onWire turn.1)

def Session.trace (s : Session) : List WireOp := s.turns.flatMap turnTrace

def requests (ops : List WireOp) : List (UInt32 × NlMsg) :=
  ops.filterMap fun
    | .send seq src => some (seq, src)
    | .event _ => none

@[simp] theorem requests_append (as bs : List WireOp) :
    requests (as ++ bs) = requests as ++ requests bs := List.filterMap_append

theorem mem_requests {ops : List WireOp} {seq : UInt32} {src : NlMsg} :
    (seq, src) ∈ requests ops ↔ .send seq src ∈ ops := by
  rw [requests, List.mem_filterMap]
  constructor
  · rintro ⟨op, hop, heq⟩
    cases op with
    | send seq' src' =>
      obtain ⟨rfl, rfl⟩ := Prod.mk.inj (Option.some.inj heq)
      exact hop
    | event ev => cases heq
  · exact fun h => ⟨_, h, rfl⟩

theorem requests_turnTrace (turn : NlMsg × Exchange) :
    (requests (turnTrace turn)).map Prod.fst = sends turn.2.ops := by
  obtain ⟨src, x⟩ := turn
  unfold turnTrace requests sends
  rw [List.filterMap_map, List.map_filterMap]
  congr 1
  funext op
  cases op <;> rfl

theorem nextSeqs_add (seq : UInt32) (m n : Nat) :
    nextSeqs seq (m + n) = nextSeqs seq m ++ nextSeqs (seq + UInt32.ofNat m) n := by
  induction n with
  | zero => simp [nextSeqs]
  | succ n ih =>
    rw [← Nat.add_assoc, nextSeqs_concat, ih, nextSeqs_concat, List.append_assoc,
      UInt32.add_assoc, ← UInt32.ofNat_add, Nat.add_assoc]

theorem Session.Reached.numbered {hnd : NlHandle} {evs : List SockEvent} {s : Session}
    (h : Reached hnd evs s) : ∃ n ≤ NL_RETRY_COUNT * s.turns.length,
      (requests s.trace).map Prod.fst = nextSeqs hnd.seq n ∧ s.hnd.pid = hnd.pid ∧
        s.hnd.seq = hnd.seq + UInt32.ofNat n := by
  induction h with
  | opened => exact ⟨0, le_rfl, rfl, rfl, (UInt32.add_zero _).symm⟩
  | @exchange s _ env src ih =>
    obtain ⟨n, hn, hseqs, hpid, hseq⟩ := ih
    obtain ⟨k, hk⟩ := exchangeLoop_numbered env (isDump src) NL_RETRY_COUNT 0 s.hnd s.evs
    rw [← nlExchange] at hk
    have hfew := hk.few
    refine ⟨n + k, ?_, ?_, hk.pid.trans hpid, ?_⟩
    · simp only [Session.exchange, List.length_append, List.length_singleton, Nat.mul_add]
      omega
    · simp only [Session.exchange, Session.trace, List.flatMap_append, List.flatMap_singleton,
        requests_append, List.map_append, requests_turnTrace]
      rw [← Session.trace, hseqs, hk.sends, nextSeqs_add, hseq]
    · simp only [Session.exchange, hk.seq, hseq, UInt32.add_assoc, ← UInt32.ofNat_add]

/-! ## The kernel -/

structure Net where
  got : List (UInt32 × NlMsg) := []
  flight : List Msg := []

/-- `reply` says which messages answer a request. A message may be delivered more than once,
with others in any order, or never. -/
inductive Net.Step (reply : NlMsg → Msg → Prop) (pid : UInt32) :
    Net → List WireOp → Net → Prop where
  | send (net : Net) (seq : UInt32) (src : NlMsg) :
      Step reply pid net [.send seq src] { net with got := net.got ++ [(seq, src)] }
  | reply (net : Net) (src : NlMsg) (m : Msg) (hgot : (m.seq, src) ∈ net.got)
      (hpid : m.pid = pid) (hreply : reply src m) :
      Step reply pid net [] { net with flight := m :: net.flight }
  /-- a message for others, such as a notification -/
  | notify (net : Net) {m : Msg} (hpid : m.pid ≠ pid) :
      Step reply pid net [] { net with flight := m :: net.flight }
  | lose (net : Net) {flight : List Msg} (hsub : flight ⊆ net.flight) :
      Step reply pid net [] { net with flight := flight }
  | event (net : Net) (ev : NetEvent) (hflight : ∀ m ∈ ev.msgs, m ∈ net.flight) :
      Step reply pid net [.event ev.sock] net

inductive Net.Run (reply : NlMsg → Msg → Prop) (pid : UInt32) : List WireOp → Net → Prop where
  | start : Run reply pid [] {}
  | step {ops ops' : List WireOp} {net net' : Net} (h : Run reply pid ops net)
      (hstep : Net.Step reply pid net ops' net') : Run reply pid (ops ++ ops') net'

/-- What is in flight to the handle answers a request the kernel has got. -/
def Answers (reply : NlMsg → Msg → Prop) (pid : UInt32) (got : List (UInt32 × NlMsg))
    (m : Msg) : Prop :=
  m.pid = pid → ∃ src, (m.seq, src) ∈ got ∧ reply src m

def Causal (reply : NlMsg → Msg → Prop) (pid : UInt32) (ops : List WireOp) : Prop :=
  ∀ before ev after, ops = before ++ .event ev :: after →
    ∃ nev : NetEvent, ev = nev.sock ∧ ∀ m ∈ nev.msgs, Answers reply pid (requests before) m

section
variable {reply : NlMsg → Msg → Prop} {pid : UInt32}

theorem Answers.mono {got got' : List (UInt32 × NlMsg)} {m : Msg} (h : Answers reply pid got m)
    (hsub : got ⊆ got') : Answers reply pid got' m := by
  intro hpid
  obtain ⟨src, hsrc, hreply⟩ := h hpid
  exact ⟨src, hsub hsrc, hreply⟩

theorem Causal.concat {ops : List WireOp} {op : WireOp} (h : Causal reply pid ops)
    (hop : ∀ ev, op = .event ev →
      ∃ nev : NetEvent, ev = nev.sock ∧ ∀ m ∈ nev.msgs, Answers reply pid (requests ops) m) :
    Causal reply pid (ops ++ [op]) := by
  intro before ev after hsplit
  rcases List.eq_nil_or_concat' after with rfl | ⟨after', op', rfl⟩
  · obtain ⟨rfl, hlast⟩ := List.append_inj' hsplit rfl
    exact hop ev (List.cons.inj hlast).1
  · have hsplit' : ops ++ [op] = (before ++ .event ev :: after') ++ [op'] := by
      simpa using hsplit
    obtain ⟨hops, -⟩ := List.append_inj' hsplit' rfl
    exact h before ev after' hops

structure Net.Inv (reply : NlMsg → Msg → Prop) (pid : UInt32) (ops : List WireOp) (net : Net) :
    Prop where
  got : net.got = requests ops
  flight : ∀ m ∈ net.flight, Answers reply pid net.got m
  causal : Causal reply pid ops

theorem Net.Step.inv {ops ops' : List WireOp} {net net' : Net}
    (hstep : Net.Step reply pid net ops' net') (h : net.Inv reply pid ops) :
    net'.Inv reply pid (ops ++ ops') := by
  cases hstep with
  | send seq src =>
    refine ⟨?_, fun m hm => (h.flight m hm).mono (List.subset_append_left _ _), ?_⟩
    · rw [requests_append, h.got]
      rfl
    · refine h.causal.concat fun ev hev => ?_
      cases hev
  | @reply src m hgot hpid hreply =>
    rw [List.append_nil]
    refine ⟨h.got, fun m' hm' => ?_, h.causal⟩
    rcases List.mem_cons.mp hm' with rfl | hm'
    · exact fun _ => ⟨src, hgot, hreply⟩
    · exact h.flight m' hm'
  | @notify m hpid =>
    rw [List.append_nil]
    refine ⟨h.got, fun m' hm' => ?_, h.causal⟩
    rcases List.mem_cons.mp hm' with rfl | hm'
    · exact fun h' => absurd h' hpid
    · exact h.flight m' hm'
  | lose hsub =>
    rw [List.append_nil]
    exact ⟨h.got, fun m hm => h.flight m (hsub hm), h.causal⟩
  | event ev hflight =>
    refine ⟨?_, h.flight, ?_⟩
    · rw [requests_append, h.got]
      exact (List.append_nil _).symm
    · refine h.causal.concat fun ev' hev' => ?_
      cases hev'
      exact ⟨ev, rfl, fun m hm => h.got ▸ h.flight m (hflight m hm)⟩

theorem Net.Run.inv {ops : List WireOp} {net : Net} (h : Net.Run reply pid ops net) :
    net.Inv reply pid ops := by
  induction h with
  | start =>
    refine ⟨rfl, fun m hm => absurd hm List.not_mem_nil, ?_⟩
    intro before ev after hsplit
    simp at hsplit
  | step _ hstep ih => exact hstep.inv ih

end

/-! ## The two together -/

section
variable {reply : NlMsg → Msg → Prop} {hnd : NlHandle} {evs : List SockEvent} {s : Session}

theorem Session.Reached.few_requests (h : Reached hnd evs s)
    (hfew : NL_RETRY_COUNT * s.turns.length < 2 ^ 32) : (requests s.trace).length < 2 ^ 32 := by
  obtain ⟨n, hn, hseqs, -⟩ := h.numbered
  have hlength := congrArg List.length hseqs
  rw [List.length_map, length_nextSeqs] at hlength
  rw [hlength]
  exact hn.trans_lt hfew

/-- Fewer than 2³² requests have different sequence numbers, so that the number of a message
tells which request it answers. -/
theorem Session.Reached.request_unique (h : Reached hnd evs s)
    (hfew : (requests s.trace).length < 2 ^ 32) {seq : UInt32} {src src' : NlMsg}
    (hsrc : (seq, src) ∈ requests s.trace) (hsrc' : (seq, src') ∈ requests s.trace) :
    src = src' := by
  obtain ⟨n, -, hseqs, -⟩ := h.numbered
  have hcount : (requests s.trace).length = n := by
    have hlength := congrArg List.length hseqs
    rwa [List.length_map, length_nextSeqs] at hlength
  have hnodup : ((requests s.trace).map Prod.fst).Nodup := by
    rw [hseqs]
    exact nextSeqs_nodup hnd.seq (hcount ▸ hfew)
  exact congrArg Prod.snd (List.inj_on_of_nodup_map hnodup hsrc hsrc' rfl)

theorem Session.Reached.pid_of_mem (h : Reached hnd evs s) {turn : NlMsg × Exchange}
    (hturn : turn ∈ s.turns) : turn.2.hnd.pid = hnd.pid := by
  induction h with
  | opened => cases hturn
  | @exchange s hs env src ih =>
    rcases List.mem_append.mp hturn with hturn | hturn
    · exact ih hturn
    · obtain ⟨k, hk⟩ := exchangeLoop_numbered env (isDump src) NL_RETRY_COUNT 0 s.hnd s.evs
      obtain ⟨-, -, -, hpid, -⟩ := hs.numbered
      rw [List.mem_singleton.mp hturn]
      exact hk.pid.trans hpid

theorem Session.Reached.yields (h : Reached hnd evs s) {turn : NlMsg × Exchange}
    (hturn : turn ∈ s.turns) (h0 : turn.2.err = 0) :
    ∃ before cur, Yields (isDump turn.1) turn.2 before cur := by
  induction h with
  | opened => cases hturn
  | @exchange s _ env src ih =>
    rcases List.mem_append.mp hturn with hturn | hturn
    · exact ih hturn
    · obtain rfl := List.mem_singleton.mp hturn
      exact exchangeLoop_yields env (isDump src) NL_RETRY_COUNT 0 s.hnd s.evs h0

theorem Session.Reached.answers_own (h : Reached hnd evs s)
    (hfew : (requests s.trace).length < 2 ^ 32) {net : Net}
    (hrun : Net.Run reply hnd.pid s.trace net) {src : NlMsg} {x : Exchange}
    (hturn : (src, x) ∈ s.turns) {before : List SockOp} {cur : List SockEvent}
    (hops : x.ops = before ++ .send x.hnd.seq :: cur.map .event) {n : List UInt8}
    (hn : n ∈ answers x.hnd cur) :
    ∃ m : Msg, reply src m ∧ m.pid = hnd.pid ∧ m.seq = x.hnd.seq ∧ StartsAt n m ∧
      (m.isError = true → 4 ≤ m.payload.length) := by
  obtain ⟨hmem, haddr⟩ := List.mem_filter.mp hn
  obtain ⟨ev, hev, hnev⟩ := List.mem_flatMap.mp hmem
  obtain ⟨first, last, rfl⟩ := List.append_of_mem hev
  obtain ⟨pre, post, hturns⟩ := List.append_of_mem hturn
  -- the event in the trace, behind the last send of its exchange
  have htrace : s.trace = (pre.flatMap turnTrace ++ (before.map (SockOp.onWire src) ++
      .send x.hnd.seq src :: first.map .event)) ++ .event ev ::
        (last.map .event ++ post.flatMap turnTrace) := by
    have hshown : turnTrace (src, x) = before.map (SockOp.onWire src) ++
        .send x.hnd.seq src :: first.map .event ++ .event ev :: last.map .event := by
      simp only [turnTrace, hops, List.map_append, List.map_cons, List.map_map, SockOp.onWire,
        List.append_assoc, List.cons_append]
      rfl
    rw [Session.trace, hturns, List.flatMap_append, List.flatMap_cons, hshown]
    simp only [List.append_assoc, List.cons_append]
  obtain ⟨nev, rfl, hnet⟩ := hrun.inv.causal _ _ _ htrace
  obtain ⟨m, hm, hstart⟩ := startsAt_of_mem nev.sock_msgs hnev
  have hanswers : m.answers x.hnd = true := hstart.addressed x.hnd ▸ haddr
  simp only [Msg.answers, Bool.and_eq_true, beq_iff_eq] at hanswers
  have hpid : m.pid = hnd.pid := hanswers.1.trans (h.pid_of_mem hturn)
  obtain ⟨src', hsrc', hreply⟩ := hnet m hm hpid
  have hown : (x.hnd.seq, src) ∈ requests s.trace := by
    rw [mem_requests, htrace]
    simp
  have hother : (x.hnd.seq, src') ∈ requests s.trace := by
    rw [htrace, requests_append]
    exact List.mem_append_left _ (hanswers.2 ▸ hsrc')
  obtain rfl := h.request_unique hfew hown hother
  exact ⟨m, hreply, hpid, hanswers.2, hstart, nev.payload_of_isError hm⟩

/-- Whatever the kernel, the socket and other senders do, what a successful exchange returns
are answers to its own request, to the last sending of it, never to an earlier one of the
session. -/
theorem Session.Reached.own_answers (h : Reached hnd evs s)
    (hfew : (requests s.trace).length < 2 ^ 32) {net : Net}
    (hrun : Net.Run reply hnd.pid s.trace net) {src : NlMsg} {x : Exchange}
    (hturn : (src, x) ∈ s.turns) (h0 : x.err = 0) :
    ∀ e ∈ x.dest, ∃ m : Msg, reply src m ∧ m.pid = hnd.pid ∧ m.seq = x.hnd.seq ∧
      e = ⟨m.bytes, 16⟩ := by
  intro e he
  obtain ⟨before, cur, hops, hdest, -⟩ := h.yields hturn h0
  obtain ⟨n, hn, rfl⟩ := hdest e he
  obtain ⟨m, hreply, hpid, hseq, hstart, -⟩ := h.answers_own hfew hrun hturn hops hn
  exact ⟨m, hreply, hpid, hseq, hstart.nlmsgCopy⟩

theorem Session.Reached.single_answer (h : Reached hnd evs s)
    (hfew : NL_RETRY_COUNT * s.turns.length < 2 ^ 32) {net : Net}
    (hrun : Net.Run reply hnd.pid s.trace net)
    (hack : ∀ src m, reply src m → m.isError = true → m.errorCode ≠ 0) {src : NlMsg}
    {x : Exchange} (hturn : (src, x) ∈ s.turns) (hsrc : isDump src = false) (h0 : x.err = 0) :
    ∃ m : Msg, reply src m ∧ m.isError = false ∧ x.dest = [⟨m.bytes, 16⟩] := by
  have hfew' := h.few_requests hfew
  obtain ⟨before, cur, hops, -, hsingle⟩ := h.yields hturn h0
  rcases hsingle hsrc with ⟨n, hn, htype, hdest⟩ | ⟨-, n, hn, htype, hcode⟩
  · obtain ⟨m, hreply, -, -, hstart, -⟩ := h.answers_own hfew' hrun hturn hops hn
    refine ⟨m, hreply, ?_, hstart.nlmsgCopy ▸ hdest⟩
    obtain ⟨rest, rfl⟩ := hstart
    rw [m.nlmsgType_bytes] at htype
    simp [Msg.isError, htype]
  · obtain ⟨m, hreply, -, -, hstart, hlen⟩ := h.answers_own hfew' hrun hturn hops hn
    have herror : m.isError = true := by
      obtain ⟨rest, rfl⟩ := hstart
      rw [m.nlmsgType_bytes] at htype
      simp [Msg.isError, htype]
    exact absurd (hstart.nlmsgErrError (hlen herror) ▸ hcode) (hack src m hreply herror)

end

/-! A request that gives up, whose answer arrives during the next one. -/

def bareRequest (type : UInt16) : NlMsg := ⟨(bareMsg type 1 0).bytes, 0⟩

/-- The type of an answer is two below that of the request. -/
def sameType (src : NlMsg) (m : Msg) : Prop := nlmsgType src.buf = m.type.toNat + 2

def lateEvents : List NetEvent :=
  [.pollErr 5, .kernel [bareMsg 16 0 1, bareMsg 20 0 2] (by decide) (by decide)]

def lateSession : Session :=
  (Session.exchange ⟨⟨7, 0⟩, lateEvents.map NetEvent.sock, []⟩ {} (bareRequest 18)).exchange {}
    (bareRequest 22)

theorem lateSession_run : ∃ net, Net.Run sameType 7 lateSession.trace net := by
  have hstart : Net.Run sameType 7 [] {} := .start
  have hfirst := hstart.step (.send {} 1 (bareRequest 18))
  have hgaveUp := hfirst.step (.event _ (.pollErr 5) (by simp [NetEvent.msgs]))
  have hanswer := hgaveUp.step (.reply _ (bareRequest 18) (bareMsg 16 0 1)
    (by simp [bareMsg]) rfl (by unfold sameType; decide))
  have hsecond := hanswer.step (.send _ 2 (bareRequest 22))
  have hanswer' := hsecond.step (.reply _ (bareRequest 22) (bareMsg 20 0 2)
    (by simp [bareMsg]) rfl (by unfold sameType; decide))
  exact ⟨_, hanswer'.step (.event _ (.kernel [bareMsg 16 0 1, bareMsg 20 0 2] (by decide)
    (by decide)) (by simp [NetEvent.msgs]))⟩

theorem own_answers_late : ∃ x, (bareRequest 22, x) ∈ lateSession.turns ∧ x.err = 0 ∧
    x.dest ≠ [] ∧ ∀ e ∈ x.dest, ∃ m : Msg, sameType (bareRequest 22) m ∧ m.pid = 7 ∧
      m.seq = x.hnd.seq ∧ e = ⟨m.bytes, 16⟩ := by
  obtain ⟨net, hrun⟩ := lateSession_run
  have hreached : Session.Reached ⟨7, 0⟩ (lateEvents.map NetEvent.sock) lateSession :=
    (Session.Reached.opened.exchange {} _).exchange {} _
  refine ⟨_, List.mem_append_right _ (List.mem_singleton.mpr rfl), by decide, by decide, ?_⟩
  exact hreached.own_answers (hreached.few_requests (by decide)) hrun
    (List.mem_append_right _ (List.mem_singleton.mpr rfl)) (by decide)

end Plotnetcfg.Netlink
