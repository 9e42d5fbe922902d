import Plotnetcfg.Netlink.Exchange

/-! What a dump request brings home: which messages of the kernel an accepted exchange
yields, and which accepted dumps are complete and consistent. -/

namespace Plotnetcfg.Netlink

open Bytes AlignedRecords

/-! ## Against the kernel's messages -/

def Msg.isError (m : Msg) : Bool := m.type.toNat == NLMSG_ERROR
def Msg.isDone (m : Msg) : Bool := m.type.toNat == NLMSG_DONE
def Msg.errorCode (m : Msg) : Int := sint 0 4 m.payload
def Msg.answers (hnd : NlHandle) (m : Msg) : Bool := m.pid == hnd.pid && m.seq == hnd.seq

/-- What can happen at the socket: a kernel datagram holds whole messages and fits the
receive buffer, one of another sender holds anything. -/
inductive NetEvent where
  | pollErr (e : Errno)
  | timeout
  | recvErr (e : Errno)
  | kernel (ms : List Msg) (fits : (wire ms).length ≤ RECV_BUF_SIZE)
      (errors : ∀ m ∈ ms, m.isError → 4 ≤ m.payload.length)
  | other (srcPid : UInt32) (data : List UInt8) (foreign : srcPid ≠ 0)

def NetEvent.sock : NetEvent → SockEvent
  | .pollErr e => .pollErr e
  | .timeout => .timeout
  | .recvErr e => .recvErr e
  | .kernel ms _ _ => .datagram 0 (wire ms)
  | .other srcPid data _ => .datagram srcPid data

def NetEvent.msgs : NetEvent → List Msg
  | .kernel ms _ _ => ms
  | _ => []

def kernelAnswers (hnd : NlHandle) (evs : List NetEvent) : List Msg :=
  (evs.flatMap NetEvent.msgs).filter (Msg.answers hnd)

def dumpBytes (ms : List Msg) : List (List UInt8) :=
  (ms.takeWhile fun m => !m.isDone).map Msg.bytes

namespace StartsAt
variable {n : List UInt8} {m : Msg}

theorem addressed (h : StartsAt n m) (hnd : NlHandle) : addressed hnd n = m.answers hnd := by
  obtain ⟨rest, rfl⟩ := h
  rw [Netlink.addressed, m.nlmsgPid_bytes, m.nlmsgSeq_bytes, Bool.eq_iff_iff]
  simp [Msg.answers, UInt32.toNat_inj]

theorem isDone (h : StartsAt n m) : isDone n = m.isDone := by
  obtain ⟨rest, rfl⟩ := h
  rw [Netlink.isDone, m.nlmsgType_bytes, Msg.isDone]

theorem nlmsgErrError (h : StartsAt n m) (hlen : 4 ≤ m.payload.length) :
    nlmsgErrError n = m.errorCode := by
  obtain ⟨rest, rfl⟩ := h
  have hslice : slice 16 4 (m.bytes ++ rest) = slice 0 4 m.payload := by
    rw [slice_append_left (by rw [m.length_bytes]; omega)]
    unfold slice
    rw [Msg.bytes, List.drop_left' (by simp), List.drop_zero]
  rw [Netlink.nlmsgErrError, Msg.errorCode, sint, sint, uint, uint, NLMSG_HDRLEN, hslice]

end StartsAt

theorem NetEvent.sock_msgs (ev : NetEvent) : List.Forall₂ StartsAt ev.sock.msgs ev.msgs := by
  cases ev with
  | kernel ms fits errors =>
    simp only [NetEvent.sock, SockEvent.msgs, if_true, NetEvent.msgs]
    rw [List.take_of_length_le fits]
    exact nlmsgs_wire ms
  | other srcPid data foreign =>
    simp only [NetEvent.sock, SockEvent.msgs, if_neg foreign, NetEvent.msgs]
    exact .nil
  | _ => exact .nil

theorem sock_flatMap_msgs (evs : List NetEvent) :
    List.Forall₂ StartsAt ((evs.map NetEvent.sock).flatMap SockEvent.msgs)
      (evs.flatMap NetEvent.msgs) := by
  induction evs with
  | nil => exact .nil
  | cons ev evs ih => exact List.rel_append ev.sock_msgs ih

theorem answers_sock (hnd : NlHandle) (evs : List NetEvent) :
    List.Forall₂ StartsAt (answers hnd (evs.map NetEvent.sock)) (kernelAnswers hnd evs) := by
  refine List.rel_filter (fun n m h => ?_) (sock_flatMap_msgs evs)
  show addressed hnd n = true ↔ m.answers hnd = true
  rw [h.addressed]

theorem startsAt_of_mem {ns : List (List UInt8)} {ms : List Msg}
    (h : List.Forall₂ StartsAt ns ms) {n : List UInt8} (hn : n ∈ ns) :
    ∃ m ∈ ms, StartsAt n m := by
  induction h with
  | nil => simp at hn
  | cons hstart _ ih =>
    rcases List.mem_cons.mp hn with rfl | hn
    · exact ⟨_, List.mem_cons_self, hstart⟩
    · obtain ⟨m, hm, hnm⟩ := ih hn
      exact ⟨m, List.mem_cons_of_mem _ hm, hnm⟩

/-- Copying the answers up to the end of the dump copies the kernel's messages. -/
theorem beforeEnd_sock {ns : List (List UInt8)} {ms : List Msg}
    (h : List.Forall₂ StartsAt ns ms) {e : List UInt8} (hend : firstEnd ns = some e)
    (hdone : isDone e = true) :
    (∃ m ∈ ms, m.isDone = true) ∧
      ((beforeEnd ns).map nlmsgCopy).map NlMsg.buf = dumpBytes ms := by
  induction h with
  | nil => simp [firstEnd] at hend
  | @cons n m ns ms hn _ ih =>
    cases hn_end : isEnd n with
    | true =>
      obtain rfl : n = e := by simpa [firstEnd, hn_end] using hend
      have hm : m.isDone = true := hn.isDone ▸ hdone
      exact ⟨⟨m, List.mem_cons_self, hm⟩, by simp [beforeEnd, dumpBytes, hn_end, hm]⟩
    | false =>
      have hm : m.isDone = false := by
        rw [← hn.isDone]
        exact (Bool.or_eq_false_iff.mp hn_end).1
      obtain ⟨⟨d, hd, hdone'⟩, hbytes⟩ := ih (by simpa [firstEnd, hn_end] using hend)
      simp only [beforeEnd, dumpBytes] at hbytes
      exact ⟨⟨d, List.mem_cons_of_mem _ hd, hdone'⟩,
        by simp [beforeEnd, dumpBytes, hn_end, hm, hn.nlmsgCopy, hbytes]⟩

/-- Without error messages of code 0 a successful attempt is a whole dump. -/
theorem assembled_sock {ns : List (List UInt8)} {ms : List Msg}
    (h : List.Forall₂ StartsAt ns ms)
    (hack : ∀ m ∈ ms, m.isError = true → 4 ≤ m.payload.length ∧ m.errorCode ≠ 0)
    {dest : List NlMsg} (hdest : Assembled ns [] dest) :
    (∃ m ∈ ms, m.isDone = true) ∧ dest.map NlMsg.buf = dumpBytes ms := by
  obtain ⟨e, hend, hdest⟩ := hdest
  by_cases hdone : isDone e = true
  · rw [if_pos hdone, List.nil_append] at hdest
    exact hdest ▸ beforeEnd_sock h hend hdone
  · rw [if_neg hdone] at hdest
    obtain ⟨m, hm, hstart⟩ := startsAt_of_mem h (List.mem_of_find?_eq_some hend)
    have herror : m.isError = true := by
      have hsome := List.find?_some hend
      rw [isEnd, Bool.or_eq_true] at hsome
      obtain ⟨rest, rfl⟩ := hstart
      simpa [m.nlmsgType_bytes, Msg.isError] using hsome.resolve_left hdone
    obtain ⟨hlen, hcode⟩ := hack m hm herror
    exact absurd (hstart.nlmsgErrError hlen ▸ hdest.1) hcode

/-- The dump of an exchange is exact: `earlier` is what arrived before its last request was
sent, `cur` what arrived from then on. -/
structure ExactDump (hnd : NlHandle) (x : Exchange) (earlier cur later : List NetEvent) :
    Prop where
  pid : x.hnd.pid = hnd.pid
  /-- the last request carries the handle's sequence number, and no earlier one does -/
  ops : ∃ before, x.ops = before ++ .send x.hnd.seq :: cur.map (.event ∘ NetEvent.sock) ∧
    events before = earlier.map NetEvent.sock ∧ x.hnd.seq ∉ sends before
  /-- the end of the dump arrived -/
  done : ∃ m ∈ kernelAnswers x.hnd cur, m.isDone = true
  dest : x.dest.map NlMsg.buf = dumpBytes (kernelAnswers x.hnd cur)
  /-- no answer gets lost at the seams: unless the kernel answers a request before it is
  sent, the dump is that of all the events -/
  whole : kernelAnswers x.hnd earlier = [] →
    x.dest.map NlMsg.buf = dumpBytes (kernelAnswers x.hnd (earlier ++ cur ++ later))
  sent : (sends x.ops).length ≤ NL_RETRY_COUNT

theorem dumpBytes_append {ms : List Msg} (h : ∃ m ∈ ms, m.isDone = true) (later : List Msg) :
    dumpBytes (ms ++ later) = dumpBytes ms := by
  obtain ⟨m, hm, hdone⟩ := h
  have hlt : (ms.takeWhile fun m => !m.isDone).length ≠ ms.length := by
    intro heq
    have hall := List.takeWhile_eq_self_iff.mp ((List.takeWhile_prefix _).eq_of_length heq)
    simpa [hdone] using hall m hm
  rw [dumpBytes, List.takeWhile_append, if_neg hlt, dumpBytes]

theorem NetEvent.payload_of_isError (ev : NetEvent) {m : Msg} (hm : m ∈ ev.msgs)
    (herr : m.isError = true) : 4 ≤ m.payload.length := by
  cases ev with
  | kernel ms fits errors => exact errors m hm herr
  | _ => simp [NetEvent.msgs] at hm

theorem nlExchange_exactDump (env : SockEnv) (hnd : NlHandle) (src : NlMsg)
    (evs : List NetEvent) (hdump : isDump src = true)
    (hack : ∀ m ∈ evs.flatMap NetEvent.msgs, m.isError = true → m.errorCode ≠ 0)
    (h0 : (nlExchange env hnd src (evs.map NetEvent.sock)).err = 0) :
    ∃ earlier cur later, evs = earlier ++ cur ++ later ∧
      ExactDump hnd (nlExchange env hnd src (evs.map NetEvent.sock)) earlier cur later := by
  unfold nlExchange at h0 ⊢
  rw [hdump] at h0 ⊢
  obtain ⟨n, hn, before, cur, rest, hacc⟩ :=
    exchangeLoop_dump env NL_RETRY_COUNT 0 hnd _ h0
  obtain ⟨front, later, rfl, hfront, rfl⟩ := List.map_eq_append_iff.mp hacc.evs
  obtain ⟨earlier, cur, rfl, hearlier, rfl⟩ := List.map_eq_append_iff.mp hfront
  generalize exchangeLoop env true NL_RETRY_COUNT 0 hnd _ = x at *
  have hkernel : ∀ m ∈ kernelAnswers x.hnd cur,
      m.isError = true → 4 ≤ m.payload.length ∧ m.errorCode ≠ 0 := by
    intro m hm herr
    obtain ⟨ev, hev, hmev⟩ := List.mem_flatMap.mp (List.mem_filter.mp hm).1
    exact ⟨ev.payload_of_isError hmev herr,
      hack m (List.mem_flatMap.mpr ⟨ev, by simp [hev], hmev⟩) herr⟩
  obtain ⟨hdone, hdest⟩ := assembled_sock (answers_sock x.hnd cur) hkernel hacc.assembled
  have hseqs : nextSeqs hnd.seq (n + 1) = sends before ++ [x.hnd.seq] := by
    rw [nextSeqs_concat, hacc.sends, hacc.seq]
  refine ⟨earlier, cur, later, rfl, ?_⟩
  exact {
    pid := hacc.pid
    ops := by
      refine ⟨before, ?_, hearlier.symm, ?_⟩
      · rw [hacc.ops, List.map_map]
      · have hnodup := nextSeqs_nodup hnd.seq (n := n + 1) (by unfold NL_RETRY_COUNT at hn; omega)
        rw [hseqs] at hnodup
        exact fun hmem => (List.nodup_append.mp hnodup).2.2 _ hmem _ (by simp) rfl
    done := hdone
    dest := hdest
    whole := by
      intro hnone
      have hsplit : kernelAnswers x.hnd (earlier ++ cur ++ later) =
          kernelAnswers x.hnd cur ++ kernelAnswers x.hnd later := by
        rw [kernelAnswers, List.flatMap_append, List.flatMap_append, List.filter_append,
          List.filter_append, ← kernelAnswers, hnone, List.nil_append, ← kernelAnswers,
          ← kernelAnswers]
      rw [hdest, hsplit, dumpBytes_append hdone]
    sent := by
      rw [hacc.ops, sends_append, sends_send, sends_events, ← hseqs, nextSeqs, List.length_map,
        List.length_range]
      exact hn }

def bareMsg (type flags : UInt16) (seq : UInt32) : Msg where
  type := type
  flags := flags
  seq := seq
  pid := 7
  payload := []
  pad := []
  fits := by decide
  aligned := rfl

def dumpRequest : NlMsg := ⟨(bareMsg 18 0x301 0).bytes, 0⟩

/-- The first reply comes too late, together with the second one. -/
theorem nlExchange_exactDump_late_reply :
    let evs : List NetEvent := [.timeout, .kernel [bareMsg 16 2 1, bareMsg 3 2 1, bareMsg 16 2 2]
      (by decide) (by decide), .kernel [bareMsg 3 2 2] (by decide) (by decide)]
    ∃ earlier cur later, evs = earlier ++ cur ++ later ∧ ExactDump ⟨7, 0⟩
      (nlExchange {} ⟨7, 0⟩ dumpRequest (evs.map NetEvent.sock)) earlier cur later :=
  nlExchange_exactDump {} ⟨7, 0⟩ dumpRequest _ (by decide) (by decide) (by decide)

/-! ## Inconsistent dumps -/

def interrupted (n : List UInt8) : Bool := nlmsgFlags n &&& NLM_F_DUMP_INTR != 0

def failed (n : List UInt8) : Bool := NLMSG_HDRLEN + 4 ≤ nlmsgLen n && sint NLMSG_HDRLEN 4 n < 0

def lastAttempt (ops : List SockOp) : List SockEvent :=
  ops.foldl (fun evs op => match op with
    | .send _ => []
    | .event ev => evs ++ [ev]) []

def accepted (x : Exchange) : List (List UInt8) := answers x.hnd (lastAttempt x.ops)

/-- Neither a message of the accepted dump nor the one that ends it says that the dump was
interrupted, and the end does not carry an error. -/
def ConsistentDump (x : Exchange) : Prop :=
  ∀ n ∈ beforeEnd (accepted x) ++ (firstEnd (accepted x)).toList,
    interrupted n = false ∧ (isDone n = true → failed n = false)

instance (x : Exchange) : Decidable (ConsistentDump x) := by
  unfold ConsistentDump
  infer_instance

/-- The message that ends the accepted attempt shows nothing wrong: an `NLMSG_DONE` is not
flagged and carries no error. At an error message of code 0, which drops the answers before
it, none of them is flagged. -/
def CleanEnd (ns : List (List UInt8)) : Prop :=
  ∀ e, firstEnd ns = some e →
    if isDone e then interrupted e = false ∧ failed e = false
    else ∀ n ∈ beforeEnd ns ++ [e], interrupted n = false

theorem lastAttempt_append (before : List SockOp) (seq : UInt32) (cur : List SockEvent) :
    lastAttempt (before ++ .send seq :: cur.map .event) = cur := by
  have hcur : ∀ evs : List SockEvent, (cur.map SockOp.event).foldl (fun evs op => match op with
      | .send _ => []
      | .event ev => evs ++ [ev]) evs = evs ++ cur := by
    induction cur with
    | nil => simp
    | cons ev cur ih => simp [ih]
  rw [lastAttempt, List.foldl_append, List.foldl_cons]
  exact hcur []

theorem nlmsgFlags_nlmsgCopy {n : List UInt8} (h : Fits NLMSG_HDRLEN nlmsgLen n) :
    nlmsgFlags (nlmsgCopy n).buf = nlmsgFlags n := by
  obtain ⟨-, hlen, hle⟩ := h
  have hflags : 6 + 2 ≤ (n.take (nlmsgLen n)).length := by
    rw [List.length_take, min_eq_left hle]
    exact le_trans (by decide) hlen
  have hsplit := uint_append_left hflags (n.drop (nlmsgLen n))
  rw [List.take_append_drop] at hsplit
  rw [nlmsgCopy_eq, nlmsgFlags, nlmsgFlags, hsplit]

theorem fits_of_mem_answers {hnd : NlHandle} {evs : List SockEvent} {n : List UInt8}
    (h : n ∈ answers hnd evs) : Fits NLMSG_HDRLEN nlmsgLen n := by
  obtain ⟨ev, -, hev⟩ := List.mem_flatMap.mp (List.mem_filter.mp h).1
  cases ev with
  | datagram srcPid data =>
    rw [SockEvent.msgs] at hev
    split at hev
    · exact fits_of_mem_records hev
    · simp at hev
  | _ => simp [SockEvent.msgs] at hev

/-- An accepted dump is consistent exactly when the message that ends it shows nothing
wrong: the check for an interruption sees only the messages before it. -/
theorem nlExchange_consistent_iff (env : SockEnv) (hnd : NlHandle) (src : NlMsg)
    (evs : List SockEvent) (hdump : isDump src = true) (h0 : (nlExchange env hnd src evs).err = 0) :
    ConsistentDump (nlExchange env hnd src evs) ↔
      CleanEnd (accepted (nlExchange env hnd src evs)) := by
  unfold nlExchange at h0 ⊢
  rw [hdump] at h0 ⊢
  obtain ⟨n, -, before, cur, rest, hacc⟩ := exchangeLoop_dump env NL_RETRY_COUNT 0 hnd _ h0
  generalize exchangeLoop env true NL_RETRY_COUNT 0 hnd evs = x at *
  have hcur : accepted x = answers x.hnd cur := by
    rw [accepted, hacc.ops, lastAttempt_append]
  obtain ⟨e, hend, hdest⟩ := hacc.assembled
  unfold ConsistentDump CleanEnd
  rw [hcur]
  simp only [hend, Option.toList_some, Option.some.injEq, forall_eq']
  by_cases hdone : isDone e = true
  · rw [if_pos hdone, List.nil_append] at hdest
    rw [if_pos hdone]
    constructor
    · intro h
      obtain ⟨hintr, hfail⟩ := h e (by simp)
      exact ⟨hintr, hfail hdone⟩
    · intro h n hn
      rcases List.mem_append.mp hn with hn | hn
      · have hmem := (List.takeWhile_sublist _).subset hn
        have hcheck := hacc.uninterrupted
        rw [hdest, nlCheckInterruptedDump, List.any_map, List.any_eq_false] at hcheck
        have hflags := hcheck n hn
        rw [Function.comp_apply, nlmsgFlags_nlmsgCopy (fits_of_mem_answers hmem)] at hflags
        have hnot : isDone n = false := by
          have := List.mem_takeWhile_imp hn
          simp only [Bool.not_eq_true', isEnd, Bool.or_eq_false_iff] at this
          exact this.1
        exact ⟨by simpa [interrupted] using hflags, fun h => by simp [hnot] at h⟩
      · obtain rfl := List.mem_singleton.mp hn
        exact ⟨h.1, fun _ => h.2⟩
  · rw [if_neg hdone]
    constructor
    · exact fun h n hn => (h n hn).1
    · refine fun h n hn => ⟨h n hn, fun hn_done => ?_⟩
      rcases List.mem_append.mp hn with hn | hn
      · have := List.mem_takeWhile_imp hn
        simp [isEnd, hn_done] at this
      · exact absurd (List.mem_singleton.mp hn ▸ hn_done) hdone

theorem nlExchange_consistent_clean :
    let x := nlExchange {} ⟨7, 0⟩ dumpRequest [.datagram 0 (wire [bareMsg 16 2 1, bareMsg 3 2 1])]
    ConsistentDump x ↔ CleanEnd (accepted x) :=
  nlExchange_consistent_iff {} ⟨7, 0⟩ dumpRequest _ (by decide) (by decide)

theorem nlExchange_interrupted_end :
    let x := nlExchange {} ⟨7, 0⟩ dumpRequest
      [.datagram 0 (wire [bareMsg 16 2 1, bareMsg 3 0x12 1])]
    isDump dumpRequest = true ∧ x.err = 0 ∧ ¬ ConsistentDump x := by
  decide

end Plotnetcfg.Netlink
