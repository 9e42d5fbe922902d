import Plotnetcfg.Netlink.Build
import Plotnetcfg.Netlink.Session

/-! Requests with the header of a family (`rtnlmsg_new` and `genlmsg_new` in `netlink.c`), and the
questions whose answer is one attribute. -/

namespace Plotnetcfg.Netlink

open Bytes AlignedRecords

section
-- whether `nlmsg_new` and the calls of `realloc` get their memory
variable (alloc : Bool) (realloc : Nat → Bool)

/-- `nlmsg_put_padded` of data that is not longer than `size`. -/
def nlmsgPutPadded (m : OutMsg) (data : List UInt8) (size : Nat) : Option OutMsg :=
  nlmsgPut realloc m (data ++ zeros (size - data.length))

def rtnlmsgNew (type : UInt16) (family : UInt8) (flags : UInt16) (size : Nat) : Option OutMsg :=
  if alloc then nlmsgPutPadded realloc (nlmsgNew type flags) [family] size else none

/-- The version is 1. -/
def genlmsgNew (type : UInt16) (cmd : UInt8) (flags : UInt16) : Option OutMsg :=
  if alloc then nlmsgPut realloc (nlmsgNew type flags) [cmd, 1, 0, 0] else none

end

/-- The first attribute of a type behind a header of `hdrlen` bytes. -/
def firstAttr (resp : NlMsg) (hdrlen type : Nat) : Option (List UInt8) :=
  (nlmsgGet resp hdrlen).bind fun p => (nlas p.2).find? (nlaType · == type)

/-- What `netns_get_id` and `genl_family_id` do with their request: the attribute they look for,
if there is one. Without an answer the null pointer is dereferenced. -/
def askAttr (sock : SockEnv) (req : Option OutMsg) (hdrlen type : Nat) (s : Session) :
    Option (Option (List UInt8)) × Session :=
  match req with
  | none => (some none, s)
  | some req =>
    let x := nlExchange sock s.hnd req.msg s.evs
    let s := s.exchange sock req.msg
    if x.err ≠ 0 then (some none, s)
    else match x.dest with
      | [] => (none, s)
      | resp :: _ => (some (firstAttr resp hdrlen type), s)

/-! ## What a request says -/

theorem nlmsgPut_isSome (realloc : Nat → Bool) (m : OutMsg) (data : List UInt8)
    (h : align m.msg.buf.length + data.length ≤ m.allocated) :
    ∃ m', nlmsgPut realloc m data = some m' ∧ m'.allocated = m.allocated := by
  have hfit : nlmsgRealloc realloc m.allocated (nlmsgPutRaw m.msg data 0).buf.length =
      some m.allocated := by
    rw [nlmsgRealloc, if_pos (by rwa [length_nlmsgPutRaw])]
  rw [nlmsgPut]
  split
  · rename_i hnone
    rw [hfit] at hnone
    cases hnone
  · rename_i allocated hsome
    rw [hfit] at hsome
    exact ⟨_, rfl, (Option.some.inj hsome).symm⟩

section
variable {realloc : Nat → Bool} {m m' : OutMsg}

theorem nlas_nlaPuts {puts : List (UInt16 × List UInt8)}
    (hm : nlmsgLen m.msg.buf = m.msg.buf.length % 2 ^ 32)
    (hputs : ∀ p ∈ puts, p.2.length ≤ 65531) (h : nlaPuts realloc m puts = some m') :
    List.Forall₂ Encodes (nlas { m'.msg with start := align m.msg.buf.length }) puts := by
  obtain ⟨hdrop, -⟩ := nlaPuts_bytes h hm
  have hlength : (m'.msg.buf.drop (align m.msg.buf.length)).length =
      m'.msg.buf.length - align m.msg.buf.length := List.length_drop
  have hwhole := nlasOf_append (m'.msg.buf.drop (align m.msg.buf.length)) []
  simp only [List.append_nil, List.map_id'] at hwhole
  rw [nlas, ← hlength, hwhole, drop_align_behind m.header hdrop]
  exact records_attrsBytes hputs

theorem nlmsgFlags_drop (buf : List UInt8) : nlmsgFlags buf = uint 2 2 (buf.drop 4) := by
  rw [nlmsgFlags, uint, uint, slice, slice, List.drop_drop]

theorem nlmsgFlags_of_drop {buf buf' rest : List UInt8} (hlen : 8 ≤ buf.length)
    (h : buf'.drop 4 = buf.drop 4 ++ rest) : nlmsgFlags buf' = nlmsgFlags buf := by
  have hdrop : 2 + 2 ≤ (buf.drop 4).length := by
    rw [List.length_drop]
    omega
  rw [nlmsgFlags_drop, nlmsgFlags_drop, h, uint_append_left hdrop]

theorem nlmsgFlags_nlmsgPut {data : List UInt8} (h : nlmsgPut realloc m data = some m') :
    nlmsgFlags m'.msg.buf = nlmsgFlags m.msg.buf := by
  have hheader := m.header
  unfold NLMSG_HDRLEN at hheader
  have hdrop := (nlmsgPut_bytes h).1
  rw [List.append_assoc] at hdrop
  exact nlmsgFlags_of_drop (by omega) hdrop

theorem nlmsgFlags_nlaPut {type : UInt16} {data : List UInt8}
    (h : nlaPut realloc m type data = some m') :
    nlmsgFlags m'.msg.buf = nlmsgFlags m.msg.buf := by
  have hheader := m.header
  unfold NLMSG_HDRLEN at hheader
  exact nlmsgFlags_of_drop (by omega) (nlaPut_bytes h).1

theorem question_spec {m₀ : OutMsg} {header data : List UInt8} {type attr : UInt16}
    (h₀ : m₀ = nlmsgNew type 0) (hhead : nlmsgPut realloc m₀ header = some m)
    (hattr : nlaPut realloc m attr data = some m') (hdata : data.length ≤ 65531) :
    isDump m'.msg = false ∧
      List.Forall₂ Encodes (nlas { m'.msg with start := 16 + align header.length })
        [(attr, data)] := by
  subst h₀
  obtain ⟨-, hlength, hlen⟩ := nlmsgPut_bytes hhead
  have halign : align m.msg.buf.length = 16 + align header.length := by
    rw [hlength]
    have hnew : (nlmsgNew type 0).msg.buf.length = 16 := by simp [nlmsgNew, setNlmsgLen, zeros]
    rw [hnew]
    unfold align
    omega
  constructor
  · rw [isDump, nlmsgFlags_nlaPut hattr, nlmsgFlags_nlmsgPut hhead]
    have hflags : nlmsgFlags (nlmsgNew type 0).msg.buf = 1 := by
      have hprefix := uint_prefix_leBytes (leBytes 4 16 ++ leBytes 2 type.toNat) (zeros 8) (k := 2)
        (v := 1) (by decide)
      simpa [nlmsgFlags, nlmsgNew, setNlmsgLen, zeros, NLM_F_REQUEST] using hprefix
    rw [hflags]
    decide
  · rw [← halign]
    have hputs : nlaPuts realloc m [(attr, data)] = some m' := by
      rw [nlaPuts, hattr]
      rfl
    exact nlas_nlaPuts hlen (by simpa using hdata) hputs

end

/-! ## What the kernel tells -/

/-- A message that answers a question: an error, or attributes, the first of the type asked for
with the value `value` has for the request. -/
def Tells (hdrlen type : Nat) (value : NlMsg → Option (List UInt8)) (src : NlMsg) (m : Msg) :
    Prop :=
  (m.isError = true ∧ m.errorCode ≠ 0) ∨
    m.isError = false ∧ ∃ header puts, header.length = align hdrlen ∧
      (∀ p ∈ puts, p.2.length ≤ 65531) ∧ m.payload = header ++ attrsBytes puts ∧
      (puts.find? (·.1.toNat == type)).map Prod.snd = value src

theorem find?_forall₂ {α β : Type} {R : α → β → Prop} {p : α → Bool} {q : β → Bool}
    (hpq : ∀ x y, R x y → p x = q y) {xs : List α} {ys : List β} (h : List.Forall₂ R xs ys) :
    Option.Rel R (xs.find? p) (ys.find? q) := by
  induction h with
  | nil => exact .none
  | @cons x y xs ys hxy _ ih =>
    rw [List.find?_cons, List.find?_cons, ← hpq x y hxy]
    cases p x with
    | true => exact .some hxy
    | false => exact ih

theorem rel_map {α β γ : Type} {R : α → β → Prop} {S : α → γ → Prop} {f : β → γ}
    (hf : ∀ x y, R x y → S x (f y)) {a : Option α} {b : Option β} (h : Option.Rel R a b) :
    Option.Rel S a (b.map f) := by
  cases h with
  | none => exact .none
  | some hxy => exact .some (hf _ _ hxy)

theorem firstAttr_tells {hdrlen type : Nat} {value : NlMsg → Option (List UInt8)} {src : NlMsg}
    {m : Msg} (h : Tells hdrlen type value src m) (hok : m.isError = false) :
    Option.Rel (fun a p => ∃ rest, nlaRead a = p ++ rest)
      (firstAttr ⟨m.bytes, 16⟩ hdrlen type) (value src) := by
  rcases h with ⟨herr, -⟩ | ⟨-, header, puts, hheader, hputs, hpayload, hvalue⟩
  · rw [hok] at herr
    cases herr
  · have hlen := m.length_bytes
    have hplen : m.payload.length = header.length + (attrsBytes puts).length := by
      rw [hpayload, List.length_append]
    have hroom : ¬ m.bytes.length - 16 < hdrlen := by
      have hle := le_align hdrlen
      omega
    -- the header ends where the attributes start
    have hdrop : m.bytes.drop (16 + align hdrlen) = attrsBytes puts := by
      have hsplit : m.bytes = (leBytes 4 (16 + m.payload.length) ++ leBytes 2 m.type.toNat ++
          leBytes 2 m.flags.toNat ++ leBytes 4 m.seq.toNat ++ leBytes 4 m.pid.toNat ++ header) ++
          attrsBytes puts := by
        simp only [Msg.bytes, hpayload, List.append_assoc]
      rw [hsplit, List.drop_left']
      simp only [List.length_append, length_leBytes, hheader]
    have hattrs : List.Forall₂ Encodes (nlas ⟨m.bytes, 16 + align hdrlen⟩) puts := by
      have hlength : (m.bytes.drop (16 + align hdrlen)).length =
          m.bytes.length - (16 + align hdrlen) := List.length_drop
      have hwhole := nlasOf_append (m.bytes.drop (16 + align hdrlen)) []
      simp only [List.append_nil, List.map_id'] at hwhole
      rw [nlas, ← hlength, hwhole, hdrop]
      exact records_attrsBytes hputs
    have hfind := find?_forall₂ (p := (nlaType · == type)) (q := (·.1.toNat == type))
      (fun a p hap => by
        obtain ⟨-, rest, rfl, -⟩ := hap
        rw [nlaType_attrBytes]) hattrs
    have hfirst : firstAttr ⟨m.bytes, 16⟩ hdrlen type =
        (nlas ⟨m.bytes, 16 + align hdrlen⟩).find? (nlaType · == type) := by
      simp only [firstAttr, nlmsgGet, if_neg hroom, Option.bind_some]
    rw [hfirst, ← hvalue]
    refine rel_map (fun a p hap => ?_) hfind
    obtain ⟨-, rest, rfl, -⟩ := hap
    exact ⟨rest, nlaRead_attrBytes rest⟩

section
variable {sock : SockEnv} {req : OutMsg} {hdrlen type : Nat} {s : Session}

theorem askAttr_session : (askAttr sock (some req) hdrlen type s).2 = s.exchange sock req.msg := by
  simp only [askAttr]
  split_ifs
  · rfl
  · split <;> rfl

/-- In any run of the kernel the question ends without an answer, or with what the kernel tells
about this request. -/
theorem askAttr_tells {value : NlMsg → Option (List UInt8)} {hnd : NlHandle}
    {evs : List SockEvent} {S : Session} (hS : Session.Reached hnd evs S)
    (hfew : NL_RETRY_COUNT * S.turns.length < 2 ^ 32) {net : Net}
    (hrun : Net.Run (Tells hdrlen type value) hnd.pid S.trace net)
    (hturn : (req.msg, nlExchange sock s.hnd req.msg s.evs) ∈ S.turns)
    (hdump : isDump req.msg = false) :
    ∃ a, (askAttr sock (some req) hdrlen type s).1 = some a ∧
      ((nlExchange sock s.hnd req.msg s.evs).err ≠ 0 ∧ a = none ∨
        Option.Rel (fun a p => ∃ rest, nlaRead a = p ++ rest) a (value req.msg)) := by
  by_cases h0 : (nlExchange sock s.hnd req.msg s.evs).err = 0
  · have hack : ∀ src m, Tells hdrlen type value src m → m.isError = true → m.errorCode ≠ 0 := by
      rintro src m (⟨-, hcode⟩ | ⟨hok, -⟩) herr
      · exact hcode
      · rw [hok] at herr
        cases herr
    obtain ⟨m, htells, hok, hdest⟩ := hS.single_answer hfew hrun hack hturn hdump h0
    refine ⟨_, ?_, .inr (firstAttr_tells htells hok)⟩
    simp [askAttr, h0, hdest]
  · exact ⟨none, by simp [askAttr, h0], .inl ⟨h0, rfl⟩⟩

end

end Plotnetcfg.Netlink
