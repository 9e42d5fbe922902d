import Plotnetcfg.Core.Topology

/-! Network addresses (`addr.c`) and their text form (`inet_ntop`). -/

namespace Plotnetcfg

def AF_INET : Int := 2
def AF_INET6 : Int := 10

def joinWith (sep : CStr) (parts : List CStr) : CStr := (parts.intersperse sep).flatten

theorem joinWith_cons (sep part : CStr) {parts : List CStr} (h : parts ≠ []) :
    joinWith sep (part :: parts) = part ++ sep ++ joinWith sep parts := by
  obtain ⟨next, rest, rfl⟩ := List.exists_cons_of_ne_nil h
  simp [joinWith]

theorem joinWith_concat (sep part : CStr) (parts : List CStr) :
    joinWith sep (parts ++ [part]) = parts.flatMap (· ++ sep) ++ part := by
  induction parts with
  | nil => simp [joinWith]
  | cons next parts ih =>
    rw [List.cons_append, joinWith_cons sep next (by simp), ih, List.flatMap_cons]
    simp only [List.append_assoc]

/-- `%x`. -/
def hex (n : Nat) : CStr :=
  if n = 0 then [48]
  else (Nat.digits 16 n).reverse.map fun d => UInt8.ofNat (if d < 10 then 48 + d else 87 + d)

def inetNtop4 (raw : List UInt8) : CStr :=
  joinWith (cstr ".") ((raw.take 4).map fun b => decimal b.toNat)

def ip6Words (raw : List UInt8) : List Nat :=
  (List.range 8).map fun i => 256 * (raw.getD (2 * i) 0).toNat + (raw.getD (2 * i + 1) 0).toNat

def zeroRun (words : List Nat) (i : Nat) : Nat := ((words.drop i).takeWhile (· = 0)).length

/-- The first of the longest runs of zero words. -/
def longestZeroRun (words : List Nat) : Nat :=
  (List.range 8).foldl (fun best i => if zeroRun words best < zeroRun words i then i else best) 0

def inetNtop6 (raw : List UInt8) : CStr :=
  let words := ip6Words raw
  let base := longestZeroRun words
  let len := zeroRun words base
  let text (words : List Nat) : CStr := joinWith (cstr ":") (words.map hex)
  if len < 2 then text words
  -- an embedded IPv4 address
  else if base = 0 ∧ len = 6 then cstr "::" ++ inetNtop4 (raw.drop 12)
  else if base = 0 ∧ len = 5 ∧ words.getD 5 0 = 0xffff then
    cstr "::ffff:" ++ inetNtop4 (raw.drop 12)
  else text (words.take base) ++ cstr "::" ++ text (words.drop (base + len))

def inetNtop (family : Int) (raw : List UInt8) : Except Errno CStr :=
  if family = AF_INET then .ok (inetNtop4 raw)
  else if family = AF_INET6 then .ok (inetNtop6 raw)
  else .error EAFNOSUPPORT

example : inetNtop AF_INET6 [0x20, 1, 0xd, 0xb8, 0, 0, 0, 0, 0, 0, 0, 0, 0, 0, 0, 1] =
    .ok (cstr "2001:db8::1") := by decide

/-- `addr_init`: the error code and the address, which is filled as far as it gets. `malloc`
and `strdup` tell whether these calls succeed. When `strdup` fails the freed bytes stay. -/
def addrInit (family prefixlen : Int) (raw : List UInt8) (malloc strdup : Bool) : Int × Addr :=
  let len := if family = AF_INET then 4 else 16
  let dest : Addr := { family := family, prefixlen := prefixlen }
  if !malloc then (ENOMEM, dest)
  else
    let dest := { dest with raw := some (raw.take len) }
    match inetNtop family raw with
    | .error e => (e, dest)
    | .ok buf =>
      let buf := if 0 ≤ prefixlen then fits 64 (buf ++ cstr "/" ++ decimalInt prefixlen) else buf
      if !strdup then (ENOMEM, dest) else (0, { dest with formatted := some buf })

def addrMaxPrefixLen (aiFamily : Int) : Int :=
  if aiFamily = AF_INET then 32 else if aiFamily = AF_INET6 then 128 else 0

def addrLen (family : Int) : Nat := if family = AF_INET then 4 else 16

def addrIsZero (addr : Addr) : Bool :=
  ((addr.raw.getD []).take (addrLen addr.family)).all (· == 0)

end Plotnetcfg
