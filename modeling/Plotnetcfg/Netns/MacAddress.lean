import Plotnetcfg.Lib.Buffer
import Plotnetcfg.Netns.If

/-! The text of a link-layer address (`mac_addr_fill_netlink`) on the memory of its buffers.
Every byte is printed with the separator behind it, which only the last one has no room for. -/

namespace Plotnetcfg.MacAddress

open Handlers

/-- `struct mac_addr`; a block is a null pointer or its cells. -/
structure RawMac where
  len : Nat
  raw : Option (Buffer UInt8)
  formatted : Option (Buffer UInt8)

/-- `%02x:`. -/
def byteText (b : UInt8) : CStr :=
  let digits := hex b.toNat
  (if digits.length < 2 then 48 :: digits else digits) ++ cstr ":"

/-- `snprintf` to an offset of a buffer, with a size that is not 0: the length of the whole text,
and the buffer with what fits of it. -/
def snprintf (buf : Buffer UInt8) (offset size : Nat) (text : CStr) :
    Option (Nat × Buffer UInt8) :=
  (buf.storeAll offset (fits size text ++ [0])).map fun buf => (text.length, buf)

section
variable (data : List UInt8)

/-- The loop; it ends without a buffer where it goes to `err_formatted`. -/
def formatLoop : List Nat → Buffer UInt8 → Option (Option (Buffer UInt8))
  | [], buf => some (some buf)
  | i :: is, buf =>
    data[i]?.bind fun b =>
      (snprintf buf (i * 3) (if i + 1 = data.length then 3 else 4) (byteText b)).bind
        fun (n, buf) => if 3 ≠ n then some none else formatLoop is buf

/-- `mac_addr_fill_netlink` of an attribute with the payload `data`, where the allocations
succeed: what it returns and the address; without a result it stores outside of a buffer. -/
def macAddrFillNetlink (errno : Nat) : Option (Nat × RawMac) :=
  (Buffer.storeAll (Buffer.malloc data.length) 0 data).bind fun raw =>
    (formatLoop data (List.range data.length) (Buffer.malloc (data.length * 3))).map fun
      | some formatted => (0, { len := data.length, raw := some raw, formatted := some formatted })
      | none => (errno, { len := 0, raw := none, formatted := none })

end

def hexDigit (d : Nat) : UInt8 := UInt8.ofNat (if d < 10 then 48 + d else 87 + d)

def hexByte (b : UInt8) : CStr := [hexDigit (b.toNat / 16), hexDigit (b.toNat % 16)]

def macText (data : List UInt8) : CStr := joinWith (cstr ":") (data.map hexByte)

/-! ## The text -/

theorem byteText_eq (b : UInt8) : byteText b = hexByte b ++ cstr ":" := by
  have hlt := b.toNat_lt
  have hdigits : (if (hex b.toNat).length < 2 then 48 :: hex b.toNat else hex b.toNat) =
      hexByte b := by
    by_cases hzero : b.toNat = 0
    · rw [hex, hexByte, hzero]
      rfl
    · by_cases hsmall : b.toNat < 16
      · have hdiv : b.toNat / 16 = 0 := by omega
        rw [hex, if_neg hzero, Nat.digits_of_lt 16 _ hzero hsmall, hexByte, hdiv,
          Nat.mod_eq_of_lt hsmall]
        rfl
      · have hdiv : b.toNat / 16 ≠ 0 := by omega
        have htop : b.toNat / 16 < 16 := by omega
        rw [hex, if_neg hzero, Nat.digits_eq_cons_digits_div (by decide) hzero,
          Nat.digits_of_lt 16 _ hdiv htop, hexByte]
        rfl
  rw [byteText]
  exact congrArg (· ++ cstr ":") hdigits

theorem length_byteText (b : UInt8) : (byteText b).length = 3 := by
  rw [byteText_eq]
  rfl

theorem fits_byteText (b : UInt8) :
    fits 3 (byteText b) = hexByte b ∧ fits 4 (byteText b) = byteText b := by
  rw [byteText_eq]
  exact ⟨rfl, rfl⟩

theorem macText_concat (data : List UInt8) (b : UInt8) :
    macText (data ++ [b]) = data.flatMap byteText ++ hexByte b := by
  have hbytes : (fun b => hexByte b ++ cstr ":") = byteText := by
    funext b
    exact (byteText_eq b).symm
  rw [macText, List.map_append, List.map_singleton, joinWith_concat, List.flatMap_map, hbytes]

theorem length_flatMap_byteText (data : List UInt8) :
    (data.flatMap byteText).length = data.length * 3 := by
  induction data with
  | nil => rfl
  | cons b data ih =>
    rw [List.flatMap_cons, List.length_append, ih, length_byteText, List.length_cons]
    omega

theorem length_macText {data : List UInt8} (h : data ≠ []) :
    (macText data).length + 1 = data.length * 3 := by
  obtain ⟨before, b, rfl⟩ := (List.eq_nil_or_concat' data).resolve_left h
  have hbyte : (hexByte b).length = 2 := rfl
  rw [macText_concat, List.length_append, length_flatMap_byteText, hbyte, List.length_append,
    List.length_singleton]
  omega

theorem hexDigit_inj {d d' : Nat} (hd : d < 16) (hd' : d' < 16) (h : hexDigit d = hexDigit d') :
    d = d' := by
  have hnat := congrArg UInt8.toNat h
  simp only [hexDigit, UInt8.toNat_ofNat'] at hnat
  split at hnat
  · split at hnat
    · omega
    · omega
  · split at hnat
    · omega
    · omega

theorem hexByte_inj {b b' : UInt8} (h : hexByte b = hexByte b') : b = b' := by
  have hlt := b.toNat_lt
  have hlt' := b'.toNat_lt
  obtain ⟨hhigh, hrest⟩ := List.cons.inj h
  obtain ⟨hlow, -⟩ := List.cons.inj hrest
  have hdiv := hexDigit_inj (by omega) (by omega) hhigh
  have hmod := hexDigit_inj (by omega) (by omega) hlow
  apply UInt8.toNat_inj.mp
  omega

theorem flatMap_byteText_inj {data data' : List UInt8}
    (h : data.flatMap byteText = data'.flatMap byteText) : data = data' := by
  have hlength := congrArg List.length h
  rw [length_flatMap_byteText, length_flatMap_byteText] at hlength
  induction data generalizing data' with
  | nil =>
    rw [List.length_nil] at hlength
    exact (List.eq_nil_of_length_eq_zero (by omega)).symm
  | cons b data ih =>
    cases data' with
    | nil =>
      rw [List.length_cons, List.length_nil] at hlength
      omega
    | cons b' data' =>
      rw [List.flatMap_cons, List.flatMap_cons] at h
      rw [List.length_cons, List.length_cons] at hlength
      have hbytes : (byteText b).length = (byteText b').length := by
        rw [length_byteText, length_byteText]
      obtain ⟨hhead, htail⟩ := List.append_inj h hbytes
      rw [byteText_eq, byteText_eq] at hhead
      rw [hexByte_inj (List.append_cancel_right hhead), ih htail (by omega)]

theorem macText_inj {data data' : List UInt8} (hdata : data ≠ []) (hdata' : data' ≠ [])
    (h : macText data = macText data') : data = data' := by
  obtain ⟨before, b, rfl⟩ := (List.eq_nil_or_concat' data).resolve_left hdata
  obtain ⟨before', b', rfl⟩ := (List.eq_nil_or_concat' data').resolve_left hdata'
  have hbytes : (hexByte b).length = (hexByte b').length := rfl
  rw [macText_concat, macText_concat] at h
  obtain ⟨hbefore, hlast⟩ := List.append_inj' h hbytes
  rw [flatMap_byteText_inj hbefore, hexByte_inj hlast]

theorem hexDigit_ne_zero {d : Nat} (hd : d < 16) : hexDigit d ≠ 0 := by
  intro hzero
  have hnat := congrArg UInt8.toNat hzero
  simp only [hexDigit, UInt8.toNat_ofNat', UInt8.toNat_zero] at hnat
  split at hnat
  · omega
  · omega

theorem zero_not_mem_hexByte (b : UInt8) : 0 ∉ hexByte b := by
  have hlt := b.toNat_lt
  have hhigh : hexDigit (b.toNat / 16) ≠ 0 := hexDigit_ne_zero (by omega)
  have hlow : hexDigit (b.toNat % 16) ≠ 0 := hexDigit_ne_zero (by omega)
  simp [hexByte, hhigh.symm, hlow.symm]

theorem zero_not_mem_macText {data : List UInt8} (h : data ≠ []) : 0 ∉ macText data := by
  have hcolon : 0 ∉ cstr ":" := by decide
  obtain ⟨before, b, rfl⟩ := (List.eq_nil_or_concat' data).resolve_left h
  simp [macText_concat, byteText_eq, zero_not_mem_hexByte, hcolon]

/-! ## The loop -/

variable {data : List UInt8}

theorem snprintf_filled {front old kept text : List UInt8} {size room : Nat}
    (hold : old.length ≤ 1) (hkept : fits room text = kept)
    (hfits : (front ++ kept).length + 1 ≤ size) :
    snprintf (Buffer.filled none (front ++ old) size) front.length room text =
      some (text.length, Buffer.filled none (front ++ kept ++ [0]) size) := by
  have hlength : (kept ++ [(0 : UInt8)]).length = kept.length + 1 := List.length_append
  rw [List.length_append] at hfits
  have hstore : (Buffer.filled none (front ++ old) size).storeAll front.length (kept ++ [0]) =
      some (Buffer.filled none (front ++ (kept ++ [0])) size) :=
    Buffer.storeAll_over none front old (kept ++ [0]) (by omega) (by omega)
  rw [snprintf, hkept, hstore, List.append_assoc]
  rfl

/-- The turns for the bytes `rest`, behind the texts of those before. -/
theorem formatLoop_filled {before rest old : List UInt8} (hdata : data = before ++ rest)
    (hrest : rest ≠ []) (hold : old.length ≤ 1) :
    formatLoop data (List.range' before.length rest.length)
        (Buffer.filled none (before.flatMap byteText ++ old) (data.length * 3)) =
      some (some (Buffer.filled none (macText data ++ [0]) (data.length * 3))) := by
  induction rest generalizing before old with
  | nil => exact absurd rfl hrest
  | cons b rest ih =>
    have hget : data[before.length]? = some b := by
      rw [hdata, List.getElem?_append_right (Nat.le_refl _), Nat.sub_self]
      rfl
    have hlength : data.length = before.length + (rest.length + 1) := by
      rw [hdata, List.length_append, List.length_cons]
    have hoff : before.length * 3 = (before.flatMap byteText).length :=
      (length_flatMap_byteText before).symm
    have hbyte : (hexByte b).length = 2 := rfl
    obtain ⟨hshort, hlong⟩ := fits_byteText b
    rw [List.length_cons, List.range'_succ, formatLoop, hget, Option.bind_some, hoff]
    by_cases hlast : rest = []
    · subst hlast
      have hend : before.length + 1 = data.length := hlength.symm
      have hroom : (before.flatMap byteText ++ hexByte b).length + 1 ≤ data.length * 3 := by
        rw [List.length_append, length_flatMap_byteText, hbyte]
        omega
      rw [if_pos hend, snprintf_filled hold hshort hroom, ← macText_concat, ← hdata,
        length_byteText]
      rfl
    · have hpos := List.length_pos_of_ne_nil hlast
      have hmore : before.length + 1 ≠ data.length := by omega
      have hroom : (before.flatMap byteText ++ byteText b).length + 1 ≤ data.length * 3 := by
        rw [List.length_append, length_flatMap_byteText, length_byteText]
        omega
      have hsplit : data = before ++ [b] ++ rest := by
        rw [hdata, List.append_assoc]
        rfl
      have hnul : ([0] : List UInt8).length ≤ 1 := Nat.le_refl 1
      have hnext := ih hsplit hlast hnul
      rw [List.flatMap_append, List.flatMap_singleton, List.length_append,
        List.length_singleton] at hnext
      rw [if_neg hmore, snprintf_filled hold hlong hroom, length_byteText]
      exact hnext

theorem macAddrFillNetlink_eq (errno : Nat) (h : data ≠ []) :
    macAddrFillNetlink data errno = some (0,
      { len := data.length
        raw := some (data.map some)
        formatted := some (Buffer.filled none (macText data ++ [0]) (data.length * 3)) }) := by
  have hraw : (Buffer.malloc data.length).storeAll 0 data = some (data.map some) := by
    have hroom : ([] : List UInt8).length + data.length ≤ data.length := by simp
    have hstore := Buffer.storeAll_filled none [] data hroom
    rw [List.nil_append, List.length_nil] at hstore
    rw [Buffer.malloc, hstore, Buffer.filled, Nat.sub_self, List.replicate_zero, List.append_nil]
  have hnil : ([] : List UInt8).length ≤ 1 := Nat.zero_le 1
  have hloop := formatLoop_filled (List.nil_append data).symm h hnil
  rw [List.length_nil] at hloop
  rw [macAddrFillNetlink, hraw, Option.bind_some, List.range_eq_range']
  have hmalloc : (Buffer.malloc (data.length * 3) : Buffer UInt8) =
      Buffer.filled none ([].flatMap byteText ++ []) (data.length * 3) := rfl
  rw [hmalloc, hloop]
  rfl

/-! ## The result -/

/-- The function returns 0 and has stored inside the buffers; the formatted address is null or a
string, and for one byte and more the string tells the bytes. -/
def Formatted (errno : Nat) (data : List UInt8) : Prop :=
  ∃ mac, macAddrFillNetlink data errno = some (0, mac) ∧
    (∀ buf, mac.formatted = some buf →
      buf.length = 3 * data.length ∧ ∃ s, Buffer.Terminated 0 buf s) ∧
    (1 ≤ data.length →
      (∃ buf, mac.formatted = some buf ∧ Buffer.Terminated 0 buf (macText data)) ∧
      (macText data).length = 3 * data.length - 1 ∧
      ∀ data', 1 ≤ data'.length → macText data' = macText data → data' = data)

/-- An address of no bytes is the only one whose buffer has no room for the NUL. -/
theorem formatted_iff (errno : Nat) (data : List UInt8) : Formatted errno data ↔ data ≠ [] := by
  constructor
  · rintro ⟨mac, hrun, hstring, -⟩ rfl
    have hempty : macAddrFillNetlink [] errno =
        some (0, { len := 0, raw := some [], formatted := some [] }) := rfl
    rw [hempty] at hrun
    cases hrun
    obtain ⟨-, s, -, rest, hrest⟩ := hstring [] rfl
    simp at hrest
  · intro hne
    have hlength := length_macText hne
    have hterminated : Buffer.Terminated 0
        (Buffer.filled none (macText data ++ [0]) (data.length * 3)) (macText data) :=
      Buffer.terminated_filled none _ (zero_not_mem_macText hne)
    refine ⟨_, macAddrFillNetlink_eq errno hne, ?_, fun _ => ⟨⟨_, rfl, hterminated⟩, ?_, ?_⟩⟩
    · rintro buf hbuf
      rw [← Option.some.inj hbuf]
      refine ⟨?_, _, hterminated⟩
      have hroom : (macText data ++ [0]).length ≤ data.length * 3 := by
        rw [List.length_append, List.length_singleton, hlength]
      exact (Buffer.length_filled none _ hroom).trans (Nat.mul_comm _ _)
    · omega
    · intro data' hpos heq
      exact macText_inj (List.ne_nil_of_length_pos hpos) hne heq

theorem formatted_empty : ¬ Formatted 0 [] ∧ ∃ mac, macAddrFillNetlink [] 0 = some (0, mac) ∧
    mac.formatted = some [] := by
  refine ⟨?_, _, rfl, rfl⟩
  rintro ⟨mac, hrun, hstring, -⟩
  cases hrun
  obtain ⟨-, s, -, rest, hrest⟩ := hstring [] rfl
  simp at hrest

theorem macFormat_turns {before rest : List UInt8} (hdata : data = before ++ rest)
    (hrest : rest ≠ []) :
    (List.range' before.length rest.length).foldl (fun buf i => buf.take (i * 3) ++
        fits (if i + 1 = data.length then 3 else 4) (byteText (data.getD i 0)))
      (before.flatMap byteText) = macText data := by
  induction rest generalizing before with
  | nil => exact absurd rfl hrest
  | cons b rest ih =>
    have hget : data.getD before.length 0 = b := by
      rw [List.getD_eq_getElem?_getD, hdata, List.getElem?_append_right (Nat.le_refl _),
        Nat.sub_self]
      rfl
    have hlength : data.length = before.length + (rest.length + 1) := by
      rw [hdata, List.length_append, List.length_cons]
    have htake : (before.flatMap byteText).take (before.length * 3) = before.flatMap byteText :=
      List.take_of_length_le (Nat.le_of_eq (length_flatMap_byteText before))
    obtain ⟨hshort, hlong⟩ := fits_byteText b
    rw [List.length_cons, List.range'_succ, List.foldl_cons, hget, htake]
    by_cases hlast : rest = []
    · subst hlast
      have hend : before.length + 1 = data.length := hlength.symm
      rw [if_pos hend, hshort, ← macText_concat, ← hdata]
      rfl
    · have hpos := List.length_pos_of_ne_nil hlast
      have hmore : before.length + 1 ≠ data.length := by omega
      have hsplit : data = before ++ [b] ++ rest := by
        rw [hdata, List.append_assoc]
        rfl
      have hnext := ih hsplit hlast
      rw [List.flatMap_append, List.flatMap_singleton, List.length_append,
        List.length_singleton] at hnext
      rw [if_neg hmore, hlong]
      exact hnext

/-- What the topology keeps of an address is the string in its buffer. -/
theorem macFormat_eq (h : data ≠ []) : macFormat data = macText data := by
  have hturns := macFormat_turns (List.nil_append data).symm h
  rw [macFormat, List.range_eq_range']
  exact hturns

end Plotnetcfg.MacAddress
