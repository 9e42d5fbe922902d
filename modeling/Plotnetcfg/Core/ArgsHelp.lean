import Plotnetcfg.Core.Args

/-! The help texts of the options (`args.c`): `arg_get_help` writes one line at a time into a
block of fixed size, and keeps count of what is left of it. -/

namespace Plotnetcfg

structure ArgHelp (σ : Type) extends ArgOption σ where
  help : CStr

def HELP_BUF_SIZE : Nat := 512
def SPACE : UInt8 := 32
def DASH : UInt8 := 45

def strlen : Buffer UInt8 → Option Nat
  | [] => none
  | none :: _ => none
  | some c :: rest => if c = 0 then some 0 else (strlen rest).map (· + 1)

/-- The first loop of `str_append`: `dest` is `at` cells into the block. -/
def padLoop (size col : Int) (len : Nat) (i : Nat) (buf : Buffer UInt8) :
    Option (Nat × Buffer UInt8) :=
  if i < size - 1 ∧ (len + i : Int) < col then
    (buf.store (len + i) SPACE).bind fun buf => padLoop size col len (i + 1) buf
  else some (i, buf)
termination_by (size - 1 - i).toNat
decreasing_by omega

def copyLoop (size : Int) (len : Nat) : CStr → Nat → Buffer UInt8 → Option (Nat × Buffer UInt8)
  | [], i, buf => some (i, buf)
  | c :: src, i, buf =>
    if i < size - 1 then
      (buf.store (len + i) c).bind fun buf => copyLoop size len src (i + 1) buf
    else some (i, buf)

def strAppend (dest : Buffer UInt8) (src : CStr) (size col : Int) :
    Option (Int × Buffer UInt8) :=
  if size = 0 then some (0, dest)
  else do
    let len ← strlen dest
    let (i, dest) ← padLoop size col len 0 dest
    let (i, dest) ← copyLoop size len src i dest
    let dest ← dest.store (len + i) 0
    pure (i, dest)

/-- `size -= str_append(buf, src, size, col)`. -/
def helpAppend (src : CStr) (col : Int) (line : Int × Buffer UInt8) :
    Option (Int × Buffer UInt8) := do
  let (i, buf) ← strAppend line.2 src line.1 col
  pure (line.1 - i, buf)

variable {σ : Type}

def helpShort (opt : ArgHelp σ) (buf : Buffer UInt8) : Option (Int × Buffer UInt8) :=
  if opt.shortName = 0 then some (HELP_BUF_SIZE, buf)
  else do
    let buf ← buf.store 0 DASH
    let buf ← buf.store 1 opt.shortName.toUInt8
    let buf ← buf.store 2 0
    let line : Int × Buffer UInt8 := (HELP_BUF_SIZE - 2, buf)
    if opt.hasArg ≠ 0 ∧ opt.longName = none then
      if opt.hasArg = 1 then helpAppend (cstr " ARG") 0 line
      else helpAppend (cstr " [ARG]") 0 line
    else pure line

def helpComma (opt : ArgHelp σ) (line : Int × Buffer UInt8) : Option (Int × Buffer UInt8) :=
  if opt.shortName ≠ 0 then helpAppend (cstr ", ") 0 line else pure line

def helpLong (opt : ArgHelp σ) (longName : CStr) (line : Int × Buffer UInt8) :
    Option (Int × Buffer UInt8) := do
  let line ← helpComma opt line
  let line ← helpAppend (cstr "--") 4 line
  -- a name gets 15 characters at most
  let (i, buf) ← strAppend line.2 longName 16 0
  let line := (line.1 - i, buf)
  if opt.hasArg = 1 then helpAppend (cstr "=ARG") 0 line
  else if opt.hasArg = 2 then helpAppend (cstr "[=ARG]") 0 line
  else pure line

def stringAt (buf : Buffer UInt8) : Option CStr :=
  (strlen buf).map fun len => (buf.take len).reduceOption

/-- The body of the loop of `arg_get_help`: what the handler is given, and the block. -/
def helpOption (opt : ArgHelp σ) (buf : Buffer UInt8) : Option (CStr × Buffer UInt8) := do
  let buf ← buf.store 0 0
  let line ← helpShort opt buf
  let line ← opt.longName.elim (some line) fun longName => helpLong opt longName line
  let line ← helpAppend opt.help 26 line
  let text ← stringAt line.2
  pure (text, line.2)

def helpLoop : List (ArgHelp σ) → Buffer UInt8 → Option (List CStr)
  | [], _ => some []
  | opt :: opts, buf => do
    let (text, buf) ← helpOption opt buf
    let texts ← helpLoop opts buf
    pure (text :: texts)

/-- The lines that the handler is given. Without a result, a byte outside the block was read or
written. -/
def argGetHelp (malloc : Bool) (opts : List (ArgHelp σ)) : Option (List CStr) :=
  if malloc then helpLoop opts (Buffer.malloc HELP_BUF_SIZE) else some []

/-! ## The lines -/

def padTo (col : Nat) (text : CStr) : CStr := text ++ List.replicate (col - text.length) SPACE

def shortText (opt : ArgHelp σ) : CStr :=
  if opt.shortName = 0 then [] else [DASH, opt.shortName.toUInt8]

def shortUsage (opt : ArgHelp σ) : CStr :=
  if opt.shortName ≠ 0 ∧ opt.hasArg ≠ 0 ∧ opt.longName = none then
    shortText opt ++ if opt.hasArg = 1 then cstr " ARG" else cstr " [ARG]"
  else shortText opt

def argUsage (opt : ArgHelp σ) : CStr :=
  if opt.hasArg = 1 then cstr "=ARG" else if opt.hasArg = 2 then cstr "[=ARG]" else []

/-- How an option is written on the command line. A long name is cut after 15 characters. -/
def usage (opt : ArgHelp σ) : CStr :=
  match opt.longName with
  | none => shortUsage opt
  | some longName =>
    padTo 4 (shortText opt ++ if opt.shortName ≠ 0 then cstr ", " else []) ++ cstr "--" ++
      longName.take 15 ++ argUsage opt

def helpLine (opt : ArgHelp σ) : CStr :=
  (padTo 26 (usage opt) ++ opt.help).take (HELP_BUF_SIZE - 1)

/-! ## Appending -/

def HoldsText (buf : Buffer UInt8) (text : CStr) : Prop :=
  0 ∉ text ∧ Buffer.Front buf (text ++ [0]) HELP_BUF_SIZE

section
variable {buf : Buffer UInt8} {text src : CStr} {n k i col : Nat}

theorem strlen_front (hnul : 0 ∉ text) (h : Buffer.Front buf (text ++ [0]) n) :
    strlen buf = some text.length := by
  obtain ⟨-, rest, rfl⟩ := h
  induction text with
  | nil => rfl
  | cons c text ih =>
    have hc : c ≠ 0 := Ne.symm (List.ne_of_not_mem_cons hnul)
    have htext := ih (List.not_mem_of_not_mem_cons hnul)
    show (if c = 0 then some 0 else
      (strlen ((text ++ [0]).map some ++ rest)).map (· + 1)) = _
    rw [if_neg hc, htext]
    rfl

theorem padLoop_front (col : Nat) (h : Buffer.Front buf (text ++ List.replicate i SPACE) n)
    (hi : i ≤ min k (col - text.length)) (hroom : text.length + k < n) :
    ∃ buf', padLoop (k + 1 : Nat) col text.length i buf =
        some (min k (col - text.length), buf') ∧
      Buffer.Front buf' (text ++ List.replicate (min k (col - text.length)) SPACE) n := by
  obtain ⟨d, hd⟩ := Nat.exists_eq_add_of_le hi
  induction d generalizing i buf with
  | zero =>
    rw [padLoop, if_neg (by omega)]
    rw [hd]
    exact ⟨buf, rfl, h⟩
  | succ d ih =>
    have hlength : (text ++ List.replicate i SPACE).length = text.length + i := by simp
    obtain ⟨buf', hstore, hfront⟩ := h.store (by omega) SPACE
    rw [hlength] at hstore
    rw [List.append_assoc, ← List.replicate_succ'] at hfront
    rw [padLoop, if_pos (by omega), hstore]
    exact ih hfront (by omega) (by omega)

theorem copyLoop_front (src : CStr) {written : CStr} (h : Buffer.Front buf (text ++ written) n)
    (hwritten : written.length ≤ k) (hroom : text.length + k < n) :
    ∃ buf', copyLoop (k + 1 : Nat) text.length src written.length buf =
        some ((written ++ src.take (k - written.length)).length, buf') ∧
      Buffer.Front buf' (text ++ (written ++ src.take (k - written.length))) n := by
  induction src generalizing written buf with
  | nil =>
    rw [List.take_nil, List.append_nil]
    exact ⟨buf, rfl, h⟩
  | cons c src ih =>
    by_cases hmore : written.length < k
    · have hlength : (text ++ written).length = text.length + written.length :=
        List.length_append
      have hsucc : (written ++ [c]).length = written.length + 1 := List.length_append
      have htake : written ++ (c :: src).take (k - written.length) =
          (written ++ [c]) ++ src.take (k - (written ++ [c]).length) := by
        rw [hsucc, List.append_assoc, List.singleton_append,
          (by omega : k - written.length = k - (written.length + 1) + 1), List.take_succ_cons]
      obtain ⟨buf', hstore, hfront⟩ := h.store (by omega) c
      rw [hlength] at hstore
      rw [List.append_assoc] at hfront
      obtain ⟨buf'', hrun, hdone⟩ := ih hfront (by omega)
      rw [hsucc] at hrun
      rw [htake, hsucc]
      rw [hsucc] at hdone
      rw [copyLoop, if_pos (by omega), hstore]
      exact ⟨buf'', hrun, hdone⟩
    · have hnone : k - written.length = 0 := by omega
      rw [hnone, List.take_zero, List.append_nil, copyLoop, if_neg (by omega)]
      exact ⟨buf, rfl, h⟩

/-- `str_append` writes at most `k` characters and a NUL. -/
theorem strAppend_holds (col : Nat) (h : HoldsText buf text) (hsrc : 0 ∉ src)
    (hroom : text.length + k < HELP_BUF_SIZE) :
    let added := (List.replicate (col - text.length) SPACE ++ src).take k
    ∃ buf', strAppend buf src (k + 1 : Nat) col = some ((added.length : Int), buf') ∧
      HoldsText buf' (text ++ added) := by
  intro added
  obtain ⟨hnul, hfront⟩ := h
  obtain ⟨buf₁, hpad, hfront₁⟩ := padLoop_front (i := 0) (k := k) col
    (by simpa using hfront.mono) (Nat.zero_le _) hroom
  have hpads : (List.replicate (min k (col - text.length)) SPACE).length ≤ k := by
    rw [List.length_replicate]
    exact Nat.min_le_left ..
  obtain ⟨buf₂, hcopy, hfront₂⟩ := copyLoop_front src hfront₁ hpads hroom
  have hadded : List.replicate (min k (col - text.length)) SPACE ++
      src.take (k - (List.replicate (min k (col - text.length)) SPACE).length) = added := by
    unfold added
    rw [List.take_append, List.take_replicate, List.length_replicate, List.length_replicate]
    congr 2
    omega
  rw [hadded] at hcopy hfront₂
  have hlength : (text ++ added).length = text.length + added.length := List.length_append
  have hshort : added.length ≤ k := List.length_take_le ..
  obtain ⟨buf₃, hstore, hfront₃⟩ := hfront₂.store (by omega) 0
  rw [hlength] at hstore
  rw [List.length_replicate] at hcopy
  refine ⟨buf₃, ?_, ?_, hfront₃⟩
  · rw [strAppend, if_neg (by omega), strlen_front hnul hfront]
    simp only [Option.bind_eq_bind, Option.bind_some, hpad, hcopy, hstore]
    rfl
  · intro hmem
    rcases List.mem_append.mp hmem with hmem | hmem
    · exact hnul hmem
    · rcases List.mem_append.mp (List.mem_of_mem_take hmem) with hmem | hmem
      · exact absurd (List.eq_of_mem_replicate hmem) (by decide)
      · exact hsrc hmem

def LineIs (text : CStr) (line : Int × Buffer UInt8) : Prop :=
  line.1 = HELP_BUF_SIZE - text.length ∧ HoldsText line.2 text

def Writes (prog : Option (Int × Buffer UInt8)) (text : CStr) : Prop :=
  ∃ line, prog = some line ∧ LineIs text line

theorem Writes.bind {prog : Option (Int × Buffer UInt8)} {text' : CStr}
    {next : Int × Buffer UInt8 → Option (Int × Buffer UInt8)} (h : Writes prog text)
    (hnext : ∀ line, LineIs text line → Writes (next line) text') :
    Writes (prog >>= next) text' := by
  obtain ⟨line, rfl, hline⟩ := h
  exact hnext line hline

theorem LineIs.length_lt {line : Int × Buffer UInt8} (h : LineIs text line) :
    text.length < HELP_BUF_SIZE := by
  obtain ⟨-, -, hlength, rest, hbuf⟩ := h
  rw [← hlength, hbuf]
  simp

/-- The size that is left bounds what is appended: a line that gets too long is cut. -/
theorem helpAppend_writes (col : Nat) {line : Int × Buffer UInt8} (h : LineIs text line)
    (hsrc : 0 ∉ src) :
    Writes (helpAppend src col line) ((padTo col text ++ src).take (HELP_BUF_SIZE - 1)) := by
  have hlt := h.length_lt
  obtain ⟨hsize, hholds⟩ := h
  have hroom : text.length + (HELP_BUF_SIZE - 1 - text.length) < HELP_BUF_SIZE := by omega
  obtain ⟨buf', hrun, hholds'⟩ := strAppend_holds col hholds hsrc hroom
  have htext : (padTo col text ++ src).take (HELP_BUF_SIZE - 1) =
      text ++ (List.replicate (col - text.length) SPACE ++ src).take
        (HELP_BUF_SIZE - 1 - text.length) := by
    rw [padTo, List.append_assoc, List.take_append, List.take_of_length_le (by omega)]
  have hleft : line.1 = (HELP_BUF_SIZE - 1 - text.length + 1 : Nat) := by omega
  rw [← hleft] at hrun
  rw [← htext] at hholds'
  refine ⟨_, by rw [helpAppend, hrun]; rfl, ?_, hholds'⟩
  rw [htext, List.length_append, hsize]
  omega

theorem padTo_zero (text : CStr) : padTo 0 text = text := by
  rw [padTo, Nat.zero_sub, List.replicate_zero, List.append_nil]

theorem length_padTo (col : Nat) (text : CStr) :
    (padTo col text).length = max col text.length := by
  rw [padTo, List.length_append, List.length_replicate]
  omega

/-- What fits is appended whole. -/
theorem helpAppend_whole (col : Nat) (src : CStr) {line : Int × Buffer UInt8} (h : LineIs text line)
    (hsrc : 0 ∉ src) (hfits : max col text.length + src.length < HELP_BUF_SIZE) :
    Writes (helpAppend src col line) (padTo col text ++ src) := by
  have hwrites := helpAppend_writes col h hsrc
  rwa [List.take_of_length_le] at hwrites
  rw [List.length_append, length_padTo]
  omega

theorem helpAppend_short (src : CStr) {line : Int × Buffer UInt8} (h : LineIs text line)
    (hsrc : 0 ∉ src) (hfits : text.length + src.length < HELP_BUF_SIZE) :
    Writes (helpAppend src 0 line) (text ++ src) := by
  have hwhole := helpAppend_whole 0 src h hsrc (by rwa [Nat.zero_max])
  rwa [padTo_zero] at hwhole

end

/-! ## One line for each option -/

section
variable (opt : ArgHelp σ) {buf : Buffer UInt8} {line : Int × Buffer UInt8}

theorem helpShort_writes (h : Buffer.Front buf [0] HELP_BUF_SIZE) :
    Writes (helpShort opt buf) (shortUsage opt) := by
  unfold helpShort
  by_cases hshort : opt.shortName = 0
  · have husage : shortUsage opt = [] := by
      rw [shortUsage, if_neg fun h => h.1 hshort, shortText, if_pos hshort]
    rw [if_pos hshort, husage]
    exact ⟨_, rfl, rfl, List.not_mem_nil, h⟩
  · have hname : opt.shortName.toUInt8 ≠ 0 := fun h0 => hshort (by
      rw [← Int8.toInt8_toUInt8 opt.shortName, h0]
      rfl)
    have hempty : Buffer.Front buf [] HELP_BUF_SIZE := Buffer.Front.mono (by exact h)
    obtain ⟨buf₁, hdash, h₁⟩ := hempty.store (Nat.succ_pos _) DASH
    obtain ⟨buf₂, hchar, h₂⟩ := h₁.store (show 1 < 512 by decide) opt.shortName.toUInt8
    obtain ⟨buf₃, hend, h₃⟩ := h₂.store (show 2 < 512 by decide) 0
    have hline : LineIs (shortText opt) (HELP_BUF_SIZE - 2, buf₃) := by
      rw [shortText, if_neg hshort]
      refine ⟨rfl, fun hmem => ?_, h₃⟩
      rcases List.mem_cons.mp hmem with h0 | hmem
      · exact absurd h0 (by decide)
      · exact hname (List.mem_singleton.mp hmem).symm
    have hlength : (shortText opt).length = 2 := by
      rw [shortText, if_neg hshort]
      rfl
    simp only [List.length_nil, List.nil_append, List.length_cons, List.length_append,
      Nat.zero_add, Nat.reduceAdd] at hdash hchar hend
    rw [if_neg hshort]
    simp only [Option.bind_eq_bind, hdash, hchar, hend, Option.bind_some]
    by_cases harg : opt.hasArg ≠ 0 ∧ opt.longName = none
    · have husage : shortUsage opt = shortText opt ++ _ := if_pos ⟨hshort, harg⟩
      rw [if_pos harg, husage]
      split_ifs
      · exact helpAppend_short (cstr " ARG") hline (by decide) (by rw [hlength]; decide)
      · exact helpAppend_short (cstr " [ARG]") hline (by decide) (by rw [hlength]; decide)
    · have husage : shortUsage opt = shortText opt := if_neg fun h => harg h.2
      rw [if_neg harg, husage]
      exact ⟨_, rfl, hline⟩

def lead : CStr := shortText opt ++ if opt.shortName ≠ 0 then cstr ", " else []

theorem length_shortText_le : (shortText opt).length ≤ 2 := by
  unfold shortText
  split_ifs
  · exact Nat.zero_le 2
  · exact Nat.le_refl 2

theorem helpComma_writes (h : LineIs (shortText opt) line) :
    Writes (helpComma opt line) (lead opt) := by
  have hshort := length_shortText_le opt
  unfold helpComma lead
  by_cases hname : opt.shortName ≠ 0
  · rw [if_pos hname, if_pos hname]
    exact helpAppend_short _ h (by decide) (Nat.lt_of_le_of_lt (Nat.add_le_add_right hshort _)
      (by decide))
  · rw [if_neg hname, if_neg hname, List.append_nil]
    exact ⟨line, rfl, h⟩

theorem length_lead_le : (lead opt).length ≤ 4 := by
  have hshort := length_shortText_le opt
  have hcomma : (if opt.shortName ≠ 0 then cstr ", " else []).length ≤ 2 := by
    split_ifs <;> decide
  rw [lead, List.length_append]
  omega

/-- A long name gets no more than 15 characters, whatever is left of the block. -/
theorem longName_lineIs {longName text : CStr} (hnul : 0 ∉ longName) (h : LineIs text line)
    (hfits : text.length + 15 < HELP_BUF_SIZE) :
    ∃ i buf', strAppend line.2 longName 16 0 = some (i, buf') ∧
      LineIs (text ++ longName.take 15) (line.1 - i, buf') := by
  obtain ⟨hsize, hholds⟩ := h
  obtain ⟨buf', hrun, hholds'⟩ := strAppend_holds (k := 15) 0 hholds hnul hfits
  rw [Nat.zero_sub, List.replicate_zero, List.nil_append] at hrun hholds'
  refine ⟨_, buf', hrun, ?_, hholds'⟩
  rw [hsize, List.length_append, Nat.cast_add]
  omega

theorem argUsage_writes {text : CStr} (h : LineIs text line) (hfits : text.length + 6 < HELP_BUF_SIZE) :
    Writes (if opt.hasArg = 1 then helpAppend (cstr "=ARG") 0 line
      else if opt.hasArg = 2 then helpAppend (cstr "[=ARG]") 0 line else pure line)
      (text ++ argUsage opt) := by
  unfold argUsage
  split_ifs
  · exact helpAppend_short _ h (by decide) (Nat.lt_of_le_of_lt (Nat.add_le_add_left (by decide) _) hfits)
  · exact helpAppend_short _ h (by decide) hfits
  · rw [List.append_nil]
    exact ⟨line, rfl, h⟩

theorem helpLong_writes {longName : CStr} (hlong : opt.longName = some longName)
    (hnul : 0 ∉ longName) (h : LineIs (shortText opt) line) :
    Writes (helpLong opt longName line) (usage opt) := by
  have hlead := length_lead_le opt
  have hdashes : (padTo 4 (lead opt) ++ cstr "--").length = 6 := by
    rw [List.length_append, length_padTo, Nat.max_eq_left hlead]
    rfl
  have hname : (padTo 4 (lead opt) ++ cstr "--" ++ longName.take 15).length ≤ 21 := by
    rw [List.length_append, hdashes]
    exact Nat.add_le_add_left (List.length_take_le ..) 6
  unfold helpLong usage
  rw [hlong]
  refine (helpComma_writes opt h).bind fun line₁ h₁ => ?_
  refine (helpAppend_whole 4 (cstr "--") h₁ (by decide) ?_).bind fun line₂ h₂ => ?_
  · rw [Nat.max_eq_left hlead]
    decide
  · obtain ⟨i, buf', hrun, h₃⟩ := longName_lineIs hnul h₂ (by rw [hdashes]; decide)
    rw [hrun]
    exact argUsage_writes opt h₃ (Nat.lt_of_le_of_lt (Nat.add_le_add_right hname 6) (by decide))

theorem stringAt_front {text : CStr} {n : Nat} (hnul : 0 ∉ text)
    (h : Buffer.Front buf (text ++ [0]) n) : stringAt buf = some text := by
  have hlen := strlen_front hnul h
  obtain ⟨-, rest, rfl⟩ := h
  have htake : ((text ++ [0]).map some ++ rest).take text.length = text.map some := by
    rw [List.map_append, List.append_assoc, List.take_append_of_le_length (by simp),
      List.take_of_length_le (by simp)]
  have htext : (text.map some).filterMap id = text := by
    rw [List.filterMap_map]
    exact List.filterMap_some
  rw [stringAt, hlen, Option.map_some, htake]
  exact congrArg some htext

/-- Once the option is written, its help text starts in column 26 or right behind it. -/
theorem helpOption_line (hlong : ∀ longName, opt.longName = some longName → 0 ∉ longName)
    (hhelp : 0 ∉ opt.help) {xs : CStr} (h : Buffer.Front buf xs HELP_BUF_SIZE) :
    ∃ buf' xs', helpOption opt buf = some (helpLine opt, buf') ∧
      Buffer.Front buf' xs' HELP_BUF_SIZE := by
  have hempty : Buffer.Front buf ([] : CStr) HELP_BUF_SIZE :=
    Buffer.Front.mono (show Buffer.Front buf ([] ++ xs) HELP_BUF_SIZE from h)
  obtain ⟨buf₀, hstart, h₀⟩ := hempty.store (Nat.succ_pos _) 0
  have husage : Writes (helpShort opt buf₀ >>= fun line =>
      opt.longName.elim (some line) fun longName => helpLong opt longName line) (usage opt) := by
    refine (helpShort_writes opt h₀).bind fun line hline => ?_
    cases hname : opt.longName with
    | none =>
      rw [usage, hname]
      exact ⟨line, rfl, hline⟩
    | some longName =>
      have hshort : shortUsage opt = shortText opt := if_neg fun h => by simp [hname] at h
      exact helpLong_writes opt hname (hlong longName hname) (hshort ▸ hline)
  obtain ⟨line, hline, -, hnul, hfront⟩ :=
    husage.bind fun line hline => helpAppend_writes 26 hline hhelp
  refine ⟨line.2, _, ?_, hfront⟩
  rw [List.length_nil] at hstart
  rw [Option.bind_eq_bind, Nat.cast_ofNat] at hline
  simp only [helpOption, Option.bind_eq_bind, hstart, Option.bind_some]
  rw [← Option.bind_assoc, ← Option.bind_assoc, hline, Option.bind_some,
    stringAt_front hnul hfront]
  rfl

end

theorem helpLoop_lines {opts : List (ArgHelp σ)}
    (hlong : ∀ opt ∈ opts, ∀ longName, opt.longName = some longName → 0 ∉ longName)
    (hhelp : ∀ opt ∈ opts, 0 ∉ opt.help) {buf : Buffer UInt8} {xs : CStr}
    (h : Buffer.Front buf xs HELP_BUF_SIZE) : helpLoop opts buf = some (opts.map helpLine) := by
  induction opts generalizing buf xs with
  | nil => rfl
  | cons opt opts ih =>
    obtain ⟨buf', xs', hrun, h'⟩ := helpOption_line opt (hlong opt List.mem_cons_self)
      (hhelp opt List.mem_cons_self) h
    have hrest := ih (fun x hx => hlong x (List.mem_cons_of_mem _ hx))
      (fun x hx => hhelp x (List.mem_cons_of_mem _ hx)) h'
    simp only [helpLoop, hrun, hrest, Option.bind_eq_bind, Option.bind_some]
    rfl

/-- However long the names and the help texts of the options are, `arg_get_help` stays inside its
block, and the handler is given one line for each option, in the order they were registered. -/
theorem argGetHelp_lines (malloc : Bool) (opts : List (ArgHelp σ))
    (hlong : ∀ opt ∈ opts, ∀ longName, opt.longName = some longName → 0 ∉ longName)
    (hhelp : ∀ opt ∈ opts, 0 ∉ opt.help) :
    argGetHelp malloc opts = some (if malloc then opts.map helpLine else []) := by
  cases malloc with
  | false => rfl
  | true =>
    have hfront : Buffer.Front (Buffer.malloc HELP_BUF_SIZE) ([] : CStr) HELP_BUF_SIZE :=
      ⟨List.length_replicate, List.replicate HELP_BUF_SIZE none, rfl⟩
    exact helpLoop_lines hlong hhelp hfront

def ovsDbOption : ArgHelp (Option CStr) where
  longName := some (cstr "ovs-db")
  shortName := 68
  hasArg := 1
  action := .charVar fun db _ => some db
  help := cstr "path to openvswitch database"

theorem argGetHelp_lines_ovsDb :
    argGetHelp true [ovsDbOption] =
      some [cstr "-D, --ovs-db=ARG          path to openvswitch database"] := by
  have hlong : ∀ opt ∈ [ovsDbOption], ∀ longName, opt.longName = some longName →
      0 ∉ longName := by
    intro opt hopt longName hname
    obtain rfl := List.mem_singleton.mp hopt
    obtain rfl := Option.some.inj hname
    decide +kernel
  have hhelp : ∀ opt ∈ [ovsDbOption], 0 ∉ opt.help := by
    intro opt hopt
    obtain rfl := List.mem_singleton.mp hopt
    decide +kernel
  rw [argGetHelp_lines true [ovsDbOption] hlong hhelp]
  decide +kernel

end Plotnetcfg
