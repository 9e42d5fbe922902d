import Plotnetcfg.Core.CString
import Plotnetcfg.Lib.Buffer
import Mathlib.Data.List.Nodup

/-! The command line (`args.c`): the options that the modules register, the two tables that
are built of them for `getopt_long`, and the loop that runs the action of each option. -/

namespace Plotnetcfg

/-- `enum arg_type` and the member of `union arg_action` that goes with it. -/
inductive ArgAction (σ : Type) where
  | void
  | intVar (set : Int → σ → σ)
  | charVar (set : CStr → σ → σ)
  | callback (call : Option CStr → σ → Option (Int × σ))

structure ArgOption (σ : Type) where
  longName : Option CStr
  /-- 0 when there is no short name. -/
  shortName : Int8
  hasArg : Nat
  action : ArgAction σ

theorem length_no_options {σ : Type} : 0 = ([] : List (ArgOption σ)).length := rfl

structure Options (σ : Type) where
  list : List (ArgOption σ) := []
  count : Nat := 0
  count_eq : count = list.length := by first | exact length_no_options | rfl

variable {σ : Type}

def argRegister (options : Options σ) (opt : ArgOption σ) : Options σ where
  list := options.list ++ [opt]
  count := options.count + 1
  count_eq := by rw [options.count_eq, List.length_append, List.length_singleton]

def argRegisterBatch (options : Options σ) (opts : List (ArgOption σ)) : Options σ :=
  opts.foldl argRegister options

/-! ## The tables -/

/-- `struct option`; the others of its fields stay 0. -/
structure LongOption where
  name : Option CStr
  hasArg : Nat
deriving DecidableEq

structure ArgTables where
  glong : Buffer LongOption
  gshort : Buffer Int8

def PLUS : Int8 := 43
def MINUS : Int8 := 45
def COLON : Int8 := 58
def SEMICOLON : Int8 := 59
def QUESTION : Int8 := 63
def LONG_W : Int8 := 87

/-- What the loop stores for an option with a long name. -/
def ArgOption.long? (opt : ArgOption σ) : Option LongOption :=
  opt.longName.map fun name => ⟨some name, opt.hasArg⟩

def ArgOption.short (opt : ArgOption σ) : List Int8 :=
  if opt.shortName = 0 then [] else opt.shortName :: List.replicate opt.hasArg COLON

def fillTables : List (ArgOption σ) → ArgTables → Nat → Nat → Option ArgTables
  | [], tables, _, _ => some tables
  | opt :: opts, tables, glongIndex, gshortIndex =>
    (tables.glong.storeAll glongIndex opt.long?.toList).bind fun glong =>
      (tables.gshort.storeAll gshortIndex opt.short).bind fun gshort =>
        fillTables opts ⟨glong, gshort⟩ (glongIndex + opt.long?.toList.length)
          (gshortIndex + opt.short.length)

def argTables (options : Options σ) : Option ArgTables :=
  fillTables options.list
    ⟨Buffer.calloc ⟨none, 0⟩ (options.count + 1), Buffer.calloc 0 (options.count * 3 + 1)⟩ 0 0

def longNames (opts : List (ArgOption σ)) : List CStr := opts.filterMap ArgOption.longName

def longOptions (opts : List (ArgOption σ)) : List LongOption := opts.filterMap ArgOption.long?

def shortOptions (opts : List (ArgOption σ)) : List Int8 := opts.flatMap ArgOption.short

theorem shortOptions_cons (opt : ArgOption σ) (opts : List (ArgOption σ)) :
    shortOptions (opt :: opts) = opt.short ++ shortOptions opts := List.flatMap_cons

theorem longNames_cons_none {o : ArgOption σ} (h : o.longName = none) (opts : List (ArgOption σ)) :
    longNames (o :: opts) = longNames opts := List.filterMap_cons_none h

theorem longNames_cons_some {o : ArgOption σ} {name : CStr} (h : o.longName = some name)
    (opts : List (ArgOption σ)) : longNames (o :: opts) = name :: longNames opts :=
  List.filterMap_cons_some h

theorem mem_longNames {opts : List (ArgOption σ)} {o : ArgOption σ} {name : CStr} (hmem : o ∈ opts)
    (h : o.longName = some name) : name ∈ longNames opts :=
  List.mem_filterMap.mpr ⟨o, hmem, h⟩

theorem length_short_le {opt : ArgOption σ} (h : opt.hasArg ≤ 2) : opt.short.length ≤ 3 := by
  rw [ArgOption.short]
  split
  · exact Nat.zero_le 3
  · rw [List.length_cons, List.length_replicate]
    omega

theorem length_longOptions_le (opts : List (ArgOption σ)) :
    (longOptions opts).length ≤ opts.length := List.length_filterMap_le _ _

theorem length_shortOptions_le {opts : List (ArgOption σ)} (h : ∀ opt ∈ opts, opt.hasArg ≤ 2) :
    (shortOptions opts).length ≤ opts.length * 3 := by
  induction opts with
  | nil => exact Nat.le_refl 0
  | cons opt opts ih =>
    have hopt := length_short_le (h opt List.mem_cons_self)
    have hopts := ih fun x hx => h x (List.mem_cons_of_mem _ hx)
    rw [shortOptions_cons, List.length_append, List.length_cons]
    omega

theorem fillTables_filled {opts : List (ArgOption σ)} {n m : Nat} (xs : List LongOption)
    (ys : List Int8) (hn : xs.length + (longOptions opts).length ≤ n)
    (hm : ys.length + (shortOptions opts).length ≤ m) :
    fillTables opts ⟨Buffer.filled (some ⟨none, 0⟩) xs n, Buffer.filled (some 0) ys m⟩ xs.length
        ys.length =
      some ⟨Buffer.filled (some ⟨none, 0⟩) (xs ++ longOptions opts) n,
        Buffer.filled (some 0) (ys ++ shortOptions opts) m⟩ := by
  induction opts generalizing xs ys with
  | nil =>
    rw [fillTables, longOptions, shortOptions, List.filterMap_nil, List.flatMap_nil,
      List.append_nil, List.append_nil]
  | cons opt opts ih =>
    have hlong : longOptions (opt :: opts) = opt.long?.toList ++ longOptions opts := by
      rcases h : opt.long? with _ | o
      · exact List.filterMap_cons_none h
      · exact List.filterMap_cons_some h
    have hshort := shortOptions_cons opt opts
    rw [hlong, List.length_append] at hn
    rw [hshort, List.length_append] at hm
    have hroomlong : xs.length + opt.long?.toList.length ≤ n := by omega
    have hroomshort : ys.length + opt.short.length ≤ m := by omega
    have hglong := Buffer.storeAll_filled (some ⟨none, 0⟩) xs opt.long?.toList hroomlong
    have hgshort := Buffer.storeAll_filled (some 0) ys opt.short hroomshort
    have hrest := ih (xs ++ opt.long?.toList) (ys ++ opt.short)
      (by rw [List.length_append]; omega) (by rw [List.length_append]; omega)
    rw [List.length_append, List.length_append] at hrest
    rw [fillTables, hglong, Option.bind_some, hgshort, Option.bind_some, hrest, hlong, hshort,
      List.append_assoc, List.append_assoc]

/-- The tables lie inside their allocations, and leave room for what ends them. -/
theorem argTables_eq {options : Options σ} (h : ∀ opt ∈ options.list, opt.hasArg ≤ 2) :
    argTables options =
      some ⟨Buffer.filled (some ⟨none, 0⟩) (longOptions options.list) (options.count + 1),
        Buffer.filled (some 0) (shortOptions options.list) (options.count * 3 + 1)⟩ := by
  have hlong := length_longOptions_le options.list
  have hshort := length_shortOptions_le h
  rw [← options.count_eq] at hlong hshort
  exact fillTables_filled [] [] (by rw [List.length_nil]; omega) (by rw [List.length_nil]; omega)

/-! ## What `getopt_long` reads -/

/-- A call of `getopt_long`: its result, what it stores in `glong_index`, and `optarg`. -/
structure GetoptResult where
  ret : Int
  longindex : Option Nat
  optarg : Option CStr

structure GetoptTables where
  longs : List LongOption
  shorts : List Int8

def ArgTables.read (tables : ArgTables) : Option GetoptTables :=
  (tables.glong.readUntil (·.name.isNone)).bind fun longs =>
    (tables.gshort.readUntil (· = 0)).map fun shorts => ⟨longs, shorts⟩

def findLong (name : CStr) : List LongOption → Option (Nat × Nat)
  | [] => none
  | o :: os =>
    if o.name = some name then some (0, o.hasArg)
    else (findLong name os).map fun (i, hasArg) => (i + 1, hasArg)

/-- The colons behind an option character are its `has_arg`; `W` with a semicolon stands for long
options. -/
def findShort (c : Int8) : List Int8 → Option Nat
  | [] => none
  | d :: ds =>
    if d = c then
      if c = LONG_W ∧ ds.head? = some SEMICOLON then none
      else some (min 2 (ds.takeWhile (· = COLON)).length)
    else findShort c ds

/-- The option string without the flag at its front. -/
def optionChars : List Int8 → List Int8
  | c :: cs => if c = PLUS ∨ c = MINUS then cs else c :: cs
  | [] => []

def takesArg (hasArg : Nat) (optarg : Option CStr) : Bool :=
  match hasArg with
  | 0 => optarg.isNone
  | 1 => optarg.isSome
  | _ => true

/-- What `getopt_long` makes of a long or a short name with an argument, if it recognises it. -/
def GetoptTables.recognise (tables : GetoptTables) (name : CStr ⊕ Int8) (optarg : Option CStr) :
    Option GetoptResult :=
  match name with
  | .inl name =>
    match findLong name tables.longs with
    | some (i, hasArg) => if takesArg hasArg optarg then some ⟨0, some i, optarg⟩ else none
    | none => none
  | .inr c =>
    if c = COLON ∨ c = SEMICOLON then none
    else
      match findShort c (optionChars tables.shorts) with
      | some hasArg => if takesArg hasArg optarg then some ⟨c.toInt, none, optarg⟩ else none
      | none => none

theorem argTables_read {options : Options σ} (h : ∀ opt ∈ options.list, opt.hasArg ≤ 2) :
    (argTables options).bind ArgTables.read =
      some ⟨longOptions options.list, shortOptions options.list⟩ := by
  have hlong := length_longOptions_le options.list
  have hshort := length_shortOptions_le h
  rw [← options.count_eq] at hlong hshort
  have hnames : ∀ o ∈ longOptions options.list, o.name.isNone = false := by
    intro o ho
    obtain ⟨opt, -, hopt⟩ := List.mem_filterMap.mp ho
    obtain ⟨name, -, rfl⟩ := Option.map_eq_some_iff.mp hopt
    rfl
  have hchars : ∀ c ∈ shortOptions options.list, decide (c = 0) = false := by
    intro c hc
    obtain ⟨opt, -, hopt⟩ := List.mem_flatMap.mp hc
    rw [ArgOption.short] at hopt
    split at hopt
    · cases hopt
    next hne =>
      rcases List.mem_cons.mp hopt with rfl | hcolon
      · exact decide_eq_false hne
      · rw [List.eq_of_mem_replicate hcolon]
        rfl
  rw [argTables_eq h, Option.bind_some, ArgTables.read]
  dsimp only
  rw [Buffer.readUntil_filled _ rfl hnames (by omega),
    Buffer.readUntil_filled _ rfl hchars (by omega)]
  rfl

theorem findLong_longOptions {opts : List (ArgOption σ)} (hnodup : (longNames opts).Nodup)
    {opt : ArgOption σ} {name : CStr} (hmem : opt ∈ opts) (hname : opt.longName = some name) :
    findLong name (longOptions opts) = some ((longNames opts).idxOf name, opt.hasArg) := by
  induction opts with
  | nil => exact absurd hmem List.not_mem_nil
  | cons o opts ih =>
    rcases ho : o.longName with _ | m
    · have hne : o ≠ opt := by
        rintro rfl
        rw [hname] at ho
        cases ho
      have hlong : o.long? = none := by rw [ArgOption.long?, ho, Option.map_none]
      rw [longNames_cons_none ho] at hnodup ⊢
      rw [longOptions, List.filterMap_cons_none hlong]
      exact ih hnodup ((List.mem_cons.mp hmem).resolve_left fun h => hne h.symm)
    · have hlong : o.long? = some ⟨some m, o.hasArg⟩ := by
        rw [ArgOption.long?, ho, Option.map_some]
      rw [longNames_cons_some ho] at hnodup ⊢
      obtain ⟨hm, hrest⟩ := List.nodup_cons.mp hnodup
      rw [longOptions, List.filterMap_cons_some hlong, findLong]
      by_cases heq : m = name
      · subst heq
        have hopt : opt = o := by
          rcases List.mem_cons.mp hmem with h | h
          · exact h
          · exact absurd (mem_longNames h hname) hm
        rw [if_pos rfl, List.idxOf_cons_self, hopt]
      · have hmem' : opt ∈ opts := by
          rcases List.mem_cons.mp hmem with h | h
          · rw [h, ho] at hname
            exact absurd (Option.some.inj hname) heq
          · exact h
        have hfound := ih hrest hmem'
        rw [longOptions] at hfound
        rw [if_neg fun h => heq (Option.some.inj h), hfound, List.idxOf_cons_ne _ heq]
        rfl

/-- No short name is a flag or a mark of the option string. -/
def PlainNames (opts : List (ArgOption σ)) : Prop :=
  ∀ opt ∈ opts, opt.shortName ∉ [PLUS, MINUS, COLON, SEMICOLON]

instance (opts : List (ArgOption σ)) : Decidable (PlainNames opts) :=
  inferInstanceAs (Decidable (∀ opt ∈ opts, _))

theorem findShort_append {c : Int8} {cs : List Int8} (h : c ∉ cs) (ds : List Int8) :
    findShort c (cs ++ ds) = findShort c ds := by
  induction cs with
  | nil => rfl
  | cons d cs ih =>
    obtain ⟨hne, hrest⟩ := not_or.mp (mt List.mem_cons.mpr h)
    rw [List.cons_append, findShort, if_neg (Ne.symm hne)]
    exact ih hrest

theorem head?_shortOptions {opts : List (ArgOption σ)} {c : Int8}
    (h : (shortOptions opts).head? = some c) : ∃ opt ∈ opts, opt.shortName = c := by
  induction opts with
  | nil => cases h
  | cons o opts ih =>
    rw [shortOptions_cons, ArgOption.short] at h
    split at h
    · obtain ⟨opt, hopt, hc⟩ := ih h
      exact ⟨opt, List.mem_cons_of_mem o hopt, hc⟩
    · exact ⟨o, List.mem_cons_self, Option.some.inj h⟩

section
variable {opts : List (ArgOption σ)} (hplain : PlainNames opts)
include hplain

/-- What is behind the colons of an option is the name of another one. -/
theorem takeWhile_colons (n : Nat) :
    (List.replicate n COLON ++ shortOptions opts).takeWhile (· = COLON) =
      List.replicate n COLON := by
  have htail : (shortOptions opts).takeWhile (· = COLON) = [] := by
    cases hrest : shortOptions opts with
    | nil => rfl
    | cons c cs =>
      obtain ⟨x, hx, rfl⟩ := head?_shortOptions (by rw [hrest, List.head?_cons])
      have hx := hplain x hx
      simp only [List.mem_cons, List.not_mem_nil, or_false, not_or] at hx
      exact List.takeWhile_cons_of_neg (by simpa using hx.2.2.1)
  rw [List.takeWhile_append_of_pos, htail, List.append_nil]
  exact fun c hc => decide_eq_true (List.eq_of_mem_replicate hc)

theorem head?_ne_semicolon (n : Nat) :
    (List.replicate n COLON ++ shortOptions opts).head? ≠ some SEMICOLON := by
  intro hmark
  cases n with
  | zero =>
    rw [List.replicate_zero, List.nil_append] at hmark
    obtain ⟨x, hx, hname⟩ := head?_shortOptions hmark
    have hx := hplain x hx
    simp only [List.mem_cons, List.not_mem_nil, or_false, not_or] at hx
    exact hx.2.2.2 hname
  | succ n =>
    rw [List.replicate_succ] at hmark
    exact absurd (Option.some.inj hmark) (by decide)

end

theorem findShort_shortOptions {opts : List (ArgOption σ)} (hargs : ∀ opt ∈ opts, opt.hasArg ≤ 2)
    (hnodup : ((opts.map ArgOption.shortName).filter (· ≠ 0)).Nodup) (hplain : PlainNames opts)
    {opt : ArgOption σ} (hmem : opt ∈ opts) (hne : opt.shortName ≠ 0) :
    findShort opt.shortName (shortOptions opts) = some opt.hasArg := by
  induction opts with
  | nil => exact absurd hmem List.not_mem_nil
  | cons o opts ih =>
    have hplain' : PlainNames opts := fun x hx => hplain x (List.mem_cons_of_mem o hx)
    rw [List.map_cons] at hnodup
    rw [shortOptions_cons]
    by_cases heq : o.shortName = opt.shortName
    · have hopt : opt = o := by
        rcases List.mem_cons.mp hmem with h | h
        · exact h
        · rw [List.filter_cons_of_pos (by simpa [heq] using hne), List.nodup_cons] at hnodup
          have hin : o.shortName ∈ (opts.map ArgOption.shortName).filter (· ≠ 0) := by
            rw [heq]
            exact List.mem_filter.mpr ⟨List.mem_map_of_mem h, by simpa using hne⟩
          exact absurd hin hnodup.1
      subst hopt
      rw [ArgOption.short, if_neg hne, List.cons_append, findShort, if_pos rfl,
        if_neg fun hmark => head?_ne_semicolon hplain' _ hmark.2, takeWhile_colons hplain',
        List.length_replicate, Nat.min_eq_right (hargs opt List.mem_cons_self)]
    · have hmem' : opt ∈ opts := by
        rcases List.mem_cons.mp hmem with h | h
        · exact absurd (by rw [h]) heq
        · exact h
      have hcolon : opt.shortName ≠ COLON := by
        have hopt := hplain opt hmem
        simp only [List.mem_cons, List.not_mem_nil, or_false, not_or] at hopt
        exact hopt.2.2.1
      have hskip : opt.shortName ∉ o.short := by
        rw [ArgOption.short]
        split
        · exact List.not_mem_nil
        · intro h
          rcases List.mem_cons.mp h with h | h
          · exact heq h.symm
          · exact hcolon (List.eq_of_mem_replicate h)
      rw [findShort_append hskip]
      apply ih (fun x hx => hargs x (List.mem_cons_of_mem o hx)) _ hplain' hmem'
      by_cases h0 : o.shortName = 0
      · rwa [List.filter_cons_of_neg (by simp [h0])] at hnodup
      · rw [List.filter_cons_of_pos (by simpa using h0)] at hnodup
        exact hnodup.of_cons

theorem optionChars_shortOptions {opts : List (ArgOption σ)} (hplain : PlainNames opts) :
    optionChars (shortOptions opts) = shortOptions opts := by
  cases hshort : shortOptions opts with
  | nil => rfl
  | cons c cs =>
    have hhead : (shortOptions opts).head? = some c := by rw [hshort, List.head?_cons]
    obtain ⟨opt, hopt, rfl⟩ := head?_shortOptions hhead
    have hopt := hplain opt hopt
    simp only [List.mem_cons, List.not_mem_nil, or_false, not_or] at hopt
    exact if_neg (not_or.mpr ⟨hopt.1, hopt.2.1⟩)

/-! ## The loop -/

/-- What the loop runs: the options whose actions are run, with their arguments, and in the
end the result of `arg_parse`. There is none when an assertion fails, or when an option is
read behind the end of the list. -/
structure ArgRun (σ : Type) where
  actions : List (ArgOption σ × Option CStr)
  result : Option (Int × σ)

def ArgAction.run (action : ArgAction σ) (optarg : Option CStr) (s : σ) : Option (Int × σ) :=
  match action, optarg with
  | .void, some _ => none
  | .intVar set, some arg => some (0, set (atoi arg) s)
  | .charVar set, some arg => some (0, set arg s)
  | .callback call, optarg => call optarg s
  | _, none => some (0, s)

def ArgOption.run (opt : ArgOption σ) (optarg : Option CStr) (s : σ) (loop : σ → ArgRun σ) :
    ArgRun σ :=
  match opt.action.run optarg s with
  | some (0, s) => ⟨(opt, optarg) :: (loop s).actions, (loop s).result⟩
  | result => ⟨[(opt, optarg)], result⟩

def findOption (opts : List (ArgOption σ)) (ret : Int) (glongIndex : Nat) :
    Option (ArgOption σ) :=
  if ret = 0 then opts[glongIndex]? else opts.find? fun opt => opt.shortName.toInt = ret

def argLoop (opts : List (ArgOption σ)) : List GetoptResult → Nat → σ → ArgRun σ
  | [], _, s => ⟨[], some (0, s)⟩
  | r :: rs, glongIndex, s =>
    if r.ret < 0 then ⟨[], some (0, s)⟩
    else if r.ret = QUESTION.toInt ∨ r.ret = COLON.toInt then ⟨[], some (1, s)⟩
    else
      match findOption opts r.ret (r.longindex.getD glongIndex) with
      | none => ⟨[], none⟩
      | some opt => opt.run r.optarg s (argLoop opts rs (r.longindex.getD glongIndex))

/-- `arg_parse`; `getopt` is what `getopt_long` makes of the command line with the tables. -/
def argParse (alloc : Bool) (options : Options σ) (getopt : ArgTables → Option (List GetoptResult))
    (s : σ) : ArgRun σ :=
  if !alloc then ⟨[], some (1, s)⟩
  else
    match (argTables options).bind getopt with
    | none => ⟨[], none⟩
    | some results => argLoop options.list results (longOptions options.list).length s

/-! ## What a command line asks for -/

structure DistinctNames (opts : List (ArgOption σ)) : Prop where
  long : (longNames opts).Nodup
  short : ((opts.map ArgOption.shortName).filter (· ≠ 0)).Nodup

/-- An option on the command line, by its long or by its short name. -/
structure Occurrence (opts : List (ArgOption σ)) where
  opt : ArgOption σ
  mem : opt ∈ opts
  name : CStr ⊕ Int8
  named : name.elim (opt.longName = some ·) fun c => opt.shortName = c ∧ c ≠ 0
  optarg : Option CStr

variable {opts : List (ArgOption σ)}

namespace Occurrence

/-- `getopt_long` recognises it by the tables. -/
def Recognised (tables : GetoptTables) (occ : Occurrence opts) : Prop :=
  (tables.recognise occ.name occ.optarg).isSome

instance (tables : GetoptTables) (occ : Occurrence opts) : Decidable (occ.Recognised tables) :=
  inferInstanceAs (Decidable (_ = true))

def result (tables : GetoptTables) (occ : Occurrence opts) : GetoptResult :=
  (tables.recognise occ.name occ.optarg).getD ⟨QUESTION.toInt, none, none⟩

/-- A short name, or 0 and the index of a long one. -/
def told (occ : Occurrence opts) : GetoptResult :=
  match occ.name with
  | .inl name => ⟨0, some ((longNames opts).idxOf name), occ.optarg⟩
  | .inr c => ⟨c.toInt, none, occ.optarg⟩

def reached : List (Occurrence opts) → σ → List (Occurrence opts)
  | [], _ => []
  | occ :: occs, s =>
    occ :: match occ.opt.action.run occ.optarg s with
      | some (0, s) => reached occs s
      | _ => []

theorem mem_of_reached {occs : List (Occurrence opts)} {s : σ} {occ : Occurrence opts}
    (h : occ ∈ reached occs s) : occ ∈ occs := by
  induction occs generalizing s with
  | nil => exact h
  | cons first occs ih =>
    rw [reached] at h
    rcases List.mem_cons.mp h with heq | hrest
    · exact heq ▸ List.mem_cons_self
    · split at hrest
      · exact List.mem_cons_of_mem _ (ih hrest)
      · exact absurd hrest List.not_mem_nil

/-- The named options are run in turn; `bad` when there is something behind them that is no
option. -/
def runAll (bad : Bool) : List (Occurrence opts) → σ → ArgRun σ
  | [], s => ⟨[], some (if bad then 1 else 0, s)⟩
  | occ :: occs, s => occ.opt.run occ.optarg s (runAll bad occs)

/-- No option without a long name is registered before a long one, and a short one is no
character that `arg_parse` takes for an error or the end. -/
def Dispatched (occ : Occurrence opts) : Prop :=
  match occ.name with
  | .inl name => ∀ o ∈ opts.takeWhile (fun o => o.longName ≠ some name), o.longName.isSome
  | .inr c => 0 < c.toInt ∧ c ≠ QUESTION ∧ c ≠ COLON

end Occurrence

structure CommandLine (opts : List (ArgOption σ)) where
  occurrences : List (Occurrence opts)
  bad : Bool

def CommandLine.results (line : CommandLine opts) (tables : GetoptTables) : List GetoptResult :=
  line.occurrences.map (Occurrence.result tables) ++
    if line.bad then [⟨QUESTION.toInt, none, none⟩] else []

def CommandLine.getopt (line : CommandLine opts) (tables : ArgTables) :
    Option (List GetoptResult) :=
  tables.read.map line.results

def CommandLine.told (line : CommandLine opts) : List GetoptResult :=
  line.occurrences.map Occurrence.told ++
    if line.bad then [⟨QUESTION.toInt, none, none⟩] else []

/-- Options without a long name only make a position larger. -/
theorem idxOf_longNames_le {i : Nat} {opt : ArgOption σ} {name : CStr}
    (hi : opts[i]? = some opt) (hname : opt.longName = some name) :
    (longNames opts).idxOf name ≤ i := by
  induction opts generalizing i with
  | nil => cases hi
  | cons o opts ih =>
    rcases i with _ | i
    · have ho : o = opt := Option.some.inj hi
      subst ho
      rw [longNames_cons_some hname, List.idxOf_cons_self]
    · have hle := ih (i := i) hi
      rcases ho : o.longName with _ | m
      · rw [longNames_cons_none ho]
        omega
      · by_cases hm : m = name
        · subst hm
          rw [longNames_cons_some ho, List.idxOf_cons_self]
          omega
        · rw [longNames_cons_some ho, List.idxOf_cons_ne _ hm]
          omega

theorem getElem?_idxOf_iff (hnodup : (longNames opts).Nodup) {opt : ArgOption σ} {name : CStr}
    (hmem : opt ∈ opts) (hname : opt.longName = some name) :
    opts[(longNames opts).idxOf name]? = some opt ↔
      ∀ o ∈ opts.takeWhile (fun o => o.longName ≠ some name), o.longName.isSome := by
  induction opts with
  | nil => exact absurd hmem List.not_mem_nil
  | cons o opts ih =>
    rcases ho : o.longName with _ | m
    · -- the index is at most the position, which is behind `o`
      have hne : o ≠ opt := by
        intro h
        rw [h, hname] at ho
        cases ho
      have htake : o ∈ (o :: opts).takeWhile fun o => o.longName ≠ some name := by
        rw [List.takeWhile_cons, ho]
        exact List.mem_cons_self
      rw [longNames_cons_none ho]
      constructor
      · intro h
        rcases hidx : (longNames opts).idxOf name with _ | i
        · rw [hidx] at h
          exact absurd (Option.some.inj h) hne
        · rw [hidx] at h
          have hle : (longNames opts).idxOf name ≤ i := idxOf_longNames_le h hname
          omega
      · intro h
        have := h o htake
        rw [ho] at this
        cases this
    · rw [longNames_cons_some ho] at hnodup ⊢
      obtain ⟨hm, hrest⟩ := List.nodup_cons.mp hnodup
      by_cases heq : m = name
      · subst heq
        have hopt : opt = o := by
          rcases List.mem_cons.mp hmem with h | h
          · exact h
          · exact absurd (mem_longNames h hname) hm
        rw [List.idxOf_cons_self, List.takeWhile_cons, ho]
        simp [hopt]
      · have hmem' : opt ∈ opts := by
          rcases List.mem_cons.mp hmem with h | h
          · rw [h, ho] at hname
            exact absurd (Option.some.inj hname) heq
          · exact h
        have htake : (o :: opts).takeWhile (fun o => o.longName ≠ some name) =
            o :: opts.takeWhile fun o => o.longName ≠ some name := by
          apply List.takeWhile_cons_of_pos
          simp [ho, heq]
        rw [List.idxOf_cons_ne _ heq, List.getElem?_cons_succ, ih hrest hmem', htake,
          List.forall_mem_cons, ho]
        exact (and_iff_right rfl).symm

theorem find?_shortName (hnodup : ((opts.map ArgOption.shortName).filter (· ≠ 0)).Nodup)
    {opt : ArgOption σ} (hmem : opt ∈ opts) (hne : opt.shortName ≠ 0) :
    opts.find? (fun o => o.shortName.toInt = opt.shortName.toInt) = some opt := by
  induction opts with
  | nil => exact absurd hmem List.not_mem_nil
  | cons o opts ih =>
    rw [List.map_cons] at hnodup
    by_cases heq : o.shortName = opt.shortName
    · have hopt : opt = o := by
        rcases List.mem_cons.mp hmem with h | h
        · exact h
        · rw [List.filter_cons_of_pos (by simpa [heq] using hne), List.nodup_cons] at hnodup
          have hin : o.shortName ∈ (opts.map ArgOption.shortName).filter (· ≠ 0) := by
            rw [heq]
            exact List.mem_filter.mpr ⟨List.mem_map_of_mem h, by simpa using hne⟩
          exact absurd hin hnodup.1
      rw [hopt]
      exact List.find?_cons_of_pos (by simp)
    · have hmem' : opt ∈ opts := by
        rcases List.mem_cons.mp hmem with h | h
        · exact absurd (by rw [h]) heq
        · exact h
      have hint : ¬ o.shortName.toInt = opt.shortName.toInt :=
        fun h => heq (Int8.toInt_inj.mp h)
      rw [List.find?_cons_of_neg (by simpa using hint)]
      apply ih _ hmem'
      by_cases h0 : o.shortName = 0
      · rwa [List.filter_cons_of_neg (by simp [h0])] at hnodup
      · rw [List.filter_cons_of_pos (by simpa using h0)] at hnodup
        exact hnodup.of_cons

theorem ArgOption.head?_run (opt : ArgOption σ) (optarg : Option CStr) (s : σ)
    (loop : σ → ArgRun σ) : (opt.run optarg s loop).actions.head? = some (opt, optarg) := by
  rw [ArgOption.run]
  split
  · rfl
  · rfl

theorem ArgOption.run_eq_iff (opt : ArgOption σ) (optarg : Option CStr) (s : σ)
    (loop loop' : σ → ArgRun σ) : opt.run optarg s loop = opt.run optarg s loop' ↔
      ∀ s', opt.action.run optarg s = some (0, s') → loop s' = loop' s' := by
  rw [ArgOption.run, ArgOption.run]
  constructor
  · intro h s' hs'
    rw [hs'] at h
    simp only [ArgRun.mk.injEq, List.cons.injEq, true_and] at h
    rcases hl : loop s' with ⟨actions, result⟩
    rcases hl' : loop' s' with ⟨actions', result'⟩
    rw [hl, hl'] at h
    obtain ⟨rfl, rfl⟩ := h
    rfl
  · intro h
    split
    · rename_i s' hs'
      rw [h s' hs']
    · rfl

section
variable {r : GetoptResult} (rs : List GetoptResult) (glongIndex : Nat) (s : σ)

theorem argLoop_end (h : r.ret < 0) :
    argLoop opts (r :: rs) glongIndex s = ⟨[], some (0, s)⟩ := by
  rw [argLoop, if_pos h]

theorem argLoop_error (hneg : ¬ r.ret < 0)
    (h : r.ret = QUESTION.toInt ∨ r.ret = COLON.toInt) :
    argLoop opts (r :: rs) glongIndex s = ⟨[], some (1, s)⟩ := by
  rw [argLoop, if_neg hneg, if_pos h]

theorem argLoop_option (hneg : ¬ r.ret < 0)
    (h : ¬ (r.ret = QUESTION.toInt ∨ r.ret = COLON.toInt)) :
    argLoop opts (r :: rs) glongIndex s =
      match findOption opts r.ret (r.longindex.getD glongIndex) with
      | none => ⟨[], none⟩
      | some opt => opt.run r.optarg s (argLoop opts rs (r.longindex.getD glongIndex)) := by
  rw [argLoop, if_neg hneg, if_neg h]

end

/-- The value `getopt_long` returns does not stand for an error or the end. -/
def GetoptResult.Names (r : GetoptResult) : Prop :=
  ¬ r.ret < 0 ∧ ¬ (r.ret = QUESTION.toInt ∨ r.ret = COLON.toInt)

section
variable (hnames : DistinctNames opts) (occ : Occurrence opts)

include hnames in
theorem Occurrence.dispatched_iff (glongIndex : Nat) : occ.Dispatched ↔ occ.told.Names ∧
    findOption opts occ.told.ret (occ.told.longindex.getD glongIndex) = some occ.opt := by
  obtain ⟨opt, hmem, name | c, hnamed, optarg⟩ := occ
  · have hfind : findOption opts 0 ((longNames opts).idxOf name) =
        opts[(longNames opts).idxOf name]? := if_pos rfl
    have hzero : GetoptResult.Names ⟨0, some ((longNames opts).idxOf name), optarg⟩ :=
      ⟨Int.lt_irrefl 0, show ¬ ((0 : Int) = QUESTION.toInt ∨ (0 : Int) = COLON.toInt) by decide⟩
    show (∀ o ∈ opts.takeWhile (fun o => o.longName ≠ some name), o.longName.isSome) ↔
      GetoptResult.Names ⟨0, some ((longNames opts).idxOf name), optarg⟩ ∧
        findOption opts 0 ((longNames opts).idxOf name) = some opt
    rw [and_iff_right hzero, hfind, getElem?_idxOf_iff hnames.long hmem hnamed]
  · obtain ⟨rfl, hne⟩ := hnamed
    have hne' : opt.shortName.toInt ≠ 0 := fun h0 => hne (Int8.toInt_inj.mp h0)
    have hfind : findOption opts opt.shortName.toInt glongIndex = some opt := by
      rw [findOption, if_neg hne']
      exact find?_shortName hnames.short hmem hne
    show (0 < opt.shortName.toInt ∧ opt.shortName ≠ QUESTION ∧ opt.shortName ≠ COLON) ↔
      GetoptResult.Names ⟨opt.shortName.toInt, none, optarg⟩ ∧
        findOption opts opt.shortName.toInt glongIndex = some opt
    rw [and_iff_left hfind, GetoptResult.Names, not_or, Int8.toInt_inj, Int8.toInt_inj]
    refine and_congr ?_ Iff.rfl
    show 0 < opt.shortName.toInt ↔ ¬ opt.shortName.toInt < 0
    omega

variable (rs : List GetoptResult) (glongIndex : Nat) (s : σ)

include hnames in
theorem argLoop_dispatched (h : occ.Dispatched) :
    argLoop opts (occ.told :: rs) glongIndex s =
      occ.opt.run occ.optarg s
        (argLoop opts rs (occ.told.longindex.getD glongIndex)) := by
  obtain ⟨⟨hneg, herr⟩, hfind⟩ := (occ.dispatched_iff hnames glongIndex).mp h
  have hoptarg : occ.told.optarg = occ.optarg := by
    rw [Occurrence.told]
    split
    · rfl
    · rfl
  rw [argLoop_option rs glongIndex s hneg herr, hfind, hoptarg]

include hnames in
/-- Otherwise no action is run, or that of another option. -/
theorem argLoop_not_dispatched (h : ¬ occ.Dispatched) :
    (argLoop opts (occ.told :: rs) glongIndex s).actions.head? ≠
      some (occ.opt, occ.optarg) := by
  by_cases hneg : occ.told.ret < 0
  · rw [argLoop_end rs glongIndex s hneg]
    intro hhead
    cases hhead
  · by_cases herr : occ.told.ret = QUESTION.toInt ∨ occ.told.ret = COLON.toInt
    · rw [argLoop_error rs glongIndex s hneg herr]
      intro hhead
      cases hhead
    · rw [argLoop_option rs glongIndex s hneg herr]
      rcases hfind : findOption opts occ.told.ret (occ.told.longindex.getD glongIndex)
        with _ | other
      · intro hhead
        cases hhead
      · intro hhead
        rw [ArgOption.head?_run] at hhead
        obtain ⟨rfl, -⟩ := Prod.mk.inj (Option.some.inj hhead)
        exact h ((occ.dispatched_iff hnames glongIndex).mpr ⟨⟨hneg, herr⟩, hfind⟩)

end

/-- The loop runs what the command line names exactly when every option it gets to is
dispatched. -/
theorem argLoop_eq_runAll_iff (hnames : DistinctNames opts) (bad : Bool)
    (occs : List (Occurrence opts)) (glongIndex : Nat) (s : σ) :
    argLoop opts (CommandLine.told ⟨occs, bad⟩) glongIndex s = Occurrence.runAll bad occs s ↔
      ∀ occ ∈ Occurrence.reached occs s, occ.Dispatched := by
  induction occs generalizing glongIndex s with
  | nil =>
    have hend : argLoop opts (CommandLine.told ⟨([] : List (Occurrence opts)), bad⟩)
        glongIndex s = Occurrence.runAll bad ([] : List (Occurrence opts)) s := by
      cases bad
      · rfl
      · rfl
    constructor
    · intro _ occ hocc
      exact absurd hocc List.not_mem_nil
    · intro _
      exact hend
  | cons occ occs ih =>
    have htold : CommandLine.told ⟨occ :: occs, bad⟩ =
        occ.told :: CommandLine.told ⟨occs, bad⟩ := rfl
    rw [htold, Occurrence.runAll, Occurrence.reached, List.forall_mem_cons]
    by_cases hocc : occ.Dispatched
    · rw [argLoop_dispatched hnames occ _ glongIndex s hocc, ArgOption.run_eq_iff,
        and_iff_right hocc]
      simp only [ih]
      rcases hrun : occ.opt.action.run occ.optarg s with _ | ⟨res, s'⟩
      · simp
      · by_cases hres : res = 0
        · subst hres
          simp
        · simp [hres]
    · constructor
      · intro h
        have hhead := argLoop_not_dispatched hnames occ (CommandLine.told ⟨occs, bad⟩)
          glongIndex s hocc
        rw [h] at hhead
        exact absurd (ArgOption.head?_run _ _ _ _) hhead
      · rintro ⟨h, -⟩
        exact absurd h hocc

theorem recognise_short {tables : GetoptTables} {c : Int8} {optarg : Option CStr}
    {r : GetoptResult} (h : tables.recognise (.inr c) optarg = some r) :
    r = ⟨c.toInt, none, optarg⟩ := by
  simp only [GetoptTables.recognise] at h
  split_ifs at h
  split at h
  · split_ifs at h
    exact (Option.some.inj h).symm
  · cases h

theorem Occurrence.result_eq (hlong : (longNames opts).Nodup) {occ : Occurrence opts}
    (h : occ.Recognised ⟨longOptions opts, shortOptions opts⟩) :
    occ.result ⟨longOptions opts, shortOptions opts⟩ = occ.told := by
  obtain ⟨opt, hmem, name | c, hnamed, optarg⟩ := occ
  · have hfind := findLong_longOptions hlong hmem hnamed
    unfold Occurrence.Recognised at h
    unfold Occurrence.result Occurrence.told
    simp only [GetoptTables.recognise, hfind] at h ⊢
    split_ifs at h ⊢ with hargs
    · rfl
    · cases h
  · obtain ⟨r, hr⟩ := Option.isSome_iff_exists.mp h
    rw [Occurrence.result, hr, Option.getD_some, recognise_short hr]
    rfl

theorem Occurrence.recognised_iff (hargs : ∀ opt ∈ opts, opt.hasArg ≤ 2)
    (hnames : DistinctNames opts) {occ : Occurrence opts}
    (h : occ.name.isLeft ∨ PlainNames opts) :
    occ.Recognised ⟨longOptions opts, shortOptions opts⟩ ↔
      takesArg occ.opt.hasArg occ.optarg = true := by
  obtain ⟨opt, hmem, name | c, hnamed, optarg⟩ := occ
  · have hfind := findLong_longOptions hnames.long hmem hnamed
    unfold Occurrence.Recognised
    simp only [GetoptTables.recognise, hfind]
    split_ifs with htakes
    · exact iff_of_true rfl htakes
    · exact iff_of_false nofun htakes
  · obtain ⟨rfl, hne⟩ := hnamed
    have hplain : PlainNames opts := h.resolve_left nofun
    have hopt := hplain opt hmem
    simp only [List.mem_cons, List.not_mem_nil, or_false, not_or] at hopt
    have hfind := findShort_shortOptions hargs hnames.short hplain hmem hne
    unfold Occurrence.Recognised
    simp only [GetoptTables.recognise, optionChars_shortOptions hplain, hfind]
    rw [if_neg (not_or.mpr ⟨hopt.2.2.1, hopt.2.2.2⟩)]
    split_ifs with htakes
    · exact iff_of_true rfl htakes
    · exact iff_of_false nofun htakes

theorem CommandLine.results_eq (hlong : (longNames opts).Nodup) {line : CommandLine opts}
    (h : ∀ occ ∈ line.occurrences, occ.Recognised ⟨longOptions opts, shortOptions opts⟩) :
    line.results ⟨longOptions opts, shortOptions opts⟩ = line.told := by
  have hoccurrences : line.occurrences.map
      (Occurrence.result ⟨longOptions opts, shortOptions opts⟩) =
        line.occurrences.map Occurrence.told := by
    apply List.map_congr_left
    exact fun occ hocc => Occurrence.result_eq hlong (h occ hocc)
  rw [CommandLine.results, hoccurrences]
  rfl

theorem argParse_told {options : Options σ} (hargs : ∀ opt ∈ options.list, opt.hasArg ≤ 2)
    (hlong : (longNames options.list).Nodup) {line : CommandLine options.list}
    (h : ∀ occ ∈ line.occurrences,
      occ.Recognised ⟨longOptions options.list, shortOptions options.list⟩) (s : σ) :
    argParse true options line.getopt s =
      argLoop options.list line.told (longOptions options.list).length s := by
  have hread := argTables_read hargs
  have hgetopt : (argTables options).bind line.getopt = some line.told := by
    obtain ⟨tables, htables, hread⟩ := Option.bind_eq_some_iff.mp hread
    rw [htables, Option.bind_some, CommandLine.getopt, hread, Option.map_some,
      CommandLine.results_eq hlong h]
  simp only [argParse, hgetopt]
  rfl

/-- The tables of `arg_parse` stay inside their allocations and end there, and `getopt_long`
recognises by them what the options take. Where it recognises a command line, a run on it runs the
named options with their arguments exactly when every option that it gets to is dispatched. -/
theorem argParse_dispatches {options : Options σ}
    (hargs : ∀ opt ∈ options.list, opt.hasArg ≤ 2) (hnames : DistinctNames options.list) :
    ∃ tables read, argTables options = some tables ∧ tables.read = some read ∧
      (∀ occ : Occurrence options.list, occ.name.isLeft ∨ PlainNames options.list →
        (occ.Recognised read ↔ takesArg occ.opt.hasArg occ.optarg = true)) ∧
      ∀ (line : CommandLine options.list) (s : σ),
        (∀ occ ∈ line.occurrences, occ.Recognised read) →
        (argParse true options line.getopt s =
            Occurrence.runAll line.bad line.occurrences s ↔
          ∀ occ ∈ Occurrence.reached line.occurrences s, occ.Dispatched) := by
  obtain ⟨tables, htables, hread⟩ := Option.bind_eq_some_iff.mp (argTables_read hargs)
  refine ⟨tables, _, htables, hread, fun occ => Occurrence.recognised_iff hargs hnames,
    fun line s hline => ?_⟩
  rw [argParse_told hargs hnames.long hline]
  exact argLoop_eq_runAll_iff hnames line.bad line.occurrences _ s

def noteOption (longName : Option CStr) (shortName : Int8) : ArgOption (List Int8) :=
  ⟨longName, shortName, 0, .callback fun _ s => some (0, s ++ [shortName])⟩

def noteOptions : Options (List Int8) :=
  argRegisterBatch {} [noteOption none 118, noteOption (some (cstr "help")) 104]

/-- `-h` is in the option string, and the second option. -/
theorem argParse_dispatches_short :
    ∃ line : CommandLine noteOptions.list,
      (argParse true noteOptions line.getopt [] =
          Occurrence.runAll line.bad line.occurrences [] ↔
        ∀ occ ∈ Occurrence.reached line.occurrences [], occ.Dispatched) ∧
      (argParse true noteOptions line.getopt []).result = some (0, [104]) := by
  let line : CommandLine noteOptions.list :=
    ⟨[⟨noteOption (some (cstr "help")) 104, List.mem_cons_of_mem _ List.mem_cons_self,
      .inr 104, ⟨rfl, by decide⟩, none⟩], false⟩
  obtain ⟨tables, read, htables, hread, hrecognised, hdispatches⟩ :=
    @argParse_dispatches _ noteOptions (by decide) ⟨by decide, by decide⟩
  refine ⟨line, hdispatches line [] ?_, by decide⟩
  intro occ hocc
  obtain rfl := List.mem_singleton.mp hocc
  exact (hrecognised _ (.inr (by decide))).mpr rfl

/-- `--help` is the first entry of `glong`, and `-v` the first option. -/
theorem argParse_dispatches_other :
    ∃ line : CommandLine noteOptions.list,
      (∀ tables ∈ argTables noteOptions, ∀ read ∈ tables.read, ∀ occ ∈ line.occurrences,
        occ.Recognised read) ∧
      (Occurrence.runAll line.bad line.occurrences []).result = some (0, [104]) ∧
      (argParse true noteOptions line.getopt []).result = some (0, [118]) :=
  ⟨⟨[⟨noteOption (some (cstr "help")) 104, List.mem_cons_of_mem _ List.mem_cons_self,
      .inl (cstr "help"), rfl, none⟩], false⟩, by decide, by decide, by decide⟩

end Plotnetcfg
