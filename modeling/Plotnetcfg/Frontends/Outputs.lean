import Plotnetcfg.Core.Args
import Plotnetcfg.Core.Topology
import Plotnetcfg.Lib.Prog
import Mathlib.Data.List.DropRight

/-! The output options (`frontend.c`): the output entries that a sequence of `--format`,
`--output` and `--config-only` leaves, and what is then written where. -/

namespace Plotnetcfg.Frontends

structure OutputEntry where
  format : CStr
  file : Option CStr := none
  printMask : PropMask := {}
deriving DecidableEq

/-- A registered frontend, with what its `output` writes under a mask. -/
structure Frontend where
  format : CStr
  desc : CStr
  output : PropMask → CStr

structure FrontendState where
  /-- The last entry first. -/
  outputs : List OutputEntry := []
  usedDefaultFormat : Bool := false
  frontends : List Frontend := []
  /-- The outcomes of the allocations to come. -/
  mem : Nat → Bool
  stderr : List CStr := []
  /-- What was written to which file; `none` is the standard output. -/
  written : List (Option CStr × CStr) := []

abbrev FrontendProg := Prog Errno FrontendState Unit

def defaultFormat : CStr := cstr "dot"

def alloc : FrontendProg := fun s =>
  if s.mem 0 then some (.ok (), { s with mem := fun n => s.mem (n + 1) })
  else some (.error ENOMEM, { s with mem := fun n => s.mem (n + 1) })

def addOutput (format : CStr) : FrontendProg := do
  alloc
  -- `strdup(format)`
  alloc
  Prog.modify fun s => { s with outputs := { format := format } :: s.outputs }

def lateFormat : CStr :=
  cstr "Failed to parse arguments: output options must come after --format.\n"

def addFormat (arg : CStr) : FrontendProg := do
  let s ← Prog.get
  if s.usedDefaultFormat then
    Prog.modify fun s => { s with stderr := s.stderr ++ [lateFormat] }
    Prog.throw EINVAL
  else addOutput arg

def requireFormat : FrontendProg := do
  let s ← Prog.get
  if s.outputs = [] then
    addOutput defaultFormat
    Prog.modify fun s => { s with usedDefaultFormat := true }

def modifyHead (f : OutputEntry → OutputEntry) : FrontendProg := do
  let s ← Prog.get
  let head ← Prog.deref s.outputs.head?
  Prog.modify fun s => { s with outputs := f head :: s.outputs.tail }

/-- Several files for one format: the last entry is cloned. -/
def cloneOutput : FrontendProg := do
  let s ← Prog.get
  let head ← Prog.deref s.outputs.head?
  if head.file.isSome then addOutput head.format else pure ()

def setOutput (arg : CStr) : FrontendProg := do
  requireFormat
  cloneOutput
  -- `strdup(arg)`
  alloc
  modifyHead fun head => { head with file := some arg }

def setNostate : FrontendProg := do
  requireFormat
  modifyHead fun head => { head with printMask := { head.printMask with state := false } }

def write (file : Option CStr) (text : CStr) : FrontendProg :=
  Prog.modify fun s => { s with written := s.written ++ [(file, text)] }

/-- `print_formats`; the result 1 ends the program. -/
def printFormats : FrontendProg := do
  write none (cstr "Available output formats:\n")
  let s ← Prog.get
  Prog.forEach s.frontends fun f =>
    write none (cstr "\t" ++ f.format ++ cstr " - " ++ f.desc ++ cstr "\n")
  Prog.throw 1

def asCallback (p : FrontendProg) (s : FrontendState) : Option (Int × FrontendState) :=
  (p s).map fun
    | (.ok (), s') => (0, s')
    | (.error err, s') => (err.val, s')

def formatOption : ArgOption FrontendState where
  longName := some (cstr "format")
  shortName := 102
  hasArg := 1
  action := .callback fun arg => asCallback (Prog.deref arg >>= addFormat)

def outputOption : ArgOption FrontendState where
  longName := some (cstr "output")
  shortName := 111
  hasArg := 1
  action := .callback fun arg => asCallback (Prog.deref arg >>= setOutput)

def configOnlyOption : ArgOption FrontendState where
  longName := some (cstr "config-only")
  shortName := 67
  hasArg := 0
  action := .callback fun _ => asCallback setNostate

def listFormatsOption : ArgOption FrontendState where
  longName := some (cstr "list-formats")
  shortName := 70
  hasArg := 0
  action := .callback fun _ => asCallback printFormats

def options : List (ArgOption FrontendState) :=
  [formatOption, outputOption, configOnlyOption, listFormatsOption]

structure Files where
  fopen : CStr → Except Errno Unit := fun _ => .ok ()
  fclose : CStr → Except Errno Unit := fun _ => .ok ()

def ofExcept (result : Except Errno Unit) : FrontendProg :=
  match result with
  | .ok () => Prog.pure ()
  | .error err => Prog.throw err

/-- The standard output for an entry without a file, and for the file `-`. -/
def OutputEntry.destination (out : OutputEntry) : Option CStr := out.file.filter (· ≠ cstr "-")

/-- A turn of the second loop of `frontend_output`. -/
def outputEntry (files : Files) (out : OutputEntry) (f : Frontend) : FrontendProg :=
  match out.destination with
  | none => write none (f.output out.printMask)
  | some file => do
    ofExcept (files.fopen file)
    write (some file) (f.output out.printMask)
    ofExcept (files.fclose file)

/-- The entry with the first frontend of its format. -/
def FrontendState.withFrontend (s : FrontendState) (out : OutputEntry) :
    Option (OutputEntry × Frontend) :=
  (s.frontends.find? (·.format = out.format)).map (out, ·)

def frontendOutput (files : Files) : FrontendProg := do
  -- the result is not looked at
  let _ ← Prog.attempt requireFormat
  let s ← Prog.get
  match s.outputs.mapM s.withFrontend with
  | none => Prog.throw EINVAL
  | some outs => Prog.forEach outs fun (out, f) => outputEntry files out f

/-! ## The options on the command line -/

inductive OutputOption where
  | format (arg : CStr)
  | output (arg : CStr)
  | configOnly
deriving DecidableEq

namespace OutputOption

def isFormat : OutputOption → Bool
  | format _ => true
  | _ => false

@[simp] theorem isFormat_format (arg : CStr) : (format arg).isFormat = true := rfl

def isOutput : OutputOption → Bool
  | output _ => true
  | _ => false

def format? : OutputOption → Option CStr
  | format arg => some arg
  | _ => none

def callback : OutputOption → FrontendProg
  | format arg => addFormat arg
  | output arg => setOutput arg
  | configOnly => setNostate

end OutputOption

/-- The callbacks in the order of the options; the first error ends the program. -/
def parseOutputs (opts : List OutputOption) : FrontendProg :=
  Prog.forEach opts OutputOption.callback

/-! ## What the options mean -/

def lastFormat (before : List OutputOption) : CStr :=
  (before.filterMap OutputOption.format?).getLast?.getD defaultFormat

/-- The options of the last format; those before the first `--format` are of the implied one. -/
def sinceFormat (before : List OutputOption) : List OutputOption :=
  before.rtakeWhile fun o => !o.isFormat

def untilFormat (after : List OutputOption) : List OutputOption :=
  after.takeWhile fun o => !o.isFormat

def untilStart (after : List OutputOption) : List OutputOption :=
  after.takeWhile fun o => !o.isFormat && !o.isOutput

def maskOf (opts : List OutputOption) : PropMask where
  state := !opts.contains .configOnly

/-- The entry that the option `o` asks for, behind `before` and ahead of `after`. -/
def entryAt (before : List OutputOption) (o : OutputOption) (after : List OutputOption) :
    Option OutputEntry :=
  match o with
  | .format arg =>
    if (untilFormat after).any OutputOption.isOutput then none
    else some { format := arg, printMask := maskOf (untilFormat after) }
  | .output arg =>
    -- the first file of a format takes what was said since the format
    let start := if (sinceFormat before).any OutputOption.isOutput then [] else sinceFormat before
    some
      { format := lastFormat before
        file := some arg
        printMask := maskOf (start ++ untilStart after) }
  | .configOnly => none

def entriesFrom : List OutputOption → List OutputOption → List OutputEntry
  | _, [] => []
  | before, o :: after => (entryAt before o after).toList ++ entriesFrom (before ++ [o]) after

def outputEntries (opts : List OutputOption) : List OutputEntry :=
  (if opts.any fun o => o.isFormat || o.isOutput then []
    else [{ format := defaultFormat, printMask := maskOf opts }]) ++ entriesFrom [] opts

/-- A `--format` behind an option that no format precedes. -/
def LateFormat (opts : List OutputOption) : Prop :=
  ∃ before o between arg after, opts = before ++ o :: between ++ .format arg :: after ∧
    o.isFormat = false ∧ before.all fun o => !o.isFormat

/-! ## The callbacks without the memory -/

abbrev Entries := List OutputEntry × Bool

def FrontendState.entries (s : FrontendState) : Entries := (s.outputs, s.usedDefaultFormat)

def required (x : Entries) : Entries :=
  if x.1 = [] then ([{ format := defaultFormat }], true) else x

/-- The head of the list with its file, in front of it where the head has one. -/
def withFile (arg : CStr) : List OutputEntry → List OutputEntry
  | [] => []
  | head :: outputs =>
    if head.file.isSome then { format := head.format, file := some arg } :: head :: outputs
    else { head with file := some arg } :: outputs

def withoutState : List OutputEntry → List OutputEntry
  | [] => []
  | head :: outputs =>
    { head with printMask := { head.printMask with state := false } } :: outputs

def entriesStep (x : Entries) : OutputOption → Option Entries
  | .format arg => if x.2 then none else some ({ format := arg } :: x.1, x.2)
  | .output arg => some (withFile arg (required x).1, (required x).2)
  | .configOnly => some (withoutState (required x).1, (required x).2)

def Starved (s : FrontendState) : Prop := ∃ n, s.mem n = false

/-- The program leaves the entries `next`, is rejected where there are none, or lacks memory. -/
inductive Leaves (p : FrontendProg) (s : FrontendState) (next : Option Entries) : Prop
  | ok (s' : FrontendState) (run : p s = some (.ok (), s')) (entries : next = some s'.entries)
    (mem : Starved s' → Starved s)
  | rejected (s' : FrontendState) (run : p s = some (.error EINVAL, s')) (entries : next = none)
  | starved (s' : FrontendState) (run : p s = some (.error ENOMEM, s')) (mem : Starved s)

section
variable {p : FrontendProg} {q : Unit → FrontendProg} {s : FrontendState} {next : Option Entries}
  {f : Entries → Option Entries}

theorem Leaves.bind (hp : Leaves p s next)
    (hq : ∀ s', next = some s'.entries → Leaves (q ()) s' (f s'.entries)) :
    Leaves (p >>= q) s (next.bind f) := by
  rcases hp with ⟨s', hrun, rfl, hmem⟩ | ⟨s', hrun, rfl⟩ | ⟨s', hrun, hmem⟩
  · have hbind : (p >>= q) s = q () s' := Prog.bind_ok s hrun q
    rcases hq s' rfl with ⟨t, hrun', hentries, hmem'⟩ | ⟨t, hrun', hentries⟩ | ⟨t, hrun', hmem'⟩
    · exact .ok t (hbind.trans hrun') hentries fun h => hmem (hmem' h)
    · exact .rejected t (hbind.trans hrun') hentries
    · exact .starved t (hbind.trans hrun') (hmem hmem')
  · exact .rejected s' (Prog.bind_error s hrun q) rfl
  · exact .starved s' (Prog.bind_error s hrun q) hmem

theorem Leaves.congr {p' : FrontendProg} (h : Leaves p s next) (heq : p' s = p s) :
    Leaves p' s next := by
  rcases h with ⟨s', hrun, hentries, hmem⟩ | ⟨s', hrun, hentries⟩ | ⟨s', hrun, hmem⟩
  · exact .ok s' (heq.trans hrun) hentries hmem
  · exact .rejected s' (heq.trans hrun) hentries
  · exact .starved s' (heq.trans hrun) hmem

theorem Leaves.get_bind {g : FrontendState → FrontendProg} (h : Leaves (g s) s next) :
    Leaves (Prog.get >>= g) s next := h.congr rfl

theorem Leaves.deref_bind {α : Type} {x : Option α} {a : α} {g : α → FrontendProg}
    (hx : x = some a) (h : Leaves (g a) s next) : Leaves (Prog.deref x >>= g) s next := by
  subst hx
  exact h.congr rfl

end

section
variable (s : FrontendState)

theorem alloc_leaves : Leaves alloc s (some s.entries) := by
  rcases hmem : s.mem 0
  · exact .starved { s with mem := fun n => s.mem (n + 1) } (by rw [alloc, hmem]; rfl) ⟨0, hmem⟩
  · apply Leaves.ok { s with mem := fun n => s.mem (n + 1) } (by rw [alloc, hmem]; rfl) rfl
    rintro ⟨n, hn⟩
    exact ⟨n + 1, hn⟩

theorem modify_leaves {f : FrontendState → FrontendState} (hmem : (f s).mem = s.mem) :
    Leaves (Prog.modify f) s (some (f s).entries) :=
  .ok (f s) rfl rfl fun ⟨n, hn⟩ => ⟨n, by rwa [hmem] at hn⟩

theorem addOutput_leaves (format : CStr) :
    Leaves (addOutput format) s (some ({ format := format } :: s.outputs, s.usedDefaultFormat)) :=
  (alloc_leaves s).bind (f := fun x => some ({ format := format } :: x.1, x.2)) fun s' _ =>
    (alloc_leaves s').bind (f := fun x => some ({ format := format } :: x.1, x.2)) fun s'' _ =>
      modify_leaves s'' rfl

theorem addFormat_leaves (arg : CStr) :
    Leaves (addFormat arg) s (entriesStep s.entries (.format arg)) := by
  apply Leaves.get_bind
  by_cases hused : s.usedDefaultFormat
  · have hstep : entriesStep s.entries (.format arg) = none := if_pos hused
    rw [if_pos hused, hstep]
    exact .rejected _ rfl rfl
  · have hstep : entriesStep s.entries (.format arg) =
        some ({ format := arg } :: s.outputs, s.usedDefaultFormat) := if_neg hused
    rw [if_neg hused, hstep]
    exact addOutput_leaves s arg

theorem requireFormat_leaves : Leaves requireFormat s (some (required s.entries)) := by
  apply Leaves.get_bind
  by_cases hempty : s.outputs = []
  · have hreq : required s.entries = ([{ format := defaultFormat }], true) := if_pos hempty
    rw [if_pos hempty, hreq]
    have hadd := addOutput_leaves s defaultFormat
    rw [hempty] at hadd
    exact hadd.bind (f := fun x => some (x.1, true)) fun s' _ => modify_leaves s' rfl
  · have hreq : required s.entries = s.entries := if_neg hempty
    rw [if_neg hempty, hreq]
    exact .ok s rfl rfl id

theorem requireFormat_outputs {s s' : FrontendState} (h : requireFormat s = some (.ok (), s')) :
    s'.outputs = (required s.entries).1 := by
  rcases requireFormat_leaves s with ⟨t, hrun, hentries, -⟩ | ⟨t, hrun, -⟩ | ⟨t, hrun, -⟩
  · rw [hrun] at h
    obtain ⟨-, rfl⟩ := Prod.mk.inj (Option.some.inj h)
    rw [Option.some.inj hentries]
    rfl
  · rw [hrun] at h
    cases h
  · rw [hrun] at h
    cases h

theorem required_ne_nil (x : Entries) : (required x).1 ≠ [] := by
  rw [required]
  split
  · exact List.cons_ne_nil _ _
  · assumption

theorem modifyHead_leaves {s : FrontendState} (h : s.outputs ≠ [])
    (f : OutputEntry → OutputEntry) :
    Leaves (modifyHead f) s (some (s.outputs.modifyHead f, s.usedDefaultFormat)) := by
  obtain ⟨head, outputs, houtputs⟩ := List.exists_cons_of_ne_nil h
  apply Leaves.get_bind
  apply Leaves.deref_bind (a := head)
  · rw [houtputs]
    rfl
  · have hmod := modify_leaves s (f := fun s => { s with outputs := f head :: s.outputs.tail }) rfl
    simp only [FrontendState.entries, houtputs, List.tail_cons] at hmod
    rw [houtputs, List.modifyHead_cons]
    exact hmod

def cloned : List OutputEntry → List OutputEntry
  | [] => []
  | head :: outputs =>
    if head.file.isSome then { format := head.format } :: head :: outputs else head :: outputs

theorem cloneOutput_leaves {s : FrontendState} (h : s.outputs ≠ []) :
    Leaves cloneOutput s (some (cloned s.outputs, s.usedDefaultFormat)) := by
  obtain ⟨head, outputs, houtputs⟩ := List.exists_cons_of_ne_nil h
  apply Leaves.get_bind
  apply Leaves.deref_bind (a := head)
  · rw [houtputs]
    rfl
  · rw [houtputs, cloned]
    by_cases hfile : head.file.isSome
    · rw [if_pos hfile, if_pos hfile, ← houtputs]
      exact addOutput_leaves s head.format
    · rw [if_neg hfile, if_neg hfile, ← houtputs]
      exact .ok s rfl rfl id

theorem setOutput_leaves (arg : CStr) :
    Leaves (setOutput arg) s (entriesStep s.entries (.output arg)) := by
  have hstep : entriesStep s.entries (.output arg) = (some (required s.entries)).bind
      fun x => (some (cloned x.1, x.2)).bind fun x => (some x).bind fun x =>
        some ((x.1.modifyHead fun head => { head with file := some arg }), x.2) := by
    rw [entriesStep]
    rcases hx : (required s.entries).1 with _ | ⟨head, outputs⟩
    · exact absurd hx (required_ne_nil _)
    · simp only [Option.bind_some, hx, withFile, cloned]
      split
      · rfl
      · rfl
  rw [hstep]
  apply (requireFormat_leaves s).bind
  intro s₁ h₁
  have hne₁ : s₁.outputs ≠ [] := by
    have hreq := required_ne_nil s.entries
    rwa [Option.some.inj h₁] at hreq
  apply (cloneOutput_leaves hne₁).bind
  intro s₂ h₂
  apply (alloc_leaves s₂).bind
  intro s₃ h₃
  have hne₃ : s₃.outputs ≠ [] := by
    have hcloned : s₃.outputs = cloned s₁.outputs :=
      congrArg Prod.fst ((Option.some.inj h₂).trans (Option.some.inj h₃)).symm
    rw [hcloned]
    obtain ⟨head, outputs, houtputs⟩ := List.exists_cons_of_ne_nil hne₁
    rw [houtputs, cloned]
    split
    · exact List.cons_ne_nil _ _
    · exact List.cons_ne_nil _ _
  exact modifyHead_leaves hne₃ _

theorem setNostate_leaves : Leaves setNostate s (entriesStep s.entries .configOnly) := by
  have hstep : entriesStep s.entries .configOnly = (some (required s.entries)).bind fun x =>
      some (x.1.modifyHead fun head =>
        { head with printMask := { head.printMask with state := false } }, x.2) := by
    rw [entriesStep]
    rcases hx : (required s.entries).1 with _ | ⟨head, outputs⟩
    · exact absurd hx (required_ne_nil _)
    · simp only [Option.bind_some, hx, withoutState, List.modifyHead_cons]
  rw [hstep]
  apply (requireFormat_leaves s).bind
  intro s' h
  apply modifyHead_leaves
  have hreq := required_ne_nil s.entries
  rwa [Option.some.inj h] at hreq

theorem callback_leaves (o : OutputOption) :
    Leaves o.callback s (entriesStep s.entries o) := by
  rcases o with arg | arg | _
  · exact addFormat_leaves s arg
  · exact setOutput_leaves s arg
  · exact setNostate_leaves s

theorem parseOutputs_leaves (opts : List OutputOption) :
    Leaves (parseOutputs opts) s (opts.foldlM entriesStep s.entries) := by
  induction opts generalizing s with
  | nil => exact .ok s rfl rfl id
  | cons o opts ih =>
    rw [List.foldlM_cons]
    exact (callback_leaves s o).bind fun s' _ => ih s'

end

/-! ## The entries in their order -/

/-- What the entry `head` and the options after it come to, once a format is in use. -/
def completed (head : OutputEntry) : List OutputOption → List OutputEntry
  | [] => [head]
  | .format arg :: opts => head :: completed { format := arg } opts
  | .output arg :: opts =>
    if head.file.isSome then
      head :: completed { format := head.format, file := some arg } opts
    else completed { head with file := some arg } opts
  | .configOnly :: opts =>
    completed { head with printMask := { head.printMask with state := false } } opts

theorem foldlM_entriesStep (head : OutputEntry) (outputs : List OutputEntry) (used : Bool)
    (opts : List OutputOption) :
    opts.foldlM entriesStep (head :: outputs, used) =
      if used && opts.any OutputOption.isFormat then none
      else some ((outputs.reverse ++ completed head opts).reverse, used) := by
  induction opts generalizing head outputs with
  | nil => simp [completed]
  | cons o opts ih =>
    have hreq (x : OutputEntry) (xs : List OutputEntry) :
        required (x :: xs, used) = (x :: xs, used) := if_neg (List.cons_ne_nil x xs)
    rw [List.foldlM_cons]
    rcases o with arg | arg | _
    · cases used
      · simp [entriesStep, ih, completed]
      · simp [entriesStep, OutputOption.isFormat]
    · by_cases hfile : head.file.isSome
      · simp [entriesStep, hreq, withFile, hfile, ih, completed, OutputOption.isFormat]
      · simp [entriesStep, hreq, withFile, hfile, ih, completed, OutputOption.isFormat]
    · simp [entriesStep, hreq, withoutState, ih, completed, OutputOption.isFormat]


theorem completed_ne_nil (head : OutputEntry) (opts : List OutputOption) :
    completed head opts ≠ [] := by
  induction opts generalizing head with
  | nil => exact List.cons_ne_nil _ _
  | cons o opts ih =>
    rcases o with arg | arg | _
    · exact List.cons_ne_nil _ _
    · rw [completed]
      split
      · exact List.cons_ne_nil _ _
      · exact ih _
    · exact ih _

section
variable (before : List OutputOption) (o : OutputOption)

theorem lastFormat_concat (h : o.isFormat = false) :
    lastFormat (before ++ [o]) = lastFormat before := by
  have hnone : o.format? = none := by
    rcases o with arg | arg | _
    · cases h
    · rfl
    · rfl
  rw [lastFormat, List.filterMap_append, List.filterMap_cons_none hnone, List.filterMap_nil,
    List.append_nil, lastFormat]

theorem lastFormat_concat_format (arg : CStr) :
    lastFormat (before ++ [.format arg]) = arg := by
  simp [lastFormat, OutputOption.format?]

theorem sinceFormat_concat (h : o.isFormat = false) :
    sinceFormat (before ++ [o]) = sinceFormat before ++ [o] :=
  List.rtakeWhile_concat_pos _ _ _ (by simp [h])

theorem sinceFormat_concat_format (arg : CStr) : sinceFormat (before ++ [.format arg]) = [] :=
  List.rtakeWhile_concat_neg _ _ _ (by simp [OutputOption.isFormat])

end

theorem untilStart_eq {after : List OutputOption}
    (h : (untilFormat after).any OutputOption.isOutput = false) :
    untilStart after = untilFormat after := by
  induction after with
  | nil => rfl
  | cons o after ih =>
    rcases o with arg | arg | _
    · rfl
    · simp [untilFormat, OutputOption.isFormat, OutputOption.isOutput] at h
    · have hformat : untilFormat (.configOnly :: after) = .configOnly :: untilFormat after := rfl
      have hstart : untilStart (.configOnly :: after) = .configOnly :: untilStart after := rfl
      rw [hformat, List.any_cons] at h
      rw [hformat, hstart, ih h]

structure Opened (before : List OutputOption) (head : OutputEntry) : Prop where
  format : head.format = lastFormat before
  file : head.file.isSome = (sinceFormat before).any OutputOption.isOutput
  mask : head.file = none → head.printMask = maskOf (sinceFormat before)

/-- The entry in work at its end, unless a file is still put into it. -/
def finished (head : OutputEntry) (after : List OutputOption) : Option OutputEntry :=
  if head.file.isNone && (untilFormat after).any OutputOption.isOutput then none
  else some { head with
    printMask := { head.printMask with
      state := head.printMask.state && !(untilStart after).contains .configOnly } }

theorem finished_format (arg : CStr) (before after : List OutputOption) :
    finished { format := arg } after = entryAt before (.format arg) after := by
  by_cases hout : (untilFormat after).any OutputOption.isOutput
  · simp [finished, entryAt, hout]
  · have hstart := untilStart_eq (Bool.eq_false_of_not_eq_true hout)
    simp [finished, entryAt, hout, hstart, maskOf]

theorem Opened.output {before : List OutputOption} {head : OutputEntry} (h : Opened before head)
    (arg : CStr) (mask : PropMask) :
    Opened (before ++ [.output arg]) { format := head.format, file := some arg, printMask := mask } where
  format := by rw [lastFormat_concat before _ rfl, h.format]
  file := by
    rw [sinceFormat_concat before _ rfl, List.any_append]
    simp [OutputOption.isOutput]
  mask hnone := by cases hnone

theorem completed_eq {before : List OutputOption} {head : OutputEntry} (h : Opened before head)
    (after : List OutputOption) :
    completed head after = (finished head after).toList ++ entriesFrom before after := by
  induction after generalizing before head with
  | nil => simp [completed, finished, entriesFrom, untilFormat, untilStart]
  | cons o after ih =>
    rcases o with arg | arg | _
    · have hopened : Opened (before ++ [.format arg]) { format := arg } :=
        ⟨(lastFormat_concat_format before arg).symm,
          by rw [sinceFormat_concat_format]; rfl, fun _ => by rw [sinceFormat_concat_format]; rfl⟩
      have hfinished := finished_format arg before after
      have hhead : finished head (.format arg :: after) = some head := by
        simp [finished, untilFormat, untilStart, OutputOption.isFormat]
      rw [completed, ih hopened, hfinished, hhead, entriesFrom]
      rfl
    · by_cases hfile : head.file.isSome
      · have hout : (sinceFormat before).any OutputOption.isOutput = true := h.file ▸ hfile
        have hhead : finished head (.output arg :: after) = some head := by
          simp [finished, untilStart, OutputOption.isFormat, OutputOption.isOutput,
            Option.isNone_eq_false_iff.mpr hfile]
        have hentry : finished { format := head.format, file := some arg } after =
            entryAt before (.output arg) after := by
          simp [finished, entryAt, hout, h.format, maskOf]
        rw [completed, if_pos hfile, ih (h.output arg {}), hentry, hhead, entriesFrom]
        rfl
      · have hnone : head.file = none := Option.not_isSome_iff_eq_none.mp hfile
        have hout : (sinceFormat before).any OutputOption.isOutput = false := by
          rw [← h.file, hnone]
          rfl
        have hhead : finished head (.output arg :: after) = none := by
          simp [finished, hnone, untilFormat, OutputOption.isFormat, OutputOption.isOutput]
        have hentry : finished { head with file := some arg } after =
            entryAt before (.output arg) after := by
          simp [finished, entryAt, hout, h.format, h.mask hnone, maskOf]
        rw [completed, if_neg hfile, ih (h.output arg head.printMask), hentry, hhead, entriesFrom]
        rfl
    · have hopened : Opened (before ++ [.configOnly])
          { head with printMask := { head.printMask with state := false } } := by
        have hsince := sinceFormat_concat before .configOnly rfl
        constructor
        · rw [lastFormat_concat before _ rfl]
          exact h.format
        · rw [hsince, List.any_append, ← h.file]
          simp [OutputOption.isOutput]
        · intro hnone
          rw [hsince, h.mask hnone]
          simp [maskOf]
      have hhead : finished head (.configOnly :: after) =
          finished { head with printMask := { head.printMask with state := false } } after := by
        simp [finished, untilFormat, untilStart, OutputOption.isFormat, OutputOption.isOutput]
      rw [completed, ih hopened, hhead, entriesFrom]
      rfl

/-- The machine without the memory leaves the entries that the options ask for. -/
theorem foldlM_entries (opts : List OutputOption) :
    (opts.foldlM entriesStep ([], false)).map (fun x => (required x).1.reverse) =
      if opts.head?.any (fun o => !o.isFormat) && opts.any OutputOption.isFormat then none
      else some (outputEntries opts) := by
  have hreverse (xs : List OutputEntry) (hxs : xs ≠ []) (used : Bool) :
      (required (xs.reverse, used)).1.reverse = xs := by
    rw [required, if_neg (fun h => hxs (List.reverse_eq_nil_iff.mp h)), List.reverse_reverse]
  rcases opts with _ | ⟨o, opts⟩
  · rfl
  · have hdefault : Opened [] { format := defaultFormat } := ⟨rfl, rfl, fun _ => rfl⟩
    by_cases ho : o.isFormat
    · obtain ⟨arg, rfl⟩ : ∃ arg, o = .format arg := by
        rcases o with arg | arg | _
        · exact ⟨arg, rfl⟩
        · cases ho
        · cases ho
      have hopened : Opened [.format arg] { format := arg } := ⟨rfl, rfl, fun _ => rfl⟩
      have hentries : outputEntries (.format arg :: opts) = completed { format := arg } opts := by
        rw [completed_eq hopened, finished_format arg [] opts]
        rfl
      have hrun := foldlM_entriesStep { format := arg } [] false opts
      have hne := completed_ne_nil { format := arg } opts
      rw [hentries, List.foldlM_cons]
      show ((opts.foldlM entriesStep ([{ format := arg }], false)).map _) = some _
      rw [hrun, Bool.false_and, if_neg Bool.false_ne_true, List.reverse_nil, List.nil_append,
        Option.map_some, hreverse _ hne]
    · have hstep : entriesStep ([], false) o =
          entriesStep ([{ format := defaultFormat }], true) o := by
        rcases o with arg | arg | _
        · exact absurd rfl ho
        · rfl
        · rfl
      have hrun := foldlM_entriesStep { format := defaultFormat } [] true (o :: opts)
      have hne := completed_ne_nil { format := defaultFormat } (o :: opts)
      rw [List.foldlM_cons, hstep, ← List.foldlM_cons, hrun, Bool.true_and, List.reverse_nil,
        List.nil_append]
      have hhead : (o :: opts).head?.any (fun o => !o.isFormat) = true := by simp [ho]
      rw [hhead, Bool.true_and]
      by_cases hany : (o :: opts).any OutputOption.isFormat
      · rw [if_pos hany, if_pos hany]
        rfl
      · -- all options are of the implied format
        have hno : ∀ x ∈ o :: opts, x.isFormat = false := by
          intro x hx
          rw [List.any_eq_true] at hany
          exact Bool.eq_false_of_not_eq_true fun hformat => hany ⟨x, hx, hformat⟩
        have huntil : untilFormat (o :: opts) = o :: opts :=
          List.takeWhile_eq_self_iff.mpr fun x hx => by rw [hno x hx]; rfl
        have hentries : outputEntries (o :: opts) =
            completed { format := defaultFormat } (o :: opts) := by
          have hstarts : ((o :: opts).any fun o => o.isFormat || o.isOutput) =
              (o :: opts).any OutputOption.isOutput := by
            rw [Bool.eq_iff_iff, List.any_eq_true, List.any_eq_true]
            apply exists_congr
            intro x
            apply and_congr_right
            intro hx
            rw [hno x hx, Bool.false_or]
          rw [outputEntries, completed_eq hdefault, hstarts]
          by_cases hout : (o :: opts).any OutputOption.isOutput
          · simp [finished, huntil, hout]
          · have hstart : untilStart (o :: opts) = untilFormat (o :: opts) := by
              apply untilStart_eq
              rw [huntil]
              exact Bool.eq_false_of_not_eq_true hout
            simp [finished, huntil, hstart, hout, maskOf]
        rw [if_neg hany, if_neg hany, Option.map_some, hreverse _ hne, hentries]

theorem lateFormat_iff (opts : List OutputOption) : LateFormat opts ↔
    (opts.head?.any (fun o => !o.isFormat) && opts.any OutputOption.isFormat) = true := by
  constructor
  · rintro ⟨before, o, between, arg, after, rfl, ho, hbefore⟩
    rcases before with _ | ⟨first, before⟩
    · simp [ho]
    · rw [List.all_cons, Bool.and_eq_true] at hbefore
      simpa using hbefore.1
  · intro h
    rcases opts with _ | ⟨o, opts⟩
    · cases h
    · have ho : o.isFormat = false := by simpa using (Bool.and_eq_true_iff.mp h).1
      have hany : opts.any OutputOption.isFormat = true := by
        simpa [ho] using (Bool.and_eq_true_iff.mp h).2
      obtain ⟨x, hx, hformat⟩ := List.any_eq_true.mp hany
      obtain ⟨between, after, rfl⟩ := List.append_of_mem hx
      obtain ⟨arg, rfl⟩ : ∃ arg, x = .format arg := by
        rcases x with arg | arg | _
        · exact ⟨arg, rfl⟩
        · cases hformat
        · cases hformat
      exact ⟨[], o, between, arg, after, rfl, ho, rfl⟩

/-- The output options compose as documented: what is accepted leaves the entries that the
options ask for, and an option sequence is rejected exactly for a late `--format`. -/
theorem parseOutputs_composes (opts : List OutputOption) (mem : Nat → Bool)
    (frontends : List Frontend) :
    ∃ result s, parseOutputs opts { mem := mem, frontends := frontends } = some (result, s) ∧
      (result = .ok () → ∀ s', requireFormat s = some (.ok (), s') →
        s'.outputs.reverse = outputEntries opts) ∧
      ((∃ n, mem n = false) ∧ result = .error ENOMEM ∨
        (result = .error EINVAL ↔ LateFormat opts) ∧ (result = .ok () ↔ ¬ LateFormat opts)) := by
  have hentries := foldlM_entries opts
  rcases parseOutputs_leaves { mem := mem, frontends := frontends } opts with
    ⟨s, hrun, hnext, -⟩ | ⟨s, hrun, hnext⟩ | ⟨s, hrun, hmem⟩
  · have hstart : opts.foldlM entriesStep ([], false) = some s.entries := hnext
    rw [hstart, Option.map_some] at hentries
    have hlate : ¬ LateFormat opts := by
      intro h
      rw [if_pos ((lateFormat_iff opts).mp h)] at hentries
      cases hentries
    rw [if_neg (fun h => hlate ((lateFormat_iff opts).mpr h))] at hentries
    refine ⟨_, s, hrun, ?_, Or.inr ⟨?_, ?_⟩⟩
    · intro _ s' hrequire
      have houtputs : s'.outputs = (required s.entries).1 := requireFormat_outputs hrequire
      rw [houtputs]
      exact Option.some.inj hentries
    · exact iff_of_false (by intro h; cases h) hlate
    · exact iff_of_true rfl hlate
  · have hstart : opts.foldlM entriesStep ([], false) = none := hnext
    have hlate : LateFormat opts := by
      by_contra h
      rw [hstart, Option.map_none, if_neg (fun hc => h ((lateFormat_iff opts).mpr hc))] at hentries
      cases hentries
    refine ⟨_, s, hrun, ?_, Or.inr ⟨?_, ?_⟩⟩
    · intro h
      cases h
    · exact iff_of_true rfl hlate
    · exact iff_of_false (by intro h; cases h) (not_not_intro hlate)
  · refine ⟨_, s, hrun, ?_, Or.inl ⟨hmem, rfl⟩⟩
    intro h
    cases h

/-! ## From the command line to the files -/

def OutputOption.occurrence (o : OutputOption) (long : Bool) : Occurrence options :=
  match o, long with
  | .format arg, true => ⟨formatOption, by simp [options], .inl (cstr "format"), rfl, some arg⟩
  | .format arg, false => ⟨formatOption, by simp [options], .inr 102, ⟨rfl, by decide⟩, some arg⟩
  | .output arg, true => ⟨outputOption, by simp [options], .inl (cstr "output"), rfl, some arg⟩
  | .output arg, false => ⟨outputOption, by simp [options], .inr 111, ⟨rfl, by decide⟩, some arg⟩
  | .configOnly, true =>
    ⟨configOnlyOption, by simp [options], .inl (cstr "config-only"), rfl, none⟩
  | .configOnly, false =>
    ⟨configOnlyOption, by simp [options], .inr 67, ⟨rfl, by decide⟩, none⟩

theorem options_names : DistinctNames options := ⟨by decide, by decide⟩

theorem occurrence_dispatched (o : OutputOption) (long : Bool) :
    (o.occurrence long).Dispatched := by
  have hall : ∀ o ∈ options, o.longName.isSome := by decide
  have htake (name : CStr) :
      ∀ o ∈ options.takeWhile (fun o => o.longName ≠ some name), o.longName.isSome :=
    fun o ho => hall o ((List.takeWhile_subset _) ho)
  rcases o with arg | arg | _ <;> cases long
  · exact ⟨by decide, by decide, by decide⟩
  · exact htake _
  · exact ⟨by decide, by decide, by decide⟩
  · exact htake _
  · exact ⟨by decide, by decide, by decide⟩
  · exact htake _

theorem occurrence_run (o : OutputOption) (long : Bool) (s : FrontendState) :
    (o.occurrence long).opt.action.run (o.occurrence long).optarg s = asCallback o.callback s := by
  rcases o with arg | arg | _ <;> cases long <;> rfl

theorem runAll_result (opts : List (OutputOption × Bool)) (s : FrontendState) :
    (Occurrence.runAll false (opts.map fun (o, long) => o.occurrence long) s).result =
      asCallback (parseOutputs (opts.map Prod.fst)) s := by
  induction opts generalizing s with
  | nil => rfl
  | cons x opts ih =>
    obtain ⟨o, long⟩ := x
    have hrun := occurrence_run o long s
    have hparse : parseOutputs (o :: opts.map Prod.fst) =
        o.callback >>= fun _ => parseOutputs (opts.map Prod.fst) := rfl
    rw [List.map_cons, List.map_cons, Occurrence.runAll, ArgOption.run, hrun, hparse]
    rcases hcallback : o.callback s with _ | ⟨err | _, s'⟩
    · rw [asCallback, asCallback, Prog.bind_fault s hcallback, hcallback]
      rfl
    · have hne : (err.val : Int) ≠ 0 := Int.natCast_ne_zero.mpr err.pos.ne'
      rw [asCallback, asCallback, Prog.bind_error s hcallback, hcallback, Option.map_some]
      split
      · rename_i hzero
        exact absurd (Prod.mk.inj (Option.some.inj hzero)).1 hne
      · rfl
    · rw [asCallback, asCallback, Prog.bind_ok s hcallback, hcallback, Option.map_some]
      exact ih s'

theorem occurrence_takes (o : OutputOption) (long : Bool) :
    takesArg (o.occurrence long).opt.hasArg (o.occurrence long).optarg = true := by
  rcases o with arg | arg | _ <;> cases long <;> rfl

/-- `arg_parse` runs the callbacks of the output options in turn. -/
theorem argParse_outputs (opts : List (OutputOption × Bool)) (s : FrontendState) :
    (argParse true { list := options, count := options.length }
      (CommandLine.getopt ⟨opts.map fun (o, long) => o.occurrence long, false⟩) s).result =
      asCallback (parseOutputs (opts.map Prod.fst)) s := by
  have hargs : ∀ opt ∈ options, opt.hasArg ≤ 2 := by decide
  have hrecognised : ∀ occ ∈ opts.map fun (o, long) => o.occurrence long,
      occ.Recognised ⟨longOptions options, shortOptions options⟩ := by
    intro occ hocc
    obtain ⟨⟨o, long⟩, -, rfl⟩ := List.mem_map.mp hocc
    exact (Occurrence.recognised_iff hargs options_names (.inr (by decide))).mpr
      (occurrence_takes o long)
  have hdispatched : ∀ occ ∈ Occurrence.reached (opts.map fun (o, long) => o.occurrence long) s,
      occ.Dispatched := by
    intro occ hocc
    obtain ⟨⟨o, long⟩, -, rfl⟩ := List.mem_map.mp (Occurrence.mem_of_reached hocc)
    exact occurrence_dispatched o long
  rw [argParse_told hargs options_names.long hrecognised]
  rw [(argLoop_eq_runAll_iff options_names false _ _ s).mpr hdispatched]
  exact runAll_result opts s

/-! ## What is written -/

theorem ofExcept_eq_ok {result : Except Errno Unit} {s t : FrontendState}
    (h : ofExcept result s = some (.ok (), t)) : t = s := by
  rcases result with err | _
  · cases h
  · exact (Prod.mk.inj (Option.some.inj h)).2.symm

theorem outputEntry_written {files : Files} {out : OutputEntry} {f : Frontend}
    {s t : FrontendState} (h : outputEntry files out f s = some (.ok (), t)) :
    t.written = s.written ++ [(out.destination, f.output out.printMask)] := by
  rw [outputEntry] at h
  rcases hdest : out.destination with _ | file
  · rw [hdest] at h
    rw [← (Prod.mk.inj (Option.some.inj h)).2]
  · rw [hdest] at h
    obtain ⟨_, s₁, hopen, h₁⟩ := (Prog.bind_eq_ok s).mp h
    obtain ⟨_, s₂, hwrite, h₂⟩ := (Prog.bind_eq_ok s₁).mp h₁
    rw [ofExcept_eq_ok h₂, ← (Prod.mk.inj (Option.some.inj hwrite)).2, ofExcept_eq_ok hopen]

theorem outputEntries_written {files : Files} {outs : List (OutputEntry × Frontend)}
    {s t : FrontendState}
    (h : Prog.forEach outs (fun (out, f) => outputEntry files out f) s = some (.ok (), t)) :
    t.written =
      s.written ++ outs.map fun (out, f) => (out.destination, f.output out.printMask) := by
  induction outs generalizing s with
  | nil =>
    rw [← (Prod.mk.inj (Option.some.inj h)).2, List.map_nil, List.append_nil]
  | cons x outs ih =>
    obtain ⟨out, f⟩ := x
    rw [Prog.forEach_cons] at h
    obtain ⟨_, s', hout, hrest⟩ := (Prog.bind_eq_ok s).mp h
    rw [ih hrest, outputEntry_written hout, List.append_assoc, List.map_cons,
      List.singleton_append]

/-- Every entry has the output of its frontend written once, in the order of the list. -/
theorem frontendOutput_written {files : Files} {s t : FrontendState}
    (h : frontendOutput files s = some (.ok (), t)) :
    ∃ r s₁ outs, requireFormat s = some (r, s₁) ∧ s₁.outputs.mapM s₁.withFrontend = some outs ∧
      t.written =
        s₁.written ++ outs.map fun (out, f) => (out.destination, f.output out.printMask) := by
  obtain ⟨r, s₁, hrequire, h₁⟩ := (Prog.bind_eq_ok s).mp h
  obtain ⟨⟨r', s₁'⟩, hrun, heq⟩ := Option.map_eq_some_iff.mp hrequire
  obtain ⟨-, rfl⟩ := Prod.mk.inj heq
  rw [Prog.bind_ok s₁' (Prog.get_apply s₁')] at h₁
  rcases houts : s₁'.outputs.mapM s₁'.withFrontend with _ | outs
  · rw [houts] at h₁
    cases h₁
  · rw [houts] at h₁
    exact ⟨r', s₁', outs, hrun, houts, outputEntries_written h₁⟩

end Plotnetcfg.Frontends
