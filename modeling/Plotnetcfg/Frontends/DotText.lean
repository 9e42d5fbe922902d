import Plotnetcfg.Frontends.Dot
import Plotnetcfg.Lib.DotLanguage

/-! The text that the dot frontend prints (`dot_output`), and when it reads back. Strings are put
between double quotes as they are. -/

namespace Plotnetcfg.Frontends

open DotLanguage (Statement Closed Inside lexer statements Is ascii)

/-! ## Printing -/

def outputLabel (labels : List CStr) : CStr := labels.flatMap fun text => cstr "\\n" ++ text

def outputLabelProperties (properties : List LabelProperty) (mask : PropMask) : CStr :=
  properties.flatMap fun prop =>
    if labelPropMatchMask prop.type mask then cstr "\\n" ++ prop.key ++ cstr ": " ++ prop.value
    else []

def outputAddresses (addresses : List IfAddr) : CStr :=
  addresses.flatMap fun addr => cstr "\\n" ++ printStr addr.addr.formatted ++
    match addr.peer.formatted with
    | some peer => cstr " peer " ++ peer
    | none => []

def outputMtu (x : IfEntry) : CStr :=
  if x.mtu ≠ 0 ∧ x.mtu ≠ 1500 ∧ x.flags.loopback = false then cstr "\\nMTU " ++ decimalInt x.mtu
  else []

def outputXdp (xdpList : List IfXdp) : CStr :=
  xdpList.flatMap fun xdp =>
    cstr "\\nxdp-" ++ xdp.mode ++ cstr " (id " ++ decimal xdp.progId.toNat ++ cstr ")"

def outputMac (x : IfEntry) : CStr :=
  match x.macAddr.formatted with
  | some mac => if x.flags.loopback then [] else cstr "\\nmac " ++ mac
  | none => []

def nodeLabel (mask : PropMask) (x : IfEntry) : CStr :=
  x.ifName ++ (if x.driver.isSome then cstr " (" ++ ifdrv x ++ cstr ")" else []) ++
    outputLabelProperties x.properties mask ++ outputMtu x ++ outputXdp x.xdp ++
    if labelPropMatchMask .config mask then outputAddresses x.addr ++ outputMac x else []

def nodeState (mask : PropMask) (x : IfEntry) : CStr :=
  if labelPropMatchMask .state mask then
    if x.flags.internal then cstr ",style=dotted"
    else if !x.flags.up then cstr ",style=filled,fillcolor=\"grey\""
    else if !x.flags.hasLink then cstr ",style=filled,fillcolor=\"pink\""
    else cstr ",style=filled,fillcolor=\"darkolivegreen1\""
  else []

def nodeWarnings (x : IfEntry) : CStr := if x.warnings ≠ 0 then cstr ",color=\"red\"" else []

def nodeText (w : World) (mask : PropMask) (ptr : IfPtr) : CStr :=
  quote (ifid w ptr) ++ cstr " [label=" ++ quote (nodeLabel mask (w.ifs ptr)) ++
    nodeState mask (w.ifs ptr) ++ nodeWarnings (w.ifs ptr) ++ cstr "]\n"

/-- The text, and whether an interface is linked to the root name space. -/
def outputIfacesPass1 (w : World) (mask : PropMask) (list : List IfPtr) : CStr × Bool :=
  (list.flatMap (nodeText w mask),
    list.any fun ptr => (w.ifs ptr).linkNet.any fun ns => (w.nss ns).name.isNone)

def netnsText (w : World) (mask : PropMask) (ns : NsPtr) : CStr :=
  let ifaces := (outputIfacesPass1 w mask (w.nss ns).ifaces).1
  match (w.nss ns).name with
  | some name =>
    cstr "subgraph " ++ quote (cstr "cluster/" ++ nsid (w.nss ns)) ++ cstr " \x7b\n" ++
      (cstr "label=" ++ quote name ++ cstr "\nfontcolor=\"black\"\n" ++ ifaces) ++ cstr "\x7d\n"
  | none => ifaces

def needInitNet (w : World) (mask : PropMask) : Bool :=
  w.nsList.any fun ns => (outputIfacesPass1 w mask (w.nss ns).ifaces).2

def outputWarnings (w : World) : CStr :=
  if w.nsList.any fun ns => !(w.nss ns).warnings.isEmpty then
    cstr "label=" ++ quote (w.nsList.flatMap fun ns => outputLabel (w.nss ns).warnings) ++
      cstr "\nfontcolor=\"red\"\n"
  else []

/-- `version` is `VERSION`, `date` is what `ctime` gives. -/
def dotOutput (version date : CStr) (w : World) (mask : PropMask) : CStr :=
  cstr "// generated by plotnetcfg " ++ version ++ cstr " on " ++ date ++
    cstr "digraph \x7b\ncompound=true;\nnode [shape=box]\n" ++
    (w.nsList.flatMap (netnsText w mask) ++
      (if needInitNet w mask then cstr "\"cluster//\"[label=\"root netns\",penwidth=0];\n" else []) ++
      (dotEdges w).flatMap (DotEdge.text w) ++ outputWarnings w) ++
    cstr "\x7d\n"

/-! ## What is read back -/

def readBack (s : CStr) : CStr := (DotLanguage.content false s).getD []

def stateAttrs (mask : PropMask) (x : IfEntry) : List (CStr × CStr) :=
  if labelPropMatchMask .state mask then
    if x.flags.internal then [(cstr "style", cstr "dotted")]
    else [(cstr "style", cstr "filled"), (cstr "fillcolor",
      if !x.flags.up then cstr "grey"
      else if !x.flags.hasLink then cstr "pink"
      else cstr "darkolivegreen1")]
  else []

def warningAttrs (x : IfEntry) : List (CStr × CStr) :=
  if x.warnings ≠ 0 then [(cstr "color", cstr "red")] else []

def nodeStatement (w : World) (mask : PropMask) (ptr : IfPtr) : Statement :=
  .node (ifid w ptr) ((cstr "label", readBack (nodeLabel mask (w.ifs ptr))) ::
    stateAttrs mask (w.ifs ptr) ++ warningAttrs (w.ifs ptr))

def styleAttr (weak : Bool) : CStr × CStr :=
  (cstr "style", if weak then cstr "dashed" else cstr "solid")

def labelAttrs (label : Option CStr) : List (CStr × CStr) :=
  match label with
  | some label => [(cstr "label", readBack label)]
  | none => []

def DotEdge.statement (w : World) : DotEdge → Statement
  | .master ptr target passive label =>
    .edge (ifid w ptr) (ifid w target) (styleAttr passive :: labelAttrs label)
  | .physfn ptr target =>
    .edge (ifid w ptr) (ifid w target)
      [(cstr "style", cstr "dotted"), (cstr "taillabel", cstr "PF")]
  | .link target ptr weak label =>
    .edge (ifid w target) (ifid w ptr) (styleAttr weak :: labelAttrs label)
  | .linkNet ptr ns =>
    if (w.nss ns).name.isSome then
      .edge (ifid w ptr) (nsid (w.nss ns) ++ cstr "/lo")
        [(cstr "lhead", cstr "cluster/" ++ nsid (w.nss ns)), (cstr "style", cstr "dashed")]
    else .edge (ifid w ptr) (cstr "cluster//") [(cstr "style", cstr "dashed")]
  | .peer ptr target => .edge (ifid w ptr) (ifid w target) [(cstr "dir", cstr "none")]

/-- The node that stands for the root name space. -/
def initNetStatement : Statement :=
  .node (cstr "cluster//") [(cstr "label", cstr "root netns"), (cstr "penwidth", cstr "0")]

def dotStatements (w : World) (mask : PropMask) : List Statement :=
  w.listed.map (nodeStatement w mask) ++
    (if needInitNet w mask then [initNetStatement] else []) ++ (dotEdges w).map (DotEdge.statement w)

/-! ## Strings that can be printed as they are -/

structure Plain (s : CStr) : Prop where
  noQuote : 34 ∉ s
  ending : s.getLast? ≠ some 92

instance (s : CStr) : Decidable (Plain s) :=
  decidable_of_iff (34 ∉ s ∧ s.getLast? ≠ some 92) ⟨fun h => ⟨h.1, h.2⟩, fun h => ⟨h.1, h.2⟩⟩

def labelStrings (mask : PropMask) (x : IfEntry) : List CStr :=
  [x.ifName] ++ (if x.driver.isSome then [ifdrv x] else []) ++
    ((x.properties.filter fun prop => labelPropMatchMask prop.type mask).flatMap fun prop =>
      [prop.key, prop.value]) ++
    x.xdp.map IfXdp.mode ++
    (if labelPropMatchMask .config mask then
      x.addr.flatMap (fun addr => addr.addr.formatted.toList ++ addr.peer.formatted.toList) ++
        if x.flags.loopback then [] else x.macAddr.formatted.toList
    else [])

/-- No double quote or backslash of a string that is printed gets in the way of the quotes around
it. -/
structure Quotable (w : World) (mask : PropMask) : Prop where
  ids : ∀ e ∈ w.listed, Plain (ifid w e)
  master : ∀ e ∈ w.listed, ∀ t ∈ (w.ifs e).master, Plain (ifid w t)
  physfn : ∀ e ∈ w.listed, ∀ t ∈ (w.ifs e).physfn, Plain (ifid w t)
  link : ∀ e ∈ w.listed, ∀ t ∈ (w.ifs e).link, Plain (ifid w t)
  linkNet : ∀ e ∈ w.listed, (w.ifs e).link = none → ∀ ns ∈ (w.ifs e).linkNet,
    (w.nss ns).name.isSome → Plain (nsid (w.nss ns))
  peer : ∀ e ∈ w.listed, ∀ t ∈ (w.ifs e).peer, t < e → Plain (ifid w t)
  labels : ∀ e ∈ w.listed, ∀ s ∈ labelStrings mask (w.ifs e), Inside s
  labelEnd : ∀ e ∈ w.listed, (nodeLabel mask (w.ifs e)).getLast? ≠ some 92
  edgeLabels : ∀ e ∈ w.listed, ((w.ifs e).master.isSome ∨ (w.ifs e).link.isSome) →
    ∀ s ∈ (w.ifs e).edgeLabel, Closed s
  names : ∀ ns ∈ w.nsList, ∀ name ∈ (w.nss ns).name, Closed name ∧ Closed (nsid (w.nss ns))
  warnings : ∀ ns ∈ w.nsList, ∀ s ∈ (w.nss ns).warnings, Inside s
  warningEnd : ∀ s ∈ (w.nsList.flatMap fun ns => (w.nss ns).warnings).getLast?, s.getLast? ≠ some 92

/-! ## Reading -/

theorem Plain.closed {s : CStr} (h : Plain s) : Closed s :=
  ⟨DotLanguage.inside_of_notMem h.noQuote, h.ending⟩

theorem Plain.reads {s : CStr} (h : Plain s) : lexer.Reads .plain (quote s) .plain [.str s] :=
  DotLanguage.quote_reads (DotLanguage.content_plain h.noQuote h.ending)

theorem quote_reads {s : CStr} (h : Closed s) :
    lexer.Reads .plain (quote s) .plain [.str (readBack s)] := h.reads

section
variable {a b : CStr}

theorem arrow_reads (ha : Plain a) (hb : Plain b) :
    lexer.Reads .plain (quote a ++ cstr " -> " ++ quote b) .plain
      ([.str a] ++ [.sym 45, .sym 62] ++ [.str b]) :=
  (ha.reads.append (by decide)).append hb.reads

theorem fixed_is (ha : Plain a) (hb : Plain b) {attrs : CStr} {tokens : List DotLanguage.Token}
    {stmts : List Statement} (hlex : lexer.Reads .plain attrs .plain tokens)
    (hstmts : ∀ depth, statements.Reads ⟨depth, .head a b⟩ tokens ⟨depth, .between⟩ stmts) :
    Is (quote a ++ cstr " -> " ++ quote b ++ attrs) stmts := by
  apply Is.of_tokens ((arrow_reads ha hb).append hlex)
  intro depth
  have harrow : statements.Reads ⟨depth, .between⟩ ([.str a] ++ [.sym 45, .sym 62] ++ [.str b])
      ⟨depth, .head a b⟩ [] := rfl
  exact harrow.append (hstmts depth)

theorem styled_is (ha : Plain a) (hb : Plain b) (weak : Bool) {label : Option CStr}
    (hlabel : ∀ s ∈ label, Closed s) :
    Is (quote a ++ cstr " -> " ++ quote b ++ style weak ++ labelAttr label ++ cstr "]\n")
      [.edge a b (styleAttr weak :: labelAttrs label)] := by
  rw [List.append_assoc, List.append_assoc]
  have hstyle : lexer.Reads .plain (style weak) (.word (styleAttr weak).2)
      [.sym 91, .word (cstr "style"), .sym 61] := by
    cases weak <;> decide
  cases label with
  | none =>
    have hend : lexer.Reads (.word (styleAttr weak).2) (cstr "]\n") .plain
        [.word (styleAttr weak).2, .sym 93] := by
      cases weak <;> decide
    exact fixed_is ha hb (hstyle.append hend) fun _ => rfl
  | some s =>
    have hkey : lexer.Reads (.word (styleAttr weak).2) (cstr ",label=") .plain
        [.word (styleAttr weak).2, .sym 44, .word (cstr "label"), .sym 61] := by
      cases weak <;> decide
    have hend : lexer.Reads .plain (cstr "]\n") .plain [.sym 93] := by decide
    exact fixed_is ha hb (hstyle.append ((hkey.append (quote_reads (hlabel s rfl))).append
      hend)) fun _ => rfl

end

theorem Plain.append {s s' : CStr} (h : Plain s) (h' : Plain s') : Plain (s ++ s') :=
  ⟨fun hmem => (List.mem_append.mp hmem).elim h.noQuote h'.noQuote,
    (h.closed.append h'.closed).ending⟩

theorem labelled_is {s after : CStr} {tokens : List DotLanguage.Token} (hs : Closed s)
    (hafter : lexer.Reads .plain after .plain tokens)
    (hstmts : ∀ depth, statements.Reads ⟨depth, .between⟩ tokens ⟨depth, .between⟩ []) :
    Is (cstr "label=" ++ quote s ++ after) [] := by
  have hlabel : lexer.Reads .plain (cstr "label=") .plain [.word (cstr "label"), .sym 61] := by
    decide
  apply Is.of_tokens ((hlabel.append (quote_reads hs)).append hafter)
  intro depth
  have hassign : statements.Reads ⟨depth, .between⟩
      ([.word (cstr "label"), .sym 61] ++ [.str (readBack s)]) ⟨depth, .between⟩ [] := rfl
  exact hassign.append (hstmts depth)

theorem linkNet_text (w : World) (ptr : IfPtr) (ns : NsPtr) : (DotEdge.linkNet ptr ns).text w =
    match (w.nss ns).name with
    | some _ =>
      quote (ifid w ptr) ++ cstr " -> " ++ quote (nsid (w.nss ns) ++ cstr "/lo") ++
        cstr " [lhead=" ++ quote (cstr "cluster/" ++ nsid (w.nss ns)) ++
        cstr ", style=\"dashed\"]\n"
    | none => quote (ifid w ptr) ++ cstr " -> \"cluster//\" [style=\"dashed\"]\n" := rfl

theorem linkNet_statement (w : World) (ptr : IfPtr) (ns : NsPtr) :
    (DotEdge.linkNet ptr ns).statement w = if (w.nss ns).name.isSome then
      .edge (ifid w ptr) (nsid (w.nss ns) ++ cstr "/lo")
        [(cstr "lhead", cstr "cluster/" ++ nsid (w.nss ns)), (cstr "style", cstr "dashed")]
    else .edge (ifid w ptr) (cstr "cluster//") [(cstr "style", cstr "dashed")] := rfl

section
variable {w : World} {mask : PropMask} (h : Quotable w mask)
include h

theorem edge_is {edge : DotEdge} (hedge : edge ∈ dotEdges w) :
    Is (edge.text w) [edge.statement w] := by
  obtain ⟨e, he, hedge⟩ := mem_dotEdges.mp hedge
  rw [mem_masterEdge, mem_physfnEdge, mem_linkEdge, mem_peerEdge] at hedge
  have hid := h.ids e he
  rcases hedge with ⟨m, hm, rfl⟩ | ⟨pf, hpf, rfl⟩ | (⟨l, hl, rfl⟩ | ⟨hnone, ns, hns, rfl⟩) |
    ⟨p, hp, hlt, rfl⟩
  · apply styled_is hid (h.master e he m hm)
    intro s hs
    split_ifs at hs
    · exact h.edgeLabels e he (.inl (by rw [hm]; rfl)) s hs
    · cases hs
  · have hattrs : lexer.Reads .plain (cstr " [style=dotted,taillabel=\"PF\"]\n") .plain
        [.sym 91, .word (cstr "style"), .sym 61, .word (cstr "dotted"), .sym 44,
          .word (cstr "taillabel"), .sym 61, .str (cstr "PF"), .sym 93] := by
      decide
    exact fixed_is hid (h.physfn e he pf hpf) hattrs fun _ => rfl
  · exact styled_is (h.link e he l hl) hid _ (h.edgeLabels e he (.inr (by rw [hl]; rfl)))
  · have hnet := h.linkNet e he hnone ns hns
    rw [linkNet_text, linkNet_statement]
    cases hname : (w.nss ns).name with
    | none =>
      have hattrs : lexer.Reads .plain (cstr " -> \"cluster//\" [style=\"dashed\"]\n") .plain
          [.sym 45, .sym 62, .str (cstr "cluster//"), .sym 91, .word (cstr "style"), .sym 61,
            .str (cstr "dashed"), .sym 93] := by
        decide
      exact Is.of_tokens (hid.reads.append hattrs) fun _ => rfl
    | some name =>
      have hnet := hnet (by rw [hname]; rfl)
      have hlo : Plain (nsid (w.nss ns) ++ cstr "/lo") := hnet.append ⟨by decide, by decide⟩
      have hcluster : Plain (cstr "cluster/" ++ nsid (w.nss ns)) :=
        Plain.append ⟨by decide, by decide⟩ hnet
      have hlhead : lexer.Reads .plain (cstr " [lhead=") .plain
          [.sym 91, .word (cstr "lhead"), .sym 61] := by
        decide
      have hend : lexer.Reads .plain (cstr ", style=\"dashed\"]\n") .plain
          [.sym 44, .word (cstr "style"), .sym 61, .str (cstr "dashed"), .sym 93] := by
        decide
      have hstmts : ∀ depth, statements.Reads ⟨depth, .head (ifid w e) (nsid (w.nss ns) ++ cstr "/lo")⟩
          ([.sym 91, .word (cstr "lhead"), .sym 61] ++
            ([.str (cstr "cluster/" ++ nsid (w.nss ns))] ++
              [.sym 44, .word (cstr "style"), .sym 61, .str (cstr "dashed"), .sym 93]))
          ⟨depth, .between⟩ [.edge (ifid w e) (nsid (w.nss ns) ++ cstr "/lo")
            [(cstr "lhead", cstr "cluster/" ++ nsid (w.nss ns)), (cstr "style", cstr "dashed")]] :=
        fun _ => rfl
      have hedge := fixed_is hid hlo (hlhead.append (hcluster.reads.append hend)) hstmts
      rw [if_pos Option.isSome_some]
      simpa only [List.append_assoc] using hedge
  · have hattrs : lexer.Reads .plain (cstr " [dir=none]\n") .plain
        [.sym 91, .word (cstr "dir"), .sym 61, .word (cstr "none"), .sym 93] := by
      decide
    exact fixed_is hid (h.peer e he p hp hlt) hattrs fun _ => rfl

end

/-! ## Labels of nodes -/

theorem decimal_inside (n : Nat) : Inside (decimal n) :=
  DotLanguage.inside_of_notMem fun hmem => absurd (decimal_isDigit n 34 hmem) (by decide)

theorem decimalInt_inside (i : Int) : Inside (decimalInt i) := by
  have hsign : Inside [45] := by decide
  unfold decimalInt
  split_ifs
  · exact hsign.append (decimal_inside _)
  · exact decimal_inside _

theorem nodeLabel_inside {mask : PropMask} {x : IfEntry} (h : ∀ s ∈ labelStrings mask x, Inside s) :
    Inside (nodeLabel mask x) := by
  simp only [labelStrings, List.mem_append, or_imp, forall_and] at h
  obtain ⟨⟨⟨⟨hname, hdriver⟩, hprops⟩, hxdp⟩, hconfig⟩ := h
  have hnil : Inside ([] : CStr) := rfl
  refine ((((Inside.append (hname _ (by simp)) ?_).append ?_).append ?_).append ?_).append ?_
  · split_ifs with hsome
    · rw [if_pos hsome] at hdriver
      exact (Inside.append (by decide) (hdriver _ (by simp))).append (by decide)
    · exact hnil
  · apply Inside.flatMap
    intro prop hprop
    split_ifs with hmask
    · have hpair : ∀ s ∈ [prop.key, prop.value], Inside s := fun s hs =>
        hprops s (List.mem_flatMap.mpr ⟨prop, List.mem_filter.mpr ⟨hprop, hmask⟩, hs⟩)
      exact ((Inside.append (by decide) (hpair _ (by simp))).append (by decide)).append
        (hpair _ (by simp))
    · exact hnil
  · unfold outputMtu
    split_ifs
    · exact Inside.append (by decide) (decimalInt_inside _)
    · exact hnil
  · apply Inside.flatMap
    intro xdp hmem
    exact (((Inside.append (by decide) (hxdp _ (List.mem_map_of_mem hmem))).append (by decide)).append
      (decimal_inside _)).append (by decide)
  · split_ifs with hmask
    · rw [if_pos hmask] at hconfig
      have hformatted : ∀ addr ∈ x.addr,
          ∀ s ∈ addr.addr.formatted.toList ++ addr.peer.formatted.toList, Inside s :=
        fun addr haddr s hs => hconfig s (List.mem_append_left _
          (List.mem_flatMap.mpr ⟨addr, haddr, hs⟩))
      apply Inside.append
      · apply Inside.flatMap
        intro addr haddr
        refine (Inside.append (by decide) ?_).append ?_
        · cases hself : addr.addr.formatted with
          | none => exact (by decide : Inside (cstr "(null)"))
          | some s => exact hformatted addr haddr s (by simp [hself])
        · cases hpeer : addr.peer.formatted with
          | none => exact hnil
          | some s => exact Inside.append (by decide) (hformatted addr haddr s (by simp [hpeer]))
      · unfold outputMac
        cases hmac : x.macAddr.formatted with
        | none => exact hnil
        | some s =>
          dsimp only
          split_ifs with hloopback
          · exact hnil
          · rw [if_neg hloopback, hmac] at hconfig
            exact Inside.append (by decide)
              (hconfig s (List.mem_append_right _ (List.mem_singleton_self s)))
    · exact hnil

theorem nodeTail_reads (mask : PropMask) (x : IfEntry) : ∃ tokens,
    lexer.Reads .plain (nodeState mask x ++ nodeWarnings x ++ cstr "]\n") .plain tokens ∧
      ∀ depth id label, statements.Reads
        ⟨depth, .attrs (some (.inl id)) [(cstr "label", label)]⟩ tokens ⟨depth, .between⟩
        [.node id ((cstr "label", label) :: stateAttrs mask x ++ warningAttrs x)] := by
  unfold nodeState nodeWarnings stateAttrs warningAttrs
  split_ifs <;> exact ⟨_, rfl, fun _ _ _ => rfl⟩

section
variable {w : World} {mask : PropMask} (h : Quotable w mask)
include h

theorem node_is {e : IfPtr} (he : e ∈ w.listed) :
    Is (nodeText w mask e) [nodeStatement w mask e] := by
  have hlabel : Closed (nodeLabel mask (w.ifs e)) :=
    ⟨nodeLabel_inside (h.labels e he), h.labelEnd e he⟩
  obtain ⟨tokens, htail, hstmts⟩ := nodeTail_reads mask (w.ifs e)
  have hattr : lexer.Reads .plain (cstr " [label=") .plain
      [.sym 91, .word (cstr "label"), .sym 61] := by
    decide
  have hopen : lexer.Reads .plain (quote (ifid w e) ++ cstr " [label=" ++
      quote (nodeLabel mask (w.ifs e))) .plain ([.str (ifid w e)] ++
        [.sym 91, .word (cstr "label"), .sym 61] ++ [.str (readBack (nodeLabel mask (w.ifs e)))]) :=
    ((h.ids e he).reads.append hattr).append (quote_reads hlabel)
  have hfirst : ∀ depth, statements.Reads ⟨depth, .between⟩ ([.str (ifid w e)] ++
      [.sym 91, .word (cstr "label"), .sym 61] ++ [.str (readBack (nodeLabel mask (w.ifs e)))])
      ⟨depth, .attrs (some (.inl (ifid w e)))
        [(cstr "label", readBack (nodeLabel mask (w.ifs e)))]⟩ [] := fun _ => rfl
  have hnode := Is.of_tokens (hopen.append htail) fun depth =>
    (hfirst depth).append (hstmts depth (ifid w e) (readBack (nodeLabel mask (w.ifs e))))
  unfold nodeText nodeStatement
  simpa only [List.append_assoc, List.nil_append] using hnode

theorem ifaces_is {ns : NsPtr} (hns : ns ∈ w.nsList) :
    Is (outputIfacesPass1 w mask (w.nss ns).ifaces).1
      ((w.nss ns).ifaces.map (nodeStatement w mask)) := by
  have hall := Is.flatMap (l := (w.nss ns).ifaces) fun e he =>
    node_is h (World.mem_listed.mpr ⟨ns, hns, he⟩)
  rwa [← List.map_eq_flatMap] at hall

theorem netns_is {ns : NsPtr} (hns : ns ∈ w.nsList) :
    Is (netnsText w mask ns) ((w.nss ns).ifaces.map (nodeStatement w mask)) := by
  have hifaces := ifaces_is h hns
  unfold netnsText
  dsimp only
  cases hname : (w.nss ns).name with
  | none => exact hifaces
  | some name =>
    obtain ⟨hclosed, hnsid⟩ := h.names ns hns name hname
    have hcluster : Closed (cstr "cluster/" ++ nsid (w.nss ns)) :=
      Closed.append ⟨by decide, by decide⟩ hnsid
    have hcolor : lexer.Reads .plain (cstr "\nfontcolor=\"black\"\n") .plain
        [.word (cstr "fontcolor"), .sym 61, .str (cstr "black")] := by
      decide
    have hlabel : Is (cstr "label=" ++ quote name ++ cstr "\nfontcolor=\"black\"\n") [] :=
      labelled_is hclosed hcolor fun _ => rfl
    exact Is.subgraph hcluster (hlabel.append hifaces)

theorem warnings_is : Is (outputWarnings w) [] := by
  unfold outputWarnings
  split_ifs
  · have hinside : Inside (w.nsList.flatMap fun ns => outputLabel (w.nss ns).warnings) := by
      apply Inside.flatMap
      intro ns hns
      apply Inside.flatMap
      intro text htext
      exact Inside.append (by decide) (h.warnings ns hns text htext)
    have hend : (w.nsList.flatMap fun ns => outputLabel (w.nss ns).warnings).getLast? ≠ some 92 := by
      have hflat : (w.nsList.flatMap fun ns => outputLabel (w.nss ns).warnings) =
          outputLabel (w.nsList.flatMap fun ns => (w.nss ns).warnings) :=
        (List.flatMap_assoc).symm
      rw [hflat]
      have hlast := h.warningEnd
      rcases List.eq_nil_or_concat (w.nsList.flatMap fun ns => (w.nss ns).warnings) with
        hnil | ⟨texts, text, heq⟩
      · rw [hnil]
        exact nofun
      · rw [heq] at hlast ⊢
        have htext := hlast text (by simp)
        have hn : (cstr "\\n").getLast? ≠ some 92 := by decide
        unfold outputLabel
        rw [List.concat_eq_append, List.flatMap_append, List.flatMap_singleton, List.getLast?_append,
          List.getLast?_append]
        cases hc : text.getLast? with
        | none => exact hn
        | some c =>
          rw [hc] at htext
          exact htext
    have hcolor : lexer.Reads .plain (cstr "\nfontcolor=\"red\"\n") .plain
        [.word (cstr "fontcolor"), .sym 61, .str (cstr "red")] := by
      decide
    exact labelled_is ⟨hinside, hend⟩ hcolor fun _ => rfl
  · exact .nil

theorem dotBody_is : Is (w.nsList.flatMap (netnsText w mask) ++
    (if needInitNet w mask then cstr "\"cluster//\"[label=\"root netns\",penwidth=0];\n" else []) ++
    (dotEdges w).flatMap (DotEdge.text w) ++ outputWarnings w) (dotStatements w mask) := by
  have hnodes : Is (w.nsList.flatMap (netnsText w mask)) (w.listed.map (nodeStatement w mask)) := by
    have hall := Is.flatMap (l := w.nsList) fun ns hns => netns_is h hns
    rwa [← List.map_flatMap] at hall
  have hinit : Is (if needInitNet w mask then
      cstr "\"cluster//\"[label=\"root netns\",penwidth=0];\n" else [])
      (if needInitNet w mask then [initNetStatement] else []) := by
    split_ifs
    · have hnode : lexer.Reads .plain (cstr "\"cluster//\"[label=\"root netns\",penwidth=0];\n")
          .plain [.str (cstr "cluster//"), .sym 91, .word (cstr "label"), .sym 61,
            .str (cstr "root netns"), .sym 44, .word (cstr "penwidth"), .sym 61, .word (cstr "0"),
            .sym 93, .sym 59] := by
        decide
      exact Is.of_tokens hnode fun _ => rfl
    · exact .nil
  have hedges : Is ((dotEdges w).flatMap (DotEdge.text w))
      ((dotEdges w).map (DotEdge.statement w)) := by
    have hall := Is.flatMap (l := dotEdges w) fun edge hedge => edge_is h hedge
    rwa [← List.map_eq_flatMap] at hall
  have hbody := ((hnodes.append hinit).append hedges).append (warnings_is h)
  rwa [List.append_nil] at hbody

end

/-- The text is read as one node for each interface, under its id, and the edges of the topology,
if all strings can be printed as they are. -/
theorem dotOutput_read {w : World} {mask : PropMask} (h : Quotable w mask) {version date : CStr}
    (hversion : 10 ∉ version) (hdate : ∃ day, date = day ++ [10] ∧ 10 ∉ day) :
    DotLanguage.read (dotOutput version date w mask) = some (dotStatements w mask) := by
  obtain ⟨day, rfl, hday⟩ := hdate
  have hstart : lexer.Reads .plain (cstr "// generated by plotnetcfg ") .comment [] := by decide
  have hon : lexer.Reads .comment (cstr " on ") .comment [] := by decide
  have hline : lexer.Reads .comment [10] .plain [] := by decide
  have hhead : lexer.Reads .plain (cstr "digraph \x7b\ncompound=true;\nnode [shape=box]\n") .plain
      [.word (cstr "digraph"), .sym 123, .word (cstr "compound"), .sym 61, .word (cstr "true"),
        .sym 59, .word (cstr "node"), .sym 91, .word (cstr "shape"), .sym 61, .word (cstr "box"),
        .sym 93] := by
    decide
  have hheader := (((hstart.append (DotLanguage.comment_reads hversion)).append hon).append
    ((DotLanguage.comment_reads hday).append hline)).append hhead
  exact DotLanguage.read_graph hheader rfl (dotBody_is h)

def slaveOf (name : String) : World where
  ifs e := match e with
    | 1 => { ifName := cstr name, master := some 2, driver := some (cstr "dummy") }
    | 2 => { ifName := cstr "br0", driver := some (cstr "bridge") }
    | _ => {}
  nss _ := { ifaces := [1, 2] }
  nsList := [0]
  free := []

/-- A backslash does no harm inside of a name. -/
theorem dotOutput_read_backslash :
    DotLanguage.read (dotOutput (cstr "0.4") (cstr "today\n") (slaveOf "a\\b") {}) =
      some (dotStatements (slaveOf "a\\b") {}) := by
  have hquotable : Quotable (slaveOf "a\\b") {} := by
    constructor <;> decide
  exact dotOutput_read hquotable (by decide) ⟨cstr "today", by decide, by decide⟩

/-- A double quote in a name ends the string. -/
theorem dotOutput_read_quote : (∀ x ∈ (slaveOf "a\"b").listed, ∀ y ∈ (slaveOf "a\"b").listed,
      ifid (slaveOf "a\"b") x = ifid (slaveOf "a\"b") y → x = y) ∧
    DotLanguage.read (dotOutput (cstr "0.4") (cstr "today\n") (slaveOf "a\"b") {}) = none := by
  constructor
  · decide
  · decide +kernel

end Plotnetcfg.Frontends
