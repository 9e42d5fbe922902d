import Plotnetcfg.Lib.Transducer

/-! A reader of the DOT language: of its statements those that plain graph drawings consist of.
A quoted string runs from a double quote to the next one that no backslash precedes. -/

namespace DotLanguage

abbrev Text := List UInt8

def ascii (s : String) : Text := s.toUTF8.data.toList

/-! ## Tokens -/

inductive Token where
  | str (s : Text)
  | word (s : Text)
  | sym (c : UInt8)
deriving DecidableEq

/-- Where the lexer is. `escape` says that the byte before was a backslash, which is not in `s`
yet. -/
inductive Mode where
  | plain
  | word (s : Text)
  | quoted (s : Text) (escape : Bool)
  | slash
  | comment
deriving DecidableEq

def isBlank (c : UInt8) : Bool := c == 32 || (9 ≤ c && c ≤ 13)

def isWord (c : UInt8) : Bool :=
  (48 ≤ c && c ≤ 57) || (65 ≤ c && c ≤ 90) || (97 ≤ c && c ≤ 122) || c == 95 || 128 ≤ c

def plainStep (c : UInt8) : Mode × List Token :=
  if c = 34 then (.quoted [] false, [])
  else if c = 47 then (.slash, [])
  else if isBlank c then (.plain, [])
  else if isWord c then (.word [c], [])
  else (.plain, [.sym c])

def quotedStep (s : Text) (escape : Bool) (c : UInt8) : Mode × List Token :=
  if c = 34 then
    if escape then (.quoted (s ++ [34]) false, []) else (.plain, [.str s])
  else (.quoted (if escape then s ++ [92] ++ (if c = 92 then [] else [c])
      else if c = 92 then s else s ++ [c]) (c = 92), [])

def lexer : Transducer Mode UInt8 Token where
  step
    | .plain, c => some (plainStep c)
    | .word s, c =>
      if isWord c then some (.word (s ++ [c]), [])
      else some ((plainStep c).1, .word s :: (plainStep c).2)
    | .quoted s escape, c => some (quotedStep s escape c)
    | .slash, c => if c = 47 then some (.comment, []) else none
    | .comment, c => some (if c = 10 then .plain else .comment, [])

/-! ## Statements -/

inductive Statement where
  | node (id : Text) (attrs : List (Text × Text))
  | edge (tail head : Text) (attrs : List (Text × Text))
deriving DecidableEq

/-- What a list of attributes is of; `none` is for the defaults of later statements. -/
abbrev Target := Option (Text ⊕ Text × Text)

inductive Phase where
  | start
  | opening
  | between
  | ident (id : Text)
  | assign
  | dash (tail : Text)
  | arrow (tail : Text)
  | head (tail head : Text)
  | subgraph
  | subgraphNamed
  | defaults
  | attrs (target : Target) (attrs : List (Text × Text))
  | attrName (target : Target) (attrs : List (Text × Text)) (name : Text)
  | attrValue (target : Target) (attrs : List (Text × Text)) (name : Text)
  | done
deriving DecidableEq

/-- `depth` counts the braces that are open. -/
structure Place where
  depth : Nat
  phase : Phase
deriving DecidableEq

def Token.id : Token → Option Text
  | .str s => some s
  | .word s => some s
  | .sym _ => none

def statement (target : Target) (attrs : List (Text × Text)) : List Statement :=
  match target with
  | some (.inl id) => [.node id attrs]
  | some (.inr (tail, head)) => [.edge tail head attrs]
  | none => []

def beginStep (depth : Nat) (t : Token) : Option Place :=
  if t = .sym 59 then some ⟨depth, .between⟩
  else if t = .sym 123 then some ⟨depth + 1, .between⟩
  else if t = .sym 125 then
    some (if depth = 1 then ⟨0, .done⟩ else ⟨depth - 1, .between⟩)
  else if t = .word (ascii "subgraph") then some ⟨depth, .subgraph⟩
  else if t = .word (ascii "node") ∨ t = .word (ascii "edge") ∨ t = .word (ascii "graph") then
    some ⟨depth, .defaults⟩
  else t.id.map fun id => ⟨depth, .ident id⟩

def attrsStep (depth : Nat) (target : Target) (attrs : List (Text × Text)) (t : Token) :
    Option (Place × List Statement) :=
  if t = .sym 93 then some (⟨depth, .between⟩, statement target attrs)
  else if t = .sym 44 ∨ t = .sym 59 then some (⟨depth, .attrs target attrs⟩, [])
  else t.id.map fun name => (⟨depth, .attrName target attrs name⟩, [])

def identStep (depth : Nat) (id : Text) (t : Token) : Option (Place × List Statement) :=
  if t = .sym 61 then some (⟨depth, .assign⟩, [])
  else if t = .sym 45 then some (⟨depth, .dash id⟩, [])
  else if t = .sym 91 then some (⟨depth, .attrs (some (.inl id)) []⟩, [])
  else (beginStep depth t).map fun p => (p, [.node id []])

def headStep (depth : Nat) (tail head : Text) (t : Token) : Option (Place × List Statement) :=
  if t = .sym 91 then some (⟨depth, .attrs (some (.inr (tail, head))) []⟩, [])
  else (beginStep depth t).map fun p => (p, [.edge tail head []])

/-- A token that leads on without completing a statement. -/
def expect (t t' : Token) (p : Place) : Option (Place × List Statement) :=
  if t = t' then some (p, []) else none

def statements : Transducer Place Token Statement where
  step p t :=
    match p.phase with
    | .start => expect t (.word (ascii "digraph")) ⟨p.depth, .opening⟩
    | .opening => expect t (.sym 123) ⟨p.depth + 1, .between⟩
    | .between => (beginStep p.depth t).map fun p => (p, [])
    | .ident id => identStep p.depth id t
    | .assign => t.id.map fun _ => (⟨p.depth, .between⟩, [])
    | .dash tail => expect t (.sym 62) ⟨p.depth, .arrow tail⟩
    | .arrow tail => t.id.map fun head => (⟨p.depth, .head tail head⟩, [])
    | .head tail head => headStep p.depth tail head t
    | .subgraph =>
      if t = .sym 123 then some (⟨p.depth + 1, .between⟩, [])
      else t.id.map fun _ => (⟨p.depth, .subgraphNamed⟩, [])
    | .subgraphNamed => expect t (.sym 123) ⟨p.depth + 1, .between⟩
    | .defaults => expect t (.sym 91) ⟨p.depth, .attrs none []⟩
    | .attrs target attrs => attrsStep p.depth target attrs t
    | .attrName target attrs name => expect t (.sym 61) ⟨p.depth, .attrValue target attrs name⟩
    | .attrValue target attrs name =>
      t.id.map fun value => (⟨p.depth, .attrs target (attrs ++ [(name, value)])⟩, [])
    | .done => none

def reader : Transducer (Mode × Place) UInt8 Statement := lexer.comp statements

/-- The statements of a graph, if the text is one. -/
def read (text : Text) : Option (List Statement) :=
  match reader.run (.plain, ⟨0, .start⟩) text with
  | some ((.plain, ⟨0, .done⟩), stmts) => some stmts
  | _ => none

/-! ## Quoted strings -/

/-- Whether the string goes on behind `s`, and with a backslash before. `none` is that a double
quote in `s` ends it. -/
def within : Bool → Text → Option Bool
  | escape, [] => some escape
  | escape, c :: s => if c = 34 then if escape then within false s else none else within (c = 92) s

/-- What the reader takes `s` between double quotes for, if the quotes end it. -/
def content : Bool → Text → Option Text
  | escape, [] => if escape then none else some []
  | escape, c :: s =>
    if c = 34 then if escape then (content false s).map (34 :: ·) else none
    else (content (c = 92) s).map fun t =>
      (if escape then [92] else []) ++ (if c = 92 then [] else [c]) ++ t

def quote (s : Text) : Text := 34 :: s ++ [34]

theorem within_append (escape : Bool) (s s' : Text) :
    within escape (s ++ s') = (within escape s).bind fun e => within e s' := by
  induction s generalizing escape with
  | nil => rfl
  | cons c s ih =>
    rw [List.cons_append, within, within]
    split_ifs
    · exact ih false
    · rfl
    · exact ih _

theorem content_isSome (escape : Bool) (s : Text) :
    (content escape s).isSome ↔ within escape s = some false := by
  induction s generalizing escape with
  | nil => cases escape <;> simp [content, within]
  | cons c s ih =>
    rw [content, within]
    by_cases hquote : c = 34
    · rw [if_pos hquote, if_pos hquote]
      cases escape with
      | false => simp
      | true => simpa using ih false
    · rw [if_neg hquote, if_neg hquote, Option.isSome_map]
      exact ih _

theorem content_reads {escape : Bool} {s t : Text} (h : content escape s = some t) (acc : Text) :
    lexer.Reads (.quoted acc escape) (s ++ [34]) .plain [.str (acc ++ t)] := by
  induction s generalizing escape t acc with
  | nil =>
    rw [content] at h
    split_ifs at h with hescape
    obtain rfl := Option.some.inj h
    rw [Bool.not_eq_true] at hescape
    subst hescape
    rw [List.append_nil]
    exact .single rfl
  | cons c s ih =>
    rw [content] at h
    by_cases hquote : c = 34
    · rw [if_pos hquote] at h
      split_ifs at h with hescape
      obtain ⟨t, ht, rfl⟩ := Option.map_eq_some_iff.mp h
      subst hquote hescape
      have hrest := ih ht (acc ++ [34])
      rw [List.append_assoc] at hrest
      have hstep : lexer.step (.quoted acc true) 34 = some (.quoted (acc ++ [34]) false, []) := rfl
      exact hrest.cons hstep
    · rw [if_neg hquote] at h
      obtain ⟨t, ht, rfl⟩ := Option.map_eq_some_iff.mp h
      have hrest := ih ht (acc ++ ((if escape then [92] else []) ++ if c = 92 then [] else [c]))
      rw [List.append_assoc] at hrest
      have hstep : lexer.step (.quoted acc escape) c = some (.quoted (acc ++
          ((if escape then [92] else []) ++ if c = 92 then [] else [c])) (c = 92), []) := by
        show some (quotedStep acc escape c) = _
        rw [quotedStep, if_neg hquote]
        cases escape <;> by_cases hbackslash : c = 92 <;> simp [hbackslash]
      exact hrest.cons hstep

theorem quote_reads {s t : Text} (h : content false s = some t) :
    lexer.Reads .plain (quote s) .plain [.str t] := by
  have hstep : lexer.step .plain 34 = some (.quoted [] false, []) := rfl
  exact (content_reads h []).cons hstep

theorem content_plain {s : Text} (hquote : 34 ∉ s) (hend : s.getLast? ≠ some 92) :
    content false s = some s := by
  have hgo : ∀ (s : Text) (escape : Bool), 34 ∉ s →
      (∀ c, (if escape then 92 :: s else s).getLast? = some c → c ≠ 92) →
      content escape s = some ((if escape then [92] else []) ++ s) := by
    intro s
    induction s with
    | nil =>
      intro escape _ hlast
      cases escape with
      | false => rfl
      | true => exact absurd rfl (hlast 92 rfl)
    | cons c s ih =>
      intro escape hquote hlast
      have hc : c ≠ 34 := fun hc => hquote (hc ▸ List.mem_cons_self)
      have hs : 34 ∉ s := fun hmem => hquote (List.mem_cons_of_mem c hmem)
      have hrest : content (c = 92) s = some ((if c = 92 then [92] else []) ++ s) := by
        have hdrop := ih (c = 92) hs fun d hd => hlast d (by
          by_cases h92 : c = 92
          · subst h92
            cases escape <;> simpa using hd
          · cases s with
            | nil => simp [h92] at hd
            | cons d' s => cases escape <;> simpa [h92] using hd)
        simpa using hdrop
      rw [content, if_neg hc, hrest]
      by_cases h92 : c = 92 <;> cases escape <;> simp [h92]
  simpa using hgo s false hquote fun c hc h92 => hend (h92 ▸ by simpa using hc)

/-! ## Strings that stay quoted -/

def Inside (s : Text) : Prop := (within false s).isSome = true

instance (s : Text) : Decidable (Inside s) := inferInstanceAs (Decidable (_ = true))

theorem Inside.within {s : Text} (h : Inside s) (escape : Bool) :
    ∃ e, within escape s = some e := by
  cases s with
  | nil => exact ⟨escape, rfl⟩
  | cons c s =>
    have hc : c ≠ 34 := by
      rintro rfl
      cases h
    unfold Inside at h
    rw [DotLanguage.within, if_neg hc] at h ⊢
    exact Option.isSome_iff_exists.mp h

theorem Inside.append {s s' : Text} (h : Inside s) (h' : Inside s') : Inside (s ++ s') := by
  obtain ⟨e, he⟩ := h.within false
  obtain ⟨e', he'⟩ := h'.within e
  unfold Inside
  rw [within_append, he, Option.bind_some, he']
  rfl

theorem Inside.flatMap {A : Type*} {l : List A} {text : A → Text} (h : ∀ a ∈ l, Inside (text a)) :
    Inside (l.flatMap text) := by
  induction l with
  | nil => exact (rfl : Inside [])
  | cons a l ih =>
    rw [List.flatMap_cons]
    exact (h a List.mem_cons_self).append (ih fun b hb => h b (List.mem_cons_of_mem a hb))

theorem inside_of_notMem {s : Text} (h : 34 ∉ s) : Inside s := by
  have hgo : ∀ (s : Text) (escape : Bool), 34 ∉ s → (DotLanguage.within escape s).isSome := by
    intro s
    induction s with
    | nil => exact fun _ _ => rfl
    | cons c s ih =>
      intro escape hnot
      have hc : c ≠ 34 := fun hc => hnot (hc ▸ List.mem_cons_self)
      rw [DotLanguage.within, if_neg hc]
      exact ih _ fun hmem => hnot (List.mem_cons_of_mem c hmem)
  exact hgo s false h

theorem within_end {escape e : Bool} {s : Text} (h : within escape s = some e)
    (hend : s.getLast? ≠ some 92) (hempty : s = [] → escape = false) : e = false := by
  induction s generalizing escape with
  | nil => exact (Option.some.inj h).symm.trans (hempty rfl)
  | cons c s ih =>
    rw [within] at h
    have htail : s.getLast? ≠ some 92 := by
      cases s with
      | nil => exact nofun
      | cons d s => simpa using hend
    split_ifs at h with hquote hescape
    · exact ih h htail fun _ => rfl
    · refine ih h htail fun hnil => ?_
      subst hnil
      simpa using hend

/-- A string that the reader takes back from between double quotes. -/
structure Closed (s : Text) : Prop where
  inside : Inside s
  ending : s.getLast? ≠ some 92

theorem Closed.append {s s' : Text} (h : Closed s) (h' : Closed s') : Closed (s ++ s') := by
  refine ⟨h.inside.append h'.inside, ?_⟩
  have hend := h'.ending
  rw [List.getLast?_append]
  cases hlast : s'.getLast? with
  | none => exact h.ending
  | some c =>
    rw [hlast] at hend
    exact hend

instance (s : Text) : Decidable (Closed s) :=
  decidable_of_iff (Inside s ∧ s.getLast? ≠ some 92) ⟨fun h => ⟨h.1, h.2⟩, fun h => ⟨h.1, h.2⟩⟩

theorem Closed.content {s : Text} (h : Closed s) : ∃ t, content false s = some t := by
  obtain ⟨e, he⟩ := h.inside.within false
  obtain rfl := within_end he h.ending fun _ => rfl
  exact Option.isSome_iff_exists.mp ((content_isSome false s).mpr he)

theorem Closed.reads {s : Text} (h : Closed s) :
    lexer.Reads .plain (quote s) .plain [.str ((DotLanguage.content false s).getD [])] := by
  obtain ⟨t, ht⟩ := h.content
  rw [ht]
  exact quote_reads ht

/-! ## Whole statements -/

/-- A text that is some statements, wherever it stands in the braces of a graph. -/
def Is (text : Text) (stmts : List Statement) : Prop :=
  ∀ depth, reader.Reads (.plain, ⟨depth + 1, .between⟩) text (.plain, ⟨depth + 1, .between⟩) stmts

theorem Is.nil : Is [] [] := fun _ => Transducer.Reads.nil

theorem Is.append {text text' : Text} {stmts stmts' : List Statement} (h : Is text stmts)
    (h' : Is text' stmts') : Is (text ++ text') (stmts ++ stmts') :=
  fun depth => (h depth).append (h' depth)

theorem Is.flatMap {A : Type*} {l : List A} {text : A → Text} {stmts : A → List Statement}
    (h : ∀ a ∈ l, Is (text a) (stmts a)) : Is (l.flatMap text) (l.flatMap stmts) :=
  fun depth => Transducer.Reads.flatMap fun a ha => h a ha depth

theorem Is.of_tokens {text : Text} {tokens : List Token} {stmts : List Statement}
    (hlex : lexer.Reads .plain text .plain tokens)
    (hstmts : ∀ depth, statements.Reads ⟨depth, .between⟩ tokens ⟨depth, .between⟩ stmts) :
    Is text stmts := fun depth => hlex.comp (hstmts (depth + 1))

theorem Is.subgraph {name body : Text} {stmts : List Statement} (hname : Closed name)
    (hbody : Is body stmts) : Is (ascii "subgraph " ++ quote name ++ ascii " \x7b\n" ++ body ++
      ascii "\x7d\n") stmts := by
  intro depth
  have hopen : lexer.Reads .plain (ascii "subgraph " ++ quote name ++ ascii " \x7b\n") .plain
      ([.word (ascii "subgraph")] ++ [.str ((content false name).getD [])] ++ [.sym 123]) :=
    .append (.append (by decide) hname.reads) (by decide)
  have hclose : lexer.Reads .plain (ascii "\x7d\n") .plain [.sym 125] := by decide
  have hopened : statements.Reads ⟨depth + 1, .between⟩
      ([.word (ascii "subgraph")] ++ [.str ((content false name).getD [])] ++ [.sym 123])
      ⟨depth + 2, .between⟩ [] := rfl
  have hclosed : statements.Reads ⟨depth + 2, .between⟩ [.sym 125] ⟨depth + 1, .between⟩ [] := rfl
  have hdone := ((hopen.comp hopened).append (hbody (depth + 1))).append (hclose.comp hclosed)
  simpa [reader] using hdone

/-! ## Whole graphs -/

theorem comment_reads {s : Text} (h : 10 ∉ s) : lexer.Reads .comment s .comment [] := by
  induction s with
  | nil => exact .nil
  | cons c s ih =>
    have hc : c ≠ 10 := fun hc => h (hc ▸ List.mem_cons_self)
    have hstep : lexer.step .comment c = some (.comment, []) := by
      show some (if c = 10 then Mode.plain else .comment, ([] : List Token)) = _
      rw [if_neg hc]
    exact (ih fun hmem => h (List.mem_cons_of_mem c hmem)).cons hstep

theorem read_graph {header body : Text} {tokens : List Token} {stmts : List Statement}
    (hheader : lexer.Reads .plain header .plain tokens)
    (hopen : statements.Reads ⟨0, .start⟩ tokens ⟨1, .between⟩ []) (hbody : Is body stmts) :
    read (header ++ body ++ ascii "\x7d\n") = some stmts := by
  have hclose : lexer.Reads .plain (ascii "\x7d\n") .plain [.sym 125] := by decide
  have hclosed : statements.Reads ⟨1, .between⟩ [.sym 125] ⟨0, .done⟩ [] := rfl
  have hall := ((hheader.comp hopen).append (hbody 0)).append (hclose.comp hclosed)
  rw [List.nil_append, List.append_nil] at hall
  unfold read
  rw [show reader.run _ _ = _ from hall]
  rfl

end DotLanguage
