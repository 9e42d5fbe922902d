import Plotnetcfg.Handlers.FillList

/-! What ovsdb is asked for (`construct_query`), and what the parser reads of its answer. -/

namespace Plotnetcfg.Openvswitch

def addTable (parmobj : JsonObj) (table : CStr) (columns : List CStr) : JsonObj :=
  let cols := columns.foldl (fun cols s => jsonArrayAppendNew cols (jsonString s)) []
  let tableobj := jsonObjectSetNew [] (cstr "columns") (some (.arr cols))
  jsonObjectSetNew parmobj table (some (.obj tableobj))

def constructQuery : Json :=
  let po := addTable [] (cstr "Open_vSwitch") [cstr "bridges", cstr "ovs_version"]
  let po := addTable po (cstr "Bridge") [cstr "name", cstr "ports", cstr "datapath_type"]
  let po := addTable po (cstr "Port")
    [cstr "interfaces", cstr "name", cstr "tag", cstr "trunks", cstr "bond_mode"]
  let po := addTable po (cstr "Interface")
    [cstr "name", cstr "type", cstr "options", cstr "admin_state", cstr "link_state"]
  let params := jsonArrayAppendNew [] (jsonString (cstr "Open_vSwitch"))
  let params := jsonArrayAppendNew params (some .null)
  let params := jsonArrayAppendNew params (some (.obj po))
  let root := jsonObjectSetNew [] (cstr "method") (jsonString (cstr "monitor"))
  let root := jsonObjectSetNew root (cstr "id") (some (.int 0))
  .obj (jsonObjectSetNew root (cstr "params") (some (.arr params)))

/-! ## The answer of the server -/

def keepKeys (keep : CStr → Bool) : Json → Json
  | .obj members => .obj (members.filter fun m => keep m.1)
  | j => j

def mapValues (f : CStr → Json → Json) : Json → Json
  | .obj members => .obj (members.map fun m => (m.1, f m.1 m.2))
  | j => j

def monitorColumns (query : Json) (table : CStr) : Option (List CStr) :=
  let tables := jsonArrayGet (jsonObjectGet (some query) (cstr "params")) 2
  (jsonObjectGet tables table).map fun tableobj =>
    (jsonArrayElems (jsonObjectGet (some tableobj) (cstr "columns"))).filterMap fun col =>
      jsonStringValue (some col)

def asks (query : Json) (table column : CStr) : Bool :=
  ((monitorColumns query table).getD []).contains column

def answerRow (query : Json) (table : CStr) (row : Json) : Json :=
  mapValues (fun key value => if key = cstr "new" then keepKeys (asks query table) value else value)
    row

def answerTables (query : Json) (tables : Json) : Json :=
  mapValues (fun table rows => mapValues (fun _ => answerRow query table) rows)
    (keepKeys (fun table => (monitorColumns query table).isSome) tables)

/-- What a server that holds `db` answers to a monitor request: of the tables and of their rows
only what the request asks for. -/
def answer (query : Json) (db : Json) : Json :=
  mapValues (fun key value =>
    if key = cstr "result" then answerTables query value else value) db

def readColumns : List (CStr × CStr) :=
  [(cstr "Open_vSwitch", cstr "bridges"),
    (cstr "Bridge", cstr "name"), (cstr "Bridge", cstr "datapath_type"),
    (cstr "Bridge", cstr "ports"),
    (cstr "Port", cstr "name"), (cstr "Port", cstr "tag"), (cstr "Port", cstr "trunks"),
    (cstr "Port", cstr "bond_mode"), (cstr "Port", cstr "interfaces"),
    (cstr "Interface", cstr "name"), (cstr "Interface", cstr "type"),
    (cstr "Interface", cstr "options")]

def AsksAll (query : Json) : Prop := ∀ p ∈ readColumns, asks query p.1 p.2 = true

theorem constructQuery_asksAll : AsksAll constructQuery := by
  unfold AsksAll
  decide +kernel

/-! ## Reading the answer -/

theorem jsonObjectGet_keepKeys (keep : CStr → Bool) (j : Option Json) (key : CStr) :
    jsonObjectGet (j.map (keepKeys keep)) key =
      if keep key then jsonObjectGet j key else none := by
  cases j with
  | none => simp [jsonObjectGet]
  | some j =>
    cases j with
    | obj members => exact Dict.lookup_filter keep members key
    | _ => simp [jsonObjectGet, keepKeys]

theorem jsonObjectGet_mapValues (f : CStr → Json → Json) (j : Option Json) (key : CStr) :
    jsonObjectGet (j.map (mapValues f)) key = (jsonObjectGet j key).map (f key) := by
  cases j with
  | none => rfl
  | some j =>
    cases j with
    | obj members => exact Dict.lookup_map f members key
    | _ => rfl

theorem jsonObjectSize_mapValues (f : CStr → Json → Json) (j : Option Json) :
    jsonObjectSize (j.map (mapValues f)) = jsonObjectSize j := by
  cases j with
  | none => rfl
  | some j =>
    cases j with
    | obj members => exact List.length_map _
    | _ => rfl

theorem jsonObjectFirst_mapValues (f : Json → Json) (j : Option Json) :
    jsonObjectFirst (j.map (mapValues fun _ => f)) = (jsonObjectFirst j).map f := by
  cases j with
  | none => rfl
  | some j =>
    cases j with
    | obj members => cases members <;> rfl
    | _ => rfl

section
variable {query : Json} {table column : CStr}

theorem asks_monitors (h : asks query table column = true) :
    (monitorColumns query table).isSome = true := by
  unfold asks at h
  cases hcols : monitorColumns query table with
  | none => simp [hcols] at h
  | some columns => rfl

theorem jsonObjectGet_keepAsked (h : asks query table column = true) (row : Option Json) :
    jsonObjectGet (row.map (keepKeys (asks query table))) column = jsonObjectGet row column := by
  rw [jsonObjectGet_keepKeys, if_pos h]

theorem jsonObjectGet_answerTables (h : (monitorColumns query table).isSome = true)
    (tables : Option Json) :
    jsonObjectGet (tables.map (answerTables query)) table =
      (jsonObjectGet tables table).map (mapValues fun _ => answerRow query table) := by
  have hmap : tables.map (answerTables query) =
      (tables.map (keepKeys fun table => (monitorColumns query table).isSome)).map
        (mapValues fun table => mapValues fun _ => answerRow query table) := by
    rw [Option.map_map]
    rfl
  rw [hmap, jsonObjectGet_mapValues, jsonObjectGet_keepKeys, if_pos h]

theorem jsonObjectGet_answerRow (row : Option Json) :
    jsonObjectGet (row.map (answerRow query table)) (cstr "new") =
      (jsonObjectGet row (cstr "new")).map (keepKeys (asks query table)) := by
  unfold answerRow
  rw [jsonObjectGet_mapValues]
  simp only [if_true]

theorem rowNew_answerTables (h : (monitorColumns query table).isSome = true)
    (jresult uuid : Option Json) :
    rowNew (jresult.map (answerTables query)) table uuid =
      (rowNew jresult table uuid).map (keepKeys (asks query table)) := by
  unfold rowNew
  rw [jsonObjectGet_answerTables h, ← jsonObjectGet_answerRow]
  cases jsonStringValue (jsonArrayGet uuid 1) with
  | none => rfl
  | some key => simp only [Option.bind_some, jsonObjectGet_mapValues]

end

/-! ## The parser -/

section
variable {query : Json} (h : AsksAll query) (warnings : NsPtr) (jresult : Option Json)
include h

theorem AsksAll.get {table column : CStr} (hread : (table, column) ∈ readColumns) (row : Json) :
    jsonObjectGet (some (keepKeys (asks query table) row)) column =
      jsonObjectGet (some row) column :=
  jsonObjectGet_keepAsked (h _ hread) (some row)

theorem withRow_answer {α : Type} {table what : CStr}
    (hname : (table, cstr "name") ∈ readColumns) (uuid : Option Json)
    {body body' : Json → CStr → OvsProg α}
    (hbody : ∀ row name, body' (keepKeys (asks query table) row) name = body row name) :
    withRow warnings (jresult.map (answerTables query)) table what uuid body' =
      withRow warnings jresult table what uuid body := by
  unfold withRow
  rw [rowNew_answerTables (asks_monitors (h _ hname))]
  cases rowNew jresult table uuid with
  | none => rfl
  | some row => simp only [Option.map_some, h.get hname, hbody]

theorem parseIface_answer (uuid : Option Json) (port : OvsPort) :
    parseIface warnings (jresult.map (answerTables query)) uuid port =
      parseIface warnings jresult uuid port := by
  apply withRow_answer h warnings jresult (by decide +kernel) uuid
  intro jif name
  simp only [parseOptions, h.get (show (cstr "Interface", cstr "type") ∈ _ by decide +kernel),
    h.get (show (cstr "Interface", cstr "options") ∈ _ by decide +kernel)]

theorem parsePort_answer (uuid : Option Json) (br : OvsBridge) :
    parsePort warnings (jresult.map (answerTables query)) uuid br =
      parsePort warnings jresult uuid br := by
  apply withRow_answer h warnings jresult (by decide +kernel) uuid
  intro jport name
  have hifaces (uuids : List (Option Json)) (port : OvsPort) :
      parseIfaces warnings (jresult.map (answerTables query)) uuids port =
        parseIfaces warnings jresult uuids port := by
    unfold parseIfaces
    simp only [parseIface_answer h]
  simp only [parsePortInfo, h.get (show (cstr "Port", cstr "tag") ∈ _ by decide +kernel),
    h.get (show (cstr "Port", cstr "trunks") ∈ _ by decide +kernel),
    h.get (show (cstr "Port", cstr "bond_mode") ∈ _ by decide +kernel),
    h.get (show (cstr "Port", cstr "interfaces") ∈ _ by decide +kernel), hifaces]

theorem parseBridge_answer (uuid : Option Json) :
    parseBridge warnings (jresult.map (answerTables query)) uuid =
      parseBridge warnings jresult uuid := by
  apply withRow_answer h warnings jresult (by decide +kernel) uuid
  intro jbridge name
  have hports (uuids : List (Option Json)) (br : OvsBridge) :
      parsePorts warnings (jresult.map (answerTables query)) uuids br =
        parsePorts warnings jresult uuids br := by
    unfold parsePorts
    simp only [parsePort_answer h]
  simp only [dpTypeOf, h.get (show (cstr "Bridge", cstr "datapath_type") ∈ _ by decide +kernel),
    h.get (show (cstr "Bridge", cstr "ports") ∈ _ by decide +kernel), hports]

/-- The columns that are not asked for do not matter to the parser. -/
theorem parse_answer (db : Json) :
    parse warnings (.ok (answer query db)) = parse warnings (.ok db) := by
  have hroot (key : CStr) : jsonObjectGet (some (answer query db)) key =
      (jsonObjectGet (some db) key).map fun value =>
        if key = cstr "result" then answerTables query value else value :=
    jsonObjectGet_mapValues _ (some db) key
  have herror : jsonObjectGet (some (answer query db)) (cstr "error") =
      jsonObjectGet (some db) (cstr "error") := by
    rw [hroot]
    exact Option.map_id'
  have hresult : jsonObjectGet (some (answer query db)) (cstr "result") =
      (jsonObjectGet (some db) (cstr "result")).map (answerTables query) := by
    rw [hroot]
    simp only [if_true]
  have hasks : asks query (cstr "Open_vSwitch") (cstr "bridges") = true :=
    h (cstr "Open_vSwitch", cstr "bridges") (by decide +kernel)
  have hovs (jresult : Option Json) :
      jsonObjectGet (jresult.map (answerTables query)) (cstr "Open_vSwitch") =
        (jsonObjectGet jresult (cstr "Open_vSwitch")).map
          (mapValues fun _ => answerRow query (cstr "Open_vSwitch")) :=
    jsonObjectGet_answerTables (asks_monitors hasks) jresult
  have hbridges (uuids : List (Option Json)) (jresult : Option Json) :
      parseBridges warnings (jresult.map (answerTables query)) uuids =
        parseBridges warnings jresult uuids := by
    unfold parseBridges
    simp only [parseBridge_answer h]
  simp only [parse, herror, hresult, hovs, Option.isNone_map, jsonObjectSize_mapValues,
    jsonObjectFirst_mapValues, jsonObjectGet_answerRow, jsonObjectGet_keepAsked hasks, hbridges]

end

/-- What Open vSwitch adds to the interfaces does not depend on what the query leaves out. -/
theorem ovsGlobalPost_answer (ovs : OvsEnv) (root : NsPtr) (db : Json) :
    Handlers.ovsGlobalPost ovs root (some (.ok (answer constructQuery db))) =
      Handlers.ovsGlobalPost ovs root (some (.ok db)) := by
  have hreply : handleReply ovs root (.ok (answer constructQuery db)) =
      handleReply ovs root (.ok db) := by
    unfold handleReply
    rw [parse_answer constructQuery_asksAll]
  funext w
  simp only [Handlers.ovsGlobalPost, hreply]

end Plotnetcfg.Openvswitch
