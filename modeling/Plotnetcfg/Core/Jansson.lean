import Plotnetcfg.Lib.Dict
import Plotnetcfg.Core.CString
import Mathlib.Data.List.Nodup
import Mathlib.Data.List.Induction

/-! JSON values and the functions of the Jansson library that the program calls. A null
pointer is `none`. Jansson takes only strings and object keys that are valid UTF-8. -/

namespace Plotnetcfg

inductive Json where
  | null
  | bool (b : Bool)
  | int (i : Int)
  | real
  | str (s : CStr)
  | arr (elems : List Json)
  | obj (members : List (CStr × Json))

abbrev JsonObj := List (CStr × Json)

def utf8 (s : CStr) : Bool := ByteArray.validateUTF8 ⟨s.toArray⟩

theorem ascii_char : ∀ n < 128,
    (Char.ofNat n).toUInt8 = UInt8.ofNat n ∧ (Char.ofNat n).utf8Size = 1 := by decide

theorem utf8_of_ascii {s : CStr} (h : ∀ b ∈ s, b < 128) : utf8 s = true := by
  apply ByteArray.validateUTF8_eq_true_iff.mpr
  induction s using List.reverseRecOn with
  | nil => exact ByteArray.isValidUTF8_empty
  | append_singleton s b ih =>
    have hs := ih fun x hx => h x (List.mem_append_left _ hx)
    obtain ⟨hchar, hsize⟩ := ascii_char b.toNat (h b (List.mem_append_right _ List.mem_cons_self))
    have hpush := hs.push hsize
    rw [hchar, UInt8.ofNat_toNat] at hpush
    have hbytes : (⟨(s ++ [b]).toArray⟩ : ByteArray) = (⟨s.toArray⟩ : ByteArray).push b := by
      show (⟨(s ++ [b]).toArray⟩ : ByteArray) = ⟨s.toArray.push b⟩
      rw [List.push_toArray]
    rwa [hbytes]

def jsonString (s : CStr) : Option Json := if utf8 s then some (.str s) else none

def jsonObjectSetNew (o : JsonObj) (key : CStr) (value : Option Json) : JsonObj :=
  Dict.setOpt o key (if utf8 key then value else none)

def jsonArrayAppendNew (arr : List Json) (value : Option Json) : List Json :=
  arr ++ value.toList

/-- An object built key by key; a key without a value is not set. -/
def objOf (fields : List (CStr × Option Json)) : JsonObj :=
  fields.foldl (fun o f => jsonObjectSetNew o f.1 f.2) []

def jsonObjectGet (json : Option Json) (key : CStr) : Option Json :=
  match json with
  | some (.obj members) => members.lookup key
  | _ => none

def jsonObjectSize (json : Option Json) : Nat :=
  match json with
  | some (.obj members) => members.length
  | _ => 0

/-- `json_object_iter_value(json_object_iter(json))`: the value of the first member. -/
def jsonObjectFirst (json : Option Json) : Option Json :=
  match json with
  | some (.obj members) => members.head?.map Prod.snd
  | _ => none

/-- The elements `json_array_get` yields below `json_array_size`. -/
def jsonArrayElems (json : Option Json) : List Json :=
  match json with
  | some (.arr elems) => elems
  | _ => []

def jsonArrayGet (json : Option Json) (index : Nat) : Option Json := (jsonArrayElems json)[index]?

def jsonArraySize (json : Option Json) : Nat := (jsonArrayElems json).length

def jsonStringValue (json : Option Json) : Option CStr :=
  match json with
  | some (.str s) => some s
  | _ => none

def jsonIntegerValue (json : Option Json) : Int :=
  match json with
  | some (.int i) => i
  | _ => 0

def jsonIsArray (json : Option Json) : Bool :=
  match json with
  | some (.arr _) => true
  | _ => false

def jsonIsNull (json : Option Json) : Bool :=
  match json with
  | some .null => true
  | _ => false

theorem objOf_eq_collect (fields : List (CStr × Option Json)) :
    objOf fields = Dict.collect Prod.fst (fun f => if utf8 f.1 then f.2 else none) fields [] := rfl

theorem lookup_objOf {fields : List (CStr × Option Json)} (hkeys : (fields.map Prod.fst).Nodup)
    {key : CStr} {value : Option Json} (hmem : (key, value) ∈ fields) (hutf8 : utf8 key = true) :
    (objOf fields).lookup key = value := by
  have hinj : ∀ f ∈ fields, f.1 = key → f = (key, value) := fun f hf hk =>
    List.inj_on_of_nodup_map hkeys hf hmem hk
  rw [objOf_eq_collect]
  have h := Dict.lookup_collect_of_mem Prod.fst
    (fun f : CStr × Option Json => if utf8 f.1 then f.2 else none) hinj hmem []
  simpa [hutf8] using h

/-! ## What is documented of them -/

/-- The functions of the library on its values, as they are documented, where its allocations
succeed. -/
@[ext]
structure Jansson where
  string : CStr → Option Json
  objectSetNew : JsonObj → CStr → Option Json → JsonObj
  arrayAppendNew : List Json → Option Json → List Json
  objectGet : Option Json → CStr → Option Json
  objectSize : Option Json → Nat
  objectFirst : Option Json → Option Json
  arrayGet : Option Json → Nat → Option Json
  arraySize : Option Json → Nat
  stringValue : Option Json → Option CStr
  integerValue : Option Json → Int
  isArray : Option Json → Bool
  isNull : Option Json → Bool
  string_valid : ∀ s, utf8 s = true → string s = some (.str s)
  string_invalid : ∀ s, utf8 s = false → string s = none
  -- a null value and a key that is not UTF-8 are refused
  set_null : ∀ o key, objectSetNew o key none = o
  set_invalid : ∀ o key value, utf8 key = false → objectSetNew o key value = o
  set_new : ∀ o key v, utf8 key = true → key ∉ o.map Prod.fst →
    objectSetNew o key (some v) = o ++ [(key, v)]
  set_replaces : ∀ o o' key old v, utf8 key = true → key ∉ o.map Prod.fst →
    objectSetNew (o ++ (key, old) :: o') key (some v) = o ++ (key, v) :: o'
  append_null : ∀ arr, arrayAppendNew arr none = arr
  append_value : ∀ arr v, arrayAppendNew arr (some v) = arr ++ [v]
  get_obj : ∀ members key, objectGet (some (.obj members)) key = members.lookup key
  size_obj : ∀ members, objectSize (some (.obj members)) = members.length
  first_obj : ∀ members, objectFirst (some (.obj members)) = members.head?.map Prod.snd
  get_arr : ∀ elems i, arrayGet (some (.arr elems)) i = elems[i]?
  size_arr : ∀ elems, arraySize (some (.arr elems)) = elems.length
  value_str : ∀ s, stringValue (some (.str s)) = some s
  value_int : ∀ i, integerValue (some (.int i)) = i
  isArray_arr : ∀ elems, isArray (some (.arr elems)) = true
  isNull_null : isNull (some .null) = true
  -- so are null pointers and values of another type
  get_other : ∀ json key, (∀ members, json ≠ some (.obj members)) → objectGet json key = none
  size_otherObj : ∀ json, (∀ members, json ≠ some (.obj members)) → objectSize json = 0
  first_other : ∀ json, (∀ members, json ≠ some (.obj members)) → objectFirst json = none
  get_otherArr : ∀ json i, (∀ elems, json ≠ some (.arr elems)) → arrayGet json i = none
  size_otherArr : ∀ json, (∀ elems, json ≠ some (.arr elems)) → arraySize json = 0
  value_otherStr : ∀ json, (∀ s, json ≠ some (.str s)) → stringValue json = none
  value_otherInt : ∀ json, (∀ i, json ≠ some (.int i)) → integerValue json = 0
  isArray_other : ∀ json, (∀ elems, json ≠ some (.arr elems)) → isArray json = false
  isNull_other : ∀ json, json ≠ some .null → isNull json = false

theorem jsonObjectSetNew_valid (o : JsonObj) {key : CStr} (h : utf8 key = true) (v : Json) :
    jsonObjectSetNew o key (some v) = Dict.set o key v := by
  unfold jsonObjectSetNew
  rw [if_pos h]
  rfl

def jansson : Jansson where
  string := jsonString
  objectSetNew := jsonObjectSetNew
  arrayAppendNew := jsonArrayAppendNew
  objectGet := jsonObjectGet
  objectSize := jsonObjectSize
  objectFirst := jsonObjectFirst
  arrayGet := jsonArrayGet
  arraySize := jsonArraySize
  stringValue := jsonStringValue
  integerValue := jsonIntegerValue
  isArray := jsonIsArray
  isNull := jsonIsNull
  string_valid s h := if_pos h
  string_invalid s h := if_neg (Bool.not_eq_true _ ▸ h)
  set_null o key := by
    unfold jsonObjectSetNew
    rw [ite_self]
    rfl
  set_invalid o key value h := by
    unfold jsonObjectSetNew
    rw [if_neg (Bool.not_eq_true _ ▸ h)]
    rfl
  set_new o key v h hnew := by
    rw [jsonObjectSetNew_valid o h]
    exact Dict.set_of_notMem hnew v
  set_replaces o o' key old v h hnew := by
    rw [jsonObjectSetNew_valid _ h]
    exact Dict.set_append_cons hnew old v o'
  append_null arr := List.append_nil arr
  append_value _ _ := rfl
  get_obj _ _ := rfl
  size_obj _ := rfl
  first_obj _ := rfl
  get_arr _ _ := rfl
  size_arr _ := rfl
  value_str _ := rfl
  value_int _ := rfl
  isArray_arr _ := rfl
  isNull_null := rfl
  get_other json key h := by
    unfold jsonObjectGet
    split
    · exact absurd rfl (h _)
    · rfl
  size_otherObj json h := by
    unfold jsonObjectSize
    split
    · exact absurd rfl (h _)
    · rfl
  first_other json h := by
    unfold jsonObjectFirst
    split
    · exact absurd rfl (h _)
    · rfl
  get_otherArr json i h := by
    unfold jsonArrayGet jsonArrayElems
    split
    · exact absurd rfl (h _)
    · rfl
  size_otherArr json h := by
    unfold jsonArraySize jsonArrayElems
    split
    · exact absurd rfl (h _)
    · rfl
  value_otherStr json h := by
    unfold jsonStringValue
    split
    · exact absurd rfl (h _)
    · rfl
  value_otherInt json h := by
    unfold jsonIntegerValue
    split
    · exact absurd rfl (h _)
    · rfl
  isArray_other json h := by
    unfold jsonIsArray
    split
    · exact absurd rfl (h _)
    · rfl
  isNull_other json h := by
    unfold jsonIsNull
    split
    · exact absurd rfl h
    · rfl

namespace Jansson
variable (J : Jansson)

theorem string_eq : J.string = jsonString := by
  funext s
  cases h : utf8 s with
  | true => rw [J.string_valid s h, jansson.string_valid s h |>.symm]; rfl
  | false => rw [J.string_invalid s h, jansson.string_invalid s h |>.symm]; rfl

theorem objectSetNew_eq : J.objectSetNew = jsonObjectSetNew := by
  funext o key value
  cases h : utf8 key with
  | false => exact (J.set_invalid o key value h).trans (jansson.set_invalid o key value h).symm
  | true =>
    cases value with
    | none => exact (J.set_null o key).trans (jansson.set_null o key).symm
    | some v =>
      by_cases hmem : key ∈ o.map Prod.fst
      · obtain ⟨pre, ⟨_, old⟩, post, rfl, rfl, hnew⟩ := Dict.exists_first hmem
        exact (J.set_replaces pre post _ old v h hnew).trans
          (jansson.set_replaces pre post _ old v h hnew).symm
      · exact (J.set_new o key v h hmem).trans (jansson.set_new o key v h hmem).symm

omit J in
/-- Functions that agree on the values of one type and on all the rest. -/
theorem eq_of_type {A B : Type} {f g : Option Json → B} (type : A → Json)
    (htype : ∀ a, f (some (type a)) = g (some (type a)))
    (hother : ∀ json, (∀ a, json ≠ some (type a)) → f json = g json) : f = g := by
  funext json
  by_cases h : ∃ a, json = some (type a)
  · obtain ⟨a, rfl⟩ := h
    exact htype a
  · exact hother json (not_exists.mp h)

theorem objectGet_eq : J.objectGet = jsonObjectGet := by
  funext json key
  exact congrFun (eq_of_type (f := (J.objectGet · key)) (g := (jsonObjectGet · key)) .obj
    (J.get_obj · key) fun json h => (J.get_other json key h).trans
      (jansson.get_other json key h).symm) json

theorem arrayGet_eq : J.arrayGet = jsonArrayGet := by
  funext json i
  exact congrFun (eq_of_type (f := (J.arrayGet · i)) (g := (jsonArrayGet · i)) .arr
    (J.get_arr · i) fun json h => (J.get_otherArr json i h).trans
      (jansson.get_otherArr json i h).symm) json

/-- What is documented leaves no choice, so that what is proved of these functions is true of any
that behave as documented. -/
theorem eq_jansson : J = jansson := by
  apply Jansson.ext
  · exact J.string_eq
  · exact J.objectSetNew_eq
  · funext arr value
    cases value with
    | none => exact (J.append_null arr).trans (jansson.append_null arr).symm
    | some v => exact J.append_value arr v
  · exact J.objectGet_eq
  · exact eq_of_type .obj J.size_obj fun json h =>
      (J.size_otherObj json h).trans (jansson.size_otherObj json h).symm
  · exact eq_of_type .obj J.first_obj fun json h =>
      (J.first_other json h).trans (jansson.first_other json h).symm
  · exact J.arrayGet_eq
  · exact eq_of_type .arr J.size_arr fun json h =>
      (J.size_otherArr json h).trans (jansson.size_otherArr json h).symm
  · exact eq_of_type .str J.value_str fun json h =>
      (J.value_otherStr json h).trans (jansson.value_otherStr json h).symm
  · exact eq_of_type .int J.value_int fun json h =>
      (J.value_otherInt json h).trans (jansson.value_otherInt json h).symm
  · exact eq_of_type .arr J.isArray_arr fun json h =>
      (J.isArray_other json h).trans (jansson.isArray_other json h).symm
  · exact eq_of_type (fun _ : Unit => .null) (fun _ => J.isNull_null) fun json h =>
      (J.isNull_other json (h ())).trans (jansson.isNull_other json (h ())).symm

end Jansson

end Plotnetcfg
