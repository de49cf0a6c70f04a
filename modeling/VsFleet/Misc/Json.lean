import VsFleet.Misc.SortedMap
import Mathlib.Data.List.Forall2
import Mathlib.Data.String.Basic

/-!
# JSON

The trees of JSON text. An object keeps its entries in the order of the text, and one key may be
there twice; a number is its token. The value serde_json reads a tree as (`serde_json::Value`) has
its objects in key order with the last entry of each key, and of a number only what a `u64`, an
`i64` or an `f64` holds. Text is read to a bounded depth. A place in a tree is a path of keys and
indices.
-/

namespace VsFleet

/-- A tree of JSON text; a number is its token. -/
inductive Json where
  | null
  | bool (b : Bool)
  | number (token : String)
  | string (s : String)
  | array (items : List Json)
  | object (fields : List (String × Json))

namespace Json

/-- `Value::get` with a string: the last entry of a key, which is the one a map of serde keeps. -/
def get? : Json → String → Option Json
  | .object fields, key => (fields.reverse.find? (fun field => field.1 = key)).map (fun f => f.2)
  | _, _ => none

/-- The text of a string. -/
def asString : Json → Option String
  | .string s => some s
  | _ => none

/-- The value of a boolean. -/
def asBool : Json → Option Bool
  | .bool b => some b
  | _ => none

/-- The fields of a structure with the given names: an object has them by name, and an array that is
exactly as long by place. -/
def structFields (names : List String) : Json → Option (List (String × Json))
  | .object fields => some fields
  | .array items => if items.length = names.length then some (names.zip items) else none
  | _ => none

/-! ## Objects as maps -/

mutual

/-- Every object in key order, with the last entry of each key; the numbers stay as they are. -/
def keyed : Json → Json
  | .null => .null
  | .bool b => .bool b
  | .number token => .number token
  | .string s => .string s
  | .array items => .array (keyedItems items)
  | .object fields => .object (SortedMap.ofList (keyedEntries fields))

/-- `keyed` on the items of an array. -/
def keyedItems : List Json → List Json
  | [] => []
  | item :: items => item.keyed :: keyedItems items

/-- `keyed` on the fields of an object. -/
def keyedEntries : List (String × Json) → List (String × Json)
  | [] => []
  | field :: fields => keyedEntry field :: keyedEntries fields

/-- `keyed` on one field. -/
def keyedEntry : String × Json → String × Json
  | (key, v) => (key, v.keyed)

end

/-- The objects of the tree are maps as they stand. -/
def IsKeyed (j : Json) : Prop := j.keyed = j

/-- The items, each with its objects as maps. -/
theorem keyedItems_eq (items : List Json) : keyedItems items = items.map keyed := by
  induction items with
  | nil => rfl
  | cons item items ih => rw [keyedItems, ih, List.map_cons]

/-- The fields, each with its objects as maps. -/
theorem keyedEntries_eq (fields : List (String × Json)) :
    keyedEntries fields = fields.map (fun e => (e.1, e.2.keyed)) := by
  induction fields with
  | nil => rfl
  | cons field fields ih =>
    obtain ⟨key, v⟩ := field
    rw [keyedEntries, ih, keyedEntry, List.map_cons]

/-- Entries that are fixed make a map of fixed entries. -/
theorem keyedEntries_ofList {fields : List (String × Json)}
    (fixed : ∀ e ∈ fields, e.2.keyed.keyed = e.2.keyed) :
    keyedEntries (SortedMap.ofList (keyedEntries fields)) =
      SortedMap.ofList (keyedEntries fields) := by
  rw [keyedEntries_eq]
  refine (List.map_congr_left ?_).trans (List.map_id _)
  intro e he
  have mem := SortedMap.mem_of_mem_ofList he
  rw [keyedEntries_eq] at mem
  obtain ⟨f, hf, rfl⟩ := List.mem_map.mp mem
  rw [fixed f hf]
  rfl

mutual

/-- Maps stay as they are. -/
theorem keyed_keyed : (j : Json) → j.keyed.keyed = j.keyed
  | .null => rfl
  | .bool _ => rfl
  | .number _ => rfl
  | .string _ => rfl
  | .array items => by
    rw [keyed, keyed, keyedItems_eq items, keyedItems_eq, List.map_map]
    congr 1
    exact List.map_congr_left (keyedItems_fixed items)
  | .object fields => by
    rw [keyed, keyed, keyedEntries_ofList (keyedEntries_fixed fields),
      SortedMap.sorted_ofList.ofList_eq]

theorem keyedItems_fixed : (items : List Json) →
    ∀ item ∈ items, item.keyed.keyed = item.keyed
  | [] => by simp
  | item :: items => by
    intro i hi
    rcases List.mem_cons.mp hi with same | hi
    · rw [same]
      exact keyed_keyed item
    · exact keyedItems_fixed items i hi

theorem keyedEntries_fixed : (fields : List (String × Json)) →
    ∀ e ∈ fields, e.2.keyed.keyed = e.2.keyed
  | [] => by simp
  | (key, v) :: fields => by
    intro e he
    rcases List.mem_cons.mp he with same | he
    · rw [same]
      exact keyed_keyed v
    · exact keyedEntries_fixed fields e he

end

/-- An array is a value of serde if its items are. -/
theorem isKeyed_array {items : List Json} :
    IsKeyed (.array items) ↔ ∀ item ∈ items, item.IsKeyed := by
  unfold IsKeyed
  rw [keyed, keyedItems_eq, array.injEq]
  induction items with
  | nil => simp
  | cons item items ih => rw [List.map_cons, List.cons.injEq, ih, List.forall_mem_cons]

/-- An object is a map where it is in key order and holds maps. -/
theorem isKeyed_object {fields : List (String × Json)} :
    IsKeyed (.object fields) ↔ SortedMap.Sorted fields ∧ ∀ e ∈ fields, e.2.IsKeyed := by
  unfold IsKeyed
  rw [keyed, keyedEntries_eq, object.injEq]
  constructor
  · intro same
    refine ⟨same ▸ SortedMap.sorted_ofList, fun e mem => ?_⟩
    rw [← same] at mem
    obtain ⟨f, -, rfl⟩ := List.mem_map.mp (SortedMap.mem_of_mem_ofList mem)
    exact f.2.keyed_keyed
  · rintro ⟨sorted, each⟩
    have fixed : fields.map (fun e => (e.1, e.2.keyed)) = fields.map id :=
      List.map_congr_left (fun e mem => Prod.ext rfl (each e mem))
    rw [List.map_id] at fixed
    rw [fixed, sorted.ofList_eq]

/-- A field may be inserted in a map. -/
theorem IsKeyed.insert {fields : List (String × Json)} {key : String} {v : Json}
    (h : IsKeyed (.object fields)) (value : v.IsKeyed) :
    IsKeyed (.object (SortedMap.insert key v fields)) := by
  obtain ⟨sorted, each⟩ := isKeyed_object.mp h
  refine isKeyed_object.mpr ⟨sorted.insert, fun e mem => ?_⟩
  rcases SortedMap.mem_insert mem with rfl | old
  · exact value
  · exact each e old

/-- What is under a key of a map, or a default in its place, has maps for objects. -/
theorem IsKeyed.getD {fields : List (String × Json)} {key : String} {default : Json}
    (h : IsKeyed (.object fields)) (value : default.IsKeyed) :
    IsKeyed ((SortedMap.get? fields key).getD default) := by
  cases found : SortedMap.get? fields key with
  | none => exact value
  | some v =>
    obtain ⟨e, there, rfl⟩ := Option.map_eq_some_iff.mp found
    exact (isKeyed_object.mp h).2 e (List.mem_of_find?_eq_some there)

/-! ## Numbers -/

/-- An integer of 64 bits, which `serde_json::Number` holds as it stands. -/
def isInteger64 (token : String) : Bool :=
  let n := Nat.ofDigitChars 10 token.toList 0
  let m := Nat.ofDigitChars 10 (token.toList.drop 1) 0
  (n.repr = token && n < 18446744073709551616) ||
    ("-" ++ m.repr = token && 0 < m && m ≤ 9223372036854775808)

section

variable (float : String → Option String)

/-- The number a token is read as, printed again. One that is no integer of 64 bits becomes a
double, which `float` reads and prints; there is none where it is out of range. -/
def readNumber (token : String) : Option String :=
  if isInteger64 token then some token else float token

mutual

/-- The tree with the numbers that are read for its tokens. -/
def readNumbers : Json → Option Json
  | .null => some .null
  | .bool b => some (.bool b)
  | .number token => (readNumber float token).map .number
  | .string s => some (.string s)
  | .array items => (readItemNumbers items).map .array
  | .object fields => (readEntryNumbers fields).map .object

/-- `readNumbers` on the items of an array. -/
def readItemNumbers : List Json → Option (List Json)
  | [] => some []
  | item :: items => (readNumbers item).bind (fun v => (readItemNumbers items).map (v :: ·))

/-- `readNumbers` on the fields of an object. -/
def readEntryNumbers : List (String × Json) → Option (List (String × Json))
  | [] => some []
  | field :: fields =>
    (readFieldNumbers field).bind (fun e => (readEntryNumbers fields).map (e :: ·))

/-- `readNumbers` on one field. -/
def readFieldNumbers : String × Json → Option (String × Json)
  | (key, v) => (readNumbers v).map (fun v => (key, v))

end

/-- `serde_json::Value` as it is read from a tree; there is none where a number is out of range. -/
def toValue (j : Json) : Option Json := (j.readNumbers float).map keyed

/-- Every number of the tree is read back exactly. -/
def Exact (j : Json) : Prop := j.readNumbers float = some j

variable {float}

/-- An integer of 64 bits is read exactly. -/
theorem exact_of_integer {token : String} (h : isInteger64 token = true) :
    (number token).Exact float := by
  rw [Exact, readNumbers, readNumber, if_pos h]
  rfl

/-- An array is exact if its items are. -/
theorem exact_array {items : List Json} :
    (array items).Exact float ↔ ∀ item ∈ items, item.Exact float := by
  rw [Exact, readNumbers, Option.map_eq_some_iff]
  simp only [array.injEq, exists_eq_right]
  induction items with
  | nil => simp [readItemNumbers]
  | cons item items ih =>
    rw [List.forall_mem_cons, ← ih, readItemNumbers, Option.bind_eq_some_iff]
    simp only [Option.map_eq_some_iff, List.cons.injEq, Exact]
    constructor
    · rintro ⟨v, read, l, rest, rfl, rfl⟩
      exact ⟨read, rest⟩
    · rintro ⟨read, rest⟩
      exact ⟨item, read, items, rest, rfl, rfl⟩

theorem readEntryNumbers_eq_self {fields : List (String × Json)} :
    readEntryNumbers float fields = some fields ↔ ∀ e ∈ fields, e.2.Exact float := by
  induction fields with
  | nil => simp [readEntryNumbers]
  | cons field fields ih =>
    obtain ⟨key, v⟩ := field
    rw [List.forall_mem_cons, ← ih, readEntryNumbers, readFieldNumbers, Option.bind_eq_some_iff]
    simp only [Option.map_eq_some_iff, List.cons.injEq, Exact]
    constructor
    · rintro ⟨e, ⟨w, read, rfl⟩, l, rest, same, rfl⟩
      obtain rfl := (Prod.mk.inj same).2
      exact ⟨read, rest⟩
    · rintro ⟨read, rest⟩
      exact ⟨(key, v), ⟨v, read, rfl⟩, fields, rest, rfl, rfl⟩

/-- An object is exact if its fields are. -/
theorem exact_object {fields : List (String × Json)} :
    (object fields).Exact float ↔ ∀ e ∈ fields, e.2.Exact float := by
  rw [← readEntryNumbers_eq_self, Exact, readNumbers, Option.map_eq_some_iff]
  simp

/-- The entries keep their keys and their order. -/
theorem forall₂_readEntryNumbers {fields fields' : List (String × Json)}
    (read : readEntryNumbers float fields = some fields') :
    List.Forall₂ (fun e e' => e'.1 = e.1 ∧ e.2.readNumbers float = some e'.2) fields fields' := by
  induction fields generalizing fields' with
  | nil =>
    obtain rfl : [] = fields' := Option.some.inj read
    exact List.Forall₂.nil
  | cons field fields ih =>
    obtain ⟨key, v⟩ := field
    rw [readEntryNumbers, readFieldNumbers, Option.bind_eq_some_iff] at read
    obtain ⟨e, one, rest⟩ := read
    obtain ⟨w, value, rfl⟩ := Option.map_eq_some_iff.mp one
    obtain ⟨l, read, rfl⟩ := Option.map_eq_some_iff.mp rest
    exact List.Forall₂.cons ⟨rfl, value⟩ (ih read)

/-- A field that was read comes from one with its key. -/
theorem mem_readEntryNumbers {fields fields' : List (String × Json)}
    (read : readEntryNumbers float fields = some fields') {e' : String × Json}
    (mem : e' ∈ fields') :
    ∃ e ∈ fields, e'.1 = e.1 ∧ e.2.readNumbers float = some e'.2 := by
  have entries := forall₂_readEntryNumbers read
  clear read
  induction entries with
  | nil => cases mem
  | cons one _ ih =>
    rcases List.mem_cons.mp mem with rfl | mem
    · exact ⟨_, List.mem_cons_self, one⟩
    · obtain ⟨e, there, same⟩ := ih mem
      exact ⟨e, List.mem_cons_of_mem _ there, same⟩

/-- The last entry of a key stays its last. -/
theorem get?_readEntryNumbers {fields fields' : List (String × Json)}
    (read : readEntryNumbers float fields = some fields') {k : String} :
    SortedMap.get? fields'.reverse k =
      (SortedMap.get? fields.reverse k).bind (readNumbers float) := by
  have entries := List.forall₂_reverse_iff.mpr (forall₂_readEntryNumbers read)
  generalize fields.reverse = l at entries ⊢
  generalize fields'.reverse = l' at entries ⊢
  induction entries with
  | nil => rfl
  | @cons e e' _ _ one _ ih =>
    obtain ⟨key, v⟩ := e
    obtain ⟨key', v'⟩ := e'
    obtain ⟨rfl, value⟩ := one
    rw [SortedMap.get?_cons, SortedMap.get?_cons]
    split
    · exact value.symm
    · exact ih

end

/-! ## Depth -/

mutual

/-- The arrays and objects one inside another. -/
def depth : Json → Nat
  | .array items => itemDepth items + 1
  | .object fields => entryDepth fields + 1
  | _ => 0

/-- The depth of the deepest item. -/
def itemDepth : List Json → Nat
  | [] => 0
  | item :: items => max (depth item) (itemDepth items)

/-- The depth of the deepest field. -/
def entryDepth : List (String × Json) → Nat
  | [] => 0
  | field :: fields => max (fieldDepth field) (entryDepth fields)

/-- The depth of one field. -/
def fieldDepth : String × Json → Nat
  | (_, v) => depth v

end

/-- The depth at which serde_json gives up on a text. -/
def recursionLimit : Nat := 128

/-! ## Places -/

/-- One step from a tree into it. -/
inductive Step where
  | key (k : String)
  | index (i : Nat)

/-- The tree at the end of a path. -/
def at? : List Step → Json → Option Json
  | [], j => some j
  | .key k :: path, j => (j.get? k).bind (at? path)
  | .index i :: path, .array items => items[i]?.bind (at? path)
  | .index _ :: _, _ => none

/-- The numbers at the end of a path are read back exactly. -/
def ExactAt (float : String → Option String) (path : List Step) (j : Json) : Prop :=
  ∀ v, j.at? path = some v → v.Exact float

/-- The value at the end of a path, its numbers as they stand. -/
def valueAt (path : List Step) (j : Json) : Option Json := (j.at? path).map keyed

/-- A path that starts with a key goes through the field. -/
theorem valueAt_key (k : String) (path : List Step) (j : Json) :
    j.valueAt (.key k :: path) = (j.get? k).bind (valueAt path) := by
  rw [valueAt, at?, Option.map_bind]
  rfl

/-- A path that starts with an index goes through the item. -/
theorem valueAt_index (i : Nat) (path : List Step) (items : List Json) :
    (Json.array items).valueAt (.index i :: path) = items[i]?.bind (valueAt path) := by
  rw [valueAt, at?, Option.map_bind]
  rfl

/-- The same for what is exact at a path. -/
theorem exactAt_key {float : String → Option String} {k : String} {path : List Step} {j : Json} :
    j.ExactAt float (.key k :: path) ↔ ∀ v, j.get? k = some v → v.ExactAt float path := by
  simp only [ExactAt, at?, Option.bind_eq_some_iff]
  grind

/-- And for an item. -/
theorem exactAt_index {float : String → Option String} {i : Nat} {path : List Step}
    {items : List Json} : (Json.array items).ExactAt float (.index i :: path) ↔
      ∀ v, items[i]? = some v → v.ExactAt float path := by
  simp only [ExactAt, at?, Option.bind_eq_some_iff]
  grind

/-- The last field of a key is its value. -/
theorem get?_object (fields : List (String × Json)) (k : String) :
    (Json.object fields).get? k = SortedMap.get? fields.reverse k := rfl

end Json

end VsFleet
