import VsFleet.Misc.Json
import VsFleet.Misc.OrderedMap

/-!
# Derived readers and writers

What the derive macros of serde make of a type, on trees: a structure is written as the object of
its fields, without the ones that are skipped and with the entries of a flattened map after them;
it is read from an object in which no field is there twice, where a field may have a default and
the entries that are no field are dropped or, where a map is flattened, kept in it as values. An
internally tagged enumeration has the name of its variant among the fields, which are buffered with
their numbers read. Text is not modelled below its trees and their depth, and a reader takes the
documented shapes alone.
-/

namespace VsFleet

namespace Serde

variable {α : Type} (float : String → Option String)

/-! ## Writing -/

/-- The entries of the fields that are not skipped. -/
def present (fields : List (String × Option Json)) : List (String × Json) :=
  fields.filterMap (fun f => f.2.map (fun v => (f.1, v)))

/-- A structure with a flattened map, which is empty where there is none. -/
def writeStruct (fields : List (String × Option Json)) (extra : List (String × Json)) : Json :=
  .object (present fields ++ extra)

/-- A variant of an internally tagged enumeration. -/
def writeTagged (tag name : String) (fields : List (String × Option Json)) : Json :=
  writeStruct ((tag, some (.string name)) :: fields) []

/-- An unsigned integer, in decimal digits. -/
def writeNat (n : Nat) : Json := .number n.repr

/-- A sequence, item by item. -/
def writeList (write : α → Json) (l : List α) : Json := .array (l.map write)

/-! ## Reading -/

/-- The entries, where no declared field is among them twice. -/
def unique (declared : List String) (entries : List (String × Json)) :
    Option (List (String × Json)) :=
  if ((entries.map Prod.fst).filter (fun k => k ∈ declared)).Nodup then some entries else none

/-- The entries of an object read for the declared fields. -/
def readMap (declared : List String) : Json → Option (List (String × Json))
  | .object fields => unique declared fields
  | _ => none

/-- A field that has to be there. -/
def required (read : Json → Option α) (entries : List (String × Json)) (name : String) :
    Option α :=
  ((Json.object entries).get? name).bind read

/-- `#[serde(default)]`. -/
def defaulted (read : Json → Option α) (default : α) (entries : List (String × Json))
    (name : String) : Option α :=
  match (Json.object entries).get? name with
  | none => some default
  | some v => read v

/-- `#[serde(flatten)]` on a map: the entries that are no field, as values. -/
def flattened (declared : List String) (entries : List (String × Json)) :
    Option (List (String × Json)) :=
  (Json.readEntryNumbers float (entries.filter (fun e => e.1 ∉ declared))).map
    (fun read => SortedMap.ofList (Json.keyedEntries read))

/-- `#[serde(tag = "…")]`: the name of the variant and the entries beside it. The entries are
buffered before any field is looked at, so each of their numbers has to be in range. -/
def readTagged (tag : String) : Json → Option (String × List (String × Json))
  | .object fields =>
    if (Json.readEntryNumbers float fields).isNone then none
    else
      match fields.filter (fun e => e.1 = tag) with
      | [(_, .string name)] => some (name, fields.filter (fun e => e.1 ≠ tag))
      | _ => none
  | _ => none

/-- An unsigned number below the bound of its type. -/
def readNat (bound : Nat) : Json → Option Nat
  | .number token =>
    let n := Nat.ofDigitChars 10 token.toList 0
    if n.repr = token ∧ n < bound then some n else none
  | _ => none

/-- A sequence, of which every item has to be read. -/
def readList (read : Json → Option α) : Json → Option (List α)
  | .array items => items.mapM read
  | _ => none

/-- An optional field is none where it is null. -/
def readOption (read : Json → Option α) : Json → Option (Option α)
  | .null => some none
  | j => (read j).map some

/-- `serde_json::Value` is read from any tree whose numbers are in range. -/
def readValue (j : Json) : Option Json := j.toValue float

/-- A unit variant is read from its token. -/
def readToken (variants : List α) (token : α → String) : Json → Option α
  | .string t => variants.find? (fun v => token v = t)
  | _ => none

/-- `serde_json::from_str`, on the tree of the text. -/
def fromStr (read : Json → Option α) (j : Json) : Option α :=
  if j.depth < Json.recursionLimit then read j else none

variable {float}

/-! ## Reading what was written -/

/-- One field of a reader: what is left to read is read with its value. -/
theorem bind_eq_some {β : Type} {x : Option α} {f : α → Option β} {a : α} {b : β}
    (field : x = some a) (rest : f a = some b) : (x >>= f) = some b := by
  rw [field]
  exact rest

/-- Reading inverts writing on the values of `P`. -/
def Inverts (write : α → Json) (read : Json → Option α) (P : α → Prop) : Prop :=
  ∀ a, P a → read (write a) = some a

section

variable {write : α → Json} {read : Json → Option α} {P : α → Prop}

/-- An integer within the bound is read back. -/
theorem readNat_writeNat {n bound : Nat} (h : n < bound) : readNat bound (writeNat n) = some n := by
  simp [readNat, writeNat, h]

/-- A value that is not null is there. -/
theorem readOption_of_ne_null {v : Json} (h : v ≠ .null) :
    readOption read v = (read v).map some := by
  cases v with
  | null => exact absurd rfl h
  | _ => rfl

/-- A list is read back if its items are. -/
theorem Inverts.list (h : Inverts write read P) {l : List α} (proper : ∀ a ∈ l, P a) :
    readList read (writeList write l) = some l := by
  rw [writeList, readList, List.mapM_map]
  induction l with
  | nil => rfl
  | cons a l ih =>
    have one : (read ∘ write) a = some a := h a (proper a (by simp))
    rw [List.mapM_cons, one, ih (fun b hb => proper b (List.mem_cons_of_mem a hb))]
    rfl

/-- A variant is read from its token where the tokens are distinct. -/
theorem readToken_token {variants : List α} {token : α → String}
    (distinct : (variants.map token).Nodup) {a : α} (listed : a ∈ variants) :
    readToken variants token (.string (token a)) = some a := by
  have found := (KeyedList.get?_eq_some_iff (k := token a) distinct).mpr ⟨listed, rfl⟩
  exact found

end

/-! ## Numbers that are written -/

/-- An integer of 64 bits is read exactly. -/
theorem exact_writeNat {n : Nat} (h : n < 18446744073709551616) : (writeNat n).Exact float :=
  Json.exact_of_integer (by simp [Json.isInteger64, h])

/-- A list is exact if its items are. -/
theorem exact_writeList {write : α → Json} {l : List α}
    (each : ∀ a ∈ l, (write a).Exact float) : (writeList write l).Exact float := by
  rw [writeList, Json.exact_array]
  simpa using each

/-- An object is exact if its fields are, the unknown ones among them. -/
theorem exact_writeStruct {fields : List (String × Option Json)} {extra : List (String × Json)}
    (own : ∀ f ∈ fields, ∀ v, f.2 = some v → v.Exact float)
    (beside : ∀ e ∈ extra, e.2.Exact float) : (writeStruct fields extra).Exact float := by
  refine Json.exact_object.mpr (fun e mem => ?_)
  rcases List.mem_append.mp mem with mem | mem
  · obtain ⟨f, hf, written⟩ := List.mem_filterMap.mp mem
    obtain ⟨v, value, rfl⟩ := Option.map_eq_some_iff.mp written
    exact own f hf v value
  · exact beside e mem

/-- So is a tagged one. -/
theorem exact_writeTagged {tag name : String} {fields : List (String × Option Json)}
    (own : ∀ f ∈ fields, ∀ v, f.2 = some v → v.Exact float) :
    (writeTagged tag name fields).Exact float := by
  refine exact_writeStruct (fun f mem v value => ?_) (by simp)
  rcases List.mem_cons.mp mem with rfl | mem
  · obtain rfl : .string name = v := Option.some.inj value
    rfl
  · exact own f mem v value

/-- Below the recursion limit a text is read as its tree. -/
theorem fromStr_eq {read : Json → Option α} {j : Json} (shallow : j.depth < Json.recursionLimit) :
    fromStr read j = read j := if_pos shallow

/-- What is read from a text is read from its tree. -/
theorem fromStr_eq_some {read : Json → Option α} {j : Json} {a : α}
    (found : fromStr read j = some a) : read j = some a := by
  rw [fromStr] at found
  split at found
  · exact found
  · exact absurd found (by simp)

/-- What a field that may be none is written as, beside what it is read as. -/
def Optional (read : Json → Option α) (written : Option Json) (o : Option α) : Prop :=
  written = none ∧ o = none ∨ ∃ v a, written = some v ∧ o = some a ∧ v ≠ .null ∧ read v = some a

/-- What may be missing is read back if a value is that is there. -/
theorem Optional.map {write : α → Json} {read : Json → Option α} {o : Option α}
    (inverts : ∀ a, o = some a → read (write a) = some a) (other : ∀ a, write a ≠ .null) :
    Optional read (o.map write) o := by
  cases o with
  | none => exact Or.inl ⟨rfl, rfl⟩
  | some a => exact Or.inr ⟨write a, a, rfl, rfl, other a, inverts a rfl⟩

section

variable {declared : List String} {fields : List (String × Option Json)}
  {extra entries : List (String × Json)} {name k : String}

theorem mem_present {e : String × Json} (h : e ∈ present fields) : e.1 ∈ fields.map Prod.fst := by
  obtain ⟨f, hf, v⟩ := List.mem_filterMap.mp h
  obtain ⟨w, -, rfl⟩ := Option.map_eq_some_iff.mp v
  exact List.mem_map_of_mem hf

theorem present_keys_sublist : ((present fields).map Prod.fst).Sublist (fields.map Prod.fst) := by
  induction fields with
  | nil => exact List.Sublist.slnil
  | cons f fields ih =>
    obtain ⟨name, v⟩ := f
    cases v with
    | none => exact ih.cons name
    | some v => exact ih.cons_cons name

/-- A field that is written is found, and one that is left out is not. -/
theorem get?_present (distinct : (fields.map Prod.fst).Nodup) :
    SortedMap.get? (present fields) name = (SortedMap.get? fields name).join := by
  induction fields with
  | nil => rfl
  | cons f fields ih =>
    obtain ⟨key, v⟩ := f
    have apart := List.nodup_cons.mp distinct
    rw [SortedMap.get?_cons]
    cases v with
    | none =>
      have skip : present ((key, none) :: fields) = present fields := rfl
      rw [skip]
      split
      · rename_i own
        apply SortedMap.get?_eq_none
        intro e he same
        exact apart.1 (own.trans same.symm ▸ mem_present he)
      · exact ih apart.2
    | some v =>
      have keep : present ((key, some v) :: fields) = (key, v) :: present fields := rfl
      rw [keep, SortedMap.get?_cons, ih apart.2]
      split <;> rfl

/-- The fields of a structure, of distinct names, and the map beside them, which has none. -/
structure Layout (declared : List String) (fields : List (String × Option Json))
    (extra : List (String × Json)) : Prop where
  names : fields.map Prod.fst = declared
  distinct : declared.Nodup
  apart : ∀ e ∈ extra, e.1 ∉ declared

namespace Layout

/-- A declared field is found as it was written. -/
theorem get?_writeStruct (h : Layout declared fields extra) (field : name ∈ declared) :
    (writeStruct fields extra).get? name = (SortedMap.get? fields name).join := by
  have distinct : (fields.map Prod.fst).Nodup := h.names ▸ h.distinct
  have outside : SortedMap.get? extra.reverse name = none := by
    apply SortedMap.get?_eq_none
    intro e he same
    exact h.apart e (List.mem_reverse.mp he) (same ▸ field)
  rw [writeStruct, Json.get?_object, List.reverse_append, SortedMap.get?_append, outside,
    Option.none_or, SortedMap.get?_reverse (distinct.sublist present_keys_sublist),
    get?_present distinct]

/-- Any other key is found among the unknown ones. -/
theorem get?_writeStruct_extra (h : Layout declared fields extra) (other : k ∉ declared) :
    (writeStruct fields extra).get? k = SortedMap.get? extra.reverse k := by
  have outside : SortedMap.get? (present fields).reverse k = none := by
    apply SortedMap.get?_eq_none
    intro e he same
    exact other (same ▸ h.names ▸ mem_present (List.mem_reverse.mp he))
  rw [writeStruct, Json.get?_object, List.reverse_append, SortedMap.get?_append, outside,
    Option.or_none]

/-- No declared field is there twice. -/
theorem unique_eq (h : Layout declared fields extra) :
    unique declared (present fields ++ extra) = some (present fields ++ extra) := by
  rw [unique, if_pos]
  have none : (extra.map Prod.fst).filter (fun k => k ∈ declared) = [] := by
    rw [List.filter_eq_nil_iff]
    intro k hk
    obtain ⟨e, he, rfl⟩ := List.mem_map.mp hk
    simpa using h.apart e he
  rw [List.map_append, List.filter_append, none, List.append_nil]
  have distinct : (fields.map Prod.fst).Nodup := h.names ▸ h.distinct
  exact (distinct.sublist present_keys_sublist).filter _

/-- An object that was written is read as its fields and the unknown ones. -/
theorem readMap_writeStruct (h : Layout declared fields extra) :
    readMap declared (writeStruct fields extra) = some (present fields ++ extra) := h.unique_eq

theorem mem_declared (h : Layout declared fields extra) {v : Option Json}
    (field : SortedMap.get? fields name = some v) : name ∈ declared := by
  obtain ⟨f, found, rfl⟩ := Option.map_eq_some_iff.mp field
  have own : f.1 = name := by simpa using List.find?_some found
  rw [← h.names, ← own]
  exact List.mem_map_of_mem (List.mem_of_find?_eq_some found)

/-- A field is found under its name. -/
theorem get?_field (h : Layout declared fields extra) {v : Option Json}
    (field : SortedMap.get? fields name = some v) :
    (Json.object (present fields ++ extra)).get? name = v :=
  (h.get?_writeStruct (h.mem_declared field)).trans (by rw [field, Option.join_some])

/-- A field that is written always is read back. -/
theorem required_eq (h : Layout declared fields extra) (name : String) {read : Json → Option α}
    {v : Json} {a : α} (field : SortedMap.get? fields name = some (some v))
    (inverts : read v = some a) : required read (present fields ++ extra) name = some a := by
  rw [required, h.get?_field field, Option.bind_some, inverts]

/-- The default of such a field does not matter. -/
theorem defaulted_eq (h : Layout declared fields extra) (name : String)
    {read : Json → Option α} {default : α} {v : Json} {a : α}
    (field : SortedMap.get? fields name = some (some v)) (inverts : read v = some a) :
    defaulted read default (present fields ++ extra) name = some a := by
  rw [defaulted, h.get?_field field]
  exact inverts

/-- A field that is skipped where it is none is read back: its default is none, and what is written
else is not null. -/
theorem optional_eq (h : Layout declared fields extra) (name : String)
    {read : Json → Option α} {o : Option α} {v : Option Json}
    (field : SortedMap.get? fields name = some v)
    (inverts : Optional read v o) :
    defaulted (readOption read) none (present fields ++ extra) name = some o := by
  rw [defaulted, h.get?_field field]
  obtain ⟨rfl, rfl⟩ | ⟨w, a, rfl, rfl, other, found⟩ := inverts
  · rfl
  · exact (readOption_of_ne_null other).trans (by rw [found]; rfl)

/-- The unknown fields are read back as they were, if they are values that serde keeps. -/
theorem flattened_writeStruct (h : Layout declared fields extra)
    (value : (Json.object extra).IsKeyed) (numbers : (Json.object extra).Exact float) :
    flattened float declared (present fields ++ extra) = some extra := by
  have inner : (present fields).filter (fun e => e.1 ∉ declared) = [] := by
    rw [List.filter_eq_nil_iff]
    intro e he
    simpa [← h.names] using mem_present he
  have outer : extra.filter (fun e => e.1 ∉ declared) = extra := by
    rw [List.filter_eq_self]
    intro e he
    simpa using h.apart e he
  rw [flattened, List.filter_append, inner, outer, List.nil_append,
    Json.readEntryNumbers_eq_self.mpr (Json.exact_object.mp numbers)]
  exact congrArg some (Json.object.inj value)

end Layout

/-- A variant of one field is read back. -/
theorem readOne_eq {β : Type} (name : String) (make : α → β) {read : Json → Option α} {v : Json}
    {a : α} (inverts : read v = some a) :
    (do
      let entries ← unique [name] (present [(name, some v)] ++ [])
      return make (← required read entries name)) = some (make a) := by
  have layout : Layout [name] [(name, some v)] [] := ⟨rfl, List.nodup_singleton name, by simp⟩
  have only : SortedMap.get? [(name, some v)] name = some (some v) := by
    simp [SortedMap.get?_cons]
  refine bind_eq_some layout.unique_eq ?_
  exact bind_eq_some (layout.required_eq name only inverts) rfl

/-- A variant of two fields is read back. -/
theorem readTwo_eq {β γ : Type} (name other : String) (apart : name ≠ other) (make : α → β → γ)
    {read : Json → Option α} {read' : Json → Option β} {v w : Json} {a : α} {b : β}
    (inverts : read v = some a) (inverts' : read' w = some b) :
    (do
      let entries ← unique [name, other] (present [(name, some v), (other, some w)] ++ [])
      return make (← required read entries name) (← required read' entries other)) =
      some (make a b) := by
  have layout : Layout [name, other] [(name, some v), (other, some w)] [] :=
    ⟨rfl, by simpa using apart, by simp⟩
  have first : SortedMap.get? [(name, some v), (other, some w)] name = some (some v) := by
    simp [SortedMap.get?_cons]
  have second : SortedMap.get? [(name, some v), (other, some w)] other = some (some w) := by
    simp [SortedMap.get?_cons, apart]
  refine bind_eq_some layout.unique_eq ?_
  refine bind_eq_some (layout.required_eq name first inverts) ?_
  exact bind_eq_some (layout.required_eq other second inverts') rfl

end

/-- The variant of an enumeration is read back, with its fields. -/
theorem readTagged_writeTagged {tag name : String} {fields : List (String × Option Json)}
    (other : tag ∉ fields.map Prod.fst)
    (numbers : ∀ f ∈ fields, ∀ v, f.2 = some v → v.Exact float) :
    readTagged float tag (writeTagged tag name fields) = some (name, present fields ++ []) := by
  have outside : ∀ e ∈ present fields, e.1 ≠ tag := by
    intro e he same
    exact other (same ▸ mem_present he)
  have none : (present fields).filter (fun e => e.1 = tag) = [] := by
    rw [List.filter_eq_nil_iff]
    simpa using outside
  have written : writeTagged tag name fields = .object ((tag, .string name) :: present fields) := by
    rw [writeTagged, writeStruct, List.append_nil]
    rfl
  have buffered : Json.readEntryNumbers float ((tag, .string name) :: present fields) =
      some ((tag, .string name) :: present fields) := by
    have exactly : (writeTagged tag name fields).Exact float := exact_writeTagged numbers
    rw [written] at exactly
    exact Json.readEntryNumbers_eq_self.mpr (Json.exact_object.mp exactly)
  simpa [written, readTagged, buffered, none] using outside

/-! ## Writing what was read -/

/-- Writing what was read keeps the value at every path of `kept`, where its numbers are read back
exactly. -/
def Keeps (float : String → Option String) (write : α → Json) (read : Json → Option α)
    (kept : List Json.Step → Prop) : Prop :=
  ∀ j a, read j = some a → ∀ path, kept path → j.ExactAt float path →
    (write a).valueAt path = j.valueAt path

/-- The keys of an object that are none of its fields. -/
def Unknown (declared : List String) (path : List Json.Step) : Prop :=
  ∃ k, k ∉ declared ∧ path = [.key k]

section

variable {write : α → Json} {read : Json → Option α} {kept : List Json.Step → Prop}
  {declared : List String} {fields : List (String × Option Json)}
  {extra entries : List (String × Json)} {name k : String} {path : List Json.Step}
  {declared' : List String}

/-- A list keeps what each item keeps. -/
theorem Keeps.list (h : Keeps float write read kept) :
    Keeps float (writeList write) (readList read)
      (fun path => ∃ i inner, path = .index i :: inner ∧ kept inner) := by
  intro j l found path inside numbers
  obtain ⟨i, inner, rfl, here⟩ := inside
  cases j with
  | array items =>
    rw [writeList, Json.valueAt_index, Json.valueAt_index]
    rw [Json.exactAt_index] at numbers
    have each : items.mapM read = some l := found
    clear found
    induction items generalizing l i with
    | nil =>
      obtain rfl : [] = l := Option.some.inj each
      rfl
    | cons item items ih =>
      rw [List.mapM_cons, Option.bind_eq_bind, Option.bind_eq_some_iff] at each
      obtain ⟨a, first, rest⟩ := each
      rw [Option.bind_eq_bind, Option.bind_eq_some_iff] at rest
      obtain ⟨l', rest, done⟩ := rest
      obtain rfl : a :: l' = l := Option.some.inj done
      cases i with
      | zero => exact h item a first inner here (numbers item rfl)
      | succ i => exact ih l' i numbers rest
  | _ => exact absurd found (by simp [readList])

theorem unique_eq_some {content : List (String × Json)}
    (h : unique declared content = some entries) : content = entries := by
  rw [unique] at h
  split at h
  · exact Option.some.inj h
  · exact absurd h (by simp)

/-- Only an object is read as fields. -/
theorem readMap_eq_some {j : Json} (h : readMap declared j = some entries) :
    j = .object entries := by
  cases j with
  | object fields =>
    rw [unique_eq_some h]
  | _ => exact absurd h (by simp [readMap])

/-- No unknown field has a declared name. -/
theorem flattened_apart (read : flattened float declared entries = some extra) :
    ∀ e ∈ extra, e.1 ∉ declared := by
  intro e he
  obtain ⟨values, buffered, rfl⟩ := Option.map_eq_some_iff.mp read
  have mem := SortedMap.mem_of_mem_ofList he
  rw [Json.keyedEntries_eq] at mem
  obtain ⟨f, hf, rfl⟩ := List.mem_map.mp mem
  obtain ⟨g, hg, same, -⟩ := Json.mem_readEntryNumbers buffered hf
  rw [same]
  simpa using (List.mem_filter.mp hg).2

/-- An entry that is no field is kept as the value it is read as. -/
theorem get?_flattened (read : flattened float declared entries = some extra)
    (other : k ∉ declared) :
    SortedMap.get? extra.reverse k =
      ((Json.object entries).get? k).bind (Json.toValue float) := by
  obtain ⟨values, buffered, rfl⟩ := Option.map_eq_some_iff.mp read
  have buffered := Json.get?_readEntryNumbers buffered (k := k)
  rw [← List.filter_reverse,
    SortedMap.get?_filter (p := fun k => decide (k ∉ declared)) (by simpa using other)] at buffered
  rw [SortedMap.get?_reverse SortedMap.sorted_ofList.keys_nodup, SortedMap.get?_ofList,
    Json.keyedEntries_eq, ← List.map_reverse, SortedMap.get?_map, buffered, Option.map_bind]
  rfl

/-- The content of a tagged object has its other keys. -/
theorem get?_readTagged {tag variant : String} {j : Json} {content : List (String × Json)}
    (h : readTagged float tag j = some (variant, content)) (other : k ≠ tag) :
    (Json.object content).get? k = j.get? k := by
  cases j with
  | object fields =>
    simp only [readTagged] at h
    split at h
    · exact absurd h (by simp)
    · split at h
      · obtain ⟨-, rfl⟩ := Prod.mk.inj (Option.some.inj h)
        rw [Json.get?_object, ← List.filter_reverse,
          SortedMap.get?_filter (p := fun k => decide (k ≠ tag)) (by simpa using other)]
        rfl
      · exact absurd h (by simp)
  | _ => exact absurd h (by simp [readTagged])

namespace Layout

/-- The flattened map keeps the entries that are no field. -/
theorem keeps_unknown (h : Layout declared fields extra)
    (read : flattened float declared entries = some extra) (unknown : Unknown declared path)
    (numbers : (Json.object entries).ExactAt float path) :
    (writeStruct fields extra).valueAt path = (Json.object entries).valueAt path := by
  obtain ⟨k, other, rfl⟩ := unknown
  rw [Json.exactAt_key] at numbers
  rw [Json.valueAt_key, Json.valueAt_key, h.get?_writeStruct_extra other,
    get?_flattened read other]
  cases found : (Json.object entries).get? k with
  | none => rfl
  | some v =>
    have value : v.toValue float = some v.keyed := by
      rw [Json.toValue, show v.readNumbers float = some v from numbers v found v rfl]
      rfl
    rw [Option.bind_some, value]
    exact congrArg some (Json.keyed_keyed v)

/-- A field keeps what its own reader and writer keep. -/
theorem keeps_required (h : Layout declared fields extra) (name : String) {a : α}
    (field : SortedMap.get? fields name = some (some (write a)))
    (found : required read entries name = some a) (keeps : Keeps float write read kept)
    (here : kept path) (numbers : (Json.object entries).ExactAt float (.key name :: path)) :
    (writeStruct fields extra).valueAt (.key name :: path) =
      (Json.object entries).valueAt (.key name :: path) := by
  obtain ⟨v, slot, value⟩ := Option.bind_eq_some_iff.mp found
  have written : (writeStruct fields extra).get? name = some (write a) := h.get?_field field
  rw [Json.valueAt_key, Json.valueAt_key, written, slot]
  exact keeps v a value path here (Json.exactAt_key.mp numbers v slot)

/-- A field that is none keeps nothing, and null has nothing in it. -/
theorem keeps_optional (h : Layout declared fields extra) (name : String) {o : Option α}
    (field : SortedMap.get? fields name = some (o.map write))
    (found : defaulted (readOption read) none entries name = some o)
    (keeps : Keeps float write read (Unknown declared')) (here : Unknown declared' path)
    (numbers : (Json.object entries).ExactAt float (.key name :: path)) :
    (writeStruct fields extra).valueAt (.key name :: path) =
      (Json.object entries).valueAt (.key name :: path) := by
  have written : (writeStruct fields extra).get? name = o.map write := h.get?_field field
  rw [Json.valueAt_key, Json.valueAt_key, written]
  unfold defaulted at found
  cases slot : (Json.object entries).get? name with
  | none =>
    rw [slot] at found
    obtain rfl : none = o := Option.some.inj found
    rfl
  | some v =>
    rw [slot] at found
    by_cases null : v = .null
    · obtain ⟨k, -, rfl⟩ := here
      subst null
      obtain rfl : none = o := Option.some.inj found
      rfl
    · have inner := (readOption_of_ne_null null).symm.trans found
      obtain ⟨a, value, done⟩ := Option.map_eq_some_iff.mp inner
      subst done
      exact keeps v a value path here (Json.exactAt_key.mp numbers v slot)

/-- A field of a variant keeps what its own reader and writer keep. -/
theorem keeps_tagged {tag variant variant' : String} {j : Json} {content : List (String × Json)}
    (h : Layout declared ((tag, some (.string variant)) :: fields) []) (name : String) {a : α}
    (tagged : readTagged float tag j = some (variant', content)) (other : name ≠ tag)
    (field : SortedMap.get? ((tag, some (.string variant)) :: fields) name =
      some (some (write a)))
    (found : required read content name = some a) (keeps : Keeps float write read kept)
    (here : kept path) (numbers : j.ExactAt float (.key name :: path)) :
    (writeTagged tag variant fields).valueAt (.key name :: path) =
      j.valueAt (.key name :: path) := by
  have slot := get?_readTagged tagged other
  have same : (Json.object content).valueAt (.key name :: path) =
      j.valueAt (.key name :: path) := by
    rw [Json.valueAt_key, Json.valueAt_key, slot]
  rw [← same]
  refine h.keeps_required name field found keeps here ?_
  rw [Json.exactAt_key, slot]
  exact Json.exactAt_key.mp numbers

end Layout

end

end Serde

end VsFleet
