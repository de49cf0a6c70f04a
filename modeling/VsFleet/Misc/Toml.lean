import VsFleet.Misc.SortedMap
import Mathlib.Data.String.Basic

/-!
# TOML

The values of the toml crate (`toml::Value`). A table (`toml::Table`) is a map in key order.
-/

namespace VsFleet

/-- `toml::Value`; a float and a datetime are their printed tokens. -/
inductive Toml where
  | string (s : String)
  | integer (i : Int)
  | float (token : String)
  | boolean (b : Bool)
  | datetime (token : String)
  | array (items : List Toml)
  | table (entries : List (String × Toml))

/-- `toml::Table`, by its entries. -/
abbrev TomlTable := List (String × Toml)

namespace Toml

/-- `Value::get` with a string. -/
def get? : Toml → String → Option Toml
  | .table entries, key => SortedMap.get? entries key
  | _, _ => none

/-- The text of a string. -/
def asString : Toml → Option String
  | .string s => some s
  | _ => none

/-- The value of a boolean. -/
def asBool : Toml → Option Bool
  | .boolean b => some b
  | _ => none

/-- The items of an array. -/
def asArray : Toml → Option (List Toml)
  | .array items => some items
  | _ => none

/-- Every table is in key order. -/
inductive Ordered : Toml → Prop where
  | string (s : String) : Ordered (.string s)
  | integer (i : Int) : Ordered (.integer i)
  | float (token : String) : Ordered (.float token)
  | boolean (b : Bool) : Ordered (.boolean b)
  | datetime (token : String) : Ordered (.datetime token)
  | array {items : List Toml} (each : ∀ item ∈ items, Ordered item) : Ordered (.array items)
  | table {entries : TomlTable} (sorted : SortedMap.Sorted entries)
      (each : ∀ e ∈ entries, Ordered e.2) : Ordered (.table entries)

mutual

/-- `Ordered` is decidable, by recursion on the value. -/
def decideOrdered : (t : Toml) → Decidable t.Ordered
  | .string s => isTrue (.string s)
  | .integer i => isTrue (.integer i)
  | .float token => isTrue (.float token)
  | .boolean b => isTrue (.boolean b)
  | .datetime token => isTrue (.datetime token)
  | .array items =>
    match decideItems items with
    | isTrue each => isTrue (.array each)
    | isFalse not => isFalse (fun h => match h with | .array each => not each)
  | .table entries =>
    match (inferInstanceAs (Decidable (entries.Pairwise (fun a b => a.1 < b.1))) :
        Decidable (SortedMap.Sorted entries)), decideEntries entries with
    | isTrue sorted, isTrue each => isTrue (.table sorted each)
    | isFalse not, _ => isFalse (fun h => match h with | .table sorted _ => not sorted)
    | _, isFalse not => isFalse (fun h => match h with | .table _ each => not each)

/-- The same for the items of an array. -/
def decideItems : (items : List Toml) → Decidable (∀ item ∈ items, item.Ordered)
  | [] => isTrue (List.forall_mem_nil _)
  | item :: items =>
    have := decideOrdered item
    have := decideItems items
    decidable_of_iff _ List.forall_mem_cons.symm

/-- The same for the entries of a table. -/
def decideEntries : (entries : List (String × Toml)) → Decidable (∀ e ∈ entries, e.2.Ordered)
  | [] => isTrue (List.forall_mem_nil _)
  | entry :: entries =>
    have := decideEntry entry
    have := decideEntries entries
    decidable_of_iff _ List.forall_mem_cons.symm

/-- The same for one entry. -/
def decideEntry : (e : String × Toml) → Decidable e.2.Ordered
  | (_, v) => decideOrdered v

end

instance : DecidablePred Ordered := decideOrdered

theorem ordered_array_nil : (Toml.array []).Ordered := .array (by simp)

theorem ordered_table_nil : (Toml.table []).Ordered := .table List.Pairwise.nil (by simp)

theorem Ordered.insert {entries : TomlTable} {key : String} {v : Toml}
    (h : Ordered (.table entries)) (value : Ordered v) :
    Ordered (.table (SortedMap.insert key v entries)) := by
  cases h with
  | table sorted each =>
    refine .table sorted.insert (fun e mem => ?_)
    rcases SortedMap.mem_insert mem with rfl | old
    · exact value
    · exact each e old

/-- What is under a key of an ordered table, or a default in its place, is ordered. -/
theorem Ordered.getD {entries : TomlTable} {key : String} {default : Toml}
    (h : Ordered (.table entries)) (ordered : Ordered default) :
    Ordered ((SortedMap.get? entries key).getD default) := by
  cases h with
  | table sorted each =>
    cases found : SortedMap.get? entries key with
    | none => exact ordered
    | some v =>
      obtain ⟨e, there, rfl⟩ := Option.map_eq_some_iff.mp found
      exact each e (List.mem_of_find?_eq_some there)

end Toml

end VsFleet
