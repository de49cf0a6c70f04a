import Mathlib.Data.List.Rotate

/-!
# Going around a list

A walk that goes around a list passes, in as many steps as the list is long, all of it once, in its
order. What is kept of a turned list is what is kept of the list, turned.
-/

namespace VsFleet

section Cycle

variable {α : Type}

/-- A search from a place on, around the end, is one in the turned range. -/
theorem rotate_range (n start : Nat) :
    (List.range n).rotate start = (List.range n).map (fun i => (start + i) % n) := by
  refine List.ext_getElem (by simp) (fun i hi hi' => ?_)
  simp [List.getElem_rotate, Nat.add_comm]

/-- A turned list filtered is the filtered list, turned by as many places as were kept. -/
theorem filter_rotate (p : α → Bool) (l : List α) (m : Nat) :
    (l.rotate m).filter p = (l.filter p).rotate ((l.take (m % l.length)).filter p).length := by
  have split : l.filter p =
      (l.take (m % l.length)).filter p ++ (l.drop (m % l.length)).filter p := by
    rw [← List.filter_append, List.take_append_drop]
  rw [List.rotate_eq_drop_append_take_mod, List.filter_append, split, List.rotate_append_length_eq]

theorem head?_rotate_mod (u : List α) (r : Nat) : (u.rotate r).head? = u[r % u.length]? := by
  cases u with
  | nil => simp
  | cons a u =>
    have inside : r % (a :: u).length < (a :: u).length := Nat.mod_lt _ (Nat.succ_pos u.length)
    rw [← List.rotate_mod, List.head?_rotate inside]

/-- A walk around a list passes, from every step on, all of it in its order. -/
theorem window_eq_rotate {u : List α} {walk : Nat → Option α} {j : Nat}
    (around : ∀ s, walk s = u[(j + s) % u.length]?) (s : Nat) :
    (List.range u.length).map (fun i => walk (s + i)) = (u.rotate (j + s)).map some := by
  refine List.ext_getElem (by simp) (fun i hi hi' => ?_)
  have lt : i < u.length := by simpa using hi
  have inside : (j + (s + i)) % u.length < u.length := Nat.mod_lt _ (Nat.zero_lt_of_lt lt)
  simp only [List.getElem_map, List.getElem_range, around, List.getElem_rotate,
    List.getElem?_eq_getElem inside, Option.some.injEq]
  congr 2
  omega

end Cycle

end VsFleet
