import Mathlib

set_option autoImplicit false

/-!
# Inserting into a list sorted by a key

A queue kept sorted by a key, where a new entry goes after every entry with the same key, is
`List.orderedInsert` for the strict comparison of keys. A program finds the place by a scan,
either forwards for the first entry with a greater key or backwards for the last entry with a key
no greater than the new one; the lemmas here say that both scans find the place `orderedInsert`
uses, and that the insertion keeps the list sorted.
-/

namespace SortedInsert

variable {α β : Type} [LinearOrder β] (key : α → β)

/-- Entries come in order of their keys. -/
def Sorted (xs : List α) : Prop := xs.Pairwise fun a b => key a ≤ key b

/-- `a` goes in front of the first entry whose key is greater than its own. -/
def insert (a : α) (xs : List α) : List α := xs.orderedInsert (fun a b => key a < key b) a

variable {key}

theorem insert_append {a : α} {ys : List α} (zs : List α) (before : ∀ y ∈ ys, ¬ key a < key y) :
    insert key a (ys ++ zs) = ys ++ insert key a zs := by
  induction ys with
  | nil => rfl
  | cons y ys ih =>
    rw [List.cons_append, insert, List.orderedInsert_cons, if_neg (before y (by simp))]
    rw [← insert, ih fun z hz => before z (List.mem_cons_of_mem y hz), List.cons_append]

theorem insert_of_lt {a : α} {zs : List α} (after : ∀ z ∈ zs.head?, key a < key z) :
    insert key a zs = a :: zs := by
  cases zs with
  | nil => rfl
  | cons z zs => rw [insert, List.orderedInsert_cons, if_pos (after z rfl)]

theorem mem_insert {a b : α} {xs : List α} : b ∈ insert key a xs ↔ b = a ∨ b ∈ xs :=
  List.mem_orderedInsert _

theorem Sorted.insert {xs : List α} (h : Sorted key xs) (a : α) : Sorted key (insert key a xs) := by
  induction xs with
  | nil => exact List.pairwise_singleton _ a
  | cons b xs ih =>
    have tail := List.pairwise_cons.mp h
    rw [SortedInsert.insert, List.orderedInsert_cons]
    split
    · rename_i lt
      refine List.Pairwise.cons (fun c hc => ?_) h
      rcases List.mem_cons.mp hc with rfl | hc
      · exact lt.le
      · exact lt.le.trans (tail.1 c hc)
    · rename_i ge
      refine List.Pairwise.cons (fun c hc => ?_) (ih tail.2)
      rcases mem_insert.mp hc with rfl | hc
      · exact not_lt.mp ge
      · exact tail.1 c hc

/-! ### Where the scans put the new entry -/

/-- Scanning forwards: in front of the first entry with a greater key. -/
theorem insert_before {a b : α} {ys zs : List α} (before : ∀ y ∈ ys, ¬ key a < key y)
    (lt : key a < key b) : insert key a (ys ++ b :: zs) = ys ++ a :: b :: zs := by
  rw [insert_append _ before, insert_of_lt (by simpa using lt)]

theorem insert_last {a : α} {xs : List α} (before : ∀ y ∈ xs, ¬ key a < key y) :
    insert key a xs = xs ++ [a] := by
  rw [← List.append_nil xs, insert_append _ before, List.append_nil]
  rfl

/-- Scanning backwards: behind the last entry whose key is no greater. -/
theorem insert_after {a b : α} {ys zs : List α} (sorted : Sorted key (ys ++ b :: zs))
    (le : key b ≤ key a) (after : ∀ z ∈ zs, key a < key z) :
    insert key a (ys ++ b :: zs) = ys ++ b :: a :: zs := by
  have front : ∀ y ∈ ys, ¬ key a < key y := fun y hy =>
    not_lt.mpr ((List.pairwise_append.mp sorted).2.2 y hy b (by simp) |>.trans le)
  rw [insert_append _ front, insert, List.orderedInsert_cons, if_neg (not_lt.mpr le), ← insert,
    insert_of_lt fun z hz => after z (List.mem_of_head? hz)]

theorem insert_first {a : α} {xs : List α} (after : ∀ z ∈ xs, key a < key z) :
    insert key a xs = a :: xs :=
  insert_of_lt fun z hz => after z (List.mem_of_head? hz)

theorem find?_reverse_eq_some {p : α → Bool} {xs : List α} {b : α}
    (found : xs.reverse.find? p = some b) :
    p b ∧ ∃ ys zs, xs = ys ++ b :: zs ∧ ∀ z ∈ zs, ¬ p z := by
  obtain ⟨hb, as, bs, split, skipped⟩ := List.find?_eq_some_iff_append.mp found
  refine ⟨hb, bs.reverse, as.reverse, ?_, fun z hz => by simpa using skipped z (by simpa using hz)⟩
  rw [← List.reverse_reverse xs, split]
  simp

end SortedInsert
