import Mathlib.Order.Basic
import Mathlib.Data.List.Pairwise

set_option autoImplicit false

/-!
# Stable sorting by a key

Elements are sorted by a key with a total preorder. A sort is stable when every class of tied
keys comes out in the order it went in. A sorted list is determined by that order within each
class (`eq_of_sameTies`), so any two ways of building a sorted list that keep the classes in the
same order build the same list.
-/

namespace StableSort

variable {α β : Type} [Preorder β] [DecidableLE β] (key : α → β)

-- Entries come in order of their keys.
def Sorted (xs : List α) : Prop := xs.Pairwise fun a b => key a ≤ key b

-- The key of `a` is tied with `k`.
def tied (k : β) (a : α) : Bool := decide (key a ≤ k ∧ k ≤ key a)

-- Every class of tied keys comes in the same order in both lists.
def SameTies (xs ys : List α) : Prop := ∀ k, xs.filter (tied key k) = ys.filter (tied key k)

-- The comparator that puts `a` before `b` when its key is no greater.
def keyLe (a b : α) : Bool := decide (key a ≤ key b)

variable {key}

theorem keyLe_total [Std.Total (α := β) (· ≤ ·)] (a b : α) :
    keyLe key a b = true ∨ keyLe key b a = true := by
  simpa [keyLe] using total_of (· ≤ ·) (key a) (key b)

theorem tied_self (a : α) : tied key (key a) a = true := by
  simp [tied]

theorem le_of_tied {k : β} {a b : α} (ha : tied key k a = true) (hb : tied key k b = true) :
    key a ≤ key b := by
  simp only [tied, decide_eq_true_eq] at ha hb
  exact ha.1.trans hb.2

theorem SameTies.refl (xs : List α) : SameTies key xs xs := fun _ => rfl

theorem SameTies.symm {xs ys : List α} (h : SameTies key xs ys) : SameTies key ys xs :=
  fun k => (h k).symm

theorem SameTies.trans {xs ys zs : List α} (h : SameTies key xs ys) (h' : SameTies key ys zs) :
    SameTies key xs zs := fun k => (h k).trans (h' k)

theorem SameTies.append {xs xs' ys ys' : List α} (h : SameTies key xs xs')
    (h' : SameTies key ys ys') : SameTies key (xs ++ ys) (xs' ++ ys') := by
  intro k
  rw [List.filter_append, List.filter_append, h k, h' k]

theorem SameTies.mem {xs ys : List α} (h : SameTies key xs ys) {a : α} (mem : a ∈ xs) : a ∈ ys := by
  have : a ∈ xs.filter (tied key (key a)) := List.mem_filter.mpr ⟨mem, tied_self a⟩
  rw [h] at this
  exact (List.mem_filter.mp this).1

theorem tied_heads {a b : α} {s t : List α} (hs : Sorted key (a :: s)) (ht : Sorted key (b :: t))
    (h : SameTies key (a :: s) (b :: t)) : tied key (key a) b = true := by
  have ab : key b ≤ key a := by
    rcases List.mem_cons.mp (h.mem (List.mem_cons_self)) with same | later
    · exact same ▸ le_rfl
    · exact List.rel_of_pairwise_cons ht later
  have ba : key a ≤ key b := by
    rcases List.mem_cons.mp (h.symm.mem (List.mem_cons_self)) with same | later
    · exact same ▸ le_rfl
    · exact List.rel_of_pairwise_cons hs later
  simp [tied, ab, ba]

theorem eq_of_sameTies {s t : List α} (hs : Sorted key s) (ht : Sorted key t)
    (h : SameTies key s t) : s = t := by
  induction s generalizing t with
  | nil =>
    cases t with
    | nil => rfl
    | cons b t => exact absurd (h.symm.mem List.mem_cons_self) List.not_mem_nil
  | cons a s ih =>
    cases t with
    | nil => exact absurd (h.mem List.mem_cons_self) List.not_mem_nil
    | cons b t =>
      have head : a = b := by
        have := h (key a)
        simp only [List.filter_cons, tied_self, if_true, tied_heads hs ht h] at this
        exact (List.cons.inj this).1
      subst head
      have tails : SameTies key s t := by
        intro k
        have := h k
        simp only [List.filter_cons] at this
        split at this
        · exact (List.cons.inj this).2
        · exact this
      rw [ih (List.Pairwise.of_cons hs) (List.Pairwise.of_cons ht) tails]

end StableSort
