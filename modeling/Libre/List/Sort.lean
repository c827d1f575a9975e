import Libre.Lib.StableSort
import Mathlib.Data.List.Perm.Basic
import Mathlib.Data.List.Count
import Mathlib.Data.List.DropRight
import Mathlib.Data.List.Chain

set_option autoImplicit false

/-!
# Sorting the sequence a list holds

`list_insert_sorted` and `list_sort` from `list/list.c`, as what they do to the sequence of
elements, head first. The C loop of `list_sort` ends only for a total comparator, and the model
takes one; each move of a pass undoes one inversion (`listSort`). For a comparator of keys it is a
stable sort (`list_sort_stable`).
-/

namespace Libre.LinkedList.Seq

variable {α : Type}

-- The scan of `list_insert_sorted`, over the elements from the tail backwards.
def insertScan (sh : α → α → Bool) (e : α) : List α → List α
  | [] => [e]
  | x :: before => if sh x e then e :: x :: before else x :: insertScan sh e before

def listInsertSorted (sh : α → α → Bool) (e : α) (xs : List α) : List α :=
  (insertScan sh e xs.reverse).reverse

-- `list_append`: at the tail.
def listAppend (xs : List α) (e : α) : List α := xs ++ [e]

-- One pass of `list_sort` from the element `le` points at; the flag is `sort`.
def sortPass (sh : α → α → Bool) (x : α) : List α → List α × Bool
  | [] => ([x], false)
  | n :: rest =>
    if sh x n then
      let r := sortPass sh n rest
      (x :: r.1, r.2)
    else
      let r := sortPass sh x rest
      (n :: r.1, true)

def pass (sh : α → α → Bool) : List α → List α × Bool
  | [] => ([], false)
  | x :: rest => sortPass sh x rest

-- Pairs, the earlier first, that `sh` does not put in their order.
def inversions (sh : α → α → Bool) : List α → Nat
  | [] => 0
  | x :: rest => rest.countP (fun y => !sh x y) + inversions sh rest

theorem perm_insertScan (sh : α → α → Bool) (e : α) (xs : List α) :
    (insertScan sh e xs).Perm (e :: xs) := by
  induction xs with
  | nil => rfl
  | cons x before ih =>
    rw [insertScan]
    split
    next => rfl
    next => exact (ih.cons x).trans (List.Perm.swap e x before)

theorem perm_listInsertSorted (sh : α → α → Bool) (e : α) (xs : List α) :
    (listInsertSorted sh e xs).Perm (e :: xs) :=
  (List.reverse_perm _).trans ((perm_insertScan sh e xs.reverse).trans
    ((List.reverse_perm xs).cons e))

theorem perm_sortPass (sh : α → α → Bool) (x : α) (rest : List α) :
    (sortPass sh x rest).1.Perm (x :: rest) := by
  induction rest generalizing x with
  | nil => rfl
  | cons n rest ih =>
    rw [sortPass]
    split
    next => exact (ih n).cons x
    next => exact ((ih x).cons n).trans (List.Perm.swap x n rest)

theorem perm_pass (sh : α → α → Bool) (xs : List α) : (pass sh xs).1.Perm xs := by
  cases xs with
  | nil => rfl
  | cons x rest => exact perm_sortPass sh x rest

section Total

variable {sh : α → α → Bool} (total : ∀ a b, sh a b = true ∨ sh b a = true)
include total

-- Each move takes one inversion away; the rest of the pass takes none away from what it passes.
theorem inversions_sortPass (x : α) (rest : List α) :
    inversions sh (sortPass sh x rest).1 + (sortPass sh x rest).2.toNat ≤
      inversions sh (x :: rest) := by
  induction rest generalizing x with
  | nil => simp [sortPass, inversions]
  | cons n rest ih =>
    have kept := (perm_sortPass sh n rest).countP_eq (fun y => !sh x y)
    have moved := (perm_sortPass sh x rest).countP_eq (fun y => !sh n y)
    by_cases before : sh x n
    next =>
      have := ih n
      simp only [sortPass, before, if_true, inversions] at this kept ⊢
      omega
    next =>
      have after : sh n x = true := (total x n).resolve_left before
      have := ih x
      simp only [sortPass, before, Bool.false_eq_true, if_false, inversions, List.countP_cons,
        after, Bool.not_true, Bool.not_false, if_true, Bool.toNat_true] at this moved ⊢
      omega

theorem inversions_pass_lt {xs : List α} (moved : (pass sh xs).2 = true) :
    inversions sh (pass sh xs).1 < inversions sh xs := by
  cases xs with
  | nil => simp [pass] at moved
  | cons x rest =>
    have := inversions_sortPass total x rest
    rw [pass] at moved ⊢
    rw [moved, Bool.toNat_true] at this
    omega

end Total

-- `list_sort`: passes from the head until one moves nothing.
def listSort (sh : α → α → Bool) (total : ∀ a b, sh a b = true ∨ sh b a = true)
    (xs : List α) : List α :=
  let r := pass sh xs
  if r.2 then listSort sh total r.1 else r.1
termination_by inversions sh xs
decreasing_by exact inversions_pass_lt total (by assumption)

theorem perm_listSort (sh : α → α → Bool) (total : ∀ a b, sh a b = true ∨ sh b a = true)
    (xs : List α) : (listSort sh total xs).Perm xs := by
  fun_induction listSort sh total xs with
  | case1 xs r moved ih => exact ih.trans (perm_pass sh xs)
  | case2 xs r stop => exact perm_pass sh xs

/-! ## What the passes leave -/

theorem sortPass_stop {sh : α → α → Bool} {x : α} {rest : List α}
    (stop : (sortPass sh x rest).2 = false) :
    (sortPass sh x rest).1 = x :: rest ∧ (x :: rest).IsChain (fun a b => sh a b = true) := by
  induction rest generalizing x with
  | nil => exact ⟨rfl, List.isChain_singleton x⟩
  | cons n rest ih =>
    by_cases before : sh x n
    next =>
      simp only [sortPass, before, if_true] at stop ⊢
      obtain ⟨same, chain⟩ := ih stop
      exact ⟨by rw [same], chain.cons_cons before⟩
    next => simp [sortPass, before] at stop

theorem pass_stop {sh : α → α → Bool} {xs : List α} (stop : (pass sh xs).2 = false) :
    (pass sh xs).1 = xs ∧ xs.IsChain (fun a b => sh a b = true) := by
  cases xs with
  | nil => exact ⟨rfl, List.IsChain.nil⟩
  | cons x rest => exact sortPass_stop stop

theorem isChain_listSort (sh : α → α → Bool) (total : ∀ a b, sh a b = true ∨ sh b a = true)
    (xs : List α) : (listSort sh total xs).IsChain (fun a b => sh a b = true) := by
  fun_induction listSort sh total xs with
  | case1 xs r moved ih => exact ih
  | case2 xs r stop =>
    obtain ⟨same, chain⟩ := pass_stop (Bool.eq_false_iff.mpr stop)
    rw [same]
    exact chain

-- Elements that are `sh`-before each other keep their order.
theorem filter_sortPass {sh : α → α → Bool} (p : α → Bool)
    (apart : ∀ a b, p a = true → p b = true → sh a b = true) (x : α) (rest : List α) :
    (sortPass sh x rest).1.filter p = (x :: rest).filter p := by
  induction rest generalizing x with
  | nil => rfl
  | cons n rest ih =>
    by_cases before : sh x n
    next => simp only [sortPass, before, if_true, List.filter_cons, ih n]
    next =>
      have notBoth : ¬(p x = true ∧ p n = true) := fun both => before (apart x n both.1 both.2)
      simp only [sortPass, before, Bool.false_eq_true, if_false, List.filter_cons, ih x]
      by_cases px : p x = true <;> by_cases pn : p n = true <;> simp_all

theorem filter_listSort {sh : α → α → Bool} (total : ∀ a b, sh a b = true ∨ sh b a = true)
    (p : α → Bool) (apart : ∀ a b, p a = true → p b = true → sh a b = true) (xs : List α) :
    (listSort sh total xs).filter p = xs.filter p := by
  have kept : ∀ ys : List α, (pass sh ys).1.filter p = ys.filter p := by
    intro ys
    cases ys with
    | nil => rfl
    | cons y rest => exact filter_sortPass p apart y rest
  fun_induction listSort sh total xs with
  | case1 xs r moved ih => exact ih.trans (kept xs)
  | case2 xs r stop => exact kept xs

/-! ## Where the scan of `list_insert_sorted` puts the element -/

theorem insertScan_eq (sh : α → α → Bool) (e : α) (rs : List α) :
    insertScan sh e rs =
      rs.takeWhile (fun x => !sh x e) ++ e :: rs.dropWhile (fun x => !sh x e) := by
  induction rs with
  | nil => rfl
  | cons x before ih =>
    by_cases found : sh x e
    next => simp [insertScan, found]
    next => simp [insertScan, found, ih]

theorem listInsertSorted_eq (sh : α → α → Bool) (e : α) (xs : List α) :
    listInsertSorted sh e xs =
      xs.rdropWhile (fun x => !sh x e) ++ e :: xs.rtakeWhile (fun x => !sh x e) := by
  simp [listInsertSorted, insertScan_eq, List.rdropWhile, List.rtakeWhile]

theorem foldl_listAppend (xs es : List α) : es.foldl listAppend xs = xs ++ es := by
  induction es generalizing xs with
  | nil => simp
  | cons e es ih => simp [ih, listAppend]

/-! ## Sorting by a key -/

section Keys

open StableSort

variable {β : Type} [Preorder β] [DecidableLE β] [Std.Total (α := β) (· ≤ ·)] {key : α → β}

theorem sorted_listSort (xs : List α) : Sorted key (listSort (keyLe key) keyLe_total xs) := by
  have chain : (listSort (keyLe key) keyLe_total xs).IsChain (fun a b => key a ≤ key b) := by
    simpa [keyLe] using isChain_listSort (keyLe key) keyLe_total xs
  -- neighbours in order are all in order, `≤` being transitive
  have : Trans (fun a b : α => key a ≤ key b) (fun a b => key a ≤ key b)
      (fun a b => key a ≤ key b) := ⟨le_trans⟩
  exact chain.pairwise

theorem sameTies_listSort (xs : List α) :
    SameTies key (listSort (keyLe key) keyLe_total xs) xs := fun k =>
  filter_listSort keyLe_total (tied key k)
    (fun _ _ ha hb => decide_eq_true (le_of_tied ha hb)) xs

theorem listInsertSorted_sorted {xs : List α} (hs : Sorted key xs) (e : α) :
    Sorted key (listInsertSorted (keyLe key) e xs) ∧
      SameTies key (listInsertSorted (keyLe key) e xs) (xs ++ [e]) := by
  rw [listInsertSorted_eq]
  set p : α → Bool := fun x => !keyLe key x e
  have split := List.rdropWhile_append_rtakeWhile (p := p) (l := xs)
  have after : ∀ z ∈ xs.rtakeWhile p, key e ≤ key z ∧ ¬key z ≤ key e := by
    intro z hz
    have gt : ¬key z ≤ key e := by simpa [p, keyLe] using List.mem_rtakeWhile_imp hz
    exact ⟨(total_of (· ≤ ·) (key e) (key z)).resolve_right gt, gt⟩
  have parts := List.pairwise_append.mp (split ▸ hs : Sorted key _)
  have before : ∀ y ∈ xs.rdropWhile p, key y ≤ key e := by
    intro y hy
    have nonempty : xs.rdropWhile p ≠ [] := List.ne_nil_of_mem hy
    have last : key ((xs.rdropWhile p).getLast nonempty) ≤ key e := by
      simpa [p, keyLe] using List.rdropWhile_last_not p xs nonempty
    rw [← List.dropLast_append_getLast nonempty] at hy parts
    rcases List.mem_append.mp hy with front | is_last
    · exact (List.pairwise_append.mp parts.1).2.2 y front _ (List.mem_singleton_self _) |>.trans last
    · rw [List.mem_singleton.mp is_last]
      exact last
  refine ⟨List.pairwise_append.mpr ⟨parts.1, ?_, ?_⟩, ?_⟩
  · exact List.pairwise_cons.mpr ⟨fun z hz => (after z hz).1, parts.2.1⟩
  · intro y hy b hb
    rcases List.mem_cons.mp hb with rfl | hb
    · exact before y hy
    · exact parts.2.2 y hy b hb
  · -- a tied class holds `e` or something after its place, not both
    intro k
    conv => rhs; rw [← split]
    simp only [List.filter_append, List.filter_cons, List.filter_nil, List.append_assoc]
    by_cases class_e : tied key k e = true
    · have none : (xs.rtakeWhile p).filter (tied key k) = [] :=
        List.filter_eq_nil_iff.mpr fun z hz tz => (after z hz).2 (le_of_tied tz class_e)
      simp [class_e, none]
    · simp [class_e]

theorem foldl_listInsertSorted {xs : List α} (hs : Sorted key xs) (es : List α) :
    Sorted key (es.foldl (fun l e => listInsertSorted (keyLe key) e l) xs) ∧
      SameTies key (es.foldl (fun l e => listInsertSorted (keyLe key) e l) xs) (xs ++ es) := by
  induction es generalizing xs with
  | nil => exact ⟨hs, by simpa using SameTies.refl xs⟩
  | cons e es ih =>
    obtain ⟨sorted, ties⟩ := listInsertSorted_sorted hs e
    obtain ⟨sorted', ties'⟩ := ih sorted
    refine ⟨sorted', ties'.trans ?_⟩
    simpa using ties.append (SameTies.refl es)

theorem list_sort_stable (key : α → β) (xs es : List α) :
    (listSort (keyLe key) keyLe_total xs).Perm xs ∧
      Sorted key (listSort (keyLe key) keyLe_total xs) ∧
      SameTies key (listSort (keyLe key) keyLe_total xs) xs ∧
      es.foldl (fun l e => listInsertSorted (keyLe key) e l) [] =
        listSort (keyLe key) keyLe_total (es.foldl listAppend []) := by
  refine ⟨perm_listSort _ _ xs, sorted_listSort xs, sameTies_listSort xs, ?_⟩
  -- both are sorted and keep each tied class in the order of `es`
  obtain ⟨inserted, insertedTies⟩ := foldl_listInsertSorted (List.Pairwise.nil : Sorted key []) es
  rw [foldl_listAppend, List.nil_append]
  exact eq_of_sameTies inserted (sorted_listSort es)
    (by simpa using insertedTies.trans (sameTies_listSort es).symm)

end Keys

def tiedPairs : List (Nat × Nat) := [(2, 0), (1, 1), (2, 2), (1, 3)]

open StableSort in
theorem list_sort_stable_tiedPairs :
    (listSort (keyLe Prod.fst) keyLe_total tiedPairs).Perm tiedPairs ∧
      Sorted Prod.fst (listSort (keyLe Prod.fst) keyLe_total tiedPairs) ∧
      SameTies Prod.fst (listSort (keyLe Prod.fst) keyLe_total tiedPairs) tiedPairs ∧
      tiedPairs.foldl (fun l e => listInsertSorted (keyLe Prod.fst) e l) [] =
        listSort (keyLe Prod.fst) keyLe_total (tiedPairs.foldl listAppend []) :=
  list_sort_stable Prod.fst tiedPairs tiedPairs

open StableSort in
example : listSort (keyLe Prod.fst) keyLe_total tiedPairs = [(1, 1), (1, 3), (2, 0), (2, 2)] := by
  decide +kernel

end Libre.LinkedList.Seq
