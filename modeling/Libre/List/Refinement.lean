import Libre.List.Link
import Libre.List.Sort

set_option autoImplicit false
set_option linter.unusedSectionVars false

/-!
# The heap's sorting refines the sequence's

On a heap whose lists are the chains of their contents (`Refines`), `list_insert_sorted` and a
pass of `list_sort` change the contents of their list as `Seq.listInsertSorted` and `Seq.sortPass`
say, and `list_sort` with passes to spare sorts them as `Seq.listSort` does. The comparator is
given the elements' data only (`ReadsData`), which the sort never writes.
-/

namespace Libre.LinkedList

variable {E L D : Type} [DecidableEq E] [DecidableEq L] [Fintype E]
variable {st : Heap E L D} {abs : L → List E}

-- A comparator that looks at the elements' data, as every `list_sort_h` of the library does.
def ReadsData (sh : Heap E L D → E → E → Bool) : Prop :=
  ∀ st st' : Heap E L D, (∀ x, (st.le x).data = (st'.le x).data) → sh st = sh st'

theorem Refines.length_le_card (h : Refines st abs) (l : L) : (abs l).length ≤ Fintype.card E :=
  (h.holds l).nodup.length_le_card

/-! ## `list_insert_sorted` -/

-- The scan from `pre`'s last element backwards, with `post` already passed over: the element goes
-- where `Seq.insertScan` puts it among `pre`.
theorem Refines.sortedScan_seq (h : Refines st abs) {l : L} (sh : Heap E L D → E → E → Bool)
    {e : E} (free : (st.le e).list = none) (post : List E) :
    ∀ (r : List E) (fuel : Nat), abs l = r.reverse ++ post → r.length ≤ fuel →
      Refines (LinkedList.sortedScan l sh e fuel st r.head?)
        (Function.update abs l ((Seq.insertScan (sh st) e r).reverse ++ post)) := by
  intro r
  induction r generalizing post with
  | nil =>
    intro fuel split _
    rw [List.head?_nil, LinkedList.sortedScan.eq_1]
    have prepended : Refines (LinkedList.listPrepend st l e (st.le e).data)
        (Function.update abs l (e :: abs l)) := h.listPrepend free
    simpa [Seq.insertScan, split] using prepended
  | cons x r ih =>
    intro fuel split room
    obtain ⟨fuel, rfl⟩ : ∃ k, fuel = k + 1 := ⟨fuel - 1, by simp at room; omega⟩
    rw [List.head?_cons, LinkedList.sortedScan.eq_3]
    have split' : abs l = r.reverse ++ x :: post := by simpa using split
    have holds : Holds st l (r.reverse ++ x :: post) := split' ▸ h.holds l
    by_cases before : sh st x e
    · -- `e` goes right behind `x`
      rw [if_pos before]
      have inserted : Refines (LinkedList.listInsertAfter st l x e (st.le e).data)
          (Function.update abs l (r.reverse ++ x :: e :: post)) := h.listInsertAfter split' free
      simpa [Seq.insertScan, before] using inserted
    · rw [if_neg before, holds.neighbours.1, List.getLast?_reverse]
      have scanned := ih (x :: post) fuel (by simpa using split') (by simp at room; omega)
      simpa [Seq.insertScan, before] using scanned

theorem Refines.listInsertSorted_seq (h : Refines st abs) (l : L) (sh : Heap E L D → E → E → Bool)
    {e : E} (free : (st.le e).list = none) (data : Option D) :
    Refines (LinkedList.listInsertSorted st l sh e data)
      (Function.update abs l
        (Seq.listInsertSorted (sh (st.modLe e fun x => { x with data := data })) e (abs l))) := by
  have h' := h.setData e data
  have free' : ((st.modLe e fun x => { x with data := data }).le e).list = none := by simp [free]
  have tail : ((st.modLe e fun x => { x with data := data }).list l).tail = (abs l).reverse.head? := by
    rw [(h'.holds l).tail, List.head?_reverse]
  have scanned := h'.sortedScan_seq (l := l) sh free' [] (abs l).reverse (Fintype.card E)
    (by simp) (by simpa using h.length_le_card l)
  rw [LinkedList.listInsertSorted, tail]
  simpa [Seq.listInsertSorted] using scanned

/-! ## A pass of `list_sort` -/

-- Moving `x` behind `n` links it again with the data it had.
theorem moveBehind_data (st : Heap E L D) (l : L) (n x y : E) :
    ((LinkedList.listInsertAfter (LinkedList.listUnlink st x) l n x
      ((LinkedList.listUnlink st x).le x).data).le y).data = (st.le y).data := by
  rw [listInsertAfter_data]
  split
  · next same => rw [same.1, listUnlink_data]
  · exact listUnlink_data ..

theorem sortPass_data (l : L) (sh : Heap E L D → E → E → Bool) (fuel : Nat) :
    ∀ (st : Heap E L D) (o : Option E) (sorted : Bool) (y : E),
      ((LinkedList.sortPass l sh fuel st o sorted).1.le y).data = (st.le y).data := by
  induction fuel with
  | zero => intros; rfl
  | succ fuel ih =>
    intro st o sorted y
    cases o with
    | none => rfl
    | some x =>
      rw [LinkedList.sortPass]
      split
      · rfl
      · split
        · exact ih ..
        · rw [ih, moveBehind_data]

-- The pass from `x`, with `ys` before it and `rest` after it: the contents from `x` on become
-- those of `Seq.sortPass`, and the flag records a move.
theorem Refines.sortPass_seq {sh : Heap E L D → E → E → Bool} (reads : ReadsData sh) {l : L}
    (ys : List E) (x : E) (rest : List E) :
    ∀ (st : Heap E L D) (abs : L → List E) (fuel : Nat) (sorted : Bool), Refines st abs →
      abs l = ys ++ x :: rest → rest.length < fuel →
      Refines (LinkedList.sortPass l sh fuel st (some x) sorted).1
          (Function.update abs l (ys ++ (Seq.sortPass (sh st) x rest).1)) ∧
        (LinkedList.sortPass l sh fuel st (some x) sorted).2 = (sorted || (Seq.sortPass (sh st) x rest).2) := by
  induction rest generalizing ys x with
  | nil =>
    intro st abs fuel sorted h split room
    obtain ⟨fuel, rfl⟩ : ∃ k, fuel = k + 1 := ⟨fuel - 1, by omega⟩
    -- `x` is the last element: the pass ends there
    have holds : Holds st l (ys ++ [x]) := split ▸ h.holds l
    have last : (st.le x).next = none := holds.neighbours.2
    rw [LinkedList.sortPass.eq_3, last]
    simp only [Seq.sortPass, Bool.or_false, and_true]
    rwa [← split, Function.update_eq_self]
  | cons n rest ih =>
    intro st abs fuel sorted h split room
    obtain ⟨fuel, rfl⟩ : ∃ k, fuel = k + 1 := ⟨fuel - 1, by omega⟩
    have holds : Holds st l (ys ++ x :: n :: rest) := split ▸ h.holds l
    have next : (st.le x).next = some n := holds.neighbours.2
    rw [LinkedList.sortPass.eq_3, next]
    dsimp only
    by_cases before : sh st x n
    · -- the pass steps on to `n`
      rw [if_pos before]
      have stepped := ih (ys ++ [x]) n st abs fuel sorted h (by simpa using split)
        (by simp at room; omega)
      simpa [Seq.sortPass, before] using stepped
    · -- `x` is unlinked and put back behind `n`, and the pass goes on from `x`
      rw [if_neg before]
      have unlinked := h.listUnlink split
      set st' := LinkedList.listInsertAfter (LinkedList.listUnlink st x) l n x
        ((LinkedList.listUnlink st x).le x).data
      have moved : Refines st' (Function.update (Function.update abs l (ys ++ n :: rest)) l
          (ys ++ n :: x :: rest)) :=
        unlinked.listInsertAfter (Function.update_self ..) (listUnlink_list_self x)
      have same : sh st' = sh st := reads _ _ (moveBehind_data st l n x)
      have stepped := ih (ys ++ [n]) x st' _ fuel true moved (by simp) (by simp at room; omega)
      rw [same] at stepped
      simpa [Seq.sortPass, before] using stepped

theorem Refines.pass_seq {sh : Heap E L D → E → E → Bool} (reads : ReadsData sh)
    (h : Refines st abs) (l : L) :
    Refines (LinkedList.sortPass l sh (Fintype.card E) st (st.list l).head false).1
        (Function.update abs l (Seq.pass (sh st) (abs l)).1) ∧
      (LinkedList.sortPass l sh (Fintype.card E) st (st.list l).head false).2 = (Seq.pass (sh st) (abs l)).2 := by
  rw [(h.holds l).head]
  rcases contents : abs l with _ | ⟨x, rest⟩
  · -- an empty list: no pass at all
    have unchanged : Function.update abs l [] = abs := Function.update_eq_self_iff.mpr contents.symm
    cases hc : Fintype.card E <;> simpa [LinkedList.sortPass, Seq.pass, unchanged] using h
  · have room : rest.length < Fintype.card E := by
      have := h.length_le_card l
      rw [contents] at this
      simp at this
      omega
    simpa [Seq.pass] using Refines.sortPass_seq reads [] x rest st abs _ false h contents room

/-! ## `list_sort` -/

-- With more passes than the contents have inversions, `list_sort` sorts them as the sequence's
-- `list_sort` does: each pass that moves an element takes an inversion away.
theorem Refines.listSort_seq {sh : Heap E L D → E → E → Bool} (reads : ReadsData sh) {l : L}
    {cmp : E → E → Bool} (total : ∀ a b, cmp a b = true ∨ cmp b a = true) (passes : Nat) :
    ∀ (st : Heap E L D) (abs : L → List E), Refines st abs → sh st = cmp →
      Seq.inversions cmp (abs l) < passes →
      Refines (LinkedList.listSort st l sh passes) (Function.update abs l (Seq.listSort cmp total (abs l))) := by
  induction passes with
  | zero => intros; omega
  | succ passes ih =>
    intro st abs h hcmp enough
    obtain ⟨refined, flag⟩ := h.pass_seq reads l
    rw [hcmp] at refined flag
    rw [LinkedList.listSort, Seq.listSort]
    dsimp only
    rw [flag]
    by_cases moved : (Seq.pass cmp (abs l)).2 = true
    · -- another pass, from the contents this one left
      rw [if_pos moved, if_pos moved]
      have same : sh (LinkedList.sortPass l sh (Fintype.card E) st (st.list l).head false).1 = cmp := by
        rw [← hcmp]
        exact reads _ _ (sortPass_data l sh _ st _ false)
      have fewer := Seq.inversions_pass_lt total moved
      have sorted := ih _ _ refined same (by simp; omega)
      simpa using sorted
    · rw [if_neg moved, if_neg moved]
      exact refined

end Libre.LinkedList
