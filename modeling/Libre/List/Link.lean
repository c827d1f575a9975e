import Mathlib

set_option autoImplicit false
set_option linter.unusedSectionVars false

/-!
# Linked lists

`list/list.c`: an intrusive doubly-linked list. Elements and lists are the addresses of finite
types `E` and `L`, and the heap maps each to its fields; a loop that follows `next` has
`Fintype.card E` rounds. `list_sort` runs a given number of passes, and the destructor `list_flush`
reaches is taken to leave the lists alone.
-/

namespace Libre.LinkedList

structure Le (E L D : Type) where
  prev : Option E
  next : Option E
  list : Option L
  data : Option D

structure Head (E : Type) where
  head : Option E
  tail : Option E

structure Heap (E L D : Type) where
  le : E → Le E L D
  list : L → Head E

variable {E L D : Type} [DecidableEq E] [DecidableEq L]

namespace Heap

def modLe (st : Heap E L D) (e : E) (f : Le E L D → Le E L D) : Heap E L D :=
  { st with le := Function.update st.le e (f (st.le e)) }

def modList (st : Heap E L D) (l : L) (f : Head E → Head E) : Heap E L D :=
  { st with list := Function.update st.list l (f (st.list l)) }

@[simp] theorem modLe_le (st : Heap E L D) (e : E) (f : Le E L D → Le E L D) (x : E) :
    (st.modLe e f).le x = if x = e then f (st.le e) else st.le x := by
  simp [modLe, Function.update_apply]

@[simp] theorem modLe_list (st : Heap E L D) (e : E) (f : Le E L D → Le E L D) :
    (st.modLe e f).list = st.list := rfl

@[simp] theorem modList_list (st : Heap E L D) (l : L) (f : Head E → Head E) (x : L) :
    (st.modList l f).list x = if x = l then f (st.list l) else st.list x := by
  simp [modList, Function.update_apply]

@[simp] theorem modList_le (st : Heap E L D) (l : L) (f : Head E → Head E) :
    (st.modList l f).le = st.le := rfl

@[simp] theorem ite_modList_le (c : Prop) {_ : Decidable c} (st : Heap E L D) (l : L)
    (f : Head E → Head E) : (if c then st.modList l f else st).le = st.le := by
  split <;> rfl

end Heap

/-! ## The operations of `list.c` -/

def listInit (st : Heap E L D) (l : L) : Heap E L D :=
  st.modList l fun _ => ⟨none, none⟩

def listAppend (st : Heap E L D) (l : L) (e : E) (data : Option D) : Heap E L D :=
  if (st.le e).list.isSome then st
  else
    let tail := (st.list l).tail
    let st := st.modLe e fun x => { x with prev := tail, next := none, list := some l, data := data }
    let st := if (st.list l).head = none then st.modList l fun h => { h with head := some e } else st
    let st := match tail with
      | some t => st.modLe t fun x => { x with next := some e }
      | none => st
    st.modList l fun h => { h with tail := some e }

def listPrepend (st : Heap E L D) (l : L) (e : E) (data : Option D) : Heap E L D :=
  if (st.le e).list.isSome then st
  else
    let head := (st.list l).head
    let st := st.modLe e fun x => { x with prev := none, next := head, list := some l, data := data }
    let st := match head with
      | some h => st.modLe h fun x => { x with prev := some e }
      | none => st
    let st := if (st.list l).tail = none then st.modList l fun h => { h with tail := some e } else st
    st.modList l fun h => { h with head := some e }

/-- `list_insert_before(list, a, e, data)`. -/
def listInsertBefore (st : Heap E L D) (l : L) (a e : E) (data : Option D) : Heap E L D :=
  if (st.le e).list.isSome then st
  else
    let st := match (st.le a).prev with
      | some p => st.modLe p fun x => { x with next := some e }
      | none =>
        if (st.list l).head = some a then st.modList l fun h => { h with head := some e } else st
    let st := st.modLe e fun x =>
      { x with prev := (st.le a).prev, next := some a, list := some l, data := data }
    st.modLe a fun x => { x with prev := some e }

/-- `list_insert_after(list, a, e, data)`. -/
def listInsertAfter (st : Heap E L D) (l : L) (a e : E) (data : Option D) : Heap E L D :=
  if (st.le e).list.isSome then st
  else
    let st := match (st.le a).next with
      | some n => st.modLe n fun x => { x with prev := some e }
      | none =>
        if (st.list l).tail = some a then st.modList l fun h => { h with tail := some e } else st
    let st := st.modLe e fun x =>
      { x with prev := some a, next := (st.le a).next, list := some l, data := data }
    st.modLe a fun x => { x with next := some e }

def listUnlink (st : Heap E L D) (e : E) : Heap E L D :=
  match (st.le e).list with
  | none => st
  | some l =>
    let st := match (st.le e).prev with
      | some p => st.modLe p fun x => { x with next := (st.le e).next }
      | none => st.modList l fun h => { h with head := (st.le e).next }
    let st := match (st.le e).next with
      | some n => st.modLe n fun x => { x with prev := (st.le e).prev }
      | none => st.modList l fun h => { h with tail := (st.le e).prev }
    st.modLe e fun x => { x with next := none, prev := none, list := none }

section Loops

variable [Fintype E]

/-- The backward scan of `list_insert_sorted`: after the last element that `sh` puts before `e`,
else at the front. -/
def sortedScan (l : L) (sh : Heap E L D → E → E → Bool) (e : E) :
    Nat → Heap E L D → Option E → Heap E L D
  | _, st, none => listPrepend st l e (st.le e).data
  | 0, st, some _ => st
  | fuel + 1, st, some x =>
    if sh st x e then listInsertAfter st l x e (st.le e).data
    else sortedScan l sh e fuel st (st.le x).prev

def listInsertSorted (st : Heap E L D) (l : L) (sh : Heap E L D → E → E → Bool) (e : E)
    (data : Option D) : Heap E L D :=
  let st := st.modLe e fun x => { x with data := data }
  sortedScan l sh e (Fintype.card E) st (st.list l).tail

/-- One pass of `list_sort`: an element the comparator does not put before its successor is
moved behind it and compared again. The flag says whether the pass moved anything. -/
def sortPass (l : L) (sh : Heap E L D → E → E → Bool) :
    Nat → Heap E L D → Option E → Bool → Heap E L D × Bool
  | 0, st, _, sorted => (st, sorted)
  | _ + 1, st, none, sorted => (st, sorted)
  | fuel + 1, st, some x, sorted =>
    match (st.le x).next with
    | none => (st, sorted)
    | some n =>
      if sh st x n then sortPass l sh fuel st (some n) sorted
      else
        let st := listUnlink st x
        sortPass l sh fuel (listInsertAfter st l n x (st.le x).data) (some x) true

def listSort (st : Heap E L D) (l : L) (sh : Heap E L D → E → E → Bool) :
    Nat → Heap E L D
  | 0 => st
  | passes + 1 =>
    let (st, sort) := sortPass l sh (Fintype.card E) st (st.list l).head false
    if sort then listSort st l sh passes else st

def flushLoop : Nat → Heap E L D → Option E → Heap E L D
  | 0, st, _ => st
  | _ + 1, st, none => st
  | fuel + 1, st, some x =>
    let next := (st.le x).next
    let st := (listUnlink st x).modLe x fun y => { y with data := none }
    flushLoop fuel st next

def listFlush (st : Heap E L D) (l : L) : Heap E L D :=
  listInit (flushLoop (Fintype.card E) st (st.list l).head) l

def clearLoop : Nat → Heap E L D → Option E → Heap E L D
  | 0, st, _ => st
  | _ + 1, st, none => st
  | fuel + 1, st, some x =>
    let next := (st.le x).next
    let st := st.modLe x fun y => { y with list := none, prev := none, next := none, data := none }
    clearLoop fuel st next

def listClear (st : Heap E L D) (l : L) : Heap E L D :=
  listInit (clearLoop (Fintype.card E) st (st.list l).head) l

/-- The forward loop of `list_apply`: the next element is read before the handler runs. -/
def applyNext (st : Heap E L D) (ah : Heap E L D → E → Bool) : Nat → Option E → Option E
  | 0, _ => none
  | _ + 1, none => none
  | fuel + 1, some x => if ah st x then some x else applyNext st ah fuel (st.le x).next

def applyPrev (st : Heap E L D) (ah : Heap E L D → E → Bool) : Nat → Option E → Option E
  | 0, _ => none
  | _ + 1, none => none
  | fuel + 1, some x => if ah st x then some x else applyPrev st ah fuel (st.le x).prev

def listApply (st : Heap E L D) (l : L) (fwd : Bool) (ah : Heap E L D → E → Bool) : Option E :=
  if fwd then applyNext st ah (Fintype.card E) (st.list l).head
  else applyPrev st ah (Fintype.card E) (st.list l).tail

def countLoop (st : Heap E L D) : Nat → Option E → UInt32 → UInt32
  | 0, _, n => n
  | _ + 1, none, n => n
  | fuel + 1, some x, n => countLoop st fuel (st.le x).next (n + 1)

def listCount (st : Heap E L D) (l : L) : UInt32 :=
  countLoop st (Fintype.card E) (st.list l).head 0

end Loops

/-! ## What a list is

`Refines st abs`: every list `l` holds the elements `abs l`, linked in order through `next`, with
`prev` the way back, its head and tail the ends, and exactly these elements pointing at `l`; an
element in no list points nowhere. -/

section Representation

/-- `xs` is linked in order in `st`: each element's `prev` and `next` name its neighbours, `b`
before the first and `a` after the last. -/
def Linked (st : Heap E L D) : Option E → List E → Option E → Prop
  | _, [], _ => True
  | b, x :: xs, a => (st.le x).prev = b ∧ (st.le x).next = xs.head?.or a ∧ Linked st (some x) xs a

structure Holds (st : Heap E L D) (l : L) (xs : List E) : Prop where
  head : (st.list l).head = xs.head?
  tail : (st.list l).tail = xs.getLast?
  nodup : xs.Nodup
  linked : Linked st none xs none
  mem : ∀ e, (st.le e).list = some l ↔ e ∈ xs

structure Refines (st : Heap E L D) (abs : L → List E) : Prop where
  holds : ∀ l, Holds st l (abs l)
  free : ∀ e, (st.le e).list = none → (st.le e).prev = none ∧ (st.le e).next = none

/-- The heap is well formed: every list it holds is the doubly linked chain of some contents. -/
def Good (st : Heap E L D) : Prop := ∃ abs, Refines st abs

/-- The link fields of `x` are the same in both heaps. -/
structure Same (st st' : Heap E L D) (x : E) : Prop where
  prev : (st'.le x).prev = (st.le x).prev
  next : (st'.le x).next = (st.le x).next
  list : (st'.le x).list = (st.le x).list

theorem Same.of_eq {st st' : Heap E L D} {x : E} (h : st'.le x = st.le x) : Same st st' x :=
  ⟨by rw [h], by rw [h], by rw [h]⟩

variable {st st' : Heap E L D}

@[simp] theorem linked_nil (b a : Option E) : Linked st b [] a := trivial

theorem linked_cons {b a : Option E} {x : E} {xs : List E} :
    Linked st b (x :: xs) a ↔
      (st.le x).prev = b ∧ (st.le x).next = xs.head?.or a ∧ Linked st (some x) xs a := Iff.rfl

theorem linked_append {b a : Option E} (xs ys : List E) :
    Linked st b (xs ++ ys) a ↔
      Linked st b xs (ys.head?.or a) ∧ Linked st (xs.getLast?.or b) ys a := by
  induction xs generalizing b with
  | nil => simp
  | cons x xs ih =>
    have last : (x :: xs).getLast?.or b = xs.getLast?.or (some x) := by
      cases xs <;> simp [List.getLast?_cons]
    rw [List.cons_append, linked_cons, linked_cons, ih, last, List.head?_append, Option.or_assoc]
    tauto

theorem Linked.frame {b a : Option E} {xs : List E} (h : Linked st b xs a)
    (same : ∀ x ∈ xs, Same st st' x) : Linked st' b xs a := by
  induction xs generalizing b with
  | nil => trivial
  | cons x xs ih =>
    obtain ⟨prev, next, rest⟩ := h
    have here := same x (by simp)
    exact ⟨here.prev.trans prev, here.next.trans next,
      ih rest fun y hy => same y (List.mem_cons_of_mem x hy)⟩

theorem Linked.relink_last {b a a' : Option E} {xs : List E} (h : Linked st b xs a)
    (nodup : xs.Nodup) (same : ∀ x ∈ xs, xs.getLast? ≠ some x → Same st st' x)
    (last : ∀ p, xs.getLast? = some p →
      (st'.le p).prev = (st.le p).prev ∧ (st'.le p).next = a') : Linked st' b xs a' := by
  rcases List.eq_nil_or_concat' xs with rfl | ⟨ys, p, rfl⟩
  · trivial
  have ends : (ys ++ [p]).getLast? = some p := List.getLast?_concat
  have away : ∀ x ∈ ys, x ≠ p := fun x hx => (List.nodup_append.mp nodup).2.2 x hx p (by simp)
  obtain ⟨front, prev, -, -⟩ := (linked_append ys [p]).mp h
  obtain ⟨prev', next'⟩ := last p ends
  refine (linked_append ys [p]).mpr ⟨front.frame fun x hx => ?_, prev'.trans prev, next', trivial⟩
  refine same x (List.mem_append_left _ hx) ?_
  rw [ends]
  exact fun eq => away x hx (Option.some.inj eq).symm

theorem Linked.relink_first {b b' a : Option E} {xs : List E} (h : Linked st b xs a)
    (nodup : xs.Nodup) (same : ∀ x ∈ xs, xs.head? ≠ some x → Same st st' x)
    (first : ∀ z, xs.head? = some z →
      (st'.le z).prev = b' ∧ (st'.le z).next = (st.le z).next) : Linked st' b' xs a := by
  cases xs with
  | nil => trivial
  | cons z zs =>
    obtain ⟨-, next, rest⟩ := h
    obtain ⟨prev', next'⟩ := first z rfl
    refine ⟨prev', next'.trans next, rest.frame fun x hx => same x (List.mem_cons_of_mem z hx) ?_⟩
    rintro ⟨⟩
    exact (List.nodup_cons.mp nodup).1 hx

end Representation

/-! ## Linking in and out -/

section Splice

variable {st st' : Heap E L D} {abs : L → List E}

theorem Refines.list_of_mem (h : Refines st abs) {l : L} {x : E} (mem : x ∈ abs l) :
    (st.le x).list = some l :=
  ((h.holds l).mem x).mpr mem

theorem Refines.not_mem_of_free (h : Refines st abs) {e : E} (free : (st.le e).list = none)
    (l : L) : e ∉ abs l := by
  intro mem
  rw [h.list_of_mem mem] at free
  cases free

/-- A change that gives `l` the contents `xs`, takes its new elements from the free ones, frees
those it drops and touches nothing outside `l`. -/
theorem Refines.update (h : Refines st abs) {l : L} {xs : List E} (new : Holds st' l xs)
    (joined : ∀ x ∈ xs, x ∉ abs l → (st.le x).list = none)
    (left : ∀ x ∈ abs l, x ∉ xs →
      (st'.le x).list = none ∧ (st'.le x).prev = none ∧ (st'.le x).next = none)
    (others : ∀ x, x ∉ abs l → x ∉ xs → Same st st' x)
    (lists : ∀ l', l' ≠ l → st'.list l' = st.list l') :
    Refines st' (Function.update abs l xs) := by
  -- an element of another list is neither in `l` nor in `xs`
  have apart : ∀ l', l' ≠ l → ∀ x, (st.le x).list = some l' → x ∉ abs l ∧ x ∉ xs := by
    intro l' ne x there
    have out : x ∉ abs l := fun mem => ne (Option.some.inj ((h.list_of_mem mem).symm.trans there)).symm
    refine ⟨out, fun mem => ?_⟩
    rw [joined x mem out] at there
    cases there
  refine ⟨fun l' => ?_, fun x none' => ?_⟩
  · by_cases ne : l' = l
    · subst ne
      rw [Function.update_self]
      exact new
    rw [Function.update_of_ne ne]
    have old := h.holds l'
    refine ⟨by rw [lists l' ne]; exact old.head, by rw [lists l' ne]; exact old.tail, old.nodup,
      old.linked.frame fun x hx => ?_, fun x => ?_⟩
    · obtain ⟨out, out'⟩ := apart l' ne x ((old.mem x).mpr hx)
      exact others x out out'
    · by_cases mem : x ∈ xs
      · rw [(new.mem x).mpr mem, ← old.mem x]
        constructor
        · intro eq
          cases eq
          exact absurd rfl ne
        · exact fun there => absurd mem (apart l' ne x there).2
      by_cases was : x ∈ abs l
      · rw [(left x was mem).1, ← old.mem x, h.list_of_mem was]
        simp only [reduceCtorEq, false_iff]
        exact fun eq => ne (Option.some.inj eq).symm
      · rw [(others x was mem).list]
        exact old.mem x
  · have out : x ∉ xs := fun mem => by
      rw [(new.mem x).mpr mem] at none'
      cases none'
    by_cases was : x ∈ abs l
    · exact ⟨(left x was out).2.1, (left x was out).2.2⟩
    have same := others x was out
    rw [same.prev, same.next]
    exact h.free x (same.list ▸ none')

/-- `e`, in no list, is linked into `l` between `ys` and `zs`. -/
theorem Refines.splice (h : Refines st abs) {l : L} {ys zs : List E} (split : abs l = ys ++ zs)
    {e : E} (free : (st.le e).list = none)
    (new : (st'.le e).prev = ys.getLast? ∧ (st'.le e).next = zs.head? ∧ (st'.le e).list = some l)
    (before : ∀ p, ys.getLast? = some p → (st'.le p).next = some e ∧
      (st'.le p).prev = (st.le p).prev ∧ (st'.le p).list = (st.le p).list)
    (after : ∀ z, zs.head? = some z → (st'.le z).prev = some e ∧
      (st'.le z).next = (st.le z).next ∧ (st'.le z).list = (st.le z).list)
    (head : (st'.list l).head = (ys ++ e :: zs).head?)
    (tail : (st'.list l).tail = (ys ++ e :: zs).getLast?)
    (others : ∀ x, x ≠ e → ys.getLast? ≠ some x → zs.head? ≠ some x → Same st st' x)
    (lists : ∀ l', l' ≠ l → st'.list l' = st.list l') :
    Refines st' (Function.update abs l (ys ++ e :: zs)) := by
  have old := h.holds l
  rw [split] at old
  have fresh : e ∉ ys ++ zs := split ▸ h.not_mem_of_free free l
  obtain ⟨ysNodup, zsNodup, apart⟩ := List.nodup_append.mp old.nodup
  obtain ⟨front, back⟩ := (linked_append ys zs).mp old.linked
  have linked : Linked st' none (ys ++ e :: zs) none := by
    refine (linked_append ys (e :: zs)).mpr ⟨?_, ?_⟩
    · refine front.relink_last ysNodup (fun x hx last => ?_) fun p last => ?_
      · refine others x (fun eq => fresh (eq ▸ List.mem_append_left _ hx)) last fun first => ?_
        exact apart x hx x (List.mem_of_head? first) rfl
      · exact ⟨(before p last).2.1, (before p last).1⟩
    · rw [Option.or_none] at back ⊢
      refine ⟨new.1, by rw [new.2.1, Option.or_none], ?_⟩
      refine back.relink_first zsNodup (fun x hx first => ?_) fun z first => ?_
      · refine others x (fun eq => fresh (eq ▸ List.mem_append_right _ hx)) (fun last => ?_) first
        exact apart x (List.mem_of_getLast? last) x hx rfl
      · exact ⟨(after z first).1, (after z first).2.1⟩
  have listSame : ∀ x, x ≠ e → (st'.le x).list = (st.le x).list := by
    intro x ne
    by_cases last : ys.getLast? = some x
    · exact (before x last).2.2
    by_cases first : zs.head? = some x
    · exact (after x first).2.2
    exact (others x ne last first).list
  have holds : Holds st' l (ys ++ e :: zs) := by
    refine ⟨head, tail, List.nodup_middle.mpr (List.nodup_cons.mpr ⟨fresh, old.nodup⟩), linked,
      fun x => ?_⟩
    by_cases ne : x = e
    · subst ne
      simp [new.2.2]
    rw [listSame x ne, old.mem x]
    simp [ne]
  refine h.update holds (fun x hx out => ?_) (fun x hx out => ?_) (fun x out out' => ?_) lists
  · rw [split] at out
    obtain rfl : x = e := by
      simp only [List.mem_append, List.mem_cons, not_or] at hx out
      tauto
    exact free
  · rw [split] at hx
    refine absurd ?_ out
    simp only [List.mem_append, List.mem_cons] at hx ⊢
    tauto
  · have ne : x ≠ e := fun eq => out' (eq ▸ by simp)
    rw [split] at out
    refine others x ne (fun last => out ?_) fun first => out ?_
    · exact List.mem_append_left _ (List.mem_of_getLast? last)
    · exact List.mem_append_right _ (List.mem_of_head? first)

/-- `e` is unlinked from between `ys` and `zs` in `l`, and cleared. -/
theorem Refines.cut (h : Refines st abs) {l : L} {ys zs : List E} {e : E}
    (split : abs l = ys ++ e :: zs)
    (gone : (st'.le e).prev = none ∧ (st'.le e).next = none ∧ (st'.le e).list = none)
    (before : ∀ p, ys.getLast? = some p → (st'.le p).next = zs.head? ∧
      (st'.le p).prev = (st.le p).prev ∧ (st'.le p).list = (st.le p).list)
    (after : ∀ z, zs.head? = some z → (st'.le z).prev = ys.getLast? ∧
      (st'.le z).next = (st.le z).next ∧ (st'.le z).list = (st.le z).list)
    (head : (st'.list l).head = (ys ++ zs).head?)
    (tail : (st'.list l).tail = (ys ++ zs).getLast?)
    (others : ∀ x, x ≠ e → ys.getLast? ≠ some x → zs.head? ≠ some x → Same st st' x)
    (lists : ∀ l', l' ≠ l → st'.list l' = st.list l') :
    Refines st' (Function.update abs l (ys ++ zs)) := by
  have old := h.holds l
  rw [split] at old
  have nodup := List.nodup_middle.mp old.nodup
  have out : e ∉ ys ++ zs := (List.nodup_cons.mp nodup).1
  obtain ⟨ysNodup, zsNodup, apart⟩ := List.nodup_append.mp (List.nodup_cons.mp nodup).2
  obtain ⟨front, -, -, back⟩ := (linked_append ys (e :: zs)).mp old.linked
  have linked : Linked st' none (ys ++ zs) none := by
    refine (linked_append ys zs).mpr ⟨?_, ?_⟩
    · refine front.relink_last ysNodup (fun x hx last => ?_) fun p last => ?_
      · refine others x (fun eq => out (eq ▸ List.mem_append_left _ hx)) last fun first => ?_
        exact apart x hx x (List.mem_of_head? first) rfl
      · rw [Option.or_none]
        exact ⟨(before p last).2.1, (before p last).1⟩
    · rw [Option.or_none]
      refine back.relink_first zsNodup (fun x hx first => ?_) fun z first => ?_
      · refine others x (fun eq => out (eq ▸ List.mem_append_right _ hx)) (fun last => ?_) first
        exact apart x (List.mem_of_getLast? last) x hx rfl
      · exact ⟨(after z first).1, (after z first).2.1⟩
  have listSame : ∀ x, x ≠ e → (st'.le x).list = (st.le x).list := by
    intro x ne
    by_cases last : ys.getLast? = some x
    · exact (before x last).2.2
    by_cases first : zs.head? = some x
    · exact (after x first).2.2
    exact (others x ne last first).list
  have holds : Holds st' l (ys ++ zs) := by
    refine ⟨head, tail, (List.nodup_cons.mp nodup).2, linked, fun x => ?_⟩
    by_cases ne : x = e
    · subst ne
      simp [gone.2.2, out]
    rw [listSame x ne, old.mem x]
    simp [ne]
  refine h.update holds (fun x hx out' => ?_) (fun x hx out' => ?_) (fun x out' out'' => ?_) lists
  · exact absurd (split ▸ by simp_all) out'
  · rw [split] at hx
    obtain rfl : x = e := by simp_all
    exact gone.2.2.symm ▸ ⟨rfl, gone.1, gone.2.1⟩
  · rw [split] at out'
    have ne : x ≠ e := fun eq => out' (eq ▸ by simp)
    refine others x ne (fun last => out'' ?_) fun first => out'' ?_
    · exact List.mem_append_left _ (List.mem_of_getLast? last)
    · exact List.mem_append_right _ (List.mem_of_head? first)

theorem Holds.neighbours {l : L} {ys zs : List E} {a : E} (h : Holds st l (ys ++ a :: zs)) :
    (st.le a).prev = ys.getLast? ∧ (st.le a).next = zs.head? := by
  obtain ⟨-, ⟨prev, next, -⟩⟩ := (linked_append ys (a :: zs)).mp h.linked
  rw [Option.or_none] at prev next
  exact ⟨prev, next⟩

theorem Refines.of_same (h : Refines st abs) (same : ∀ x, Same st st' x)
    (lists : st'.list = st.list) : Refines st' abs := by
  refine ⟨fun l => ?_, fun x none' => ?_⟩
  · have old := h.holds l
    refine ⟨by rw [lists]; exact old.head, by rw [lists]; exact old.tail, old.nodup,
      old.linked.frame fun x _ => same x, fun x => ?_⟩
    rw [(same x).list]
    exact old.mem x
  · rw [(same x).prev, (same x).next]
    exact h.free x ((same x).list ▸ none')

theorem Refines.setData (h : Refines st abs) (x : E) (data : Option D) :
    Refines (st.modLe x fun y => { y with data := data }) abs := by
  refine h.of_same (fun y => ⟨?_, ?_, ?_⟩) rfl <;> by_cases hy : y = x <;> simp [hy]

theorem Refines.prev_mem (h : Refines st abs) {l : L} {x p : E} (linked : (st.le x).list = some l)
    (prev : (st.le x).prev = some p) : (st.le p).list = some l := by
  obtain ⟨ys, zs, split⟩ := List.append_of_mem (((h.holds l).mem x).mp linked)
  have holds := split ▸ h.holds l
  rw [holds.neighbours.1] at prev
  exact h.list_of_mem (split ▸ List.mem_append_left _ (List.mem_of_getLast? prev))

theorem Refines.next_mem (h : Refines st abs) {l : L} {x n : E} (linked : (st.le x).list = some l)
    (next : (st.le x).next = some n) : (st.le n).list = some l := by
  obtain ⟨ys, zs, split⟩ := List.append_of_mem (((h.holds l).mem x).mp linked)
  have holds := split ▸ h.holds l
  rw [holds.neighbours.2] at next
  exact h.list_of_mem (split ▸ List.mem_append_right _ (List.mem_cons_of_mem x (List.mem_of_head? next)))

end Splice

/-! ## Each operation keeps the representation -/

section Ops

variable {st : Heap E L D} {abs : L → List E}

theorem listAppend_of_linked {l : L} {e : E} {data : Option D} (linked : (st.le e).list.isSome) :
    listAppend st l e data = st := by
  simp [listAppend, linked]

theorem listAppend_le {l : L} {e : E} {data : Option D} (free : (st.le e).list = none)
    (ne : (st.list l).tail ≠ some e) (x : E) :
    (listAppend st l e data).le x =
      if x = e then { st.le e with prev := (st.list l).tail, next := none, list := some l, data := data }
      else if (st.list l).tail = some x then { st.le x with next := some e } else st.le x := by
  unfold listAppend
  -- the guarded head update goes before its condition is rewritten
  rcases tail : (st.list l).tail with _ | t <;>
    simp only [free, Option.isSome_none, Bool.false_eq_true, if_false, Heap.modList_le,
      Heap.ite_modList_le, Heap.modLe_le]
  · simp
  · have te : t ≠ e := fun eq => ne (by rw [tail, eq])
    by_cases hx : x = e
    · subst hx
      simp [Ne.symm te]
    · by_cases ht : t = x
      · simp [hx, ht]
      · simp [hx, ht, Ne.symm ht]

theorem listAppend_list {l : L} {e : E} {data : Option D} (free : (st.le e).list = none)
    (l' : L) :
    (listAppend st l e data).list l' =
      if l' = l then ⟨(st.list l).head.or (some e), some e⟩ else st.list l' := by
  unfold listAppend
  rcases tail : (st.list l).tail with _ | t <;>
    rcases head : (st.list l).head with _ | h <;>
    by_cases hl : l' = l <;> simp [free, head, hl]

theorem Refines.listAppend (h : Refines st abs) {l : L} {e : E} {data : Option D}
    (free : (st.le e).list = none) :
    Refines (listAppend st l e data) (Function.update abs l (abs l ++ [e])) := by
  have fresh := h.not_mem_of_free free l
  have last : ∀ p, (abs l).getLast? = some p → p ≠ e := fun p hp eq =>
    fresh (eq ▸ List.mem_of_getLast? hp)
  have tail := (h.holds l).tail
  have ne : (st.list l).tail ≠ some e := fun eq => last e (tail ▸ eq) rfl
  refine h.splice (List.append_nil _).symm free ?_ (fun p hp => ?_) (by simp) ?_ ?_
    (fun x hx hp _ => Same.of_eq ?_) (fun l' hl => ?_)
  · simp [listAppend_le free ne, tail]
  · simp [listAppend_le free ne, tail, hp, last p hp]
  · simp [listAppend_list free, (h.holds l).head, List.head?_append]
  · simp [listAppend_list free]
  · rw [listAppend_le free ne, tail, if_neg hx, if_neg hp]
  · simp [listAppend_list free, hl]

theorem listPrepend_le {l : L} {e : E} {data : Option D} (free : (st.le e).list = none)
    (ne : (st.list l).head ≠ some e) (x : E) :
    (listPrepend st l e data).le x =
      if x = e then { st.le e with prev := none, next := (st.list l).head, list := some l, data := data }
      else if (st.list l).head = some x then { st.le x with prev := some e } else st.le x := by
  unfold listPrepend
  rcases head : (st.list l).head with _ | h <;>
    simp only [free, Option.isSome_none, Bool.false_eq_true, if_false, Heap.modList_le,
      Heap.ite_modList_le, Heap.modLe_le]
  · simp
  · have he : h ≠ e := fun eq => ne (by rw [head, eq])
    by_cases hx : x = e
    · subst hx
      simp [Ne.symm he]
    · by_cases hh : h = x
      · simp [hx, hh]
      · simp [hx, hh, Ne.symm hh]

theorem listPrepend_list {l : L} {e : E} {data : Option D} (free : (st.le e).list = none)
    (l' : L) :
    (listPrepend st l e data).list l' =
      if l' = l then ⟨some e, (st.list l).tail.or (some e)⟩ else st.list l' := by
  unfold listPrepend
  rcases head : (st.list l).head with _ | h <;>
    rcases tail : (st.list l).tail with _ | t <;>
    by_cases hl : l' = l <;> simp [free, tail, hl]

theorem Refines.listPrepend (h : Refines st abs) {l : L} {e : E} {data : Option D}
    (free : (st.le e).list = none) :
    Refines (listPrepend st l e data) (Function.update abs l (e :: abs l)) := by
  have fresh := h.not_mem_of_free free l
  have first : ∀ z, (abs l).head? = some z → z ≠ e := fun z hz eq =>
    fresh (eq ▸ List.mem_of_head? hz)
  have head := (h.holds l).head
  have ne : (st.list l).head ≠ some e := fun eq => first e (head ▸ eq) rfl
  refine h.splice (List.nil_append _).symm free ?_ (by simp) (fun z hz => ?_) ?_ ?_
    (fun x hx _ hz => Same.of_eq ?_) (fun l' hl => ?_)
  · simp [listPrepend_le free ne, head]
  · simp [listPrepend_le free ne, head, hz, first z hz]
  · simp [listPrepend_list free]
  · simp [listPrepend_list free, (h.holds l).tail, List.getLast?_cons]
  · rw [listPrepend_le free ne, head, if_neg hx, if_neg hz]
  · simp [listPrepend_list free, hl]

theorem listInsertBefore_le (l : L) (data : Option D) {a e : E} (free : (st.le e).list = none)
    (ea : e ≠ a) (pe : (st.le a).prev ≠ some e) (pa : (st.le a).prev ≠ some a) (x : E) :
    (listInsertBefore st l a e data).le x =
      if x = a then { st.le a with prev := some e }
      else if x = e then
        { st.le e with prev := (st.le a).prev, next := some a, list := some l, data := data }
      else if (st.le a).prev = some x then { st.le x with next := some e } else st.le x := by
  unfold listInsertBefore
  rcases prev : (st.le a).prev with _ | p <;>
    simp only [free, Option.isSome_none, Bool.false_eq_true, if_false,
      Heap.ite_modList_le, Heap.modLe_le]
  · by_cases hx : x = a <;> simp [hx, Ne.symm ea, prev]
  · have pe' : p ≠ e := fun eq => pe (by rw [prev, eq])
    have pa' : p ≠ a := fun eq => pa (by rw [prev, eq])
    by_cases hx : x = a
    · subst hx
      simp [Ne.symm pa', Ne.symm ea]
    by_cases he : x = e
    · subst he
      simp [hx, Ne.symm pa', prev]
    by_cases hp : p = x
    · subst hp
      simp [hx, he]
    · simp [hx, he, hp, Ne.symm hp]

theorem listInsertBefore_list {l : L} {a e : E} {data : Option D} (free : (st.le e).list = none)
    (l' : L) :
    (listInsertBefore st l a e data).list l' =
      if l' = l ∧ (st.le a).prev = none ∧ (st.list l).head = some a then
        { st.list l with head := some e }
      else st.list l' := by
  unfold listInsertBefore
  rcases prev : (st.le a).prev with _ | p <;>
    by_cases hl : l' = l <;> by_cases hd : (st.list l).head = some a <;> simp [free, hl, hd]

theorem Refines.listInsertBefore (h : Refines st abs) {l : L} {ys zs : List E} {a e : E}
    {data : Option D} (split : abs l = ys ++ a :: zs) (free : (st.le e).list = none) :
    Refines (listInsertBefore st l a e data) (Function.update abs l (ys ++ e :: a :: zs)) := by
  have holds := h.holds l
  rw [split] at holds
  have fresh := split ▸ h.not_mem_of_free free l
  have ea : e ≠ a := fun eq => fresh (by simp [eq])
  obtain ⟨prev, next⟩ := holds.neighbours
  have nodup := List.nodup_middle.mp holds.nodup
  have pe : (st.le a).prev ≠ some e := fun eq =>
    fresh (List.mem_append_left _ (List.mem_of_getLast? (prev ▸ eq)))
  have pa : (st.le a).prev ≠ some a := fun eq =>
    (List.nodup_cons.mp nodup).1 (List.mem_append_left _ (List.mem_of_getLast? (prev ▸ eq)))
  have spec := listInsertBefore_le l data free ea pe pa
  refine h.splice split free ?_ (fun p hp => ?_)
    (fun z hz => ?_) ?_ ?_ (fun x hx hp hz => Same.of_eq ?_) (fun l' hl => ?_)
  · simp [spec, ea, prev]
  · have pa' : p ≠ a := fun eq => pa (by rw [prev, hp, eq])
    have pe' : p ≠ e := fun eq => pe (by rw [prev, hp, eq])
    simp [spec, pa', pe', prev, hp]
  · obtain rfl : a = z := Option.some.inj hz
    simp [spec]
  · rcases ys with _ | ⟨y, ys⟩
    · simp [listInsertBefore_list free, prev, holds.head]
    · simp [listInsertBefore_list free, prev, holds.head]
  · rw [listInsertBefore_list free]
    split <;> simp [holds.tail, List.getLast?_append]
  · have xa : x ≠ a := fun eq => hz (by rw [eq]; rfl)
    rw [spec, if_neg xa, if_neg hx, prev, if_neg hp]
  · rw [listInsertBefore_list free, if_neg (fun c => hl c.1)]

theorem listInsertAfter_le (l : L) (data : Option D) {a e : E} (free : (st.le e).list = none)
    (ea : e ≠ a) (ne : (st.le a).next ≠ some e) (na : (st.le a).next ≠ some a) (x : E) :
    (listInsertAfter st l a e data).le x =
      if x = a then { st.le a with next := some e }
      else if x = e then
        { st.le e with prev := some a, next := (st.le a).next, list := some l, data := data }
      else if (st.le a).next = some x then { st.le x with prev := some e } else st.le x := by
  unfold listInsertAfter
  rcases next : (st.le a).next with _ | n <;>
    simp only [free, Option.isSome_none, Bool.false_eq_true, if_false, Heap.ite_modList_le,
      Heap.modLe_le]
  · by_cases hx : x = a <;> simp [hx, Ne.symm ea, next]
  · have ne' : n ≠ e := fun eq => ne (by rw [next, eq])
    have na' : n ≠ a := fun eq => na (by rw [next, eq])
    by_cases hx : x = a
    · subst hx
      simp [Ne.symm na', Ne.symm ea]
    by_cases he : x = e
    · subst he
      simp [hx, Ne.symm na', next]
    by_cases hn : n = x
    · subst hn
      simp [hx, he]
    · simp [hx, he, hn, Ne.symm hn]

theorem listInsertAfter_list {l : L} {a e : E} {data : Option D} (free : (st.le e).list = none)
    (l' : L) :
    (listInsertAfter st l a e data).list l' =
      if l' = l ∧ (st.le a).next = none ∧ (st.list l).tail = some a then
        { st.list l with tail := some e }
      else st.list l' := by
  unfold listInsertAfter
  rcases next : (st.le a).next with _ | n <;>
    by_cases hl : l' = l <;> by_cases ht : (st.list l).tail = some a <;> simp [free, hl, ht]

theorem Refines.listInsertAfter (h : Refines st abs) {l : L} {ys zs : List E} {a e : E}
    {data : Option D} (split : abs l = ys ++ a :: zs) (free : (st.le e).list = none) :
    Refines (listInsertAfter st l a e data) (Function.update abs l (ys ++ a :: e :: zs)) := by
  have holds := h.holds l
  rw [split] at holds
  have fresh := split ▸ h.not_mem_of_free free l
  have ea : e ≠ a := fun eq => fresh (by simp [eq])
  obtain ⟨prev, next⟩ := holds.neighbours
  have nodup := List.nodup_middle.mp holds.nodup
  have ne : (st.le a).next ≠ some e := fun eq =>
    fresh (List.mem_append_right _ (List.mem_cons_of_mem a (List.mem_of_head? (next ▸ eq))))
  have na : (st.le a).next ≠ some a := fun eq =>
    (List.nodup_cons.mp nodup).1 (List.mem_append_right _ (List.mem_of_head? (next ▸ eq)))
  have spec := listInsertAfter_le l data free ea ne na
  have result : ys ++ a :: e :: zs = (ys ++ [a]) ++ e :: zs := by simp
  rw [result]
  refine h.splice (show abs l = (ys ++ [a]) ++ zs by rw [split]; simp) free ?_ (fun p hp => ?_)
    (fun z hz => ?_) ?_ ?_ (fun x hx hp hz => Same.of_eq ?_) (fun l' hl => ?_)
  · simp [spec, ea, next]
  · obtain rfl : a = p := by simpa using hp
    simp [spec]
  · have za : z ≠ a := fun eq => na (by rw [next, hz, eq])
    have ze : z ≠ e := fun eq => ne (by rw [next, hz, eq])
    simp [spec, za, ze, next, hz]
  · rw [listInsertAfter_list free]
    split <;> simp [holds.head, List.head?_append]
  · rcases zs with _ | ⟨z, zs⟩
    · simp [listInsertAfter_list free, next, holds.tail]
    · simp [listInsertAfter_list free, next, holds.tail, List.getLast?_append]
  · have xa : x ≠ a := fun eq => hp (by simp [eq])
    rw [spec, if_neg xa, if_neg hx, next, if_neg hz]
  · rw [listInsertAfter_list free, if_neg (fun c => hl c.1)]

theorem listUnlink_of_free {e : E} (free : (st.le e).list = none) : listUnlink st e = st := by
  simp [listUnlink, free]

theorem listUnlink_le {l : L} {e : E} (linked : (st.le e).list = some l)
    (pe : (st.le e).prev ≠ some e) (ne : (st.le e).next ≠ some e)
    (pn : ∀ p, (st.le e).prev = some p → (st.le e).next ≠ some p) (x : E) :
    (listUnlink st e).le x =
      if x = e then { st.le e with next := none, prev := none, list := none }
      else if (st.le e).prev = some x then { st.le x with next := (st.le e).next }
      else if (st.le e).next = some x then { st.le x with prev := (st.le e).prev } else st.le x := by
  unfold listUnlink
  rw [linked]
  -- the second half reads `e` again, which the first half left alone
  rcases prev : (st.le e).prev with _ | p
  · simp only [Heap.modList_le]
    rcases next : (st.le e).next with _ | n
    · simp [prev]
    · have ne' : n ≠ e := fun eq => ne (by rw [next, eq])
      by_cases hx : x = e
      · simp [hx, Ne.symm ne', prev]
      by_cases hn : n = x
      · simp [hx, hn, prev]
      · simp [hx, hn, Ne.symm hn]
  · have pe' : p ≠ e := fun eq => pe (by rw [prev, eq])
    simp only [Heap.modLe_le, if_neg (Ne.symm pe')]
    rcases next : (st.le e).next with _ | n
    · by_cases hx : x = e
      · simp [hx, Ne.symm pe', prev]
      by_cases hp : p = x
      · simp [hx, hp]
      · simp [hx, hp, Ne.symm hp]
    · have ne' : n ≠ e := fun eq => ne (by rw [next, eq])
      have np : n ≠ p := fun eq => pn p prev (by rw [next, eq])
      by_cases hx : x = e
      · simp [hx, Ne.symm pe', Ne.symm ne']
      by_cases hp : p = x
      · subst hp
        simp [hx, Ne.symm np]
      by_cases hn : n = x
      · subst hn
        simp [hx, hp, np, prev]
      · simp [hx, hp, hn, Ne.symm hp, Ne.symm hn]

theorem listUnlink_list {l : L} {e : E} (linked : (st.le e).list = some l)
    (pe : (st.le e).prev ≠ some e) (l' : L) :
    (listUnlink st e).list l' =
      if l' = l then
        ⟨if (st.le e).prev = none then (st.le e).next else (st.list l).head,
          if (st.le e).next = none then (st.le e).prev else (st.list l).tail⟩
      else st.list l' := by
  unfold listUnlink
  rw [linked]
  rcases prev : (st.le e).prev with _ | p
  · simp only [Heap.modList_le]
    rcases next : (st.le e).next with _ | n <;> by_cases hl : l' = l <;> simp [hl, prev]
  · have pe' : p ≠ e := fun eq => pe (by rw [prev, eq])
    simp only [Heap.modLe_le, if_neg (Ne.symm pe')]
    rcases next : (st.le e).next with _ | n <;> by_cases hl : l' = l <;> simp [hl, prev]

/-- Unlinking an element of `l` takes it out of the contents of `l`. -/
theorem Refines.listUnlink (h : Refines st abs) {l : L} {ys zs : List E} {e : E}
    (split : abs l = ys ++ e :: zs) :
    Refines (listUnlink st e) (Function.update abs l (ys ++ zs)) := by
  have holds := h.holds l
  rw [split] at holds
  have linked := h.list_of_mem (split ▸ by simp : e ∈ abs l)
  obtain ⟨prev, next⟩ := holds.neighbours
  have nodup := List.nodup_middle.mp holds.nodup
  have out : e ∉ ys ++ zs := (List.nodup_cons.mp nodup).1
  obtain ⟨-, -, apart⟩ := List.nodup_append.mp (List.nodup_cons.mp nodup).2
  have pe : (st.le e).prev ≠ some e := fun eq =>
    out (List.mem_append_left _ (List.mem_of_getLast? (prev ▸ eq)))
  have ne : (st.le e).next ≠ some e := fun eq =>
    out (List.mem_append_right _ (List.mem_of_head? (next ▸ eq)))
  have pn : ∀ p, (st.le e).prev = some p → (st.le e).next ≠ some p := fun p hp hn =>
    apart p (List.mem_of_getLast? (prev ▸ hp)) p (List.mem_of_head? (next ▸ hn)) rfl
  have spec := listUnlink_le linked pe ne pn
  have lists := listUnlink_list linked pe
  refine h.cut split ?_ (fun p hp => ?_) (fun z hz => ?_) ?_ ?_
    (fun x hx hp hz => Same.of_eq ?_) (fun l' hl => ?_)
  · simp [spec]
  · have pe' : p ≠ e := fun eq => pe (by rw [prev, hp, eq])
    simp [spec, pe', prev, hp, next]
  · have ze : z ≠ e := fun eq => ne (by rw [next, hz, eq])
    have zp : ys.getLast? ≠ some z := fun eq =>
      apart z (List.mem_of_getLast? eq) z (List.mem_of_head? hz) rfl
    simp [spec, ze, prev, next, hz, zp]
  · rcases ys with _ | ⟨y, ys⟩
    · simp [lists, prev, next]
    · simp [lists, prev, holds.head]
  · rcases zs with _ | ⟨z, zs⟩
    · simp [lists, prev, next]
    · simp [lists, next, holds.tail, List.getLast?_append]
  · rw [spec, if_neg hx, prev, if_neg hp, next, if_neg hz]
  · rw [lists, if_neg hl]

theorem listUnlink_list_self (e : E) : ((listUnlink st e).le e).list = none := by
  unfold listUnlink
  split
  · assumption
  · simp

theorem listUnlink_data (e x : E) : ((listUnlink st e).le x).data = (st.le x).data := by
  unfold listUnlink
  split
  · rfl
  · dsimp only
    split <;> split <;> simp only [Heap.modLe_le, Heap.modList_le] <;> split_ifs <;> subst_vars <;>
      rfl

theorem listAppend_data (l : L) (e : E) (data : Option D) (x : E) :
    ((listAppend st l e data).le x).data =
      if x = e ∧ (st.le e).list = none then data else (st.le x).data := by
  unfold listAppend
  cases free : (st.le e).list
  · simp only [Option.isSome_none, Bool.false_eq_true, if_false, Heap.modList_le]
    split <;> split <;> simp only [Heap.modLe_le, Heap.modList_le] <;> split_ifs <;> simp_all
  · simp

theorem listPrepend_data (l : L) (e : E) (data : Option D) (x : E) :
    ((listPrepend st l e data).le x).data =
      if x = e ∧ (st.le e).list = none then data else (st.le x).data := by
  unfold listPrepend
  cases free : (st.le e).list
  · simp only [Option.isSome_none, Bool.false_eq_true, if_false, Heap.modList_le]
    split <;> split <;> simp only [Heap.modLe_le, Heap.modList_le] <;> split_ifs <;> simp_all
  · simp

theorem listInsertBefore_data (l : L) (a e : E) (data : Option D) (x : E) :
    ((listInsertBefore st l a e data).le x).data =
      if x = e ∧ (st.le e).list = none then data else (st.le x).data := by
  unfold listInsertBefore
  cases free : (st.le e).list
  · simp only [Option.isSome_none, Bool.false_eq_true, if_false]
    split <;> simp only [Heap.modLe_le, Heap.ite_modList_le] <;> split_ifs <;> simp_all
  · simp

theorem listInsertAfter_data (l : L) (a e : E) (data : Option D) (x : E) :
    ((listInsertAfter st l a e data).le x).data =
      if x = e ∧ (st.le e).list = none then data else (st.le x).data := by
  unfold listInsertAfter
  cases free : (st.le e).list
  · simp only [Option.isSome_none, Bool.false_eq_true, if_false]
    split <;> simp only [Heap.modLe_le, Heap.ite_modList_le] <;> split_ifs <;> simp_all
  · simp

theorem listPrepend_of_linked {l : L} {e : E} {data : Option D} (linked : (st.le e).list.isSome) :
    listPrepend st l e data = st := by
  simp [listPrepend, linked]

theorem listInsertBefore_of_linked {l : L} {a e : E} {data : Option D}
    (linked : (st.le e).list.isSome) : listInsertBefore st l a e data = st := by
  simp [listInsertBefore, linked]

theorem listInsertAfter_of_linked {l : L} {a e : E} {data : Option D}
    (linked : (st.le e).list.isSome) : listInsertAfter st l a e data = st := by
  simp [listInsertAfter, linked]

theorem Good.listAppend (h : Good st) (l : L) (e : E) (data : Option D) :
    Good (listAppend st l e data) := by
  obtain ⟨abs, h⟩ := h
  cases free : (st.le e).list with
  | none => exact ⟨_, h.listAppend free⟩
  | some _ => exact ⟨abs, by rwa [listAppend_of_linked (by simp [free])]⟩

theorem Good.listPrepend (h : Good st) (l : L) (e : E) (data : Option D) :
    Good (listPrepend st l e data) := by
  obtain ⟨abs, h⟩ := h
  cases free : (st.le e).list with
  | none => exact ⟨_, h.listPrepend free⟩
  | some _ => exact ⟨abs, by rwa [listPrepend_of_linked (by simp [free])]⟩

theorem Good.listInsertAfter (h : Good st) {l : L} {a : E} (anchor : (st.le a).list = some l)
    (e : E) (data : Option D) : Good (listInsertAfter st l a e data) := by
  obtain ⟨abs, h⟩ := h
  obtain ⟨ys, zs, split⟩ := List.append_of_mem (((h.holds l).mem a).mp anchor)
  cases free : (st.le e).list with
  | none => exact ⟨_, h.listInsertAfter split free⟩
  | some _ => exact ⟨abs, by rwa [listInsertAfter_of_linked (by simp [free])]⟩

theorem Good.listInsertBefore (h : Good st) {l : L} {a : E} (anchor : (st.le a).list = some l)
    (e : E) (data : Option D) : Good (listInsertBefore st l a e data) := by
  obtain ⟨abs, h⟩ := h
  obtain ⟨ys, zs, split⟩ := List.append_of_mem (((h.holds l).mem a).mp anchor)
  cases free : (st.le e).list with
  | none => exact ⟨_, h.listInsertBefore split free⟩
  | some _ => exact ⟨abs, by rwa [listInsertBefore_of_linked (by simp [free])]⟩

theorem Good.listUnlink (h : Good st) (e : E) : Good (listUnlink st e) := by
  obtain ⟨abs, h⟩ := h
  cases linked : (st.le e).list with
  | none => exact ⟨abs, by rwa [listUnlink_of_free linked]⟩
  | some l =>
    obtain ⟨ys, zs, split⟩ := List.append_of_mem (((h.holds l).mem e).mp linked)
    exact ⟨_, h.listUnlink split⟩

end Ops

/-! ## The loops keep the representation

Each loop is shown by induction on its fuel to keep `Refines`. -/

section LoopProofs

variable {st : Heap E L D} {abs : L → List E}

theorem Refines.sortedScan (h : Refines st abs) {l : L} (sh : Heap E L D → E → E → Bool) (e : E)
    (fuel : Nat) {o : Option E} (inl : ∀ x, o = some x → (st.le x).list = some l) :
    Good (sortedScan l sh e fuel st o) := by
  induction fuel generalizing o with
  | zero =>
    cases o with
    | none => exact Good.listPrepend ⟨abs, h⟩ l e _
    | some x => exact ⟨abs, h⟩
  | succ fuel ih =>
    cases o with
    | none => exact Good.listPrepend ⟨abs, h⟩ l e _
    | some x =>
      rw [LinkedList.sortedScan]
      split
      · exact Good.listInsertAfter ⟨abs, h⟩ (inl x rfl) e _
      · exact ih fun p hp => h.prev_mem (inl x rfl) hp

theorem Good.listInsertSorted [Fintype E] (h : Good st) (l : L) (sh : Heap E L D → E → E → Bool) (e : E)
    (data : Option D) : Good (listInsertSorted st l sh e data) := by
  obtain ⟨abs, h⟩ := h
  have h' := h.setData e data
  refine h'.sortedScan sh e _ fun x hx => h'.list_of_mem ?_
  rw [(h'.holds l).tail] at hx
  exact List.mem_of_getLast? hx

theorem Refines.sortPass (h : Refines st abs) {l : L} (sh : Heap E L D → E → E → Bool)
    (fuel : Nat) {o : Option E} (sorted : Bool) (inl : ∀ x, o = some x → (st.le x).list = some l) :
    Good (sortPass l sh fuel st o sorted).1 := by
  induction fuel generalizing st abs o sorted with
  | zero => exact ⟨abs, h⟩
  | succ fuel ih =>
    cases o with
    | none => exact ⟨abs, h⟩
    | some x =>
      have linked := inl x rfl
      rw [LinkedList.sortPass]
      split
      · exact ⟨abs, h⟩
      · rename_i n next
        split
        · exact ih h sorted fun y hy => h.next_mem linked (Option.some.inj hy ▸ next)
        -- `x` is unlinked and put back behind its successor `n`
        obtain ⟨ys, zs, split⟩ := List.append_of_mem (((h.holds l).mem x).mp linked)
        have holds := split ▸ h.holds l
        obtain ⟨zs, rfl⟩ : ∃ zs', zs = n :: zs' := by
          rw [holds.neighbours.2] at next
          cases zs with
          | nil => cases next
          | cons z zs => exact ⟨zs, by rw [Option.some.inj next]⟩
        have unlinked := h.listUnlink split
        have split' : Function.update abs l (ys ++ n :: zs) l = ys ++ n :: zs :=
          Function.update_self ..
        have moved : Refines (LinkedList.listInsertAfter (LinkedList.listUnlink st x) l n x
            ((LinkedList.listUnlink st x).le x).data) _ :=
          unlinked.listInsertAfter split' (listUnlink_list_self x)
        exact ih moved true fun y hy => moved.list_of_mem (by simp [← Option.some.inj hy])

theorem Good.listSort [Fintype E] (h : Good st) (l : L) (sh : Heap E L D → E → E → Bool) (passes : Nat) :
    Good (listSort st l sh passes) := by
  induction passes generalizing st with
  | zero => exact h
  | succ passes ih =>
    obtain ⟨abs, h⟩ := h
    have pass := h.sortPass sh (Fintype.card E) false fun x hx =>
      h.list_of_mem (List.mem_of_head? (by rw [← (h.holds l).head]; exact hx))
    rw [listSort]
    split
    · rename_i st' sort eq
      rw [eq] at pass
      split
      · exact ih pass
      · exact pass

theorem listInit_of_empty {l : L} (head : (st.list l).head = none) (tail : (st.list l).tail = none) :
    listInit st l = st := by
  have empty : st.list l = ⟨none, none⟩ := by
    cases hs : st.list l
    simp_all
  simp only [listInit, Heap.modList, ← empty, Function.update_eq_self]

theorem Refines.flushLoop {l : L} (fuel : Nat) (h : Refines st abs) (room : (abs l).length ≤ fuel) :
    Refines (flushLoop fuel st (st.list l).head) (Function.update abs l []) := by
  induction fuel generalizing st abs with
  | zero =>
    have empty : abs l = [] := List.length_eq_zero_iff.mp (Nat.le_zero.mp room)
    rw [LinkedList.flushLoop.eq_1, Function.update_eq_self_iff.mpr empty.symm]
    exact h
  | succ fuel ih =>
    rcases contents : abs l with _ | ⟨x, rest⟩
    · rw [(h.holds l).head, contents, List.head?_nil, LinkedList.flushLoop.eq_2,
        Function.update_eq_self_iff.mpr contents.symm]
      exact h
    have split : abs l = [] ++ x :: rest := contents
    have next := (split ▸ h.holds l).neighbours.2
    have unlinked := (h.listUnlink split).setData x none
    have first : ((((LinkedList.listUnlink st x).modLe x fun y => { y with data := none }).list l).head) =
        rest.head? := by
      rw [(unlinked.holds l).head, Function.update_self, List.nil_append]
    rw [(h.holds l).head, contents, List.head?_cons, LinkedList.flushLoop, next, ← first]
    have done := ih unlinked (by simp [contents] at room ⊢; omega)
    rwa [Function.update_idem] at done

theorem Good.listFlush [Fintype E] (h : Good st) (l : L) : Good (listFlush st l) := by
  obtain ⟨abs, h⟩ := h
  have flushed := h.flushLoop (l := l) (Fintype.card E) ((h.holds l).nodup.length_le_card)
  have empty := flushed.holds l
  rw [Function.update_self] at empty
  refine ⟨Function.update abs l [], ?_⟩
  rw [LinkedList.listFlush, listInit_of_empty empty.head empty.tail]
  exact flushed

/-- What `list_clear` leaves of an element it visits. -/
def cleared (x : Le E L D) : Le E L D := { x with list := none, prev := none, next := none, data := none }

theorem clearLoop_linked (xs : List E) (fuel : Nat) (st : Heap E L D) {b : Option E}
    (linked : Linked st b xs none) (nodup : xs.Nodup) (room : xs.length ≤ fuel) :
    clearLoop fuel st xs.head? = ⟨fun y => if y ∈ xs then cleared (st.le y) else st.le y, st.list⟩ := by
  induction xs generalizing fuel st b with
  | nil => cases fuel <;> simp [clearLoop]
  | cons x xs ih =>
    obtain ⟨fuel, rfl⟩ : ∃ f, fuel = f + 1 := ⟨fuel - 1, by simp at room; omega⟩
    obtain ⟨-, next, rest⟩ := linked
    have out := (List.nodup_cons.mp nodup).1
    -- the rest of the list is linked as before once `x` is cleared
    have rest' : Linked (st.modLe x fun y =>
        { y with list := none, prev := none, next := none, data := none }) (some x) xs none :=
      rest.frame fun y hy => Same.of_eq (by simp [show y ≠ x from fun eq => out (eq ▸ hy)])
    rw [List.head?_cons, clearLoop, next, Option.or_none,
      ih fuel _ rest' (List.nodup_cons.mp nodup).2 (by simpa using room)]
    simp only [Heap.modLe_le, Heap.modLe_list, Heap.mk.injEq, and_true]
    funext y
    by_cases hx : y = x
    · subst hx
      simp [out, cleared]
    · by_cases hy : y ∈ xs <;> simp [hx, hy]

theorem Good.listClear [Fintype E] (h : Good st) (l : L) : Good (listClear st l) := by
  obtain ⟨abs, h⟩ := h
  have holds := h.holds l
  have loop := clearLoop_linked (abs l) (Fintype.card E) st holds.linked holds.nodup
    holds.nodup.length_le_card
  rw [← holds.head] at loop
  have le : ∀ y, (LinkedList.listClear st l).le y = if y ∈ abs l then cleared (st.le y) else st.le y := by
    intro y
    simp [LinkedList.listClear, listInit, loop]
  have lists : ∀ l', (LinkedList.listClear st l).list l' = if l' = l then ⟨none, none⟩ else st.list l' := by
    intro l'
    simp [LinkedList.listClear, listInit, loop]
  have empty : Holds (LinkedList.listClear st l) l [] := by
    refine ⟨by simp [lists], by simp [lists], List.nodup_nil, trivial, fun x => ?_⟩
    rw [le]
    split
    · simp [cleared]
    · simpa using fun eq => ‹x ∉ abs l› ((holds.mem x).mp eq)
  refine ⟨_, h.update empty (fun x hx => absurd hx List.not_mem_nil) (fun x hx _ => ?_)
    (fun x hx _ => Same.of_eq ?_) (fun l' hl => ?_)⟩
  · simp [le, hx, cleared]
  · rw [le, if_neg hx]
  · rw [lists, if_neg hl]

theorem countLoop_linked (st : Heap E L D) (xs : List E) (fuel : Nat) {b : Option E} (n : UInt32)
    (linked : Linked st b xs none) (room : xs.length ≤ fuel) :
    countLoop st fuel xs.head? n = n + UInt32.ofNat xs.length := by
  induction xs generalizing fuel b n with
  | nil => cases fuel <;> simp [countLoop]
  | cons x xs ih =>
    obtain ⟨fuel, rfl⟩ : ∃ f, fuel = f + 1 := ⟨fuel - 1, by simp at room; omega⟩
    obtain ⟨-, next, rest⟩ := linked
    rw [List.head?_cons, countLoop, next, Option.or_none, ih fuel (n + 1) rest (by simpa using room),
      List.length_cons, UInt32.ofNat_add, UInt32.ofNat_one]
    ac_rfl

theorem Refines.listCount [Fintype E] (h : Refines st abs) (l : L) :
    listCount st l = UInt32.ofNat (abs l).length := by
  have holds := h.holds l
  rw [LinkedList.listCount, holds.head, countLoop_linked st (abs l) _ 0 holds.linked
    holds.nodup.length_le_card, zero_add]

/-- `list_apply` forwards hands the handler the elements in order. -/
theorem applyNext_linked (st : Heap E L D) (ah : Heap E L D → E → Bool) (xs : List E)
    (fuel : Nat) {b : Option E} (linked : Linked st b xs none) (room : xs.length ≤ fuel) :
    applyNext st ah fuel xs.head? = xs.find? (ah st) := by
  induction xs generalizing fuel b with
  | nil => cases fuel <;> simp [applyNext]
  | cons x xs ih =>
    obtain ⟨fuel, rfl⟩ : ∃ f, fuel = f + 1 := ⟨fuel - 1, by simp at room; omega⟩
    obtain ⟨-, next, rest⟩ := linked
    rw [List.head?_cons, applyNext, next, Option.or_none, ih fuel rest (by simpa using room),
      List.find?_cons]
    cases ah st x <;> rfl

/-- and backwards, from the tail through `prev`, in reverse order. -/
theorem applyPrev_linked (st : Heap E L D) (ah : Heap E L D → E → Bool) (xs : List E)
    (fuel : Nat) {a : Option E} (linked : Linked st none xs a) (room : xs.length ≤ fuel) :
    applyPrev st ah fuel xs.getLast? = xs.reverse.find? (ah st) := by
  induction xs using List.reverseRecOn generalizing fuel a with
  | nil => cases fuel <;> simp [applyPrev]
  | append_singleton xs x ih =>
    obtain ⟨fuel, rfl⟩ : ∃ f, fuel = f + 1 := ⟨fuel - 1, by simp at room; omega⟩
    obtain ⟨front, prev, -, -⟩ := (linked_append xs [x]).mp linked
    rw [Option.or_none] at prev
    rw [List.getLast?_concat, applyPrev, prev, ih fuel front (by simpa using room),
      List.reverse_append, List.reverse_singleton, List.singleton_append, List.find?_cons]
    cases ah st x <;> rfl

theorem Refines.listApply [Fintype E] (h : Refines st abs) (l : L) (fwd : Bool)
    (ah : Heap E L D → E → Bool) :
    listApply st l fwd ah = if fwd then (abs l).find? (ah st) else (abs l).reverse.find? (ah st) := by
  have holds := h.holds l
  cases fwd
  · rw [LinkedList.listApply, if_neg Bool.false_ne_true, if_neg Bool.false_ne_true, holds.tail,
      applyPrev_linked st ah _ _ holds.linked holds.nodup.length_le_card]
  · rw [LinkedList.listApply, if_pos rfl, if_pos rfl, holds.head,
      applyNext_linked st ah _ _ holds.linked holds.nodup.length_le_card]

end LoopProofs

/-! ## Runs from initialised lists -/

section Runs

variable [Fintype E] {st st' : Heap E L D}

/-- Every list as `list_init` leaves it and every element `LE_INIT`. -/
def emptyHeap : Heap E L D := ⟨fun _ => ⟨none, none, none, none⟩, fun _ => ⟨none, none⟩⟩

structure Initial (st : Heap E L D) : Prop where
  lists : ∀ l, st.list l = ⟨none, none⟩
  elems : ∀ e, (st.le e).prev = none ∧ (st.le e).next = none ∧ (st.le e).list = none

theorem initial_emptyHeap : Initial (emptyHeap : Heap E L D) :=
  ⟨fun _ => rfl, fun _ => ⟨rfl, rfl, rfl⟩⟩

/-- One call of an operation of `list.c`. The insertions next to an element are made with an
element of the list they name; every other operation takes any arguments. -/
inductive Step : Heap E L D → Heap E L D → Prop
  | append (st : Heap E L D) (l : L) (e : E) (data : Option D) : Step st (listAppend st l e data)
  | prepend (st : Heap E L D) (l : L) (e : E) (data : Option D) : Step st (listPrepend st l e data)
  | insertBefore (st : Heap E L D) (l : L) (a e : E) (data : Option D)
      (anchor : (st.le a).list = some l) : Step st (listInsertBefore st l a e data)
  | insertAfter (st : Heap E L D) (l : L) (a e : E) (data : Option D)
      (anchor : (st.le a).list = some l) : Step st (listInsertAfter st l a e data)
  | insertSorted (st : Heap E L D) (l : L) (sh : Heap E L D → E → E → Bool) (e : E)
      (data : Option D) : Step st (listInsertSorted st l sh e data)
  | unlink (st : Heap E L D) (e : E) : Step st (listUnlink st e)
  | sort (st : Heap E L D) (l : L) (sh : Heap E L D → E → E → Bool) (passes : Nat) :
      Step st (listSort st l sh passes)
  | flush (st : Heap E L D) (l : L) : Step st (listFlush st l)
  | clear (st : Heap E L D) (l : L) : Step st (listClear st l)

theorem Initial.refines (init : Initial st) : Refines st fun _ => [] := by
  refine ⟨fun l => ⟨by simp [init.lists l], by simp [init.lists l], List.nodup_nil, trivial,
    fun e => by simp [(init.elems e).2.2]⟩, fun e _ => ⟨(init.elems e).1, (init.elems e).2.1⟩⟩

theorem Step.good (step : Step st st') (h : Good st) : Good st' := by
  cases step with
  | append l e data => exact h.listAppend l e data
  | prepend l e data => exact h.listPrepend l e data
  | insertBefore l a e data anchor => exact h.listInsertBefore anchor e data
  | insertAfter l a e data anchor => exact h.listInsertAfter anchor e data
  | insertSorted l sh e data => exact h.listInsertSorted l sh e data
  | unlink e => exact h.listUnlink e
  | sort l sh passes => exact h.listSort l sh passes
  | flush l => exact h.listFlush l
  | clear l => exact h.listClear l

theorem Initial.good_of_run {st₀ : Heap E L D} (init : Initial st₀)
    (run : Relation.ReflTransGen Step st₀ st) : Good st := by
  induction run with
  | refl => exact ⟨_, init.refines⟩
  | tail _ step ih => exact step.good ih

/-- What the callers of `list.c` rely on, read off the heap: every list is a chain through
`next` from its head to its tail, with `prev` the way back, of distinct elements that are
exactly those pointing at the list, and counted by `list_count`; an element in no list, and
so one `list_unlink` is done with, points nowhere. -/
structure Wellformed (st : Heap E L D) : Prop where
  free : ∀ e, (st.le e).list = none → (st.le e).prev = none ∧ (st.le e).next = none
  ends : ∀ l, (st.list l).head = none ↔ (st.list l).tail = none
  chain : ∀ l, ∃ xs : List E, xs.Nodup ∧ Linked st none xs none ∧
    (st.list l).head = xs.head? ∧ (st.list l).tail = xs.getLast? ∧
    (∀ e, (st.le e).list = some l ↔ e ∈ xs) ∧ listCount st l = UInt32.ofNat xs.length
  unlinked : ∀ e, ((listUnlink st e).le e).prev = none ∧ ((listUnlink st e).le e).next = none ∧
    ((listUnlink st e).le e).list = none

theorem Refines.wellformed {abs : L → List E} (h : Refines st abs) : Wellformed st := by
  refine ⟨h.free, fun l => ?_, fun l => ?_, fun e => ?_⟩
  · rw [(h.holds l).head, (h.holds l).tail, List.head?_eq_none_iff, List.getLast?_eq_none_iff]
  · have holds := h.holds l
    exact ⟨abs l, holds.nodup, holds.linked, holds.head, holds.tail, holds.mem, h.listCount l⟩
  · cases linked : (st.le e).list with
    | none =>
      rw [listUnlink_of_free linked]
      exact ⟨(h.free e linked).1, (h.free e linked).2, linked⟩
    | some l =>
      obtain ⟨ys, zs, split⟩ := List.append_of_mem (((h.holds l).mem e).mp linked)
      have after := h.listUnlink split
      have gone : ((LinkedList.listUnlink st e).le e).list = none := listUnlink_list_self e
      exact ⟨(after.free e gone).1, (after.free e gone).2, gone⟩

theorem list_wellformed {st₀ : Heap E L D} (init : Initial st₀)
    (run : Relation.ReflTransGen Step st₀ st) : Wellformed st := by
  obtain ⟨abs, h⟩ := init.good_of_run run
  exact h.wellformed

theorem list_wellformed_append : Wellformed
    (listAppend (emptyHeap : Heap (Fin 2) Unit Unit) () 0 none) :=
  list_wellformed initial_emptyHeap (.single (.append _ () 0 none))

end Runs

end Libre.LinkedList
