import Libre.Lib.SortedInsert
import Libre.List.Link

set_option autoImplicit false

/-!
# Timers

`tmr/tmr.c`: a thread's timers wait in one linked list sorted by expiry, and `tmr_poll` calls the
handler of each timer that has expired. A timer holds its own list element; what a handler does is
the parameter `act` of `tmr_poll`. The locks and the debug `file` and `line` are left out.
-/

namespace Libre.Timer

open LinkedList

structure Tmr (H : Type) where
  jfs : Nat
  th : Option H
  active : Bool

structure Tmrl (T H : Type) where
  list : Heap T Unit T
  tmr : T → Tmr H

variable {T H : Type} [DecidableEq T]

def Tmrl.setTmr (s : Tmrl T H) (t : T) (f : Tmr H → Tmr H) : Tmrl T H :=
  { s with tmr := Function.update s.tmr t (f (s.tmr t)) }

@[simp] theorem Tmrl.setTmr_tmr (s : Tmrl T H) (t : T) (f : Tmr H → Tmr H) (u : T) :
    (s.setTmr t f).tmr u = if u = t then f (s.tmr t) else s.tmr u := by
  simp [Tmrl.setTmr, Function.update_apply]

@[simp] theorem Tmrl.setTmr_list (s : Tmrl T H) (t : T) (f : Tmr H → Tmr H) :
    (s.setTmr t f).list = s.list := rfl

/-- `list_ledata`: the timer an element of the list holds. -/
def ledata (list : Heap T Unit T) (le : Option T) : Option T :=
  le.bind fun le => (list.le le).data

def insposHandler (tmr : T → Tmr H) (now : Nat) (list : Heap T Unit T) (le : T) : Bool :=
  match ledata list (some le) with
  | some t => decide ((tmr t).jfs ≤ now)
  | none => false

def insposHandler0 (tmr : T → Tmr H) (now : Nat) (list : Heap T Unit T) (le : T) : Bool :=
  match ledata list (some le) with
  | some t => decide ((tmr t).jfs > now)
  | none => false

section Ops

variable [Fintype T]

/-- The first half of `tmr_startcont_dbg`, under the old list lock: the timer stops, and leaves
the list if it was running. -/
def startUnlink (s : Tmrl T H) (t : T) : Tmrl T H :=
  let s := s.setTmr t fun x => { x with active := false }
  if (s.tmr t).th.isSome then { s with list := listUnlink s.list t } else s

/-- Where `tmr_startcont_dbg` links a timer: with `delay = 0` the place is found from the front,
in front of the first timer that expires later; otherwise from the back, behind the last timer
that expires no later. -/
def startLink (s : Tmrl T H) (t : T) (delay : Nat) : Heap T Unit T :=
  let jfs := (s.tmr t).jfs
  if delay = 0 then
    match listApply s.list () true (insposHandler0 s.tmr jfs) with
    | some le => listInsertBefore s.list () le t (some t)
    | none => listAppend s.list () t (some t)
  else
    match listApply s.list () false (insposHandler s.tmr jfs) with
    | some le => listInsertAfter s.list () le t (some t)
    | none => listPrepend s.list () t (some t)

/-- The second half, under the current list lock, once the handler is set: the expiry, the place
in the list, and the timer running again. -/
def startInsert (s : Tmrl T H) (t : T) (delay : Nat) (syncnow : Bool) (now : Nat) : Tmrl T H :=
  let s := if syncnow then s.setTmr t fun x => { x with jfs := now } else s
  let s := s.setTmr t fun x => { x with jfs := (x.jfs + delay) % 2 ^ 64 }
  ({ s with list := startLink s t delay } : Tmrl T H).setTmr t fun x => { x with active := true }

def tmrStartcont (s : Tmrl T H) (t : T) (delay : Nat) (syncnow : Bool) (th : Option H)
    (now : Nat) : Tmrl T H :=
  -- a cancel of a timer that is not running does nothing
  if !(s.tmr t).active && th.isNone then s
  else
    let s := (startUnlink s t).setTmr t fun x => { x with th := th }
    if th.isNone then s else startInsert s t delay syncnow now

/-- `tmr_start`: the expiry counts from the clock reading `now`. -/
def tmrStart (s : Tmrl T H) (t : T) (delay : Nat) (th : Option H) (now : Nat) : Tmrl T H :=
  tmrStartcont s t delay true th now

/-- `tmr_continue`: the expiry counts from the previous one; the clock is not read. -/
def tmrContinue (s : Tmrl T H) (t : T) (delay : Nat) (th : Option H) : Tmrl T H :=
  tmrStartcont s t delay false th 0

def tmrCancel (s : Tmrl T H) (t : T) : Tmrl T H :=
  tmrStart s t 0 none 0

/-- The body of `tmr_poll`'s loop once its timer has expired: `th` is cleared and the timer
unlinked before its handler runs. -/
def pollDisarm (s : Tmrl T H) (t : T) : Tmrl T H :=
  let s := s.setTmr t fun x => { x with th := none }
  { s with list := listUnlink s.list t }

/-- The loop of `tmr_poll` with the clock reading `jfs`, listing the handlers it calls. It runs as
long as the first timer has expired, which a handler that starts timers can make forever; the
model runs `fuel` rounds. -/
def pollLoop (act : H → Tmrl T H → Tmrl T H) (jfs : Nat) :
    Nat → Tmrl T H → List (T × H) → Tmrl T H × List (T × H)
  | 0, s, fired => (s, fired)
  | fuel + 1, s, fired =>
    match ledata s.list (s.list.list ()).head with
    | none => (s, fired)
    | some t =>
      if (s.tmr t).jfs > jfs then (s, fired)
      else
        match (s.tmr t).th with
        | none => pollLoop act jfs fuel (pollDisarm s t) fired
        | some h => pollLoop act jfs fuel (act h (pollDisarm s t)) (fired ++ [(t, h)])

def tmrPoll (act : H → Tmrl T H → Tmrl T H) (fuel : Nat) (s : Tmrl T H) (jfs : Nat) :
    Tmrl T H × List (T × H) :=
  pollLoop act jfs fuel s []

def tmrNextTimeout (s : Tmrl T H) (jif : Nat) : Nat :=
  match ledata s.list (s.list.list ()).head with
  | none => 0
  | some t => if (s.tmr t).jfs ≤ jif then 1 else (s.tmr t).jfs - jif

def tmrlCount (s : Tmrl T H) : UInt32 := listCount s.list ()

end Ops

/-! ## The timer list

`Good s xs`: the list holds the timers `xs` in order of expiry, exactly the running timers with a
handler. `Apart` is the state between the two halves of a start. -/

section Invariant

def expiry (s : Tmrl T H) (t : T) : Nat := (s.tmr t).jfs

structure Good (s : Tmrl T H) (xs : List T) : Prop where
  refines : Refines s.list fun _ => xs
  data : ∀ t ∈ xs, (s.list.le t).data = some t
  sorted : SortedInsert.Sorted (expiry s) xs
  armed : ∀ t, t ∈ xs ↔ (s.tmr t).th.isSome
  active : ∀ t, (s.tmr t).th.isSome → (s.tmr t).active

structure Apart (s : Tmrl T H) (t : T) (xs : List T) : Prop where
  refines : Refines s.list fun _ => xs
  data : ∀ u ∈ xs, (s.list.le u).data = some u
  sorted : SortedInsert.Sorted (expiry s) xs
  armed : ∀ u, u ≠ t → (u ∈ xs ↔ (s.tmr u).th.isSome)
  active : ∀ u, u ≠ t → (s.tmr u).th.isSome → (s.tmr u).active
  out : t ∉ xs

theorem update_unit {α : Type} (f : Unit → α) (a : α) : Function.update f () a = fun _ => a := by
  funext u
  simp

omit [DecidableEq T] in
theorem sorted_congr {k k' : T → Nat} {xs : List T} (same : ∀ u ∈ xs, k' u = k u)
    (h : SortedInsert.Sorted k xs) : SortedInsert.Sorted k' xs :=
  h.imp_of_mem fun ha hb le => by rw [same _ ha, same _ hb]; exact le

theorem not_of_not_decide {p : Prop} [Decidable p] (h : (!decide p) = true) : ¬ p := by
  simpa using h

omit [DecidableEq T] in
theorem Apart.free {s : Tmrl T H} {t : T} {xs : List T} (a : Apart s t xs) :
    (s.list.le t).list = none := by
  cases hl : (s.list.le t).list with
  | none => rfl
  | some u => exact absurd (((a.refines.holds ()).mem t).mp hl) a.out

theorem Apart.setTmr {s : Tmrl T H} {t : T} {xs : List T} (a : Apart s t xs) (f : Tmr H → Tmr H) :
    Apart (s.setTmr t f) t xs := by
  have other : ∀ u, u ≠ t → (s.setTmr t f).tmr u = s.tmr u := fun u hu => by simp [hu]
  refine ⟨a.refines, a.data, sorted_congr (fun u hu => ?_) a.sorted, fun u hu => ?_,
    fun u hu => ?_, a.out⟩
  · simp only [expiry, other u fun eq => a.out (eq ▸ hu)]
  · rw [other u hu]
    exact a.armed u hu
  · rw [other u hu]
    exact a.active u hu

theorem Apart.good {s : Tmrl T H} {t : T} {xs : List T} (a : Apart s t xs)
    (none' : (s.tmr t).th = none) : Good s xs := by
  refine ⟨a.refines, a.data, a.sorted, fun u => ?_, fun u hu => ?_⟩
  · by_cases ut : u = t
    · subst ut
      simp [a.out, none']
    · exact a.armed u ut
  · have ut : u ≠ t := by
      rintro rfl
      simp [none'] at hu
    exact a.active u ut hu

variable [Fintype T]

omit [Fintype T] in
theorem Good.startUnlink {s : Tmrl T H} {xs : List T} (g : Good s xs) (t : T) :
    Apart (Timer.startUnlink s t) t (xs.erase t) := by
  have nodup := (g.refines.holds ()).nodup
  have sub : ∀ u ∈ xs.erase t, u ≠ t ∧ u ∈ xs := fun u hu => nodup.mem_erase_iff.mp hu
  have unlinked : Refines (Timer.startUnlink s t).list (fun _ => xs.erase t) ∧
      ∀ u ∈ xs.erase t, ((Timer.startUnlink s t).list.le u).data = some u := by
    by_cases armed : (s.tmr t).th.isSome
    · obtain ⟨ys, zs, split⟩ := List.append_of_mem ((g.armed t).mpr armed)
      have erased : xs.erase t = ys ++ zs := by
        rw [split, List.erase_append_right _ fun mem =>
          (List.nodup_middle.mp (split ▸ nodup) |> List.nodup_cons.mp).1 (List.mem_append_left _ mem),
          List.erase_cons_head]
      have step := g.refines.listUnlink (l := ()) split
      rw [update_unit] at step
      simp only [Timer.startUnlink, Tmrl.setTmr_tmr, if_pos, armed, erased]
      refine ⟨step, fun u hu => ?_⟩
      rw [listUnlink_data]
      exact g.data u ((sub u (erased ▸ hu)).2)
    · have out : t ∉ xs := fun mem => armed ((g.armed t).mp mem)
      simp only [Timer.startUnlink, Tmrl.setTmr_tmr, if_pos, Bool.not_eq_true] at armed ⊢
      simp only [armed, Bool.false_eq_true, if_false, Tmrl.setTmr_list,
        List.erase_of_not_mem out]
      exact ⟨g.refines, g.data⟩
  have other : ∀ u, u ≠ t → (Timer.startUnlink s t).tmr u = s.tmr u := by
    intro u hu
    unfold Timer.startUnlink
    dsimp only
    split <;> simp [hu]
  refine ⟨unlinked.1, unlinked.2, sorted_congr (fun u hu => ?_) (g.sorted.sublist List.erase_sublist),
    fun u hu => ?_, fun u hu => ?_, nodup.not_mem_erase⟩
  · simp only [expiry, other u (sub u hu).1]
  · rw [other u hu, nodup.mem_erase_iff]
    simp [hu, g.armed u]
  · rw [other u hu]
    exact g.active u

theorem Apart.apply_front {s : Tmrl T H} {t : T} {xs : List T} (a : Apart s t xs) (k : Nat) :
    listApply s.list () true (insposHandler0 s.tmr k) = xs.find? fun u => decide (k < expiry s u) := by
  rw [a.refines.listApply, if_pos rfl]
  exact List.find?_congr fun u hu => by
    simp only [insposHandler0, ledata, Option.bind_some, a.data u hu]
    rfl

theorem Apart.apply_back {s : Tmrl T H} {t : T} {xs : List T} (a : Apart s t xs) (k : Nat) :
    listApply s.list () false (insposHandler s.tmr k) =
      xs.reverse.find? fun u => decide (expiry s u ≤ k) := by
  rw [a.refines.listApply, if_neg Bool.false_ne_true]
  exact List.find?_congr fun u hu => by
    simp only [insposHandler, ledata, Option.bind_some, a.data u (List.mem_reverse.mp hu)]
    rfl

theorem startLink_data (s : Tmrl T H) (t : T) (delay : Nat) (u : T) :
    ((startLink s t delay).le u).data =
      if u = t ∧ (s.list.le t).list = none then some t else (s.list.le u).data := by
  unfold startLink
  dsimp only
  by_cases d : delay = 0
  · rw [if_pos d]
    cases listApply s.list () true (insposHandler0 s.tmr (s.tmr t).jfs) <;>
      simp only [listInsertBefore_data, listAppend_data]
  · rw [if_neg d]
    cases listApply s.list () false (insposHandler s.tmr (s.tmr t).jfs) <;>
      simp only [listInsertAfter_data, listPrepend_data]

/-- Both scans link the timer where `SortedInsert.insert` puts it: behind every timer that expires
no later, in front of every one that expires later. -/
theorem Apart.startLink {s : Tmrl T H} {t : T} {xs : List T} (a : Apart s t xs) (delay : Nat) :
    Refines (Timer.startLink s t delay) fun _ => SortedInsert.insert (expiry s) t xs := by
  have free := a.free
  unfold Timer.startLink
  dsimp only
  split
  · rw [a.apply_front]
    split
    · rename_i b found
      obtain ⟨lt, ys, zs, split, before⟩ := List.find?_eq_some_iff_append.mp found
      have step : Refines (listInsertBefore s.list () b t (some t)) _ :=
        a.refines.listInsertBefore split free
      rw [update_unit] at step
      rw [split, SortedInsert.insert_before (fun y hy => not_of_not_decide (before y hy))
        (of_decide_eq_true lt)]
      exact step
    · rename_i found
      have step : Refines (listAppend s.list () t (some t)) _ := a.refines.listAppend free
      rw [update_unit] at step
      rw [SortedInsert.insert_last fun y hy lt => List.find?_eq_none.mp found y hy (decide_eq_true lt)]
      exact step
  · rw [a.apply_back]
    split
    · rename_i b found
      obtain ⟨le, ys, zs, split, after⟩ := SortedInsert.find?_reverse_eq_some found
      have step : Refines (listInsertAfter s.list () b t (some t)) _ :=
        a.refines.listInsertAfter split free
      rw [update_unit] at step
      rw [split, SortedInsert.insert_after (split ▸ a.sorted) (of_decide_eq_true le)
        fun z hz => not_le.mp fun le => after z hz (decide_eq_true le)]
      exact step
    · rename_i found
      have step : Refines (listPrepend s.list () t (some t)) _ := a.refines.listPrepend free
      rw [update_unit] at step
      rw [SortedInsert.insert_first fun y hy => not_le.mp fun le =>
        List.find?_eq_none.mp found y (List.mem_reverse.mpr hy) (decide_eq_true le)]
      exact step

theorem Apart.linked {s : Tmrl T H} {t : T} {xs : List T} (a : Apart s t xs)
    (armed : (s.tmr t).th.isSome) (delay : Nat) :
    Good (({ s with list := Timer.startLink s t delay } : Tmrl T H).setTmr t
      fun x => { x with active := true })
      (SortedInsert.insert (expiry (({ s with list := Timer.startLink s t delay } : Tmrl T H).setTmr t
        fun x => { x with active := true })) t xs) := by
  have key : expiry (({ s with list := Timer.startLink s t delay } : Tmrl T H).setTmr t
      fun x => { x with active := true }) = expiry s := by
    funext u
    by_cases ut : u = t <;> simp [expiry, ut]
  rw [key]
  refine ⟨a.startLink delay, fun u hu => ?_, key ▸ a.sorted.insert t, fun u => ?_, fun u hu => ?_⟩
  · rw [Tmrl.setTmr_list, startLink_data]
    rcases SortedInsert.mem_insert.mp hu with rfl | mem
    · simp [a.free]
    · rw [if_neg (by rintro ⟨ut, -⟩; exact a.out (ut ▸ mem))]
      exact a.data u mem
  · rw [SortedInsert.mem_insert]
    by_cases ut : u = t
    · simp [ut, armed]
    · simp [ut, a.armed u ut]
  · by_cases ut : u = t
    · simp [ut]
    · simp only [Tmrl.setTmr_tmr, if_neg ut] at hu ⊢
      exact a.active u ut hu

theorem Apart.startInsert {s : Tmrl T H} {t : T} {xs : List T} (a : Apart s t xs)
    (armed : (s.tmr t).th.isSome) (delay : Nat) (syncnow : Bool) (now : Nat) :
    Good (Timer.startInsert s t delay syncnow now)
      (SortedInsert.insert (expiry (Timer.startInsert s t delay syncnow now)) t xs) := by
  unfold Timer.startInsert
  dsimp only
  cases syncnow
  · rw [if_neg Bool.false_ne_true]
    refine (a.setTmr _).linked ?_ delay
    simpa using armed
  · rw [if_pos rfl]
    refine ((a.setTmr _).setTmr _).linked ?_ delay
    simpa using armed

/-- A start or a cancel: a timer given a handler is linked where `SortedInsert.insert` puts it;
without one it only leaves the list. -/
theorem Good.tmrStartcont {s : Tmrl T H} {xs : List T} (g : Good s xs) (t : T) (delay : Nat)
    (syncnow : Bool) (th : Option H) (now : Nat) :
    Good (Timer.tmrStartcont s t delay syncnow th now)
      (if th.isSome then
        SortedInsert.insert (expiry (Timer.tmrStartcont s t delay syncnow th now)) t (xs.erase t)
      else xs.erase t) := by
  unfold Timer.tmrStartcont
  split
  · -- a cancel of a timer that is not running: it has no handler, so it is not in the list
    rename_i idle
    simp only [Bool.and_eq_true, Bool.not_eq_true', Option.isNone_iff_eq_none] at idle
    have out : t ∉ xs := fun mem => by
      have := g.active t ((g.armed t).mp mem)
      simp_all
    simp only [idle.2, Option.isSome_none, Bool.false_eq_true, if_false, List.erase_of_not_mem out]
    exact g
  · dsimp only
    cases th with
    | none =>
      simp only [Option.isNone_none, Option.isSome_none, if_true, Bool.false_eq_true, if_false]
      refine ((g.startUnlink t).setTmr _).good ?_
      simp
    | some h =>
      simp only [Option.isNone_some, Option.isSome_some, if_true, Bool.false_eq_true, if_false]
      refine ((g.startUnlink t).setTmr _).startInsert ?_ delay syncnow now
      simp

end Invariant

/-! ## The poll loop -/

section Poll

variable {s : Tmrl T H} {xs : List T}

omit [DecidableEq T] in
theorem Good.ledata_head (g : Good s xs) : ledata s.list (s.list.list ()).head = xs.head? := by
  rw [(g.refines.holds ()).head]
  cases xs with
  | nil => rfl
  | cons t rest => exact g.data t List.mem_cons_self

omit [DecidableEq T] in
theorem Good.late {jfs : Nat} (g : Good s xs) (late : ∀ t ∈ xs.head?, jfs < expiry s t) :
    ∀ t, (s.tmr t).th.isSome → jfs < expiry s t := by
  intro u armed
  cases xs with
  | nil => exact absurd ((g.armed u).mpr armed) List.not_mem_nil
  | cons t rest =>
    have first := late t rfl
    rcases List.mem_cons.mp ((g.armed u).mpr armed) with rfl | mem
    · exact first
    · exact first.trans_le ((List.pairwise_cons.mp g.sorted).1 u mem)

theorem Good.pollDisarm {t : T} {rest : List T} (g : Good s (t :: rest)) :
    Good (Timer.pollDisarm s t) rest := by
  have nodup := List.nodup_cons.mp (g.refines.holds ()).nodup
  have step := g.refines.listUnlink (l := ()) (List.nil_append (t :: rest)).symm
  rw [update_unit] at step
  have other : ∀ u, u ≠ t → (Timer.pollDisarm s t).tmr u = s.tmr u := fun u hu => by
    simp [Timer.pollDisarm, hu]
  refine ⟨step, fun u hu => ?_, ?_, fun u => ?_, fun u hu => ?_⟩
  · simp only [Timer.pollDisarm, listUnlink_data, Tmrl.setTmr_list]
    exact g.data u (List.mem_cons_of_mem t hu)
  · refine sorted_congr (fun u hu => ?_) (List.pairwise_cons.mp g.sorted).2
    simp only [expiry, other u fun eq => nodup.1 (eq ▸ hu)]
  · by_cases ut : u = t
    · subst ut
      simp [Timer.pollDisarm, nodup.1]
    · rw [other u ut, ← g.armed u, List.mem_cons]
      simp [ut]
  · have ut : u ≠ t := by
      rintro rfl
      simp [Timer.pollDisarm] at hu
    rw [other u ut] at hu ⊢
    exact g.active u hu

theorem Good.pollLoop_stop (act : H → Tmrl T H → Tmrl T H) {jfs : Nat} (g : Good s xs)
    (late : ∀ t ∈ xs.head?, jfs < expiry s t) (fuel : Nat) (fired : List (T × H)) :
    pollLoop act jfs (fuel + 1) s fired = (s, fired) := by
  rw [pollLoop, g.ledata_head]
  cases xs with
  | nil => rfl
  | cons t rest => exact if_pos (late t rfl)

theorem Good.pollLoop_fire (act : H → Tmrl T H → Tmrl T H) {jfs : Nat} {t : T} {rest : List T}
    (g : Good s (t :: rest)) (due : expiry s t ≤ jfs) (fuel : Nat) (fired : List (T × H)) :
    ∃ h, (s.tmr t).th = some h ∧
      pollLoop act jfs (fuel + 1) s fired =
        pollLoop act jfs fuel (act h (Timer.pollDisarm s t)) (fired ++ [(t, h)]) := by
  obtain ⟨h, th⟩ := Option.isSome_iff_exists.mp ((g.armed t).mp List.mem_cons_self)
  refine ⟨h, th, ?_⟩
  rw [pollLoop, g.ledata_head, List.head?_cons]
  simp only [gt_iff_lt, th]
  exact if_neg (not_lt.mpr due)

end Poll

/-! ## Runs

A poll may be cut after any round: the states inside a poll are states of the run too. -/

section Runs

variable [Fintype T] {s s' s₀ : Tmrl T H} {xs : List T}

inductive ApiStep : Tmrl T H → Tmrl T H → Prop
  | start (s : Tmrl T H) (t : T) (delay : Nat) (th : Option H) (now : Nat) :
      ApiStep s (tmrStart s t delay th now)
  | cont (s : Tmrl T H) (t : T) (delay : Nat) (th : Option H) :
      ApiStep s (tmrContinue s t delay th)
  | cancel (s : Tmrl T H) (t : T) : ApiStep s (tmrCancel s t)

/-- What a handler does to the timers: calls of the API, in a single thread. -/
def Calls : Tmrl T H → Tmrl T H → Prop := Relation.ReflTransGen ApiStep

inductive Step (act : H → Tmrl T H → Tmrl T H) : Tmrl T H → Tmrl T H → Prop
  | api {s s' : Tmrl T H} : ApiStep s s' → Step act s s'
  | poll (s : Tmrl T H) (fuel jfs : Nat) : Step act s (tmrPoll act fuel s jfs).1

structure Initial (s : Tmrl T H) : Prop where
  list : LinkedList.Initial s.list
  th : ∀ t, (s.tmr t).th = none

/-- Timers as `tmr_init` leaves them, and an empty list. -/
def emptyTmrl : Tmrl T H := ⟨emptyHeap, fun _ => ⟨0, none, false⟩⟩

theorem initial_emptyTmrl : Initial (emptyTmrl : Tmrl T H) := ⟨initial_emptyHeap, fun _ => rfl⟩

theorem Initial.good (init : Initial s) : Good s [] :=
  ⟨init.list.refines, fun _ mem => absurd mem List.not_mem_nil, List.Pairwise.nil,
    fun t => by simp [init.th t], fun t armed => by simp [init.th t] at armed⟩

theorem ApiStep.good (step : ApiStep s s') (g : Good s xs) : ∃ ys, Good s' ys := by
  cases step with
  | start t delay th now => exact ⟨_, g.tmrStartcont t delay true th now⟩
  | cont t delay th => exact ⟨_, g.tmrStartcont t delay false th 0⟩
  | cancel t => exact ⟨_, g.tmrStartcont t 0 true none 0⟩

theorem Calls.good (calls : Calls s s') (g : Good s xs) : ∃ ys, Good s' ys := by
  induction calls with
  | refl => exact ⟨xs, g⟩
  | tail _ step ih =>
    obtain ⟨ys, g'⟩ := ih
    exact step.good g'

/-- Every round of a poll keeps the list `Good`, whatever its handlers start or cancel. -/
theorem Good.pollLoop (act : H → Tmrl T H → Tmrl T H) (calls : ∀ h s, Calls s (act h s))
    (jfs fuel : Nat) (fired : List (T × H)) (g : Good s xs) :
    ∃ ys, Good (Timer.pollLoop act jfs fuel s fired).1 ys := by
  induction fuel generalizing s xs fired with
  | zero => exact ⟨xs, g⟩
  | succ fuel ih =>
    cases xs with
    | nil =>
      rw [g.pollLoop_stop act (by simp)]
      exact ⟨[], g⟩
    | cons t rest =>
      by_cases due : expiry s t ≤ jfs
      · obtain ⟨h, -, round⟩ := g.pollLoop_fire act due fuel fired
        rw [round]
        obtain ⟨ys, g'⟩ := (calls h _).good g.pollDisarm
        exact ih _ g'
      · rw [g.pollLoop_stop act fun u hu => Option.some.inj hu ▸ not_le.mp due]
        exact ⟨_, g⟩

theorem Initial.good_of_run (act : H → Tmrl T H → Tmrl T H) (calls : ∀ h s, Calls s (act h s))
    (init : Initial s₀) (run : Relation.ReflTransGen (Step act) s₀ s) : ∃ xs, Good s xs := by
  induction run with
  | refl => exact ⟨[], init.good⟩
  | tail _ step ih =>
    obtain ⟨xs, g⟩ := ih
    cases step with
    | api step => exact step.good g
    | poll fuel jfs => exact g.pollLoop act calls jfs fuel []

/-- What `tmr.c` keeps of its list, in a state whose list holds `xs`: the timers in order of
expiry, exactly those with a handler, each once; a start links its timer behind every timer that
expires no later and in front of every one that expires later, a cancel takes it out; and each
round of `tmr_poll` looks at the first timer only, calling the handler it holds at that moment
if it has expired and stopping, with no running timer expired, if not. -/
structure Queue (act : H → Tmrl T H → Tmrl T H) (s : Tmrl T H) (xs : List T) : Prop where
  refines : Refines s.list fun _ => xs
  sorted : SortedInsert.Sorted (expiry s) xs
  armed : ∀ t, t ∈ xs ↔ (s.tmr t).th.isSome
  start : ∀ t delay syncnow th now, th.isSome →
    Refines (tmrStartcont s t delay syncnow th now).list
      fun _ => SortedInsert.insert (expiry (tmrStartcont s t delay syncnow th now)) t (xs.erase t)
  cancel : ∀ t delay syncnow now,
    Refines (tmrStartcont s t delay syncnow none now).list fun _ => xs.erase t
  stop : ∀ jfs fuel fired, (∀ t ∈ xs.head?, jfs < expiry s t) →
    pollLoop act jfs (fuel + 1) s fired = (s, fired) ∧
      ∀ t, (s.tmr t).th.isSome → jfs < expiry s t
  fire : ∀ t rest jfs fuel fired, xs = t :: rest → expiry s t ≤ jfs →
    ∃ h, (s.tmr t).th = some h ∧
      pollLoop act jfs (fuel + 1) s fired =
        pollLoop act jfs fuel (act h (pollDisarm s t)) (fired ++ [(t, h)]) ∧
      Refines (pollDisarm s t).list (fun _ => rest) ∧ ((pollDisarm s t).tmr t).th = none

theorem Good.queue (act : H → Tmrl T H → Tmrl T H) (g : Good s xs) : Queue act s xs := by
  refine ⟨g.refines, g.sorted, g.armed, fun t delay syncnow th now armed => ?_,
    fun t delay syncnow now => ?_, fun jfs fuel fired late => ⟨g.pollLoop_stop act late fuel fired,
    g.late late⟩, fun t rest jfs fuel fired split due => ?_⟩
  · have started := (g.tmrStartcont t delay syncnow th now).refines
    rwa [if_pos armed] at started
  · exact (g.tmrStartcont t delay syncnow none now).refines
  · subst split
    obtain ⟨h, th, round⟩ := g.pollLoop_fire act due fuel fired
    exact ⟨h, th, round, g.pollDisarm.refines, by simp [Timer.pollDisarm]⟩

theorem tmr_queue (act : H → Tmrl T H → Tmrl T H) (calls : ∀ h s, Calls s (act h s))
    (init : Initial s₀) (run : Relation.ReflTransGen (Step act) s₀ s) : ∃ xs, Queue act s xs := by
  obtain ⟨xs, g⟩ := init.good_of_run act calls run
  exact ⟨xs, g.queue act⟩

theorem tmr_queue_start : ∃ xs, Queue (fun _ s => s)
    (tmrStart (emptyTmrl : Tmrl (Fin 2) Unit) 0 5 (some ()) 0) xs :=
  tmr_queue (fun _ s => s) (fun _ _ => .refl) initial_emptyTmrl
    (.single (.api (.start _ 0 5 (some ()) 0)))

/-- A handler that cancels timer `1`. -/
def cancelOne (h : Bool) (s : Tmrl (Fin 2) Bool) : Tmrl (Fin 2) Bool :=
  if h then tmrCancel s 1 else s

/-- Two timers started at 0 to expire at 5, the first with the handler that cancels the second. -/
def twoDue : Tmrl (Fin 2) Bool :=
  tmrStart (tmrStart emptyTmrl 0 5 (some true) 0) 1 5 (some false) 0

/-- A poll at 10 calls the first handler only, and ends with the list empty: the second timer was
running and expired when the poll began, and its handler is never called. -/
theorem tmr_poll_cancelled_due :
    (∀ h s, Calls s (cancelOne h s)) ∧ Relation.ReflTransGen (Step cancelOne) emptyTmrl twoDue ∧
      (twoDue.tmr 1).th = some false ∧ expiry twoDue 1 ≤ 10 ∧
      ((tmrPoll cancelOne 2 twoDue 10).1.list.list ()).head = none ∧
      (tmrPoll cancelOne 2 twoDue 10).2 = [(0, true)] := by
  refine ⟨fun h s => ?_, ?_, by decide, by decide, by decide, by decide⟩
  · cases h with
    | false => exact .refl
    | true => exact .single (.cancel s 1)
  · exact .tail (.single (.api (.start _ 0 5 (some true) 0))) (.api (.start _ 1 5 (some false) 0))

end Runs

end Libre.Timer
