import Mathlib

set_option autoImplicit false

/-!
# Reassembling a stream of messages

A sender writes messages `ws` back to back; the receiver sees their concatenation in pieces. Once
the first `n` elements have arrived, the first `wholeIn ws n` messages are complete, they take
`doneIn ws n` elements, and the `pendingAfter ws n` elements after them, the start of the next
message, wait for the rest. The receiver's bookkeeping after a second piece of `r` elements is
the same as if it had the first `n + r` at once (`wholeIn_add`, `doneIn_add`).
-/

namespace Reassembly

variable {α : Type}

def wholeIn : List (List α) → Nat → Nat
  | [], _ => 0
  | w :: ws, n => if w.length ≤ n then wholeIn ws (n - w.length) + 1 else 0

def doneIn (ws : List (List α)) (n : Nat) : Nat := (ws.take (wholeIn ws n)).flatten.length

def pendingAfter (ws : List (List α)) (n : Nat) : Nat := n - doneIn ws n

@[simp] theorem wholeIn_nil (n : Nat) : wholeIn ([] : List (List α)) n = 0 := rfl

theorem wholeIn_cons_of_le {w : List α} {ws : List (List α)} {n : Nat} (fits : w.length ≤ n) :
    wholeIn (w :: ws) n = wholeIn ws (n - w.length) + 1 := by
  simp [wholeIn, fits]

theorem wholeIn_cons_of_lt {w : List α} {ws : List (List α)} {n : Nat} (short : n < w.length) :
    wholeIn (w :: ws) n = 0 := by
  simp [wholeIn, Nat.not_le.mpr short]

theorem doneIn_cons_of_le {w : List α} {ws : List (List α)} {n : Nat} (fits : w.length ≤ n) :
    doneIn (w :: ws) n = w.length + doneIn ws (n - w.length) := by
  simp [doneIn, wholeIn_cons_of_le fits]

theorem doneIn_cons_of_lt {w : List α} {ws : List (List α)} {n : Nat} (short : n < w.length) :
    doneIn (w :: ws) n = 0 := by
  simp [doneIn, wholeIn_cons_of_lt short]

theorem pendingAfter_cons_of_le {w : List α} {ws : List (List α)} {n : Nat} (fits : w.length ≤ n) :
    pendingAfter (w :: ws) n = pendingAfter ws (n - w.length) := by
  simp [pendingAfter, doneIn_cons_of_le fits, Nat.sub_sub]

theorem pendingAfter_cons_of_lt {w : List α} {ws : List (List α)} {n : Nat} (short : n < w.length) :
    pendingAfter (w :: ws) n = n := by
  simp [pendingAfter, doneIn_cons_of_lt short]

theorem doneIn_le (ws : List (List α)) (n : Nat) : doneIn ws n ≤ n := by
  induction ws generalizing n with
  | nil => simp [doneIn]
  | cons w ws ih =>
    by_cases fits : w.length ≤ n
    · rw [doneIn_cons_of_le fits]
      have := ih (n - w.length)
      omega
    · rw [doneIn_cons_of_lt (by omega)]
      omega

theorem wholeIn_le (ws : List (List α)) (nonempty : ∀ w ∈ ws, w ≠ []) (n : Nat) :
    wholeIn ws n ≤ n := by
  induction ws generalizing n with
  | nil => simp
  | cons w ws ih =>
    by_cases fits : w.length ≤ n
    · have one : 0 < w.length := List.length_pos_iff.mpr (nonempty w (by simp))
      rw [wholeIn_cons_of_le fits]
      have := ih (fun v hv => nonempty v (by simp [hv])) (n - w.length)
      omega
    · rw [wholeIn_cons_of_lt (by omega)]
      omega

/-- Two pieces: the messages whole after both are those whole after the first, then those the
rest of the stream makes whole with the second piece. -/
theorem wholeIn_add (ws : List (List α)) (n r : Nat) :
    wholeIn ws (n + r) =
      wholeIn ws n + wholeIn (ws.drop (wholeIn ws n)) (n - doneIn ws n + r) := by
  induction ws generalizing n with
  | nil => simp
  | cons w ws ih =>
    by_cases fits : w.length ≤ n
    · rw [wholeIn_cons_of_le fits, wholeIn_cons_of_le (by omega), doneIn_cons_of_le fits,
        List.drop_succ_cons, show n + r - w.length = n - w.length + r by omega, ih, ← Nat.sub_sub]
      omega
    · rw [show wholeIn (w :: ws) n = 0 from wholeIn_cons_of_lt (by omega),
        show doneIn (w :: ws) n = 0 from doneIn_cons_of_lt (by omega)]
      simp

theorem doneIn_add (ws : List (List α)) (n r : Nat) :
    doneIn ws (n + r) = doneIn ws n + doneIn (ws.drop (wholeIn ws n)) (n - doneIn ws n + r) := by
  induction ws generalizing n with
  | nil => simp [doneIn]
  | cons w ws ih =>
    by_cases fits : w.length ≤ n
    · rw [doneIn_cons_of_le fits, doneIn_cons_of_le (by omega), wholeIn_cons_of_le fits,
        List.drop_succ_cons, show n + r - w.length = n - w.length + r by omega, ih, ← Nat.sub_sub]
      omega
    · rw [show wholeIn (w :: ws) n = 0 from wholeIn_cons_of_lt (by omega),
        show doneIn (w :: ws) n = 0 from doneIn_cons_of_lt (by omega)]
      simp

/-- What waits after the whole messages is a proper start of the next one. -/
theorem wholeIn_pending (ws : List (List α)) (n : Nat) :
    wholeIn (ws.drop (wholeIn ws n)) (pendingAfter ws n) = 0 := by
  have split := wholeIn_add ws n 0
  simp only [Nat.add_zero] at split
  unfold pendingAfter
  omega

theorem pendingAfter_add (ws : List (List α)) (n r : Nat) :
    pendingAfter ws (n + r) = pendingAfter (ws.drop (wholeIn ws n)) (pendingAfter ws n + r) := by
  have split := doneIn_add ws n r
  have le := doneIn_le ws n
  unfold pendingAfter
  omega

/-- With nothing whole among the first `n` elements and no element after them, nothing was
sent: every message has an element. -/
theorem eq_nil_of_wholeIn (ws : List (List α)) (nonempty : ∀ w ∈ ws, w ≠ []) (n : Nat)
    (none : wholeIn ws n = 0) (all : ws.flatten.length ≤ n) : ws = [] := by
  cases ws with
  | nil => rfl
  | cons w ws =>
    have fits : w.length ≤ n := by simp only [List.flatten_cons, List.length_append] at all; omega
    rw [wholeIn_cons_of_le fits] at none
    omega

theorem drop_flatten (ws : List (List α)) (n : Nat) :
    ws.flatten.drop n = (ws.drop (wholeIn ws n)).flatten.drop (pendingAfter ws n) := by
  induction ws generalizing n with
  | nil => simp
  | cons w ws ih =>
    by_cases fits : w.length ≤ n
    · rw [wholeIn_cons_of_le fits, List.flatten_cons, List.drop_append, List.drop_of_length_le fits,
        List.nil_append, ih, List.drop_succ_cons, pendingAfter_cons_of_le fits]
    · rw [wholeIn_cons_of_lt (by omega), pendingAfter_cons_of_lt (by omega), List.drop_zero]

theorem take_flatten (ws : List (List α)) (n : Nat) :
    ws.flatten.take n =
      (ws.take (wholeIn ws n)).flatten ++ (ws.drop (wholeIn ws n)).flatten.take (pendingAfter ws n) := by
  induction ws generalizing n with
  | nil => simp
  | cons w ws ih =>
    by_cases fits : w.length ≤ n
    · rw [wholeIn_cons_of_le fits, List.flatten_cons, List.take_append,
        List.take_of_length_le fits, ih, List.take_succ_cons, List.drop_succ_cons, List.flatten_cons,
        List.append_assoc]
      simp [pendingAfter, doneIn_cons_of_le fits, Nat.sub_sub]
    · rw [wholeIn_cons_of_lt (by omega)]
      simp [pendingAfter, doneIn_cons_of_lt (show n < w.length by omega)]

theorem pendingAfter_le (ws : List (List α)) (n : Nat) (inside : n ≤ ws.flatten.length) :
    pendingAfter ws n ≤ (ws.drop (wholeIn ws n)).flatten.length := by
  have split := congrArg List.length (take_flatten ws n)
  rw [List.length_take, Nat.min_eq_left inside, List.length_append, List.length_take] at split
  have done : doneIn ws n = (ws.take (wholeIn ws n)).flatten.length := rfl
  unfold pendingAfter
  omega

theorem wholeIn_flatten (ws : List (List α)) : wholeIn ws ws.flatten.length = ws.length := by
  induction ws with
  | nil => simp
  | cons w ws ih =>
    rw [wholeIn_cons_of_le (by simp), List.flatten_cons, List.length_append, Nat.add_sub_cancel_left,
      ih, List.length_cons]

theorem pendingAfter_flatten (ws : List (List α)) : pendingAfter ws ws.flatten.length = 0 := by
  rw [pendingAfter, doneIn, wholeIn_flatten, List.take_length, Nat.sub_self]

theorem wholeIn_mono (ws : List (List α)) {n n' : Nat} (le : n ≤ n') : wholeIn ws n ≤ wholeIn ws n' := by
  obtain ⟨r, rfl⟩ := Nat.exists_eq_add_of_le le
  rw [wholeIn_add]
  omega

end Reassembly
