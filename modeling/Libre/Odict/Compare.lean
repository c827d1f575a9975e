import Mathlib.Data.List.Basic

set_option autoImplicit false

/-!
# Ordered dictionaries

`odict/odict.c`: an odict is its list of entries in insertion order, and `odict_lookup` returns
the first entry with the key. `odict_compare` walks both lists while both have entries, so trailing
entries that hold no leaves are never looked at (`odict_compare_ignores_uncounted_tail`).
-/

namespace Libre.Odict

-- `struct odict_entry` without its key: the union `u` with the type tag as the constructor.
inductive Value where
  | object (o : List (String × Value))
  | array (o : List (String × Value))
  | string (s : String)
  | int (i : Int64)
  | double (d : Float)
  | bool (b : Bool)
  | null

def DBL_EPSILON : Float := 2.220446049250313e-16

def cmpDouble (a b : Float) : Bool := (a - b).abs < DBL_EPSILON

-- The walk of the hash bucket finds the first entry with the key, as a walk of the list does.
def odictLookup (o : List (String × Value)) (key : String) : Option (String × Value) :=
  o.find? (fun e => e.1 == key)

mutual
def countValue : Value → Nat
  | .object o => countEntries o
  | .array o => countEntries o
  | _ => 1

def countEntries : List (String × Value) → Nat
  | [] => 0
  | (_, v) :: rest => countValue v + countEntries rest
end

def odictCount (o : List (String × Value)) (nested : Bool) : Nat :=
  if !nested then o.length else countEntries o

mutual
def odictValueCompare : Value → Value → Bool → Bool
  | .object o1, .object o2, io =>
    if odictCount o1 true ≠ odictCount o2 true then false else compareLoop o1 o2 o2 io
  | .array o1, .array o2, io =>
    if odictCount o1 true ≠ odictCount o2 true then false else compareLoop o1 o2 o2 io
  | .int a, .int b, _ => a == b
  | .double a, .double b, _ => cmpDouble a b
  | .string a, .string b, _ => a == b
  | .bool a, .bool b, _ => a == b
  | .null, .null, _ => true
  | _, _, _ => false

-- The loop of `odict_compare`: it runs while both lists have entries.
def compareLoop : List (String × Value) → List (String × Value) → List (String × Value) → Bool → Bool
  | (k1, v1) :: rest1, e2 :: rest2, dict2, io =>
    match (if io then odictLookup dict2 k1 else some e2) with
    | none => false
    | some (k2, v2) =>
      if k1 ≠ k2 then false
      else if !odictValueCompare v1 v2 io then false
      else compareLoop rest1 rest2 dict2 io
  | _, _, _, _ => true
end

-- `odict_value_compare` on two containers is this with their entries.
def odictCompare (dict1 dict2 : List (String × Value)) (ignore_order : Bool) : Bool :=
  if odictCount dict1 true ≠ odictCount dict2 true then false
  else compareLoop dict1 dict2 dict2 ignore_order

theorem countEntries_append (xs ys : List (String × Value)) :
    countEntries (xs ++ ys) = countEntries xs + countEntries ys := by
  induction xs with
  | nil => simp [countEntries]
  | cons e rest ih =>
    obtain ⟨k, v⟩ := e
    simp only [List.cons_append, countEntries, ih]
    omega

-- The walk stops at the end of the shorter list: what follows in the longer one is never read.
theorem compareLoop_append (l1 l2 t dict2 : List (String × Value)) (io : Bool)
    (shorter : l2.length ≤ l1.length) :
    compareLoop (l1 ++ t) l2 dict2 io = compareLoop l1 l2 dict2 io := by
  induction l1 generalizing l2 with
  | nil =>
    have empty : l2 = [] := List.eq_nil_of_length_eq_zero (by simpa using shorter)
    subst empty
    cases t <;> simp [compareLoop]
  | cons e rest ih =>
    obtain ⟨k, v⟩ := e
    cases l2 with
    | nil => simp [compareLoop]
    | cons e2 rest2 =>
      simp only [List.cons_append, compareLoop, ih rest2 (by simpa using shorter)]

/-! ## Structural equality -/

mutual
def sameValue : Value → Value → Bool
  | .object o1, .object o2 => sameEntries o1 o2
  | .array o1, .array o2 => sameEntries o1 o2
  | .int a, .int b => a == b
  | .double a, .double b => cmpDouble a b
  | .string a, .string b => a == b
  | .bool a, .bool b => a == b
  | .null, .null => true
  | _, _ => false

def sameEntries : List (String × Value) → List (String × Value) → Bool
  | [], [] => true
  | (k1, v1) :: rest1, (k2, v2) :: rest2 => k1 == k2 && sameValue v1 v2 && sameEntries rest1 rest2
  | _, _ => false
end

mutual
theorem countValue_of_sameValue : ∀ {v1 v2 : Value}, sameValue v1 v2 = true → countValue v1 = countValue v2
  | .object o1, v2, h | .array o1, v2, h => by
    cases v2 <;> simp only [sameValue, Bool.false_eq_true] at h
    all_goals simp only [countValue, countEntries_of_sameEntries h]
  | .int _, v2, h | .double _, v2, h | .string _, v2, h | .bool _, v2, h | .null, v2, h => by
    cases v2 <;> simp [sameValue, countValue] at h ⊢

theorem countEntries_of_sameEntries : ∀ {l1 l2 : List (String × Value)},
    sameEntries l1 l2 = true → countEntries l1 = countEntries l2
  | [], [], _ => rfl
  | (k1, v1) :: rest1, (k2, v2) :: rest2, h => by
    simp only [sameEntries, Bool.and_eq_true] at h
    simp only [countEntries, countValue_of_sameValue h.1.2, countEntries_of_sameEntries h.2]
  | [], _ :: _, h | _ :: _, [], h => by simp [sameEntries] at h
end

mutual
theorem odictValueCompare_of_sameValue : ∀ {v1 v2 : Value},
    sameValue v1 v2 = true → odictValueCompare v1 v2 false = true
  | .object o1, v2, h | .array o1, v2, h => by
    cases v2 <;> simp only [sameValue, Bool.false_eq_true] at h
    all_goals simp [odictValueCompare, odictCount, countEntries_of_sameEntries h,
      compareLoop_of_sameEntries _ h]
  | .int _, v2, h | .double _, v2, h | .string _, v2, h | .bool _, v2, h | .null, v2, h => by
    cases v2 <;> simp_all [sameValue, odictValueCompare]

theorem compareLoop_of_sameEntries : ∀ {l1 l2 : List (String × Value)} (dict2 : List (String × Value)),
    sameEntries l1 l2 = true → compareLoop l1 l2 dict2 false = true
  | [], [], _, _ => by simp [compareLoop]
  | (k1, v1) :: rest1, (k2, v2) :: rest2, dict2, h => by
    simp only [sameEntries, Bool.and_eq_true, beq_iff_eq] at h
    obtain ⟨⟨rfl, same⟩, rest⟩ := h
    simp [compareLoop, odictValueCompare_of_sameValue same, compareLoop_of_sameEntries dict2 rest]
  | [], _ :: _, _, h | _ :: _, [], _, h => by simp [sameEntries] at h
end

theorem odictCompare_of_sameEntries {d1 d2 : List (String × Value)} (h : sameEntries d1 d2 = true) :
    odictCompare d1 d2 false = true := by
  simp [odictCompare, odictCount, countEntries_of_sameEntries h, compareLoop_of_sameEntries d2 h]

theorem odict_compare_ignores_uncounted_tail (d t : List (String × Value)) (ignore_order : Bool)
    (uncounted : odictCount t true = 0) :
    odictCompare (d ++ t) d ignore_order = odictCompare d d ignore_order := by
  simp only [odictCount, Bool.not_true, Bool.false_eq_true, if_false] at uncounted
  simp only [odictCompare, odictCount, Bool.not_true, Bool.false_eq_true, if_false, countEntries_append,
    uncounted, Nat.add_zero, compareLoop_append d d t d ignore_order (Nat.le_refl _)]

theorem odict_compare_ignores_uncounted_tail_empty_object :
    odictCount [("b", .object [])] true = 0 ∧
      odictCompare [("a", .int 1), ("b", .object [])] [("a", .int 1)] false = true ∧
      sameEntries [("a", .int 1), ("b", .object [])] [("a", .int 1)] = false := by
  have same := odict_compare_ignores_uncounted_tail [("a", .int 1)] [("b", .object [])] false rfl
  rw [List.singleton_append] at same
  exact ⟨rfl, by rw [same]; decide, by decide⟩

end Libre.Odict
