import Mathlib

set_option autoImplicit false

/-!
# Network-order byte strings

Bytes are `List UInt8`. `netBytes k n` is the `k` low bytes of `n` with the most significant
first, as `htons`/`htonl` lay them out, and `netValue` reads such a string back. Beside them,
the list surgery a byte buffer needs: `setRange` overwrites a window in place.
-/

namespace BigEndian

def netBytes : Nat → Nat → List UInt8
  | 0, _ => []
  | k + 1, n => netBytes k (n / 256) ++ [UInt8.ofNat n]

def netValue (bs : List UInt8) : Nat :=
  bs.foldl (fun acc b => acc * 256 + b.toNat) 0

@[simp] theorem length_netBytes (k n : Nat) : (netBytes k n).length = k := by
  induction k generalizing n with
  | zero => rfl
  | succ k ih => simp [netBytes, ih]

@[simp] theorem netValue_nil : netValue [] = 0 := rfl

theorem netValue_foldl (bs : List UInt8) (acc : Nat) :
    bs.foldl (fun acc b => acc * 256 + b.toNat) acc = acc * 256 ^ bs.length + netValue bs := by
  induction bs generalizing acc with
  | nil => simp
  | cons b bs ih =>
    have head : netValue (b :: bs) = b.toNat * 256 ^ bs.length + netValue bs := by
      rw [netValue, List.foldl_cons, ih, Nat.zero_mul, Nat.zero_add]
    rw [List.foldl_cons, ih, head, List.length_cons, pow_succ]
    ring

@[simp] theorem netValue_append (xs ys : List UInt8) :
    netValue (xs ++ ys) = netValue xs * 256 ^ ys.length + netValue ys := by
  rw [netValue, List.foldl_append, netValue_foldl]
  rfl

@[simp] theorem netValue_singleton (b : UInt8) : netValue [b] = b.toNat := by
  simp [netValue]

@[simp] theorem netValue_netBytes (k n : Nat) : netValue (netBytes k n) = n % 256 ^ k := by
  induction k generalizing n with
  | zero => simp [netBytes, Nat.mod_one]
  | succ k ih =>
    have low : (UInt8.ofNat n).toNat = n % 256 := UInt8.toNat_ofNat'
    have split : 256 ^ (k + 1) = 256 * 256 ^ k := pow_succ' 256 k
    rw [netBytes, netValue_append, ih, netValue_singleton, low, List.length_singleton, pow_one,
      split, Nat.mod_mul]
    ring

theorem netBytes_mod (k n : Nat) : netBytes k (n % 256 ^ k) = netBytes k n := by
  induction k generalizing n with
  | zero => rfl
  | succ k ih =>
    have high : n % 256 ^ (k + 1) / 256 = n / 256 % 256 ^ k := by
      rw [pow_succ', Nat.mod_mul_right_div_self]
    have low : UInt8.ofNat (n % 256 ^ (k + 1)) = UInt8.ofNat n := by
      apply UInt8.toNat_inj.mp
      rw [UInt8.toNat_ofNat', UInt8.toNat_ofNat', pow_succ, Nat.mod_mul_left_mod]
    rw [netBytes, netBytes, high, ih, low]

@[simp] theorem netBytes_uint16 (n : Nat) : netBytes 2 (UInt16.ofNat n).toNat = netBytes 2 n := by
  rw [UInt16.toNat_ofNat', show 2 ^ 16 = 256 ^ 2 by norm_num, netBytes_mod]

@[simp] theorem netBytes_uint32 (n : Nat) : netBytes 4 (UInt32.ofNat n).toNat = netBytes 4 n := by
  rw [UInt32.toNat_ofNat', show 2 ^ 32 = 256 ^ 4 by norm_num, netBytes_mod]

@[simp] theorem netBytes_uint64 (n : Nat) : netBytes 8 (UInt64.ofNat n).toNat = netBytes 8 n := by
  rw [UInt64.toNat_ofNat', show 2 ^ 64 = 256 ^ 8 by norm_num, netBytes_mod]

theorem netBytes_netValue (bs : List UInt8) : netBytes bs.length (netValue bs) = bs := by
  induction bs using List.reverseRecOn with
  | nil => rfl
  | append_singleton bs b ih =>
    have hb : b.toNat < 256 := b.toNat_lt
    have high : (netValue bs * 256 + b.toNat) / 256 = netValue bs := by omega
    have low : UInt8.ofNat (netValue bs * 256 + b.toNat) = b := by
      apply UInt8.toNat_inj.mp
      rw [UInt8.toNat_ofNat']
      omega
    rw [List.length_append, List.length_singleton, netValue_append, netValue_singleton,
      List.length_singleton, pow_one, netBytes, high, ih, low]

/-! ## Windows of a list -/

section Windows

variable {α : Type}

/-- `l` with the cells from `pos` on replaced by `src`; the length is kept when the window fits. -/
def setRange (l : List α) (pos : Nat) (src : List α) : List α :=
  l.take pos ++ src ++ l.drop (pos + src.length)

theorem length_setRange (l : List α) (pos : Nat) (src : List α)
    (fits : pos + src.length ≤ l.length) : (setRange l pos src).length = l.length := by
  simp [setRange]
  omega

theorem setRange_take (l : List α) (pos : Nat) (src : List α) (fits : pos ≤ l.length) :
    (setRange l pos src).take pos = l.take pos := by
  simp [setRange, fits]

theorem setRange_drop (l : List α) (pos : Nat) (src : List α)
    (fits : pos + src.length ≤ l.length) :
    (setRange l pos src).drop (pos + src.length) = l.drop (pos + src.length) := by
  have front : (l.take pos ++ src).length = pos + src.length := by simp; omega
  rw [setRange, List.drop_append_of_le_length (by omega), List.drop_of_length_le (by omega),
    List.nil_append]

theorem setRange_extract_self (l : List α) (pos : Nat) (src : List α)
    (fits : pos + src.length ≤ l.length) :
    (setRange l pos src).extract pos (pos + src.length) = src := by
  have front : (l.take pos).length = pos := by simp; omega
  rw [setRange, List.extract_eq_take_drop, Nat.add_sub_cancel_left, List.append_assoc,
    List.drop_append_of_le_length (by omega), List.drop_of_length_le (by omega), List.nil_append]
  simp

theorem extract_take_of_le (l : List α) (n a b : Nat) (inside : b ≤ n) :
    (l.take n).extract a b = l.extract a b := by
  rw [List.extract_eq_take_drop, List.extract_eq_take_drop, List.drop_take, List.take_take,
    Nat.min_eq_left (by omega)]

theorem extract_extract (l : List α) (a b c d : Nat) (hab : a ≤ b) (hdc : d ≤ c) :
    (l.extract a c).extract (b - a) (d - a) = l.extract b d := by
  simp only [List.extract_eq_take_drop, List.drop_take, List.drop_drop, List.take_take]
  rw [show a + (b - a) = b by omega]
  congr 1
  omega

theorem extract_append_extract (l : List α) (a b c : Nat) (hab : a ≤ b) (hbc : b ≤ c) :
    l.extract a b ++ l.extract b c = l.extract a c := by
  simp only [List.extract_eq_take_drop]
  rw [show c - a = (b - a) + (c - b) by omega, List.take_add, List.drop_drop,
    show a + (b - a) = b by omega]

theorem extract_setRange_before (l : List α) (pos : Nat) (src : List α) (a b : Nat)
    (fits : pos ≤ l.length) (before : b ≤ pos) :
    (setRange l pos src).extract a b = l.extract a b := by
  rw [← extract_take_of_le _ pos a b before, setRange_take l pos src fits,
    extract_take_of_le _ pos a b before]

theorem extract_setRange_after (l : List α) (pos : Nat) (src : List α) (a b : Nat)
    (fits : pos + src.length ≤ l.length) (after : pos + src.length ≤ a) :
    (setRange l pos src).extract a b = l.extract a b := by
  have suffixes := setRange_drop l pos src fits
  have split : a = pos + src.length + (a - (pos + src.length)) := by omega
  rw [List.extract_eq_take_drop, List.extract_eq_take_drop, split, ← List.drop_drop, suffixes,
    List.drop_drop]

theorem setRange_append (l : List α) (pos : Nat) (xs ys : List α)
    (fits : pos + xs.length ≤ l.length) :
    setRange (setRange l pos xs) (pos + xs.length) ys = setRange l pos (xs ++ ys) := by
  have front : (setRange l pos xs).take (pos + xs.length) = l.take pos ++ xs :=
    List.take_left' (by simp; omega)
  have back : (setRange l pos xs).drop (pos + xs.length + ys.length) =
      l.drop (pos + xs.length + ys.length) := by
    rw [← List.drop_drop, setRange_drop _ _ _ fits, List.drop_drop]
  rw [setRange, front, back, setRange, List.length_append, Nat.add_assoc]
  simp only [List.append_assoc]

theorem setRange_setRange (l : List α) (pos : Nat) (xs ys : List α)
    (fits : pos + xs.length ≤ l.length) (same : xs.length = ys.length) :
    setRange (setRange l pos xs) pos ys = setRange l pos ys := by
  rw [setRange, setRange_take _ _ _ (by omega), ← same, setRange_drop _ _ _ fits, setRange, same]

/-! ### What a list holds at an offset -/

/-- `l` holds `xs` from index `a` on. -/
structure HoldsAt (l : List α) (a : Nat) (xs : List α) : Prop where
  fits : a + xs.length ≤ l.length
  bytes : l.extract a (a + xs.length) = xs

theorem holdsAt_self (l : List α) : HoldsAt l 0 l :=
  ⟨by simp, by simp [List.extract_eq_take_drop]⟩

theorem HoldsAt.append {l xs ys : List α} {a : Nat} (hx : HoldsAt l a xs)
    (hy : HoldsAt l (a + xs.length) ys) : HoldsAt l a (xs ++ ys) := by
  have fits := hy.fits
  refine ⟨by simp only [List.length_append]; omega, ?_⟩
  rw [List.length_append, ← Nat.add_assoc,
    ← extract_append_extract l a (a + xs.length) _ (by omega) (by omega), hx.bytes, hy.bytes]

theorem HoldsAt.left {l xs ys : List α} {a : Nat} (h : HoldsAt l a (xs ++ ys)) :
    HoldsAt l a xs := by
  have fits := h.fits
  simp only [List.length_append] at fits
  refine ⟨by omega, ?_⟩
  have window := extract_extract l a a (a + (xs ++ ys).length) (a + xs.length) (le_refl _)
    (by simp)
  rw [h.bytes, Nat.sub_self, Nat.add_sub_cancel_left] at window
  rw [← window, List.extract_eq_take_drop]
  simp

theorem HoldsAt.right {l xs ys : List α} {a : Nat} (h : HoldsAt l a (xs ++ ys)) :
    HoldsAt l (a + xs.length) ys := by
  have fits := h.fits
  simp only [List.length_append] at fits
  refine ⟨by omega, ?_⟩
  have window := extract_extract l a (a + xs.length) (a + (xs ++ ys).length)
    (a + xs.length + ys.length) (by omega) (by simp; omega)
  rw [h.bytes, Nat.add_sub_cancel_left, show a + xs.length + ys.length - a =
    xs.length + ys.length by omega] at window
  rw [← window, List.extract_eq_take_drop]
  simp

theorem HoldsAt.getElem!_eq [Inhabited α] {l : List α} {a : Nat} {v : α} (h : HoldsAt l a [v]) :
    l[a]! = v := by
  have fits := h.fits
  have bytes := h.bytes
  simp only [List.length_singleton] at fits bytes
  rw [List.extract_eq_take_drop, Nat.add_sub_cancel_left,
    List.take_one_drop_eq_of_lt_length (by omega)] at bytes
  rw [getElem!_pos l a (by omega)]
  exact List.singleton_inj.mp bytes

theorem holdsAt_setRange (l src : List α) (pos : Nat) (fits : pos + src.length ≤ l.length) :
    HoldsAt (setRange l pos src) pos src :=
  ⟨by rw [length_setRange l pos src fits]; exact fits, setRange_extract_self l pos src fits⟩

theorem HoldsAt.setRange_before {l xs : List α} {a : Nat} (h : HoldsAt l a xs) (src : List α)
    {pos : Nat} (fits : pos ≤ l.length) (before : a + xs.length ≤ pos) :
    HoldsAt (setRange l pos src) a xs := by
  refine ⟨?_, by rw [extract_setRange_before l pos src _ _ fits before, h.bytes]⟩
  simp only [setRange, List.length_append, List.length_take]
  omega

theorem HoldsAt.setRange_after {l xs : List α} {a : Nat} (h : HoldsAt l a xs) (src : List α)
    {pos : Nat} (fits : pos + src.length ≤ l.length) (after : pos + src.length ≤ a) :
    HoldsAt (setRange l pos src) a xs :=
  ⟨by rw [length_setRange l pos src fits]; exact h.fits,
    by rw [extract_setRange_after l pos src _ _ fits after, h.bytes]⟩

theorem HoldsAt.setRange_self {l xs : List α} {a : Nat} (h : HoldsAt l a xs) :
    setRange l a xs = l := by
  have bytes := h.bytes
  rw [List.extract_eq_take_drop, Nat.add_sub_cancel_left] at bytes
  have rest : xs ++ l.drop (a + xs.length) = l.drop a := by
    conv_rhs => rw [← List.take_append_drop xs.length (l.drop a)]
    rw [bytes, List.drop_drop]
  rw [setRange, List.append_assoc, rest, List.take_append_drop]

end Windows

theorem map_mapIdx {α β γ : Type} (g : β → γ) (f : Nat → α → β) (l : List α) :
    (l.mapIdx f).map g = l.mapIdx fun i a => g (f i a) :=
  (List.mapIdx_eq_iff.mpr fun i => by simp [Option.map_map, Function.comp_def]).symm

end BigEndian
