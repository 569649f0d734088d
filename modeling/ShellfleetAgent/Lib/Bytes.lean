import Mathlib.Tactic.Ring

/-!
# Byte strings and big-endian words

`beBytes w n` is the `w`-byte big-endian form of `n`, and `beNat` reads one
back. Only words that fit are of interest, and on those the two are inverse.
-/

namespace ShellfleetAgent.Lib

abbrev Bytes := List UInt8

def beBytes : Nat → Nat → Bytes
  | 0, _ => []
  | w + 1, n => UInt8.ofNat (n / 256 ^ w) :: beBytes w n

def beNat (bs : Bytes) : Nat := bs.foldl (fun acc b => acc * 256 + b.toNat) 0

theorem length_beBytes (w n : Nat) : (beBytes w n).length = w := by
  induction w with
  | zero => rfl
  | succ w ih => rw [beBytes, List.length_cons, ih]

/-- Reading a word after some digits shifts the digits and adds the word. -/
theorem foldl_beBytes (w n acc : Nat) :
    (beBytes w n).foldl (fun acc b => acc * 256 + b.toNat) acc =
      acc * 256 ^ w + n % 256 ^ w := by
  induction w generalizing acc with
  | zero => simp [beBytes, Nat.mod_one]
  | succ w ih =>
      have hb : (UInt8.ofNat (n / 256 ^ w)).toNat = n / 256 ^ w % 256 := by
        rw [UInt8.toNat_ofNat']
      rw [beBytes, List.foldl_cons, ih, hb, Nat.pow_succ, Nat.mod_mul]
      ring

theorem beNat_beBytes {w n : Nat} (h : n < 256 ^ w) : beNat (beBytes w n) = n := by
  rw [beNat, foldl_beBytes, Nat.zero_mul, Nat.zero_add, Nat.mod_eq_of_lt h]

theorem beBytes_inj {w n m : Nat} (hn : n < 256 ^ w) (hm : m < 256 ^ w)
    (h : beBytes w n = beBytes w m) : n = m := by
  rw [← beNat_beBytes hn, h, beNat_beBytes hm]

theorem foldl_beNat (bs : Bytes) (acc : Nat) :
    bs.foldl (fun acc b => acc * 256 + b.toNat) acc = acc * 256 ^ bs.length + beNat bs := by
  induction bs generalizing acc with
  | nil => simp [beNat]
  | cons b bs ih =>
      rw [beNat, List.foldl_cons, List.foldl_cons, ih, ih, List.length_cons, Nat.pow_succ]
      ring

theorem beNat_cons (b : UInt8) (bs : Bytes) :
    beNat (b :: bs) = b.toNat * 256 ^ bs.length + beNat bs := by
  rw [beNat, List.foldl_cons, foldl_beNat, Nat.zero_mul, Nat.zero_add]

theorem beNat_lt (bs : Bytes) : beNat bs < 256 ^ bs.length := by
  induction bs with
  | nil => exact Nat.one_pos
  | cons b bs ih =>
      have hb := b.toNat_lt
      have hshift : (b.toNat + 1) * 256 ^ bs.length ≤ 256 * 256 ^ bs.length :=
        Nat.mul_le_mul_right _ (by omega)
      rw [beNat_cons, List.length_cons, Nat.pow_succ, Nat.mul_comm (256 ^ bs.length)]
      rw [Nat.add_one_mul] at hshift
      omega

/-- Digits in front of a word make no difference to it. -/
theorem beBytes_add (w a n : Nat) : beBytes w (a * 256 ^ w + n) = beBytes w n := by
  induction w generalizing a with
  | zero => rfl
  | succ w ih =>
      have hpow : 0 < 256 ^ w := Nat.pow_pos (by omega)
      have hsplit : a * 256 ^ (w + 1) + n = a * 256 * 256 ^ w + n := by
        rw [Nat.pow_succ]
        ring
      have hfirst : UInt8.ofNat ((a * 256 * 256 ^ w + n) / 256 ^ w) =
          UInt8.ofNat (n / 256 ^ w) := by
        apply UInt8.toNat_inj.mp
        rw [UInt8.toNat_ofNat', UInt8.toNat_ofNat', Nat.add_comm, Nat.add_mul_div_right _ _ hpow]
        omega
      rw [beBytes, beBytes, hsplit, hfirst, ih]

theorem beBytes_beNat (bs : Bytes) : beBytes bs.length (beNat bs) = bs := by
  induction bs with
  | nil => rfl
  | cons b bs ih =>
      have hlt := beNat_lt bs
      have hfirst : (b.toNat * 256 ^ bs.length + beNat bs) / 256 ^ bs.length = b.toNat := by
        rw [Nat.add_comm, Nat.add_mul_div_right _ _ (by omega), Nat.div_eq_of_lt hlt,
          Nat.zero_add]
      rw [List.length_cons, beBytes, beNat_cons, hfirst, beBytes_add, ih, UInt8.ofNat_toNat]

end ShellfleetAgent.Lib
