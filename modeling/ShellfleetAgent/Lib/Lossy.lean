import Mathlib.Tactic.Ring
import ShellfleetAgent.Lib.Text

/-!
# How long decoded text is

`String::from_utf8_lossy` keeps every byte of a character, and puts three bytes where it
finds a sequence that is not one, whatever that sequence's length. So the length of the
text is that of the bytes, and what the sequences fall short of three each; and a
character of ASCII is in the text wherever its byte is among the bytes. A text can be cut
at a byte if a character begins there.
-/

namespace ShellfleetAgent.Lib.Text

/-! ## Lengths -/

@[simp] theorem utf8Len_nil : utf8Len [] = 0 := rfl

@[simp] theorem utf8Len_cons (c : Char) (s : Str) : utf8Len (c :: s) = c.utf8Size + utf8Len s := rfl

@[simp] theorem utf8Len_append (s t : Str) : utf8Len (s ++ t) = utf8Len s + utf8Len t := by
  induction s with
  | nil => rw [List.nil_append, utf8Len_nil, Nat.zero_add]
  | cons c s ih => rw [List.cons_append, utf8Len_cons, utf8Len_cons, ih, Nat.add_assoc]

theorem toNat_ofNat {n : Nat} (h : n.isValidChar) : (Char.ofNat n).toNat = n := by
  rw [Char.ofNat, dif_pos h]
  rfl

theorem utf8Size_eq (c : Char) : c.utf8Size =
    if c.toNat ≤ 0x7F then 1 else if c.toNat ≤ 0x7FF then 2 else if c.toNat ≤ 0xFFFF then 3
      else 4 := by
  rw [Char.utf8Size]
  simp only [UInt32.le_iff_toNat_le]
  rfl

/-! ## Cuts -/

theorem dropBytes_zero (s : Str) : dropBytes 0 s = some s := by
  cases s <;> rfl

theorem dropBytes_append (before tail : Str) :
    dropBytes (utf8Len before) (before ++ tail) = some tail := by
  induction before with
  | nil => exact dropBytes_zero tail
  | cons c before ih =>
      obtain ⟨n, hn⟩ : ∃ n, utf8Len (c :: before) = n + 1 := by
        have hpos := c.utf8Size_pos
        exact ⟨utf8Len (c :: before) - 1, by rw [utf8Len_cons]; omega⟩
      rw [hn, List.cons_append, dropBytes, ← hn, utf8Len_cons, if_pos (by omega),
        Nat.add_sub_cancel_left]
      exact ih

/-- A cut keeps a tail, and drops as much as it was asked to. -/
theorem dropBytes_some {n : Nat} {s tail : Str} (h : dropBytes n s = some tail) :
    ∃ before, s = before ++ tail ∧ utf8Len before = n := by
  induction s generalizing n with
  | nil =>
      cases n with
      | zero =>
          cases h
          exact ⟨[], rfl, rfl⟩
      | succ n => cases h
  | cons c s ih =>
      cases n with
      | zero =>
          cases h
          exact ⟨[], rfl, rfl⟩
      | succ n =>
          rw [dropBytes] at h
          split at h
          · next hle =>
              obtain ⟨before, hs, hlen⟩ := ih h
              refine ⟨c :: before, by rw [hs]; rfl, ?_⟩
              rw [utf8Len_cons, hlen]
              omega
          · cases h

/-- A character begins at the byte that is `cap` bytes from the end. -/
def CutsAt (s : Str) (cap : Nat) : Prop := ∃ tail, tail <:+ s ∧ utf8Len tail = cap

/-- What `keepTail` puts before the tail. -/
def cutHeader (cut : Nat) : Str :=
  "…[".toList ++ decimal cut ++ " bytes truncated]…\n".toList

theorem keepTail_short {s : Str} {cap : Nat} (h : utf8Len s ≤ cap) : keepTail s cap = some s :=
  if_pos h

theorem keepTail_long {s : Str} {cap : Nat} (h : cap < utf8Len s) {r : Str} :
    keepTail s cap = some r ↔
      ∃ tail, tail <:+ s ∧ utf8Len tail = cap ∧ r = cutHeader (utf8Len s - cap) ++ tail := by
  rw [keepTail, if_neg (Nat.not_le.mpr h)]
  dsimp only
  rw [Option.map_eq_some_iff]
  constructor
  · intro hcut
    obtain ⟨tail, hdrop, hr⟩ := hcut
    obtain ⟨before, rfl, hlen⟩ := dropBytes_some hdrop
    refine ⟨tail, ⟨before, rfl⟩, ?_, hr.symm⟩
    rw [utf8Len_append] at hlen h
    omega
  · intro hcut
    obtain ⟨tail, ⟨before, rfl⟩, hlen, hr⟩ := hcut
    refine ⟨tail, ?_, hr.symm⟩
    rw [utf8Len_append, hlen, Nat.add_sub_cancel]
    exact dropBytes_append before tail

/-! ## Sequences that are not UTF-8 -/

/-- A byte that no character starts with. -/
def leadFault (b : Nat) : List Nat := if 0x80 ≤ b ∧ (leadByte b).2.isNone then [1] else []

/-- As `decodeFrom`, with the number of bytes of the character under way. -/
def illFormedFrom : Nat → Option Pending → List UInt8 → List Nat
  | _, none, [] => []
  | k, some _, [] => [k]
  | _, none, b :: bs => leadFault b.toNat ++ illFormedFrom 1 (leadByte b.toNat).2 bs
  | k, some p, b :: bs =>
      if p.low ≤ b.toNat ∧ b.toNat ≤ p.high then
        let bits := p.bits * 64 + (b.toNat - 0x80)
        if p.missing = 1 then illFormedFrom 0 none bs
        else illFormedFrom (k + 1) (some ⟨bits, p.missing - 1, 0x80, 0xBF⟩) bs
      else k :: (leadFault b.toNat ++ illFormedFrom 1 (leadByte b.toNat).2 bs)

/-- The lengths of the sequences that are replaced: each is as much as there is of a
character, or a byte that starts none. -/
def illFormed (bytes : List UInt8) : List Nat := illFormedFrom 0 none bytes

example : illFormed [0x61, 0xE2, 0x82, 0xAC, 0xE2, 0x82, 0x62, 0xFF] = [2, 1] := by decide

/-- `k` bytes of a character, which becomes one of the right size however it goes on. -/
structure Pending.Ok (k : Nat) (p : Pending) : Prop where
  missing : 0 < p.missing
  low : 0x80 ≤ p.low
  high : p.high ≤ 0xBF
  size : k + p.missing ≤ 4
  scalar : ∀ n, (p.bits * 64 + (p.low - 0x80)) * 64 ^ (p.missing - 1) ≤ n →
    n < (p.bits * 64 + (p.high - 0x80) + 1) * 64 ^ (p.missing - 1) →
    n.isValidChar ∧ 0x80 ≤ n ∧ (Char.ofNat n).utf8Size = k + p.missing

theorem two_bytes {n : Nat} (hlow : 0x80 ≤ n) (hhigh : n ≤ 0x7FF) :
    n.isValidChar ∧ 0x80 ≤ n ∧ (Char.ofNat n).utf8Size = 2 := by
  have hvalid : n.isValidChar := .inl (by omega)
  rw [utf8Size_eq, toNat_ofNat hvalid, if_neg (by omega), if_pos hhigh]
  exact ⟨hvalid, hlow, rfl⟩

theorem three_bytes {n : Nat} (hlow : 0x800 ≤ n) (hhigh : n ≤ 0xFFFF)
    (hsurrogate : n < 0xD800 ∨ 0xE000 ≤ n) :
    n.isValidChar ∧ 0x80 ≤ n ∧ (Char.ofNat n).utf8Size = 3 := by
  have hvalid : n.isValidChar := by
    rcases hsurrogate with h | h
    · exact .inl h
    · exact .inr ⟨by omega, by omega⟩
  rw [utf8Size_eq, toNat_ofNat hvalid, if_neg (by omega), if_neg (by omega), if_pos hhigh]
  exact ⟨hvalid, by omega, rfl⟩

theorem four_bytes {n : Nat} (hlow : 0x10000 ≤ n) (hhigh : n ≤ 0x10FFFF) :
    n.isValidChar ∧ 0x80 ≤ n ∧ (Char.ofNat n).utf8Size = 4 := by
  have hvalid : n.isValidChar := .inr ⟨by omega, by omega⟩
  rw [utf8Size_eq, toNat_ofNat hvalid, if_neg (by omega), if_neg (by omega), if_neg (by omega)]
  exact ⟨hvalid, by omega, rfl⟩

namespace Pending

variable {k : Nat} {p : Pending} {b : Nat}

theorem Ok.advance (h : p.Ok k) (hb : p.low ≤ b ∧ b ≤ p.high) (hmore : p.missing ≠ 1) :
    Pending.Ok (k + 1) ⟨p.bits * 64 + (b - 0x80), p.missing - 1, 0x80, 0xBF⟩ := by
  obtain ⟨m, hm⟩ : ∃ m, p.missing = m + 2 := ⟨p.missing - 2, by have := h.missing; omega⟩
  have hlow := h.low
  have hhigh := h.high
  refine ⟨?_, Nat.le_refl _, Nat.le_refl _, ?_, ?_⟩
  · show 0 < p.missing - 1
    omega
  · show k + 1 + (p.missing - 1) ≤ 4
    have := h.size
    omega
  · intro n hle hlt
    have hold := h.scalar n
    rw [hm, show m + 2 - 1 = m + 1 from rfl, Nat.pow_succ] at hold
    simp only [hm, show m + 2 - 1 - 1 = m from rfl] at hle hlt
    have hfrom : (p.bits * 64 + (p.low - 0x80)) * (64 ^ m * 64) ≤ n :=
      calc (p.bits * 64 + (p.low - 0x80)) * (64 ^ m * 64)
        _ = (p.bits * 64 + (p.low - 0x80)) * 64 * 64 ^ m := by ring
        _ ≤ ((p.bits * 64 + (b - 0x80)) * 64 + (0x80 - 0x80)) * 64 ^ m :=
            Nat.mul_le_mul_right _ (by omega)
        _ ≤ n := hle
    have hto : n < (p.bits * 64 + (p.high - 0x80) + 1) * (64 ^ m * 64) :=
      calc n
        _ < ((p.bits * 64 + (b - 0x80)) * 64 + (0xBF - 0x80) + 1) * 64 ^ m := hlt
        _ ≤ (p.bits * 64 + (p.high - 0x80) + 1) * 64 * 64 ^ m :=
            Nat.mul_le_mul_right _ (by omega)
        _ = (p.bits * 64 + (p.high - 0x80) + 1) * (64 ^ m * 64) := by ring
    obtain ⟨hvalid, hascii, hsize⟩ := hold hfrom hto
    refine ⟨hvalid, hascii, hsize.trans ?_⟩
    show k + (m + 2) = k + 1 + (p.missing - 1)
    omega

/-- The last byte completes a character of the right size. -/
theorem Ok.complete (h : p.Ok k) (hb : p.low ≤ b ∧ b ≤ p.high) (hlast : p.missing = 1) :
    0x80 ≤ (Char.ofNat (p.bits * 64 + (b - 0x80))).toNat ∧
      (Char.ofNat (p.bits * 64 + (b - 0x80))).utf8Size = k + 1 := by
  have hlow := h.low
  have hscalar := h.scalar (p.bits * 64 + (b - 0x80))
  rw [hlast, Nat.sub_self, Nat.pow_zero, Nat.mul_one, Nat.mul_one] at hscalar
  obtain ⟨hvalid, hascii, hsize⟩ := hscalar (by omega) (by omega)
  rw [toNat_ofNat hvalid]
  exact ⟨hascii, hsize⟩

theorem Ok.first {bits missing low high : Nat} (hmissing : 0 < missing) (hsize : missing ≤ 3)
    (hlow : 0x80 ≤ low) (hhigh : high ≤ 0xBF)
    (hscalar : ∀ n, (bits * 64 + (low - 0x80)) * 64 ^ (missing - 1) ≤ n →
      n < (bits * 64 + (high - 0x80) + 1) * 64 ^ (missing - 1) →
      n.isValidChar ∧ 0x80 ≤ n ∧ (Char.ofNat n).utf8Size = 1 + missing) :
    Pending.Ok 1 ⟨bits, missing, low, high⟩ := by
  refine ⟨hmissing, hlow, hhigh, ?_, hscalar⟩
  show 1 + missing ≤ 4
  omega

theorem ok_leadByte (h : (leadByte b).2 = some p) : p.Ok 1 := by
  unfold leadByte at h
  split at h
  · cases h
  split at h
  · obtain rfl := Option.some.inj h
    refine .first (by decide) (by decide) (by decide) (by decide) fun n hle hlt => ?_
    norm_num at hle hlt
    exact two_bytes (by omega) (by omega)
  split at h
  · obtain rfl := Option.some.inj h
    refine .first (by decide) (by decide) (by decide) (by decide) fun n hle hlt => ?_
    norm_num at hle hlt
    exact three_bytes (by omega) (by omega) (by omega)
  split at h
  · obtain rfl := Option.some.inj h
    refine .first (by decide) (by decide) (by decide) (by decide) fun n hle hlt => ?_
    norm_num at hle hlt
    exact three_bytes (by omega) (by omega) (by omega)
  split at h
  · obtain rfl := Option.some.inj h
    refine .first (by decide) (by decide) (by decide) (by decide) fun n hle hlt => ?_
    norm_num at hle hlt
    exact three_bytes (by omega) (by omega) (by omega)
  split at h
  · obtain rfl := Option.some.inj h
    refine .first (by decide) (by decide) (by decide) (by decide) fun n hle hlt => ?_
    norm_num at hle hlt
    exact four_bytes (by omega) (by omega)
  split at h
  · obtain rfl := Option.some.inj h
    refine .first (by decide) (by decide) (by decide) (by decide) fun n hle hlt => ?_
    norm_num at hle hlt
    exact four_bytes (by omega) (by omega)
  split at h
  · obtain rfl := Option.some.inj h
    refine .first (by decide) (by decide) (by decide) (by decide) fun n hle hlt => ?_
    norm_num at hle hlt
    exact four_bytes (by omega) (by omega)
  · cases h

end Pending

theorem leadByte_ascii {b : Nat} (h : b < 0x80) : leadByte b = ([Char.ofNat b], none) := by
  rw [leadByte, if_pos h]

theorem leadByte_out {b : Nat} (h : 0x80 ≤ b) :
    (leadByte b).1 = (leadByte b).2.elim [replacement] fun _ => [] := by
  unfold leadByte
  rw [if_neg (by omega)]
  repeat' split
  all_goals rfl

/-- A byte is a character of its own, starts one, or is replaced. -/
theorem leadByte_cases (b : Nat) :
    (b < 0x80 ∧ leadByte b = ([Char.ofNat b], none) ∧ leadFault b = []) ∨
    (0x80 ≤ b ∧ leadFault b = [] ∧ ∃ p, leadByte b = ([], some p) ∧ Pending.Ok 1 p) ∨
    (0x80 ≤ b ∧ leadByte b = ([replacement], none) ∧ leadFault b = [1]) := by
  by_cases hascii : b < 0x80
  · exact .inl ⟨hascii, leadByte_ascii hascii, by rw [leadFault, if_neg (by omega)]⟩
  · refine .inr ?_
    have hout := leadByte_out (b := b) (by omega)
    cases hnext : (leadByte b).2 with
    | some p =>
        rw [hnext] at hout
        refine .inl ⟨by omega, ?_, p, Prod.ext hout hnext, Pending.ok_leadByte hnext⟩
        rw [leadFault, hnext, if_neg (by simp)]
    | none =>
        rw [hnext] at hout
        refine .inr ⟨by omega, Prod.ext hout hnext, ?_⟩
        rw [leadFault, hnext, if_pos ⟨by omega, rfl⟩]

/-! ## One byte more -/

section Step

variable {p : Pending} {b : UInt8} (k : Nat) (bs : List UInt8)

theorem decodeFrom_lead : decodeFrom none (b :: bs) =
    (leadByte b.toNat).1 ++ decodeFrom (leadByte b.toNat).2 bs := rfl

theorem illFormedFrom_lead : illFormedFrom k none (b :: bs) =
    leadFault b.toNat ++ illFormedFrom 1 (leadByte b.toNat).2 bs := rfl

theorem decodeFrom_last (hb : p.low ≤ b.toNat ∧ b.toNat ≤ p.high) (hlast : p.missing = 1) :
    decodeFrom (some p) (b :: bs) =
      Char.ofNat (p.bits * 64 + (b.toNat - 0x80)) :: decodeFrom none bs := by
  rw [decodeFrom, if_pos hb]
  exact if_pos hlast

theorem illFormedFrom_last (hb : p.low ≤ b.toNat ∧ b.toNat ≤ p.high) (hlast : p.missing = 1) :
    illFormedFrom k (some p) (b :: bs) = illFormedFrom 0 none bs := by
  rw [illFormedFrom, if_pos hb]
  exact if_pos hlast

theorem decodeFrom_more (hb : p.low ≤ b.toNat ∧ b.toNat ≤ p.high) (hmore : p.missing ≠ 1) :
    decodeFrom (some p) (b :: bs) = decodeFrom
      (some ⟨p.bits * 64 + (b.toNat - 0x80), p.missing - 1, 0x80, 0xBF⟩) bs := by
  rw [decodeFrom, if_pos hb]
  exact if_neg hmore

theorem illFormedFrom_more (hb : p.low ≤ b.toNat ∧ b.toNat ≤ p.high) (hmore : p.missing ≠ 1) :
    illFormedFrom k (some p) (b :: bs) = illFormedFrom (k + 1)
      (some ⟨p.bits * 64 + (b.toNat - 0x80), p.missing - 1, 0x80, 0xBF⟩) bs := by
  rw [illFormedFrom, if_pos hb]
  exact if_neg hmore

theorem decodeFrom_broken (hb : ¬(p.low ≤ b.toNat ∧ b.toNat ≤ p.high)) :
    decodeFrom (some p) (b :: bs) = replacement :: decodeFrom none (b :: bs) := by
  exact if_neg hb

theorem illFormedFrom_broken (hb : ¬(p.low ≤ b.toNat ∧ b.toNat ≤ p.high)) :
    illFormedFrom k (some p) (b :: bs) = k :: illFormedFrom 0 none (b :: bs) := by
  exact if_neg hb

end Step

/-! ## Lengths of decoded text -/

section

variable {bs : List UInt8}

/-- What is said of the rest of the bytes, with and without a character under way. -/
structure Accounted (bs : List UInt8) : Prop where
  pending : ∀ k p, Pending.Ok k p → utf8Len (decodeFrom (some p) bs) =
    k + bs.length + ((illFormedFrom k (some p) bs).map (3 - ·)).sum
  fresh : ∀ k, utf8Len (decodeFrom none bs) =
    bs.length + ((illFormedFrom k none bs).map (3 - ·)).sum

theorem Accounted.lead (h : Accounted bs) (b : UInt8) (k : Nat) :
    utf8Len (decodeFrom none (b :: bs)) =
      (b :: bs).length + ((illFormedFrom k none (b :: bs)).map (3 - ·)).sum := by
  rw [decodeFrom_lead, illFormedFrom_lead, List.length_cons]
  rcases leadByte_cases b.toNat with ⟨hascii, hlead, hfault⟩ | ⟨_, hfault, p, hlead, hp⟩ |
    ⟨_, hlead, hfault⟩
  · have hsize : (Char.ofNat b.toNat).utf8Size = 1 := by
      have hvalid : b.toNat.isValidChar := .inl (by omega)
      rw [utf8Size_eq, toNat_ofNat hvalid, if_pos (by omega)]
    rw [hlead, hfault]
    simp only [List.singleton_append, List.nil_append, utf8Len_cons, hsize, h.fresh 1]
    omega
  · rw [hlead, hfault]
    simp only [List.nil_append, h.pending 1 p hp]
    omega
  · rw [hlead, hfault]
    simp only [List.singleton_append, utf8Len_cons, h.fresh 1, List.map_cons, List.sum_cons]
    show 3 + _ = _
    omega

theorem accounted (bs : List UInt8) : Accounted bs := by
  induction bs with
  | nil =>
      refine ⟨fun k p hp => ?_, fun k => rfl⟩
      have hmissing := hp.missing
      have hsize := hp.size
      show 3 = k + 0 + (3 - k + 0)
      omega
  | cons b bs ih =>
      refine ⟨fun k p hp => ?_, ih.lead b⟩
      have hmissing := hp.missing
      have hsize := hp.size
      by_cases hb : p.low ≤ b.toNat ∧ b.toNat ≤ p.high
      · by_cases hlast : p.missing = 1
        · rw [decodeFrom_last bs hb hlast, illFormedFrom_last k bs hb hlast, utf8Len_cons,
            (hp.complete hb hlast).2, ih.fresh 0, List.length_cons]
          omega
        · rw [decodeFrom_more bs hb hlast, illFormedFrom_more k bs hb hlast,
            ih.pending _ _ (hp.advance hb hlast), List.length_cons]
          omega
      · rw [decodeFrom_broken bs hb, illFormedFrom_broken k bs hb, utf8Len_cons, ih.lead b 0,
          List.map_cons, List.sum_cons]
        show 3 + _ = _
        omega

end

theorem utf8Len_fromUtf8Lossy (bytes : List UInt8) :
    utf8Len (fromUtf8Lossy bytes) = bytes.length + ((illFormed bytes).map (3 - ·)).sum :=
  (accounted bytes).fresh 0

/-! ## ASCII in decoded text -/

section

variable {P : Char → Bool} {bs : List UInt8}

/-- A test that only ASCII passes. -/
def AsciiOnly (P : Char → Bool) : Prop := ∀ c : Char, 0x80 ≤ c.toNat → P c = false

/-- The bytes that pass it, read as characters. -/
def onByte (P : Char → Bool) (b : UInt8) : Bool := P (Char.ofNat b.toNat)

theorem AsciiOnly.onByte (hP : AsciiOnly P) {b : UInt8} (hb : 0x80 ≤ b.toNat) :
    onByte P b = false := by
  refine hP _ ?_
  have hlt := b.toNat_lt
  rw [toNat_ofNat (.inl (by omega))]
  exact hb

theorem AsciiOnly.replacement (hP : AsciiOnly P) : P replacement = false := hP _ (by decide)

/-- The test is passed in the text as often as among the bytes. -/
structure Counted (P : Char → Bool) (bs : List UInt8) : Prop where
  pending : ∀ k p, Pending.Ok k p →
    (decodeFrom (some p) bs).countP P = bs.countP (onByte P)
  fresh : (decodeFrom none bs).countP P = bs.countP (onByte P)

theorem Counted.lead (h : Counted P bs) (hP : AsciiOnly P) (b : UInt8) :
    (decodeFrom none (b :: bs)).countP P = (b :: bs).countP (onByte P) := by
  rw [decodeFrom_lead, List.countP_cons]
  rcases leadByte_cases b.toNat with ⟨hascii, hlead, _⟩ | ⟨hb, _, p, hlead, hp⟩ | ⟨hb, hlead, _⟩
  · rw [hlead, List.singleton_append, List.countP_cons, h.fresh]
    rfl
  · rw [hlead, List.nil_append, h.pending 1 p hp, hP.onByte hb]
    rfl
  · rw [hlead, List.singleton_append, List.countP_cons, h.fresh, hP.replacement, hP.onByte hb]

theorem counted (hP : AsciiOnly P) (bs : List UInt8) : Counted P bs := by
  induction bs with
  | nil =>
      refine ⟨fun k p _ => ?_, rfl⟩
      show [Text.replacement].countP P = 0
      rw [List.countP_singleton, hP.replacement, if_neg Bool.false_ne_true]
  | cons b bs ih =>
      refine ⟨fun k p hp => ?_, ih.lead hP b⟩
      by_cases hb : p.low ≤ b.toNat ∧ b.toNat ≤ p.high
      · have hbyte : onByte P b = false := hP.onByte (by have := hp.low; omega)
        by_cases hlast : p.missing = 1
        · rw [decodeFrom_last bs hb hlast, List.countP_cons, List.countP_cons, ih.fresh,
            hP _ (hp.complete hb hlast).1, hbyte]
        · rw [decodeFrom_more bs hb hlast, ih.pending _ _ (hp.advance hb hlast),
            List.countP_cons, hbyte]
          rfl
      · rw [decodeFrom_broken bs hb, List.countP_cons, ih.lead hP b, hP.replacement]
        rfl

theorem countP_fromUtf8Lossy (hP : AsciiOnly P) (bytes : List UInt8) :
    (fromUtf8Lossy bytes).countP P = bytes.countP (onByte P) :=
  (counted hP bytes).fresh

end

/-! ## ASCII alone -/

theorem fromUtf8Lossy_ascii {bytes : List UInt8} (h : ∀ b ∈ bytes, b.toNat < 0x80) :
    fromUtf8Lossy bytes = bytes.map fun b => Char.ofNat b.toNat := by
  induction bytes with
  | nil => rfl
  | cons b bytes ih =>
      rw [fromUtf8Lossy, decodeFrom_lead, leadByte_ascii (h b (List.mem_cons_self ..)),
        List.map_cons, ← ih fun b' hb' => h b' (List.mem_cons_of_mem _ hb')]
      rfl

/-- Bytes of ASCII are UTF-8, each a character. -/
theorem fromUtf8_ascii {bytes : List UInt8} (h : ∀ b ∈ bytes, b.toNat < 0x80) :
    fromUtf8 bytes = some (bytes.map fun b => Char.ofNat b.toNat) := by
  have hencode : toUtf8 (bytes.map fun b => Char.ofNat b.toNat) = bytes := by
    induction bytes with
    | nil => rfl
    | cons b bytes ih =>
        have hb := h b (List.mem_cons_self ..)
        have hnat : (Char.ofNat b.toNat).toNat = b.toNat := toNat_ofNat (.inl (by omega))
        have hsize : (Char.ofNat b.toNat).utf8Size = 1 := by
          rw [utf8Size_eq, hnat, if_pos (by omega)]
        have hbyte : (Char.ofNat b.toNat).val.toUInt8 = b := by
          rw [← UInt8.toNat_inj, UInt32.toNat_toUInt8]
          show (Char.ofNat b.toNat).toNat % 2 ^ 8 = b.toNat
          omega
        show String.utf8EncodeChar (Char.ofNat b.toNat) ++ toUtf8 _ = _
        rw [String.utf8EncodeChar_eq_singleton hsize, hbyte,
          ih fun b' hb' => h b' (List.mem_cons_of_mem _ hb')]
        rfl
  rw [fromUtf8, fromUtf8Lossy_ascii h, if_pos hencode]

end ShellfleetAgent.Lib.Text
