import Mathlib.Data.List.Infix
import Mathlib.Data.List.TakeWhile

/-!
# Text as the standard library has it

Strings as lists of characters, with the operations of `str` that depend on
more than the characters one by one: Unicode white space, lengths and cuts in
UTF-8 bytes, numbers, and the lossy decoding of bytes that need not be UTF-8.
-/

namespace ShellfleetAgent.Lib

abbrev Str := List Char

namespace Text

/-- `char::is_whitespace`, the Unicode property White_Space. -/
def isWhitespace (c : Char) : Bool :=
  let n := c.toNat
  (0x09 ≤ n && n ≤ 0x0D) || n == 0x20 || n == 0x85 || n == 0xA0 || n == 0x1680 ||
    (0x2000 ≤ n && n ≤ 0x200A) || n == 0x2028 || n == 0x2029 || n == 0x202F || n == 0x205F ||
    n == 0x3000

def trimEndMatches (p : Char → Bool) (s : Str) : Str :=
  (s.reverse.dropWhile p).reverse

/-- `str::trim`. -/
def trim (s : Str) : Str := trimEndMatches isWhitespace (s.dropWhile isWhitespace)

theorem trimEndMatches_prefix (p : Char → Bool) (s : Str) : trimEndMatches p s <+: s := by
  have h := List.reverse_prefix.mpr (List.dropWhile_suffix p (l := s.reverse))
  rwa [List.reverse_reverse] at h

/-- `str::trim_matches`. -/
def trimMatches (p : Char → Bool) (s : Str) : Str := trimEndMatches p (s.dropWhile p)

section Trim

variable {p q : Char → Bool} {s front back : Str}

theorem trimEndMatches_append (hback : ∀ c ∈ back, p c) :
    trimEndMatches p (s ++ back) = trimEndMatches p s := by
  rw [trimEndMatches, List.reverse_append, List.dropWhile_append_of_pos]
  · rfl
  · intro c hc
    exact hback c (List.mem_reverse.mp hc)

theorem trimMatches_append (hfront : ∀ c ∈ front, p c) (hback : ∀ c ∈ back, p c) :
    trimMatches p (front ++ s ++ back) = trimMatches p s := by
  rw [trimMatches, trimMatches, List.append_assoc, List.dropWhile_append_of_pos hfront,
    List.dropWhile_append]
  split
  · next hall =>
      rw [List.isEmpty_iff.mp hall, List.dropWhile_eq_nil_iff.mpr hback]
  · exact trimEndMatches_append hback

/-- What is trimmed off. -/
theorem trimMatches_split (p : Char → Bool) (s : Str) :
    ∃ front back, (∀ c ∈ front, p c) ∧ (∀ c ∈ back, p c) ∧
      s = front ++ trimMatches p s ++ back := by
  obtain ⟨back, hback⟩ := trimEndMatches_prefix p (s.dropWhile p)
  refine ⟨s.takeWhile p, back, fun c hc => List.mem_takeWhile_imp hc, fun c hc => ?_, ?_⟩
  · have hsplit : (s.dropWhile p).reverse =
        (s.dropWhile p).reverse.takeWhile p ++ (trimEndMatches p (s.dropWhile p)).reverse := by
      rw [trimEndMatches, List.reverse_reverse, List.takeWhile_append_dropWhile]
    have hreverse : (s.dropWhile p).reverse =
        back.reverse ++ (trimEndMatches p (s.dropWhile p)).reverse := by
      rw [← List.reverse_append, hback]
    have heq := List.append_cancel_right (hreverse.symm.trans hsplit)
    refine List.mem_takeWhile_imp (l := (s.dropWhile p).reverse) ?_
    rw [← heq]
    exact List.mem_reverse.mpr hc
  · rw [trimMatches, List.append_assoc, hback, List.takeWhile_append_dropWhile]

/-- What the narrower set leaves, the wider one trims to the same. -/
theorem trimMatches_trimMatches (hsub : ∀ c, q c → p c) (s : Str) :
    trimMatches p (trimMatches q s) = trimMatches p s := by
  obtain ⟨front, back, hfront, hback, hs⟩ := trimMatches_split q s
  calc trimMatches p (trimMatches q s)
      = trimMatches p (front ++ trimMatches q s ++ back) :=
        (trimMatches_append (fun c hc => hsub c (hfront c hc))
          fun c hc => hsub c (hback c hc)).symm
    _ = trimMatches p s := by rw [← hs]

theorem trim_trim (s : Str) : trim (trim s) = trim s :=
  trimMatches_trimMatches (fun _ h => h) s

theorem infix_trim (s : Str) : trim s <:+: s := by
  obtain ⟨front, back, _, _, hs⟩ := trimMatches_split isWhitespace s
  exact ⟨front, back, hs.symm⟩

/-- Nothing is trimmed off before or inside what begins and ends with no white space. -/
theorem prefix_trim {c d : Char} {front : Str} (hc : isWhitespace c = false)
    (hd : isWhitespace d = false) (h : c :: front ++ [d] <+: s) : c :: front ++ [d] <+: trim s := by
  obtain ⟨back, rfl⟩ := h
  have hstart : List.dropWhile isWhitespace (c :: front ++ [d] ++ back) =
      c :: front ++ [d] ++ back := by
    rw [List.cons_append, List.cons_append, List.dropWhile_cons, hc]
    rfl
  rw [trim, hstart, trimEndMatches, List.reverse_append, List.reverse_append,
    List.reverse_singleton, List.dropWhile_append]
  split
  · rw [List.singleton_append, List.dropWhile_cons, hd]
    simp
  · rw [List.reverse_append, List.reverse_append, List.reverse_singleton, List.reverse_reverse]
    exact List.prefix_append _ _

theorem trim_eq_self {s : Str} (h : ∀ c ∈ s, isWhitespace c = false) : trim s = s := by
  obtain ⟨front, back, hfront, hback, hs⟩ := trimMatches_split isWhitespace s
  have hnone : ∀ part : Str, (∀ c ∈ part, isWhitespace c = true) → part ⊆ s → part = [] := by
    intro part hwhite hsub
    refine List.eq_nil_iff_forall_not_mem.mpr fun c hc => ?_
    have hno := h c (hsub hc)
    rw [hwhite c hc] at hno
    cases hno
  have hsubFront : front ⊆ s := by
    rw [hs, List.append_assoc]
    exact List.subset_append_left _ _
  have hsubBack : back ⊆ s := by
    rw [hs]
    exact List.subset_append_right _ _
  rw [hnone front hfront hsubFront, hnone back hback hsubBack, List.nil_append,
    List.append_nil] at hs
  exact hs.symm

theorem isWhitespace_of_isDigit {c : Char} (h : c.isDigit = true) : isWhitespace c = false := by
  obtain ⟨hlow, hhigh⟩ : 48 ≤ c.toNat ∧ c.toNat ≤ 57 := by
    simpa [Char.isDigit, UInt32.le_iff_toNat_le] using h
  simp [isWhitespace]
  omega

end Trim

/-- `str::strip_prefix`. -/
def stripStart (start s : Str) : Option Str :=
  if start.isPrefixOf s then some (s.drop start.length) else none

theorem stripStart_eq_some {start s rest : Str} :
    stripStart start s = some rest ↔ s = start ++ rest := by
  unfold stripStart
  constructor
  · intro h
    split at h
    · next hpre =>
        obtain ⟨t, rfl⟩ := List.isPrefixOf_iff_prefix.mp hpre
        rw [List.drop_left] at h
        cases h
        rfl
    · cases h
  · rintro rfl
    rw [if_pos (List.isPrefixOf_iff_prefix.mpr (List.prefix_append ..)), List.drop_left]

/-- `str::ends_with`. -/
def endsWith (s tail : Str) : Bool := tail.isSuffixOf s

/-- `str::contains`. -/
def contains (s piece : Str) : Bool := s.tails.any (piece.isPrefixOf ·)

/-- `str::split` at a pattern that is not empty: matches are found from the left and do not
overlap. -/
def splitStr (piece s : Str) : List Str :=
  go 0 [] s
where
  go (skip : Nat) (part : Str) : Str → List Str
    | [] => [part]
    | c :: s =>
      match skip with
      | skip + 1 => go skip part s
      | 0 =>
        if piece.isPrefixOf (c :: s) then part :: go (piece.length - 1) [] s
        else go 0 (part ++ [c]) s

/-- `str::splitn(2, c)`, with nothing for a missing second part. -/
def splitTwo (c : Char) (s : Str) : Str × Str :=
  (s.takeWhile (· ≠ c), (s.dropWhile (· ≠ c)).drop 1)

theorem not_mem_splitTwo (c : Char) (s : Str) : c ∉ (splitTwo c s).1 := by
  intro h
  have hne := List.mem_takeWhile_imp h
  simp at hne

theorem splitTwo_append {c : Char} {s : Str} (h : c ∉ s) (t : Str) :
    splitTwo c (s ++ c :: t) = (s, t) := by
  have hall : ∀ x ∈ s, (decide (x ≠ c)) = true := by
    intro x hx
    have hne : x ≠ c := by
      rintro rfl
      exact h hx
    simpa using hne
  rw [splitTwo, List.takeWhile_append_of_pos hall, List.dropWhile_append_of_pos hall]
  simp

def decimal (n : Nat) : Str := (toString n).toList

/-- `str::parse::<u64>`. -/
def parseU64 (s : Str) : Option Nat :=
  let digits := (stripStart ['+'] s).getD s
  if digits = [] ∨ ¬digits.all Char.isDigit then none
  else
    let n := digits.foldl (fun n c => n * 10 + (c.toNat - '0'.toNat)) 0
    if n < UInt64.size then some n else none

theorem decimal_eq_toDigits (n : Nat) : decimal n = Nat.toDigits 10 n := by
  rw [decimal, Nat.toString_eq_repr, Nat.toList_repr]

theorem decimal_injective : Function.Injective decimal := by
  intro m n h
  rw [decimal_eq_toDigits, decimal_eq_toDigits] at h
  rw [← Nat.ofDigitChars_ten_toDigits (n := m), h, Nat.ofDigitChars_ten_toDigits]

theorem decimal_ne_nil (n : Nat) : decimal n ≠ [] := by
  rw [decimal_eq_toDigits]
  exact Nat.toDigits_ne_nil

theorem isDigit_of_mem_decimal {n : Nat} {c : Char} (h : c ∈ decimal n) : c.isDigit := by
  rw [decimal_eq_toDigits] at h
  exact Nat.isDigit_of_mem_toDigits (by omega) (by omega) h

/-- What is printed is read back. -/
theorem parseU64_decimal {n : Nat} (h : n < UInt64.size) : parseU64 (decimal n) = some n := by
  have hplus : stripStart ['+'] (decimal n) = none := by
    cases hd : decimal n with
    | nil => rfl
    | cons c rest =>
        have hdigit : c.isDigit := isDigit_of_mem_decimal (n := n) (by rw [hd]; simp)
        have hc : c ≠ '+' := by
          intro heq
          subst heq
          cases hdigit
        simp [stripStart, List.isPrefixOf, Ne.symm hc]
  have hvalue : (decimal n).foldl (fun n c => n * 10 + (c.toNat - '0'.toNat)) 0 = n := by
    have hfold := Nat.ofDigitChars_ten_toDigits (n := n)
    rw [Nat.ofDigitChars_eq_foldl, ← decimal_eq_toDigits] at hfold
    simpa only [Nat.mul_comm] using hfold
  rw [parseU64, hplus, Option.getD_none, if_neg, hvalue, if_pos h]
  simp only [decimal_ne_nil, false_or, not_not, List.all_eq_true]
  exact fun c hc => isDigit_of_mem_decimal hc

/-- `i64::to_string`. -/
def decimalInt (n : Int) : Str := (toString n).toList

/-- `i64` values, and what saturating arithmetic makes of the others. -/
def i64Min : Int := -0x8000000000000000

def i64Max : Int := 0x7FFFFFFFFFFFFFFF

def saturateI64 (n : Int) : Int := max i64Min (min i64Max n)

/-- `str::parse::<i64>`. -/
def parseI64 (s : Str) : Option Int :=
  let negative := s.head? = some '-'
  let digits := if negative then s.drop 1 else (stripStart ['+'] s).getD s
  if digits = [] ∨ ¬digits.all Char.isDigit then none
  else
    let n := digits.foldl (fun n c => n * 10 + (c.toNat - '0'.toNat)) 0
    let value : Int := if negative then -n else n
    if i64Min ≤ value ∧ value ≤ i64Max then some value else none

/-! ## UTF-8 -/

/-- `str::len`. -/
def utf8Len (s : Str) : Nat := s.foldr (fun c n => c.utf8Size + n) 0

/-- The string from byte `n` on, if a character starts there. -/
def dropBytes : Nat → Str → Option Str
  | 0, s => some s
  | _ + 1, [] => none
  | n + 1, c :: s => if c.utf8Size ≤ n + 1 then dropBytes (n + 1 - c.utf8Size) s else none

/-- The last `cap` bytes under a header, if the string is longer; nothing if the
cut falls inside a character, where slicing and draining panic. -/
def keepTail (s : Str) (cap : Nat) : Option Str :=
  if utf8Len s ≤ cap then some s
  else
    let cut := utf8Len s - cap
    let head := "…[".toList ++ decimal cut ++ " bytes truncated]…\n".toList
    (dropBytes cut s).map (head ++ ·)

def toUtf8 (s : Str) : List UInt8 := s.flatMap String.utf8EncodeChar

/-- A character under way: its bits so far, how many bytes are still to come,
and the range of the next one. -/
structure Pending where
  bits : Nat
  missing : Nat
  low : Nat
  high : Nat

def replacement : Char := Char.ofNat 0xFFFD

/-- What a byte is that no character is waiting for. -/
def leadByte (b : Nat) : Str × Option Pending :=
  if b < 0x80 then ([Char.ofNat b], none)
  else if 0xC2 ≤ b ∧ b ≤ 0xDF then ([], some ⟨b - 0xC0, 1, 0x80, 0xBF⟩)
  else if b = 0xE0 then ([], some ⟨0, 2, 0xA0, 0xBF⟩)
  else if b = 0xED then ([], some ⟨0xD, 2, 0x80, 0x9F⟩)
  else if 0xE1 ≤ b ∧ b ≤ 0xEF then ([], some ⟨b - 0xE0, 2, 0x80, 0xBF⟩)
  else if b = 0xF0 then ([], some ⟨0, 3, 0x90, 0xBF⟩)
  else if 0xF1 ≤ b ∧ b ≤ 0xF3 then ([], some ⟨b - 0xF0, 3, 0x80, 0xBF⟩)
  else if b = 0xF4 then ([], some ⟨4, 3, 0x80, 0x8F⟩)
  else ([replacement], none)

def decodeFrom : Option Pending → List UInt8 → Str
  | none, [] => []
  | some _, [] => [replacement]
  | none, b :: bs =>
      let (out, next) := leadByte b.toNat
      out ++ decodeFrom next bs
  | some p, b :: bs =>
      if p.low ≤ b.toNat ∧ b.toNat ≤ p.high then
        let bits := p.bits * 64 + (b.toNat - 0x80)
        if p.missing = 1 then Char.ofNat bits :: decodeFrom none bs
        else decodeFrom (some ⟨bits, p.missing - 1, 0x80, 0xBF⟩) bs
      else
        -- the byte that breaks a character off is looked at once more
        let (out, next) := leadByte b.toNat
        replacement :: out ++ decodeFrom next bs

/-- `String::from_utf8_lossy`. -/
def fromUtf8Lossy (bytes : List UInt8) : Str := decodeFrom none bytes

/-- `String::from_utf8`. Bytes that are not UTF-8 are not what their decoding is
encoded as. -/
def fromUtf8 (bytes : List UInt8) : Option Str :=
  if toUtf8 (fromUtf8Lossy bytes) = bytes then some (fromUtf8Lossy bytes) else none

example : fromUtf8Lossy [0x61, 0xE2, 0x82, 0xAC, 0xE2, 0x82, 0x62] =
    ['a', '€', replacement, 'b'] := by
  decide

end Text

end ShellfleetAgent.Lib
