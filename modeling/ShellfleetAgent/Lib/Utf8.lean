import ShellfleetAgent.Lib.Lossy

/-!
# Decoding what was encoded

The decoder of `Text.fromUtf8Lossy` goes byte by byte, the encoder character by character.
Over the bytes of one character the decoder comes back to where it started, with the
character; so text survives being encoded and decoded, and no two texts have the same bytes.
-/

namespace ShellfleetAgent.Lib.Text

/-- A byte that continues a character in the middle or at its end. -/
theorem decodeFrom_next {bits missing low high n : Nat} (bs : List UInt8)
    (hlow : low ≤ 0x80 + n) (hhigh : 0x80 + n ≤ high) (hn : n < 0x40) :
    decodeFrom (some ⟨bits, missing, low, high⟩) (UInt8.ofNat (n + 0x80) :: bs) =
      if missing = 1 then Char.ofNat (bits * 64 + n) :: decodeFrom none bs
      else decodeFrom (some ⟨bits * 64 + n, missing - 1, 0x80, 0xBF⟩) bs := by
  have hbyte : (UInt8.ofNat (n + 0x80)).toNat = n + 0x80 := by
    rw [UInt8.toNat_ofNat']
    omega
  have hin : low ≤ n + 0x80 ∧ n + 0x80 ≤ high := ⟨by omega, by omega⟩
  rw [decodeFrom, hbyte, if_pos hin, Nat.add_sub_cancel]

/-- The first byte of a character that takes more than one. -/
theorem decodeFrom_first {b : Nat} {p : Pending} (bs : List UInt8) (hb : b < 256)
    (hlead : leadByte b = ([], some p)) :
    decodeFrom none (UInt8.ofNat b :: bs) = decodeFrom (some p) bs := by
  have hbyte : (UInt8.ofNat b).toNat = b := by
    rw [UInt8.toNat_ofNat']
    omega
  rw [decodeFrom_lead, hbyte, hlead, List.nil_append]

/-- What the first byte says of the next, by the value of the character. -/
theorem leadByte_two {v : Nat} (hlow : 0x80 ≤ v) (hhigh : v ≤ 0x7FF) :
    leadByte (v / 64 % 0x20 + 0xC0) = ([], some ⟨v / 64, 1, 0x80, 0xBF⟩) := by
  rw [leadByte, if_neg (by omega), if_pos ⟨by omega, by omega⟩]
  have hbits : v / 64 % 0x20 + 0xC0 - 0xC0 = v / 64 := by omega
  rw [hbits]

theorem leadByte_three {v : Nat} (hlow : 0x800 ≤ v) (hhigh : v ≤ 0xFFFF)
    (hscalar : v < 0xD800 ∨ 0xDFFF < v) :
    ∃ low high, leadByte (v / 4096 % 0x10 + 0xE0) = ([], some ⟨v / 4096, 2, low, high⟩) ∧
      low ≤ 0x80 + v / 64 % 0x40 ∧ 0x80 + v / 64 % 0x40 ≤ high := by
  have hbits : v / 4096 % 0x10 = v / 4096 := by omega
  rw [hbits, leadByte, if_neg (by omega), if_neg (by omega)]
  by_cases hfirst : v / 4096 = 0
  · rw [if_pos (by omega), hfirst]
    exact ⟨_, _, rfl, by omega, by omega⟩
  rw [if_neg (by omega)]
  by_cases hsurrogate : v / 4096 = 0xD
  · rw [if_pos (by omega), hsurrogate]
    exact ⟨_, _, rfl, by omega, by omega⟩
  · rw [if_neg (by omega), if_pos ⟨by omega, by omega⟩, Nat.add_sub_cancel]
    exact ⟨_, _, rfl, by omega, by omega⟩

theorem leadByte_four {v : Nat} (hlow : 0x10000 ≤ v) (hhigh : v < 0x110000) :
    ∃ low high, leadByte (v / 262144 % 0x08 + 0xF0) = ([], some ⟨v / 262144, 3, low, high⟩) ∧
      low ≤ 0x80 + v / 4096 % 0x40 ∧ 0x80 + v / 4096 % 0x40 ≤ high := by
  have hbits : v / 262144 % 0x08 = v / 262144 := by omega
  rw [hbits, leadByte, if_neg (by omega), if_neg (by omega), if_neg (by omega),
    if_neg (by omega), if_neg (by omega)]
  by_cases hfirst : v / 262144 = 0
  · rw [if_pos (by omega), hfirst]
    exact ⟨_, _, rfl, by omega, by omega⟩
  rw [if_neg (by omega)]
  by_cases hlast : v / 262144 = 4
  · rw [if_neg (by omega), if_pos (by omega), hlast]
    exact ⟨_, _, rfl, by omega, by omega⟩
  · rw [if_pos ⟨by omega, by omega⟩, Nat.add_sub_cancel]
    exact ⟨_, _, rfl, by omega, by omega⟩

theorem decodeFrom_encodeChar (c : Char) (bs : List UInt8) :
    decodeFrom none (String.utf8EncodeChar c ++ bs) = c :: decodeFrom none bs := by
  have hc : Char.ofNat c.val.toNat = c := Char.ofNat_toNat c
  have hvalid : c.val.toNat.isValidChar := c.valid
  unfold String.utf8EncodeChar
  generalize c.val.toNat = v at hc hvalid
  have hrange : v < 0xD800 ∨ 0xDFFF < v ∧ v < 0x110000 := hvalid
  dsimp only
  by_cases hone : v ≤ 0x7F
  · have hbyte : (UInt8.ofNat v).toNat = v := by
      rw [UInt8.toNat_ofNat']
      omega
    rw [if_pos hone, List.singleton_append, decodeFrom_lead, hbyte, leadByte_ascii (by omega), hc]
    rfl
  rw [if_neg hone]
  by_cases htwo : v ≤ 0x7FF
  · rw [if_pos htwo, List.cons_append, List.singleton_append,
      decodeFrom_first _ (by omega) (leadByte_two (by omega) htwo),
      decodeFrom_next bs (by omega) (by omega) (by omega), if_pos rfl]
    have hv : v / 64 * 64 + v % 0x40 = v := by omega
    rw [hv, hc]
  rw [if_neg htwo]
  by_cases hthree : v ≤ 0xFFFF
  · obtain ⟨low, high, hlead, hlow, hhigh⟩ := leadByte_three (by omega) hthree (by omega)
    rw [if_pos hthree, List.cons_append, List.cons_append, List.singleton_append,
      decodeFrom_first _ (by omega) hlead, decodeFrom_next _ hlow hhigh (by omega),
      if_neg (by decide), decodeFrom_next bs (by omega) (by omega) (by omega), if_pos rfl]
    have hv : (v / 4096 * 64 + v / 64 % 0x40) * 64 + v % 0x40 = v := by omega
    rw [hv, hc]
  · obtain ⟨low, high, hlead, hlow, hhigh⟩ := leadByte_four (v := v) (by omega) (by omega)
    rw [if_neg hthree, List.cons_append, List.cons_append, List.cons_append,
      List.singleton_append, decodeFrom_first _ (by omega) hlead,
      decodeFrom_next _ hlow hhigh (by omega), if_neg (by decide),
      decodeFrom_next _ (by omega) (by omega) (by omega), if_neg (by decide),
      decodeFrom_next bs (by omega) (by omega) (by omega), if_pos rfl]
    have hv : ((v / 262144 * 64 + v / 4096 % 0x40) * 64 + v / 64 % 0x40) * 64 + v % 0x40 = v := by
      omega
    rw [hv, hc]

/-- Text comes back from its bytes. -/
theorem fromUtf8Lossy_encoded (s : Str) : fromUtf8Lossy (toUtf8 s) = s := by
  induction s with
  | nil => rfl
  | cons c s ih =>
      have hcons : toUtf8 (c :: s) = String.utf8EncodeChar c ++ toUtf8 s := rfl
      rw [hcons, fromUtf8Lossy, decodeFrom_encodeChar]
      exact congrArg (c :: ·) ih

theorem fromUtf8_encoded (s : Str) : fromUtf8 (toUtf8 s) = some s := by
  rw [fromUtf8, fromUtf8Lossy_encoded, if_pos rfl]

theorem toUtf8_of_fromUtf8 {bytes : List UInt8} {s : Str} (h : fromUtf8 bytes = some s) :
    toUtf8 s = bytes := by
  unfold fromUtf8 at h
  split at h
  · next heq =>
      cases h
      exact heq
  · cases h

end ShellfleetAgent.Lib.Text
