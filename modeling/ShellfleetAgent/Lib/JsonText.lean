import ShellfleetAgent.Lib.Lossy

/-!
# JSON as it is written

`serde_json::to_string` on strings, numbers and the records that a derived `Serialize`
writes, as far as it decides how long the text is: an escape is a character longer than
what it stands for, or five.
-/

namespace ShellfleetAgent.Lib.JsonText

open Text

def doubleQuote : Char := Char.ofNat 0x22

/-- The characters with an escape of their own, and its letter. -/
def shortEscapes : List (Char × Char) :=
  [(doubleQuote, doubleQuote), ('\\', '\\'), (Char.ofNat 0x08, 'b'), (Char.ofNat 0x09, 't'),
    (Char.ofNat 0x0A, 'n'), (Char.ofNat 0x0C, 'f'), (Char.ofNat 0x0D, 'r')]

def hexDigit (n : Nat) : Char :=
  if n < 10 then Char.ofNat (0x30 + n) else Char.ofNat (0x61 + (n - 10))

def isShort (c : Char) : Bool := (shortEscapes.lookup c).isSome

/-- A control character that is written by its number. -/
def isLong (c : Char) : Bool := !isShort c && c.toNat < 0x20

def escape (c : Char) : Str :=
  match shortEscapes.lookup c with
  | some letter => ['\\', letter]
  | none =>
    if c.toNat < 0x20 then
      "\\u00".toList ++ [hexDigit (c.toNat / 16), hexDigit (c.toNat % 16)]
    else [c]

/-- A string. -/
def quote (s : Str) : Str := doubleQuote :: s.flatMap escape ++ [doubleQuote]

def bool (b : Bool) : Str := if b then "true".toList else "false".toList

/-- Keys and values. -/
def members : List (Str × Str) → Str
  | [] => []
  | [(key, value)] => quote key ++ ':' :: value
  | (key, value) :: fields => quote key ++ ':' :: value ++ ',' :: members fields

/-- A variant with the fields that it has. -/
def record (name : Str) (fields : List (Str × Str)) : Str :=
  "\x7b".toList ++ quote name ++ ":\x7b".toList ++ members fields ++ "\x7d\x7d".toList

example : record "Ping".toList [("id".toList, quote ("a\n".toList ++ [Char.ofNat 0x1B]))] =
    "\x7b\"Ping\":\x7b\"id\":\"a\\n\\u001b\"\x7d\x7d".toList := by
  decide

/-! ## How long it is -/

theorem utf8Size_ascii {c : Char} (h : c.toNat ≤ 0x7F) : c.utf8Size = 1 := by
  rw [utf8Size_eq, if_pos h]

/-- Both the characters and the letters are ASCII. -/
theorem ascii_of_lookup {c letter : Char} (h : shortEscapes.lookup c = some letter) :
    c.toNat ≤ 0x7F ∧ letter.toNat ≤ 0x7F := by
  have hascii : ∀ entry ∈ shortEscapes, entry.1.toNat ≤ 0x7F ∧ entry.2.toNat ≤ 0x7F := by
    decide
  obtain ⟨l₁, l₂, heq, _⟩ := List.lookup_eq_some_iff.mp h
  exact hascii (c, letter) (by rw [heq]; simp)

theorem utf8Size_hexDigit {n : Nat} (h : n < 16) : (hexDigit n).utf8Size = 1 := by
  have hdigits : ∀ n < 16, (hexDigit n).toNat ≤ 0x7F := by decide
  exact utf8Size_ascii (hdigits n h)

/-- An escape is a character longer than what it stands for, or five. -/
theorem utf8Len_escape (c : Char) : utf8Len (escape c) =
    c.utf8Size + (if isShort c then 1 else 0) + 5 * (if isLong c then 1 else 0) := by
  unfold escape isLong isShort
  cases h : shortEscapes.lookup c with
  | some letter =>
      obtain ⟨hc, hletter⟩ := ascii_of_lookup h
      have hslash : '\\'.utf8Size = 1 := rfl
      simp [utf8Size_ascii hc, utf8Size_ascii hletter, hslash]
  | none =>
      by_cases hc : c.toNat < 0x20
      · have hu : utf8Len "\\u00".toList = 4 := by decide
        have h₁ := utf8Size_hexDigit (n := c.toNat / 16) (by omega)
        have h₂ := utf8Size_hexDigit (n := c.toNat % 16) (by omega)
        have hsize : c.utf8Size = 1 := utf8Size_ascii (by omega)
        rw [if_pos hc, utf8Len_append, hu]
        simp [h₁, h₂, hsize, hc]
      · simp [hc]

theorem utf8Len_flatMap_escape (s : Str) : utf8Len (s.flatMap escape) =
    utf8Len s + s.countP isShort + 5 * s.countP isLong := by
  induction s with
  | nil => rfl
  | cons c s ih =>
      rw [List.flatMap_cons, utf8Len_append, ih, utf8Len_escape, utf8Len_cons, List.countP_cons,
        List.countP_cons]
      omega

theorem utf8Len_quote (s : Str) :
    utf8Len (quote s) = 2 + utf8Len s + s.countP isShort + 5 * s.countP isLong := by
  have hquote : doubleQuote.utf8Size = 1 := rfl
  rw [quote, utf8Len_append, utf8Len_cons, utf8Len_flatMap_escape, utf8Len_cons, hquote,
    utf8Len_nil]
  omega

theorem asciiOnly_isShort : AsciiOnly isShort := by
  intro c hc
  rw [isShort]
  cases h : shortEscapes.lookup c with
  | none => rfl
  | some letter =>
      have := (ascii_of_lookup h).1
      omega

theorem asciiOnly_isLong : AsciiOnly isLong := by
  intro c hc
  rw [isLong, Bool.and_eq_false_iff]
  exact .inr (decide_eq_false (by omega))

/-- How long the string is that bytes are decoded to, without the quotes around it: the
bytes, one more for a short escape, five more for a long one, and what an ill-formed
sequence falls short of three. -/
def decodedSize (bytes : List UInt8) : Nat :=
  bytes.length + bytes.countP (onByte isShort) + 5 * bytes.countP (onByte isLong) +
    ((illFormed bytes).map (3 - ·)).sum

theorem utf8Len_quote_fromUtf8Lossy (bytes : List UInt8) :
    utf8Len (quote (fromUtf8Lossy bytes)) = 2 + decodedSize bytes := by
  rw [utf8Len_quote, utf8Len_fromUtf8Lossy, countP_fromUtf8Lossy asciiOnly_isShort,
    countP_fromUtf8Lossy asciiOnly_isLong, decodedSize]
  omega

/-! ## Records -/

/-- The keys alone. -/
def keysOnly (fields : List (Str × Str)) : List (Str × Str) :=
  fields.map fun (key, _) => (key, [])

def sizes (fields : List (Str × Str)) : Nat := (fields.map fun (_, value) => utf8Len value).sum

theorem utf8Len_members (fields : List (Str × Str)) :
    utf8Len (members fields) = utf8Len (members (keysOnly fields)) + sizes fields := by
  induction fields using members.induct with
  | case1 => rfl
  | case2 key value =>
      show utf8Len (quote key ++ ':' :: value) = utf8Len (quote key ++ [':']) + (utf8Len value + 0)
      rw [utf8Len_append, utf8Len_append, utf8Len_cons, utf8Len_cons, utf8Len_nil]
      omega
  | case3 key value fields hne ih =>
      cases fields with
      | nil => exact absurd rfl hne
      | cons field fields =>
          show utf8Len (quote key ++ ':' :: value ++ ',' :: members (field :: fields)) =
            utf8Len (quote key ++ [':'] ++ ',' :: members (keysOnly (field :: fields))) +
              (utf8Len value + sizes (field :: fields))
          simp only [utf8Len_append, utf8Len_cons, utf8Len_nil, ih]
          omega

/-- The values go in as they are, whatever is around them. -/
theorem utf8Len_record (name : Str) (fields : List (Str × Str)) : utf8Len (record name fields) =
    utf8Len (record name (keysOnly fields)) + sizes fields := by
  rw [record, record]
  simp only [utf8Len_append, utf8Len_members fields]
  omega

end ShellfleetAgent.Lib.JsonText
