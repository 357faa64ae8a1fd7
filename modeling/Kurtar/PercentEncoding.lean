import Mathlib.Data.List.Basic
import Mathlib.Tactic.IntervalCases

/-!
# Percent-encoding

A character that is not kept is written as the bytes of its UTF-8 encoding,
each as `%` and two hexadecimal digits. When `%` is not kept the text is read
back as it was, and no character that is neither kept nor a digit occurs in it.
-/

namespace Kurtar.PercentEncoding

/-- The upper-case digit of a number below sixteen. -/
def hexDigit (n : ℕ) : Char := if n < 10 then Char.ofNat (n+48) else Char.ofNat (n+55)

/-- The value of a hexadecimal digit of either case. -/
def hexValue (c : Char) : Option ℕ :=
  if '0' ≤ c ∧ c ≤ '9' then some (c.toNat-48)
  else if 'A' ≤ c ∧ c ≤ 'F' then some (c.toNat-55)
  else if 'a' ≤ c ∧ c ≤ 'f' then some (c.toNat-87)
  else none

def encodeByte (b : UInt8) : List Char := ['%', hexDigit (b.toNat/16), hexDigit (b.toNat%16)]

/-- A kept character stays; another one is written byte by byte. -/
def encodeChar (keep : Char → Bool) (c : Char) : List Char :=
  if keep c then [c] else (String.utf8EncodeChar c).flatMap encodeByte

def encode (keep : Char → Bool) (text : List Char) : List Char := text.flatMap (encodeChar keep)

/-- The bytes that a text stands for; none when a `%` has no two digits behind it. -/
def bytesOf : List Char → Option (List UInt8)
  | [] => some []
  | c :: rest =>
    if c = '%' then
      match rest with
      | high :: low :: rest =>
        match hexValue high, hexValue low with
        | some h, some l => (bytesOf rest).map (UInt8.ofNat (h*16+l) :: ·)
        | _, _ => none
      | _ => none
    else (bytesOf rest).map (String.utf8EncodeChar c ++ ·)

/-- The text that is read back; none when it is malformed. -/
def decode (text : List Char) : Option (List Char) :=
  (bytesOf text).bind fun bytes => bytes.toByteArray.utf8Decode?.map (·.toList)

variable {keep : Char → Bool} {c : Char} {text text' rest : List Char}

theorem hexValue_hexDigit {n : ℕ} (h : n < 16) : hexValue (hexDigit n) = some n := by
  interval_cases n <;> decide

theorem hexDigit_ne_percent {n : ℕ} (h : n < 16) : hexDigit n ≠ '%' := by
  intro heq
  have hvalue := hexValue_hexDigit h
  rw [heq] at hvalue
  cases hvalue

theorem bytesOf_cons (h : c ≠ '%') :
    bytesOf (c :: rest) = (bytesOf rest).map (String.utf8EncodeChar c ++ ·) := by
  rw [bytesOf.eq_def]
  exact if_neg h

theorem bytesOf_encodeByte (b : UInt8) (rest : List Char) :
    bytesOf (encodeByte b ++ rest) = (bytesOf rest).map (b :: ·) := by
  have hbound := b.toNat_lt
  have hhigh : b.toNat/16 < 16 := by omega
  have hlow : b.toNat%16 < 16 := by omega
  have hbyte : UInt8.ofNat (b.toNat/16*16+b.toNat%16) = b := by
    rw [Nat.div_add_mod' b.toNat 16]
    exact UInt8.ofNat_toNat
  change bytesOf ('%' :: hexDigit (b.toNat/16) :: hexDigit (b.toNat%16) :: rest) = _
  rw [bytesOf, if_pos rfl]
  simp only [hexValue_hexDigit hhigh, hexValue_hexDigit hlow, hbyte]

theorem bytesOf_flatMap_encodeByte (bytes : List UInt8) (rest : List Char) :
    bytesOf (bytes.flatMap encodeByte ++ rest) = (bytesOf rest).map (bytes ++ ·) := by
  induction bytes with
  | nil =>
    rw [List.flatMap_nil, List.nil_append]
    simp
  | cons b bytes ih =>
    rw [List.flatMap_cons, List.append_assoc, bytesOf_encodeByte, ih, Option.map_map]
    rfl

/-- The bytes of an encoded text are those of the text. -/
theorem bytesOf_encode (hkeep : keep '%' = false) (text rest : List Char) :
    bytesOf (encode keep text ++ rest) =
      (bytesOf rest).map (text.flatMap String.utf8EncodeChar ++ ·) := by
  induction text with
  | nil =>
    rw [encode, List.flatMap_nil, List.nil_append]
    simp
  | cons c text ih =>
    have hhead : ∀ rest, bytesOf (encodeChar keep c ++ rest) =
        (bytesOf rest).map (String.utf8EncodeChar c ++ ·) := by
      intro rest
      unfold encodeChar
      split_ifs with hc
      · have hne : c ≠ '%' := by
          rintro rfl
          rw [hkeep] at hc
          cases hc
        rw [List.singleton_append, bytesOf_cons hne]
      · exact bytesOf_flatMap_encodeByte _ _
    rw [encode, List.flatMap_cons, List.append_assoc, hhead]
    change Option.map _ (bytesOf (encode keep text ++ rest)) = _
    rw [ih, Option.map_map, List.flatMap_cons]
    congr 1
    funext bytes
    exact (List.append_assoc _ _ _).symm

/-- An encoded text is read back. -/
theorem decode_encode (hkeep : keep '%' = false) (text : List Char) :
    decode (encode keep text) = some text := by
  have hbytes := bytesOf_encode hkeep text []
  rw [List.append_nil, bytesOf, Option.map_some, List.append_nil] at hbytes
  have hdecode := List.utf8Decode?_utf8Encode (l := text)
  rw [List.utf8Encode] at hdecode
  rw [decode, hbytes, Option.bind_some, hdecode]
  rfl

theorem encode_injective (hkeep : keep '%' = false) (h : encode keep text = encode keep text') :
    text = text' := by
  have hdecode := decode_encode hkeep text
  rw [h, decode_encode hkeep text'] at hdecode
  exact (Option.some.inj hdecode).symm

/-- What an encoded text is made of. -/
theorem mem_encode (h : c ∈ encode keep text) :
    keep c = true ∨ c = '%' ∨ (hexValue c).isSome = true := by
  obtain ⟨x, -, hx⟩ := List.mem_flatMap.mp h
  unfold encodeChar at hx
  split_ifs at hx with hkept
  · rw [List.mem_singleton.mp hx]
    exact Or.inl hkept
  · obtain ⟨b, -, hb⟩ := List.mem_flatMap.mp hx
    have hbound := b.toNat_lt
    have hhigh := hexValue_hexDigit (n := b.toNat/16) (by omega)
    have hlow := hexValue_hexDigit (n := b.toNat%16) (by omega)
    simp only [encodeByte, List.mem_cons, List.not_mem_nil, or_false] at hb
    rcases hb with rfl | rfl | rfl
    · exact Or.inr (Or.inl rfl)
    · exact Or.inr (Or.inr (by rw [hhigh]; rfl))
    · exact Or.inr (Or.inr (by rw [hlow]; rfl))

theorem notMem_encode (hkept : keep c = false) (hne : c ≠ '%') (hdigit : hexValue c = none) :
    c ∉ encode keep text := by
  intro h
  rcases mem_encode h with hc | hc | hc
  · rw [hkept] at hc
    cases hc
  · exact hne hc
  · rw [hdigit] at hc
    cases hc

theorem encode_of_kept (h : ∀ c ∈ text, keep c = true) : encode keep text = text := by
  induction text with
  | nil => rfl
  | cons c text ih =>
    have hrest := ih fun x hx => h x (List.mem_cons_of_mem c hx)
    rw [encode, List.flatMap_cons, encodeChar, if_pos (h c List.mem_cons_self)]
    change c :: encode keep text = _
    rw [hrest]

/-- Texts that stand for the same bytes are the same once encoded. -/
theorem eq_of_bytesOf_encode (hkeep : keep '%' = false)
    (h : bytesOf (encode keep text) = bytesOf (encode keep text')) : text = text' := by
  have hdecode : decode (encode keep text) = decode (encode keep text') := by
    rw [decode, decode, h]
  rw [decode_encode hkeep, decode_encode hkeep] at hdecode
  exact Option.some.inj hdecode

end Kurtar.PercentEncoding
