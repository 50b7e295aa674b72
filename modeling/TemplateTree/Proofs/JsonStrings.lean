import TemplateTree.Json.Scan
import TemplateTree.Json.Writer
import TemplateTree.Proofs.Except
import TemplateTree.Proofs.Utf8

/-
  Reading the strings that a JSON document is written with.

  Main declarations:
    * `Json.encodeChars_ascii`
    * `Json.readStringBytes_quotedChar`
    * `Json.readString_quoted`

  A character is escaped, written by its number or left as
  it is.  In each case the reader gives back the bytes of the
  character, whatever follows it.
-/

------------------------------------------------------------
-- Bytes
------------------------------------------------------------

namespace TemplateTree

namespace Json

theorem encodeChar_ascii
    {c : Char}
    (hc : c.toNat < 0x80) :
    Utf8.encodeChar c = [byte c] := by
  unfold Utf8.encodeChar byte
  simp only [hc, ↓reduceIte]

theorem encodeChars_ascii
    {cs : List Char}
    (hcs : ∀ c ∈ cs, c.toNat < 0x80) :
    Utf8.encodeChars cs = cs.map byte := by
  induction cs with
  | nil => rfl
  | cons c cs ih =>
      rw [Utf8.encodeChars_cons,
        encodeChar_ascii (hcs c List.mem_cons_self),
        ih fun d hd => hcs d (List.mem_cons_of_mem c hd)]
      rfl

theorem toNat_digitChar_lt
    {n : Nat}
    (hn : n < 16) :
    (Nat.digitChar n).toNat < 0x80 := by
  revert n
  decide

theorem toNat_byte
    {c : Char}
    (hc : c.toNat < 0x80) :
    (byte c).toNat = c.toNat :=
  Utf8.toNat_toUInt8 (by omega)

theorem eq_of_byte_eq
    {c d : Char}
    (hc : c.toNat < 0x80)
    (hd : d.toNat < 0x80)
    (hByte : byte c = byte d) :
    c = d := by
  have hNumber := congrArg UInt8.toNat hByte
  rw [toNat_byte hc, toNat_byte hd] at hNumber
  exact Char.toNat_inj.mp hNumber

------------------------------------------------------------
-- Strings
------------------------------------------------------------

/- What a reader of string contents does with bytes it keeps. -/
def prepend
    (bytes : List UInt8)
    (step : Step (List UInt8)) : Step (List UInt8) :=
  step.map fun (bs, rest) => (bytes ++ bs, rest)

theorem readStringBytes_escape
    {e x : UInt8}
    (hEscape : escape? e = some x)
    (rest : List UInt8) :
    readStringBytes (byte '\\' :: e :: rest) =
      prepend [x] (readStringBytes rest) := by
  have hLetter : e ≠ byte 'u' := by
    rintro rfl
    have hNone : escape? (byte 'u') = none := by decide
    rw [hNone] at hEscape
    cases hEscape
  rw [readStringBytes.eq_def]
  simp only [hLetter, hEscape]
  rfl

theorem readStringBytes_unicode
    {a b c d : UInt8}
    {n : Nat}
    (hHex : hexNumber? a b c d = some n)
    (hSingle : n < 0xd800)
    (rest : List UInt8) :
    readStringBytes
        (byte '\\' :: byte 'u' :: a :: b :: c :: d :: rest) =
      prepend (Utf8.encodeChar (Char.ofNat n))
        (readStringBytes rest) := by
  have hTrailing : isTrailing n = false := by
    simp [isTrailing]
    omega
  have hLeading : isLeading n = false := by
    simp [isLeading]
    omega
  rw [readStringBytes.eq_def]
  simp only [hHex, hTrailing, hLeading]
  rfl

theorem readStringBytes_plain
    {bytes : List UInt8}
    (hPlain :
      ∀ b ∈ bytes,
        b ≠ byte '"' ∧ b ≠ byte '\\' ∧ 0x20 ≤ b)
    (rest : List UInt8) :
    readStringBytes (bytes ++ rest) =
      prepend bytes (readStringBytes rest) := by
  induction bytes with
  | nil =>
      rw [List.nil_append]
      cases readStringBytes rest <;> rfl
  | cons b bytes ih =>
      rcases hPlain b List.mem_cons_self
        with ⟨hQuote, hBackslash, hControl⟩
      have hTail := ih fun c hc =>
        hPlain c (List.mem_cons_of_mem b hc)
      rw [List.cons_append, readStringBytes.eq_def]
      simp only [hQuote, hBackslash, hTail,
        UInt8.not_lt.mpr hControl, ↓reduceIte]
      cases readStringBytes rest <;> rfl

/- A character that stands for itself in a string. -/
theorem encodeChar_plain
    {c : Char}
    (hQuote : c ≠ '"')
    (hBackslash : c ≠ '\\')
    (hControl : 0x20 ≤ c.toNat) :
    ∀ b ∈ Utf8.encodeChar c,
      b ≠ byte '"' ∧ b ≠ byte '\\' ∧ 0x20 ≤ b := by
  intro b hb
  by_cases hAscii : c.toNat < 0x80
  · rw [encodeChar_ascii hAscii, List.mem_singleton] at hb
    subst hb
    refine ⟨?_, ?_, ?_⟩
    · intro hByte
      exact hQuote (eq_of_byte_eq hAscii (by decide) hByte)
    · intro hByte
      exact hBackslash (eq_of_byte_eq hAscii (by decide) hByte)
    · rw [UInt8.le_iff_toNat_le, toNat_byte hAscii]
      exact hControl
  · have hLarge := Utf8.le_toNat_of_mem_encodeChar (by omega) hb
    refine ⟨?_, ?_, ?_⟩
    · rintro rfl
      exact absurd hLarge (by decide)
    · rintro rfl
      exact absurd hLarge (by decide)
    · rw [UInt8.le_iff_toNat_le]
      exact Nat.le_trans (by decide) hLarge

/- A control character is written by its number. -/
theorem hexNumber?_control
    {n : Nat}
    (hn : n < 0x20) :
    hexNumber? (byte '0') (byte '0')
        (byte (Nat.digitChar (n / 16)))
        (byte (Nat.digitChar (n % 16))) =
      some n := by
  revert n
  decide

theorem readStringBytes_quotedChar
    (c : Char)
    (rest : List UInt8) :
    readStringBytes (Utf8.encodeChars (quotedChar c) ++ rest) =
      prepend (Utf8.encodeChar c) (readStringBytes rest) := by
  unfold quotedChar
  -- The escapes of one letter come first.
  iterate 7
    split
    next hc =>
      rw [hc]
      exact readStringBytes_escape (by decide) rest
  split
  next hControl =>
    have hHex := hexNumber?_control hControl
    have hRead :=
      readStringBytes_unicode hHex (by omega) rest
    rw [Char.ofNat_toNat] at hRead
    rw [← hRead, encodeChars_ascii]
    · rfl
    · have hHigh : (Nat.digitChar (c.toNat / 16)).toNat < 0x80 :=
        toNat_digitChar_lt (by omega)
      have hLow : (Nat.digitChar (c.toNat % 16)).toNat < 0x80 :=
        toNat_digitChar_lt (by omega)
      simp [hHigh, hLow]
  next hQuote hBackslash _ _ _ _ _ hControl =>
    rw [Utf8.encodeChars_cons, Utf8.encodeChars_nil,
      List.append_nil]
    exact readStringBytes_plain
      (encodeChar_plain hQuote hBackslash (by omega)) rest

/- A quoted text reads back as the text. -/
theorem readString_quoted
    (s : String)
    (rest : List UInt8) :
    readString
        (Utf8.encodeChars (s.toList.flatMap quotedChar ++ ['"'])
          ++ rest) =
      .ok (s, rest) := by
  have hBytes (cs : List Char) :
      readStringBytes
          (Utf8.encodeChars (cs.flatMap quotedChar ++ ['"'])
            ++ rest) =
        .ok (Utf8.encodeChars cs, rest) := by
    induction cs with
    | nil =>
        exact readStringBytes.eq_def (byte '"' :: rest)
    | cons c cs ih =>
        rw [List.flatMap_cons, List.append_assoc,
          Utf8.encodeChars_append, List.append_assoc,
          readStringBytes_quotedChar, ih]
        rfl
  have hText : Utf8.decode (Utf8.encodeChars s.toList) = .ok s :=
    Utf8.decode_encode s
  unfold readString
  rw [hBytes, Except.bind_ok]
  simp only [hText]

end Json

end TemplateTree
