import TemplateTree.Proofs.Except
import TemplateTree.Text.Utf8

/-
  UTF-8 decoding undoes encoding, and accepts nothing else.

  Main declarations:
    * `Utf8.decodeFrom_encodeChar`
    * `Utf8.encodeChars_of_decodeFrom`
    * `Utf8.decode_eq_ok_iff`
    * `Utf8.length_encode`
    * `Utf8.encode_lt_encode_iff`

  Each width of a character has one lemma on how its bytes
  are decoded and one on how the decoded character is
  encoded.  Overlong forms and surrogates are left out by
  the range of the second byte.
-/

------------------------------------------------------------
-- Code Points And Bytes
------------------------------------------------------------

namespace TemplateTree

namespace Utf8

/- The numbers of characters: code points but surrogates. -/
def IsScalar (n : Nat) : Prop :=
  n < 0xd800 ∨ (0xdfff < n ∧ n < 0x110000)

/- The number of a character is the number of one. -/
theorem isScalar_toNat
    (c : Char) :
    IsScalar c.toNat :=
  c.valid

/- The character of a number has that number. -/
theorem toNat_ofNat_of_isScalar
    {n : Nat}
    (h : IsScalar n) :
    (Char.ofNat n).toNat = n := by
  have hValid : n.isValidChar := h
  rw [Char.ofNat, dif_pos hValid]
  rfl

/- The byte of a small number has that number. -/
theorem toNat_toUInt8
    {n : Nat}
    (h : n < 256) :
    n.toUInt8.toNat = n := by
  simp [Nat.mod_eq_of_lt h]

/- A byte is the byte of its number. -/
theorem toUInt8_eq_of_toNat_eq
    {n : Nat}
    {b : UInt8}
    (h : n = b.toNat) :
    n.toUInt8 = b := by
  rw [h]
  exact UInt8.ofNat_toNat

/- The range of a byte that continues a character. -/
theorem isTail_iff
    {b : Nat} :
    isTail b = true ↔ 0x80 ≤ b ∧ b ≤ 0xbf := by
  simp [isTail]

/- A byte after a first one continues a character. -/
theorem isTail_of_allowsSecond
    {lead b : Nat}
    (h : allowsSecond lead b = true) :
    isTail b = true := by
  rw [isTail_iff]
  unfold allowsSecond at h
  split at h
  · simp only [Bool.and_eq_true, decide_eq_true_eq] at h
    omega
  · split at h
    · simp only [Bool.and_eq_true, decide_eq_true_eq] at h
      omega
    · split at h
      · simp only [Bool.and_eq_true, decide_eq_true_eq] at h
        omega
      · split at h
        · simp only [Bool.and_eq_true,
            decide_eq_true_eq] at h
          omega
        · exact isTail_iff.mp h

/-
  The narrower ranges of second bytes: no overlong form, no
  surrogate, and no number past the last code point.
-/
theorem allowsSecond_iff
    {lead b : Nat} :
    allowsSecond lead b = true ↔
      isTail b = true ∧
        (lead = 0xe0 → 0xa0 ≤ b) ∧
        (lead = 0xed → b ≤ 0x9f) ∧
        (lead = 0xf0 → 0x90 ≤ b) ∧
        (lead = 0xf4 → b ≤ 0x8f) := by
  constructor
  · intro h
    refine ⟨isTail_of_allowsSecond h, ?_⟩
    have hTail := isTail_iff.mp (isTail_of_allowsSecond h)
    unfold allowsSecond at h
    refine ⟨?_, ?_, ?_, ?_⟩
    all_goals
      intro hLead
      simp only [hLead] at h
      simp at h
      omega
  · rintro ⟨hTail, hE0, hEd, hF0, hF4⟩
    have hRange := isTail_iff.mp hTail
    unfold allowsSecond
    split
    · next hLead => simp [hE0 hLead, hRange.2]
    · split
      · next hLead => simp [hEd hLead, hRange.1]
      · split
        · next hLead => simp [hF0 hLead, hRange.2]
        · split
          · next hLead => simp [hF4 hLead, hRange.1]
          · exact hTail

@[simp] theorem encodeChars_nil :
    encodeChars [] = [] := rfl

@[simp] theorem encodeChars_append
    (cs ds : List Char) :
    encodeChars (cs ++ ds) =
      encodeChars cs ++ encodeChars ds :=
  List.flatMap_append

theorem encodeChars_cons
    (c : Char)
    (cs : List Char) :
    encodeChars (c :: cs) =
      encodeChar c ++ encodeChars cs := rfl

/- The bytes of a character beyond ASCII are beyond it too. -/
theorem le_toNat_of_mem_encodeChar
    {c : Char}
    {b : UInt8}
    (hc : 0x80 ≤ c.toNat)
    (hb : b ∈ encodeChar c) :
    0x80 ≤ b.toNat := by
  have hScalar := isScalar_toNat c
  unfold IsScalar at hScalar
  unfold encodeChar at hb
  dsimp only at hb
  rw [if_neg (by omega)] at hb
  split at hb
  · simp only [List.mem_cons, List.not_mem_nil, or_false] at hb
    rcases hb with rfl | rfl <;>
      rw [toNat_toUInt8 (by omega)] <;> omega
  split at hb
  · simp only [List.mem_cons, List.not_mem_nil, or_false] at hb
    rcases hb with rfl | rfl | rfl <;>
      rw [toNat_toUInt8 (by omega)] <;> omega
  · simp only [List.mem_cons, List.not_mem_nil, or_false] at hb
    rcases hb with rfl | rfl | rfl | rfl <;>
      rw [toNat_toUInt8 (by omega)] <;> omega

------------------------------------------------------------
-- Decoding By Width
------------------------------------------------------------

theorem decodeFrom_one
    (index : Nat)
    {b0 : UInt8}
    (rest : List UInt8)
    (h0 : b0.toNat < 0x80) :
    decodeFrom index (b0 :: rest) =
      (decodeFrom (index + 1) rest).map
        (Char.ofNat b0.toNat :: ·) := by
  rw [decodeFrom.eq_def]
  simp only [h0, if_true]

theorem decodeFrom_two
    (index : Nat)
    {b0 b1 : UInt8}
    (rest : List UInt8)
    (hLow : 0xc2 ≤ b0.toNat)
    (hHigh : b0.toNat < 0xe0)
    (h1 : isTail b1.toNat = true) :
    decodeFrom index (b0 :: b1 :: rest) =
      (decodeFrom (index + 2) rest).map
        (Char.ofNat
          ((b0.toNat - 0xc0) * 64 + (b1.toNat - 0x80)) :: ·)
      := by
  have hOne : ¬ b0.toNat < 0x80 := by omega
  have hLead :
      ¬ (b0.toNat < 0xc2 || 0xf4 < b0.toNat) = true := by
    simp
    omega
  have hSecond : allowsSecond b0.toNat b1.toNat = true := by
    rw [allowsSecond_iff]
    exact ⟨h1, by omega, by omega, by omega, by omega⟩
  rw [decodeFrom.eq_def]
  simp only [if_neg hOne, if_neg hLead, hSecond,
    Bool.not_true, Bool.false_eq_true, if_false, hHigh,
    if_true]

theorem decodeFrom_three
    (index : Nat)
    {b0 b1 b2 : UInt8}
    (rest : List UInt8)
    (hLow : 0xe0 ≤ b0.toNat)
    (hHigh : b0.toNat < 0xf0)
    (h1 : allowsSecond b0.toNat b1.toNat = true)
    (h2 : isTail b2.toNat = true) :
    decodeFrom index (b0 :: b1 :: b2 :: rest) =
      (decodeFrom (index + 3) rest).map
        (Char.ofNat
          ((b0.toNat - 0xe0) * 4096 + (b1.toNat - 0x80) * 64
            + (b2.toNat - 0x80)) :: ·) := by
  have hOne : ¬ b0.toNat < 0x80 := by omega
  have hLead :
      ¬ (b0.toNat < 0xc2 || 0xf4 < b0.toNat) = true := by
    simp
    omega
  have hTwo : ¬ b0.toNat < 0xe0 := by omega
  rw [decodeFrom.eq_def]
  simp only [if_neg hOne, if_neg hLead, if_neg hTwo, h1, h2,
    Bool.not_true, Bool.false_eq_true, if_false, hHigh,
    if_true]

theorem decodeFrom_four
    (index : Nat)
    {b0 b1 b2 b3 : UInt8}
    (rest : List UInt8)
    (hLow : 0xf0 ≤ b0.toNat)
    (hHigh : b0.toNat ≤ 0xf4)
    (h1 : allowsSecond b0.toNat b1.toNat = true)
    (h2 : isTail b2.toNat = true)
    (h3 : isTail b3.toNat = true) :
    decodeFrom index (b0 :: b1 :: b2 :: b3 :: rest) =
      (decodeFrom (index + 4) rest).map
        (Char.ofNat
          ((b0.toNat - 0xf0) * 262144
            + (b1.toNat - 0x80) * 4096
            + (b2.toNat - 0x80) * 64
            + (b3.toNat - 0x80)) :: ·) := by
  have hOne : ¬ b0.toNat < 0x80 := by omega
  have hLead :
      ¬ (b0.toNat < 0xc2 || 0xf4 < b0.toNat) = true := by
    simp
    omega
  have hTwo : ¬ b0.toNat < 0xe0 := by omega
  have hThree : ¬ b0.toNat < 0xf0 := by omega
  rw [decodeFrom.eq_def]
  simp only [if_neg hOne, if_neg hLead, if_neg hTwo,
    if_neg hThree, h1, h2, h3, Bool.not_true,
    Bool.false_eq_true, if_false]

------------------------------------------------------------
-- Decoding What Was Encoded
------------------------------------------------------------

/- The bytes of a character decode to that character. -/
theorem decodeFrom_encodeChar
    (index : Nat)
    (c : Char)
    (rest : List UInt8) :
    decodeFrom index (encodeChar c ++ rest) =
      (decodeFrom (index + (encodeChar c).length) rest).map
        (c :: ·) := by
  have hScalar := isScalar_toNat c
  have hChar : Char.ofNat c.toNat = c := Char.ofNat_toNat c
  unfold IsScalar at hScalar
  unfold encodeChar
  generalize c.toNat = n at hScalar hChar
  dsimp only
  split
  · next hOne =>
      have h0 := toNat_toUInt8 (n := n) (by omega)
      simp only [List.cons_append, List.nil_append,
        List.length_cons, List.length_nil]
      rw [decodeFrom_one _ _ (by omega), h0, hChar]
  · split
    · next hOne hTwo =>
        have h0 :=
          toNat_toUInt8 (n := 0xc0 + n / 64) (by omega)
        have h1 :=
          toNat_toUInt8 (n := 0x80 + n % 64) (by omega)
        have hTail1 : isTail (0x80 + n % 64) = true := by
          rw [isTail_iff]
          omega
        have hNumber :
            (0xc0 + n / 64 - 0xc0) * 64
              + (0x80 + n % 64 - 0x80) = n := by
          omega
        simp only [List.cons_append, List.nil_append,
          List.length_cons, List.length_nil]
        rw [decodeFrom_two _ _ (by omega) (by omega)
          (by rw [h1, hTail1]), h0, h1, hNumber, hChar]
    · split
      · next hOne hTwo hThree =>
          have h0 :=
            toNat_toUInt8 (n := 0xe0 + n / 4096) (by omega)
          have h1 :=
            toNat_toUInt8 (n := 0x80 + n / 64 % 64) (by omega)
          have h2 :=
            toNat_toUInt8 (n := 0x80 + n % 64) (by omega)
          have hTail1 :
              allowsSecond (0xe0 + n / 4096)
                (0x80 + n / 64 % 64) = true := by
            rw [allowsSecond_iff, isTail_iff]
            omega
          have hTail2 : isTail (0x80 + n % 64) = true := by
            rw [isTail_iff]
            omega
          have hNumber :
              (0xe0 + n / 4096 - 0xe0) * 4096
                + (0x80 + n / 64 % 64 - 0x80) * 64
                + (0x80 + n % 64 - 0x80) = n := by
            omega
          simp only [List.cons_append, List.nil_append,
            List.length_cons, List.length_nil]
          rw [decodeFrom_three _ _ (by omega) (by omega)
            (by rw [h0, h1, hTail1]) (by rw [h2, hTail2]),
            h0, h1, h2, hNumber, hChar]
      · next hOne hTwo hThree =>
          have h0 :=
            toNat_toUInt8 (n := 0xf0 + n / 262144) (by omega)
          have h1 :=
            toNat_toUInt8 (n := 0x80 + n / 4096 % 64)
              (by omega)
          have h2 :=
            toNat_toUInt8 (n := 0x80 + n / 64 % 64) (by omega)
          have h3 :=
            toNat_toUInt8 (n := 0x80 + n % 64) (by omega)
          have hTail1 :
              allowsSecond (0xf0 + n / 262144)
                (0x80 + n / 4096 % 64) = true := by
            rw [allowsSecond_iff, isTail_iff]
            omega
          have hTail2 :
              isTail (0x80 + n / 64 % 64) = true := by
            rw [isTail_iff]
            omega
          have hTail3 : isTail (0x80 + n % 64) = true := by
            rw [isTail_iff]
            omega
          have hNumber :
              (0xf0 + n / 262144 - 0xf0) * 262144
                + (0x80 + n / 4096 % 64 - 0x80) * 4096
                + (0x80 + n / 64 % 64 - 0x80) * 64
                + (0x80 + n % 64 - 0x80) = n := by
            omega
          simp only [List.cons_append, List.nil_append,
            List.length_cons, List.length_nil]
          rw [decodeFrom_four _ _ (by omega) (by omega)
            (by rw [h0, h1, hTail1]) (by rw [h2, hTail2])
            (by rw [h3, hTail3]),
            h0, h1, h2, h3, hNumber, hChar]

/- The bytes of characters decode to those characters. -/
theorem decodeFrom_encodeChars
    (index : Nat)
    (cs : List Char) :
    decodeFrom index (encodeChars cs) = .ok cs := by
  induction cs generalizing index with
  | nil => rfl
  | cons c cs ih =>
      rw [encodeChars_cons, decodeFrom_encodeChar, ih]
      rfl

------------------------------------------------------------
-- Encoding What Was Decoded
------------------------------------------------------------

theorem encodeChar_ofNat_one
    {b0 : UInt8}
    (h0 : b0.toNat < 0x80) :
    encodeChar (Char.ofNat b0.toNat) = [b0] := by
  have hNumber : (Char.ofNat b0.toNat).toNat = b0.toNat := by
    apply toNat_ofNat_of_isScalar
    unfold IsScalar
    omega
  unfold encodeChar
  simp only [hNumber]
  rw [if_pos h0, toUInt8_eq_of_toNat_eq rfl]

theorem encodeChar_ofNat_two
    {b0 b1 : UInt8}
    (hLow : 0xc2 ≤ b0.toNat)
    (hHigh : b0.toNat < 0xe0)
    (h1 : isTail b1.toNat = true) :
    encodeChar
        (Char.ofNat
          ((b0.toNat - 0xc0) * 64 + (b1.toNat - 0x80))) =
      [b0, b1] := by
  have hTail1 := isTail_iff.mp h1
  generalize hNumber :
    (b0.toNat - 0xc0) * 64 + (b1.toNat - 0x80) = n
  have hToNat : (Char.ofNat n).toNat = n := by
    apply toNat_ofNat_of_isScalar
    unfold IsScalar
    omega
  unfold encodeChar
  simp only [hToNat]
  rw [if_neg (by omega), if_pos (by omega),
    toUInt8_eq_of_toNat_eq
      (show 0xc0 + n / 64 = b0.toNat by omega),
    toUInt8_eq_of_toNat_eq
      (show 0x80 + n % 64 = b1.toNat by omega)]

theorem encodeChar_ofNat_three
    {b0 b1 b2 : UInt8}
    (hLow : 0xe0 ≤ b0.toNat)
    (hHigh : b0.toNat < 0xf0)
    (h1 : allowsSecond b0.toNat b1.toNat = true)
    (h2 : isTail b2.toNat = true) :
    encodeChar
        (Char.ofNat
          ((b0.toNat - 0xe0) * 4096 + (b1.toNat - 0x80) * 64
            + (b2.toNat - 0x80))) =
      [b0, b1, b2] := by
  rcases allowsSecond_iff.mp h1 with ⟨hTail, hE0, hEd, -, -⟩
  have hTail1 := isTail_iff.mp hTail
  have hTail2 := isTail_iff.mp h2
  generalize hNumber :
    (b0.toNat - 0xe0) * 4096 + (b1.toNat - 0x80) * 64
      + (b2.toNat - 0x80) = n
  have hToNat : (Char.ofNat n).toNat = n := by
    apply toNat_ofNat_of_isScalar
    unfold IsScalar
    omega
  unfold encodeChar
  simp only [hToNat]
  rw [if_neg (by omega), if_neg (by omega),
    if_pos (by omega),
    toUInt8_eq_of_toNat_eq
      (show 0xe0 + n / 4096 = b0.toNat by omega),
    toUInt8_eq_of_toNat_eq
      (show 0x80 + n / 64 % 64 = b1.toNat by omega),
    toUInt8_eq_of_toNat_eq
      (show 0x80 + n % 64 = b2.toNat by omega)]

theorem encodeChar_ofNat_four
    {b0 b1 b2 b3 : UInt8}
    (hLow : 0xf0 ≤ b0.toNat)
    (hHigh : b0.toNat ≤ 0xf4)
    (h1 : allowsSecond b0.toNat b1.toNat = true)
    (h2 : isTail b2.toNat = true)
    (h3 : isTail b3.toNat = true) :
    encodeChar
        (Char.ofNat
          ((b0.toNat - 0xf0) * 262144
            + (b1.toNat - 0x80) * 4096
            + (b2.toNat - 0x80) * 64
            + (b3.toNat - 0x80))) =
      [b0, b1, b2, b3] := by
  rcases allowsSecond_iff.mp h1 with ⟨hTail, -, -, hF0, hF4⟩
  have hTail1 := isTail_iff.mp hTail
  have hTail2 := isTail_iff.mp h2
  have hTail3 := isTail_iff.mp h3
  generalize hNumber :
    (b0.toNat - 0xf0) * 262144 + (b1.toNat - 0x80) * 4096
      + (b2.toNat - 0x80) * 64 + (b3.toNat - 0x80) = n
  have hToNat : (Char.ofNat n).toNat = n := by
    apply toNat_ofNat_of_isScalar
    unfold IsScalar
    omega
  unfold encodeChar
  simp only [hToNat]
  rw [if_neg (by omega), if_neg (by omega),
    if_neg (by omega),
    toUInt8_eq_of_toNat_eq
      (show 0xf0 + n / 262144 = b0.toNat by omega),
    toUInt8_eq_of_toNat_eq
      (show 0x80 + n / 4096 % 64 = b1.toNat by omega),
    toUInt8_eq_of_toNat_eq
      (show 0x80 + n / 64 % 64 = b2.toNat by omega),
    toUInt8_eq_of_toNat_eq
      (show 0x80 + n % 64 = b3.toNat by omega)]

/-
  Bytes that decode are the bytes of what they decode to.
  The cases are those of the decoder; all but one for each
  width are faults.
-/
theorem encodeChars_of_decodeFrom
    {index : Nat}
    {bytes : List UInt8}
    {cs : List Char}
    (h : decodeFrom index bytes = .ok cs) :
    bytes = encodeChars cs := by
  fun_induction decodeFrom index bytes generalizing cs
  case case1 =>
      cases h
      rfl
  case case2 b0 rest n0 hOne ih =>
      rcases Except.map_eq_ok_iff.mp h with ⟨cs', hRest, rfl⟩
      rw [encodeChars_cons,
        encodeChar_ofNat_one hOne, ih hRest]
      rfl
  case case6 b0 n0 hOne hLead b1 rest n1 hSecond hTwo ih =>
      simp only [Bool.or_eq_true, decide_eq_true_eq, not_or,
        Nat.not_lt] at hLead
      simp only [Bool.not_eq_true', Bool.not_eq_false]
        at hSecond
      rcases Except.map_eq_ok_iff.mp h with ⟨cs', hRest, rfl⟩
      rw [encodeChars_cons,
        encodeChar_ofNat_two hLead.1 hTwo
          (isTail_of_allowsSecond hSecond), ih hRest]
      rfl
  case case9 b0 n0 hOne hLead b1 n1 hSecond hTwo b2 rest n2
      hTail2 hThree ih =>
      simp only [Bool.not_eq_true', Bool.not_eq_false]
        at hSecond hTail2
      rcases Except.map_eq_ok_iff.mp h with ⟨cs', hRest, rfl⟩
      rw [encodeChars_cons,
        encodeChar_ofNat_three (Nat.not_lt.mp hTwo) hThree
          hSecond hTail2, ih hRest]
      rfl
  case case12 b0 n0 hOne hLead b1 n1 hSecond hTwo b2 n2 hTail2
      hThree b3 rest n3 hTail3 ih =>
      simp only [Bool.or_eq_true, decide_eq_true_eq, not_or,
        Nat.not_lt] at hLead
      simp only [Bool.not_eq_true', Bool.not_eq_false]
        at hSecond hTail2 hTail3
      rcases Except.map_eq_ok_iff.mp h with ⟨cs', hRest, rfl⟩
      rw [encodeChars_cons,
        encodeChar_ofNat_four (Nat.not_lt.mp hThree) hLead.2
          hSecond hTail2 hTail3, ih hRest]
      rfl
  all_goals cases h

------------------------------------------------------------
-- Texts
------------------------------------------------------------

/- Bytes decode to a text exactly when they encode it. -/
theorem decode_eq_ok_iff
    {bytes : List UInt8}
    {s : String} :
    decode bytes = .ok s ↔ bytes = encode s := by
  unfold decode encode
  constructor
  · intro h
    rcases Except.map_eq_ok_iff.mp h with ⟨cs, hDecode, rfl⟩
    rw [String.toList_ofList]
    exact encodeChars_of_decodeFrom hDecode
  · intro h
    rw [h, decodeFrom_encodeChars, Except.map_ok,
      String.ofList_toList]

/- The bytes of a text decode to that text. -/
@[simp] theorem decode_encode
    (s : String) :
    decode (encode s) = .ok s :=
  decode_eq_ok_iff.mpr rfl

/- The bytes of a character are those of the library. -/
theorem encodeChar_eq_utf8EncodeChar
    (c : Char) :
    encodeChar c = String.utf8EncodeChar c := by
  have hScalar := isScalar_toNat c
  unfold IsScalar at hScalar
  unfold encodeChar String.utf8EncodeChar
  rw [Char.toNat_val]
  generalize c.toNat = n at hScalar
  dsimp only
  split
  · next hOne => rw [if_pos (by omega), Nat.toUInt8_eq]
  · split
    · next hOne hTwo =>
        rw [if_neg (by omega), if_pos (by omega)]
        rw [show n / 64 % 0x20 + 0xc0 = 0xc0 + n / 64 by omega,
          show n % 0x40 + 0x80 = 0x80 + n % 64 by omega]
    · split
      · next hOne hTwo hThree =>
          rw [if_neg (by omega), if_neg (by omega),
            if_pos (by omega),
            show n / 4096 % 0x10 + 0xe0 = 0xe0 + n / 4096 by
              omega,
            show n / 64 % 0x40 + 0x80 = 0x80 + n / 64 % 64 by
              omega,
            show n % 0x40 + 0x80 = 0x80 + n % 64 by omega]
      · next hOne hTwo hThree =>
          rw [if_neg (by omega), if_neg (by omega),
            if_neg (by omega),
            show n / 262144 % 0x08 + 0xf0 =
              0xf0 + n / 262144 by omega,
            show n / 4096 % 0x40 + 0x80 =
              0x80 + n / 4096 % 64 by omega,
            show n / 64 % 0x40 + 0x80 = 0x80 + n / 64 % 64 by
              omega,
            show n % 0x40 + 0x80 = 0x80 + n % 64 by omega]

/- A text takes as many bytes as the library says. -/
theorem length_encode
    (s : String) :
    (encode s).length = s.utf8ByteSize := by
  have hChar : encodeChar = String.utf8EncodeChar := by
    funext c
    exact encodeChar_eq_utf8EncodeChar c
  rw [← String.size_toByteArray,
    ← String.ofList_toList (s := s),
    String.toByteArray_ofList, encode, encodeChars,
    String.toList_ofList, hChar, List.utf8Encode,
    List.size_toByteArray]

------------------------------------------------------------
-- Order Of Bytes
------------------------------------------------------------

/- Bytes are compared by their numbers. -/
theorem cons_lt_cons_iff_toNat
    {b b' : UInt8}
    {bytes bytes' : List UInt8} :
    b :: bytes < b' :: bytes' ↔
      b.toNat < b'.toNat ∨
        b.toNat = b'.toNat ∧ bytes < bytes' := by
  rw [List.cons_lt_cons_iff, UInt8.lt_iff_toNat_lt,
    UInt8.toNat_inj]

/-
  The bytes of a smaller character come first, whatever
  follows them.
-/
theorem encodeChar_append_lt
    {c d : Char}
    (h : c.toNat < d.toNat)
    (bytes bytes' : List UInt8) :
    encodeChar c ++ bytes < encodeChar d ++ bytes' := by
  have hScalar := isScalar_toNat d
  unfold IsScalar at hScalar
  unfold encodeChar
  generalize c.toNat = m at h
  generalize d.toNat = n at h hScalar
  dsimp only
  -- A wider character has a larger first byte.  Of one width,
  -- the first digit that differs decides.
  repeat' split
  all_goals
    simp only [List.cons_append, List.nil_append,
      cons_lt_cons_iff_toNat]
    simp (disch := omega) only [toNat_toUInt8]
    omega

theorem encodeChar_ne_nil
    (c : Char) :
    encodeChar c ≠ [] := by
  unfold encodeChar
  dsimp only
  repeat' split
  all_goals exact List.cons_ne_nil _ _

/- Lists of characters are ordered as their bytes are. -/
theorem encodeChars_lt_encodeChars
    {cs ds : List Char}
    (h : cs < ds) :
    encodeChars cs < encodeChars ds := by
  induction cs generalizing ds with
  | nil =>
      cases ds with
      | nil => exact absurd h (List.not_lt_nil _)
      | cons d ds =>
          rcases List.exists_cons_of_ne_nil
              (encodeChar_ne_nil d) with
            ⟨b, rest, hBytes⟩
          rw [encodeChars_cons, hBytes]
          exact List.nil_lt_cons b _
  | cons c cs ih =>
      cases ds with
      | nil => exact absurd h (List.not_lt_nil _)
      | cons d ds =>
          rw [encodeChars_cons, encodeChars_cons]
          rcases List.cons_lt_cons_iff.mp h with
            hLt | ⟨rfl, hRest⟩
          · exact encodeChar_append_lt hLt _ _
          · exact List.append_left_lt (ih hRest)

/- Texts are ordered as their bytes are. -/
theorem encode_lt_encode_iff
    {s t : String} :
    encode s < encode t ↔ s < t := by
  constructor
  · intro h
    by_cases hEq : s = t
    · subst hEq
      exact absurd h (List.lt_irrefl _)
    · by_cases hLt : s < t
      · exact hLt
      · have hGt := name_lt_of_not_lt hLt hEq
        exact absurd (encodeChars_lt_encodeChars hGt)
          (List.lt_asymm h)
  · intro h
    exact encodeChars_lt_encodeChars h

end Utf8

end TemplateTree
