import Mathlib.Tactic.Ring
import Mathlib.Tactic.Positivity
import TemplateTree.Binary
import TemplateTree.Proofs.Depth
import TemplateTree.Proofs.Utf8

/-
  The binary form of a tree is exact in both directions.

  Main declarations:
    * `Binary.Fits`
    * `Binary.readNumber_eq_ok_iff`
    * `Binary.readText_eq_ok_iff`
    * `Binary.readLiteral_eq_ok_iff`
    * `Binary.readMany_eq_ok_iff`
    * `Binary.readArg_eq_ok_iff`
    * `Binary.decode_eq_ok_iff`
    * `Binary.encoded_decodes`
    * `Binary.decoded_is_encoded`

  Each reader has one law: it succeeds exactly on the bytes
  that the writer has for what it returns, followed by the
  rest.  One direction says that nothing written is lost,
  the other that nothing else is accepted.
-/

------------------------------------------------------------
-- Numbers
------------------------------------------------------------

namespace TemplateTree

namespace Binary

theorem bigEndian_succ
    (width n : Nat) :
    bigEndian (width + 1) n =
      (n / 256 ^ width).toUInt8 :: bigEndian width n := rfl

@[simp] theorem length_bigEndian
    (width n : Nat) :
    (bigEndian width n).length = width := by
  induction width with
  | zero => rfl
  | succ width ih => rw [bigEndian_succ, List.length_cons, ih]

/- Reading on from a number shifts it by the bytes read. -/
theorem foldl_bigEndian
    (start : Nat)
    (bytes : List UInt8) :
    bytes.foldl (fun n b => 256 * n + b.toNat) start =
      start * 256 ^ bytes.length + ofBigEndian bytes := by
  unfold ofBigEndian
  induction bytes generalizing start with
  | nil => simp
  | cons b bytes ih =>
      rw [List.foldl_cons, List.foldl_cons, ih,
        ih (256 * 0 + b.toNat), List.length_cons,
        Nat.pow_succ]
      ring

theorem ofBigEndian_cons
    (b : UInt8)
    (bytes : List UInt8) :
    ofBigEndian (b :: bytes) =
      b.toNat * 256 ^ bytes.length + ofBigEndian bytes := by
  rw [ofBigEndian, List.foldl_cons, foldl_bigEndian]
  simp

/- Bytes spell a number that fits them. -/
theorem ofBigEndian_lt
    (bytes : List UInt8) :
    ofBigEndian bytes < 256 ^ bytes.length := by
  induction bytes with
  | nil => simp [ofBigEndian]
  | cons b bytes ih =>
      have hByte : b.toNat ≤ 255 := by
        have := b.toNat_lt
        omega
      have hHigh :
          b.toNat * 256 ^ bytes.length ≤
            255 * 256 ^ bytes.length :=
        Nat.mul_le_mul_right _ hByte
      rw [ofBigEndian_cons, List.length_cons, Nat.pow_succ]
      omega

/- The low bytes of a number spell what is left of it. -/
theorem ofBigEndian_bigEndian
    (width n : Nat) :
    ofBigEndian (bigEndian width n) = n % 256 ^ width := by
  induction width with
  | zero => simp [bigEndian, ofBigEndian, Nat.mod_one]
  | succ width ih =>
      have hByte :
          (n / 256 ^ width).toUInt8.toNat =
            n / 256 ^ width % 256 := by
        simp
      rw [bigEndian_succ, ofBigEndian_cons, ih,
        length_bigEndian, hByte, Nat.pow_succ, Nat.mod_mul]
      ring

/- Bytes depend only on the part of a number they hold. -/
theorem bigEndian_mod
    (width extra n : Nat) :
    bigEndian width (n + extra * 256 ^ width) =
      bigEndian width n := by
  induction width generalizing extra with
  | zero => rfl
  | succ width ih =>
      have hSplit :
          n + extra * 256 ^ (width + 1) =
            n + extra * 256 * 256 ^ width := by
        rw [Nat.pow_succ]
        ring
      have hByte :
          ((n + extra * 256 * 256 ^ width)
              / 256 ^ width).toUInt8 =
            (n / 256 ^ width).toUInt8 := by
        rw [Nat.add_mul_div_right _ _ (by positivity)]
        apply UInt8.toNat_inj.mp
        simp
      rw [bigEndian_succ, bigEndian_succ, hSplit, hByte, ih]

/- Bytes are the bytes of the number that they spell. -/
theorem bigEndian_ofBigEndian
    (bytes : List UInt8) :
    bigEndian bytes.length (ofBigEndian bytes) = bytes := by
  induction bytes with
  | nil => rfl
  | cons b bytes ih =>
      have hHigh :
          (b.toNat * 256 ^ bytes.length + ofBigEndian bytes)
              / 256 ^ bytes.length = b.toNat := by
        rw [Nat.add_comm,
          Nat.add_mul_div_right _ _ (by positivity),
          Nat.div_eq_of_lt (ofBigEndian_lt bytes),
          Nat.zero_add]
      rw [ofBigEndian_cons, List.length_cons, bigEndian_succ,
        hHigh, Nat.add_comm (b.toNat * _), bigEndian_mod, ih,
        Utf8.toUInt8_eq_of_toNat_eq rfl]

/- Fewer bytes are left than asked for. -/
theorem lacks_iff
    {n : Nat}
    {bytes : List UInt8} :
    lacks n bytes = true ↔ bytes.length < n := by
  simp only [lacks, List.length_take, decide_eq_true_eq]
  omega

theorem readBytes_of_le
    {n : Nat}
    {bytes : List UInt8}
    (h : n ≤ bytes.length) :
    readBytes n bytes = .ok (bytes.take n, bytes.drop n) := by
  rw [readBytes, if_neg]
  rw [lacks_iff]
  omega

theorem readBytes_of_lt
    {n : Nat}
    {bytes : List UInt8}
    (h : bytes.length < n) :
    readBytes n bytes = .error .truncated := by
  rw [readBytes, if_pos (lacks_iff.mpr h)]

/- Splitting off bytes is undone by putting them together. -/
theorem readBytes_eq_ok_iff
    {n : Nat}
    {bytes word rest : List UInt8} :
    readBytes n bytes = .ok (word, rest) ↔
      bytes = word ++ rest ∧ word.length = n := by
  by_cases hLacks : bytes.length < n
  · rw [readBytes_of_lt hLacks]
    constructor
    · intro h
      cases h
    · rintro ⟨rfl, hLength⟩
      rw [List.length_append] at hLacks
      omega
  · rw [readBytes_of_le (Nat.not_lt.mp hLacks)]
    constructor
    · intro h
      cases h
      refine ⟨(List.take_append_drop n bytes).symm, ?_⟩
      rw [List.length_take]
      omega
    · rintro ⟨rfl, rfl⟩
      simp

/- Reading a number undoes writing it, and only that. -/
theorem readNumber_eq_ok_iff
    {width n : Nat}
    {bytes rest : List UInt8} :
    readNumber width bytes = .ok (n, rest) ↔
      bytes = bigEndian width n ++ rest ∧
        n < 256 ^ width := by
  unfold readNumber
  constructor
  · intro h
    rcases Except.map_eq_ok_iff.mp h with
      ⟨⟨word, rest'⟩, hWord, hEq⟩
    rcases readBytes_eq_ok_iff.mp hWord with ⟨rfl, rfl⟩
    cases hEq
    exact ⟨by rw [bigEndian_ofBigEndian], ofBigEndian_lt word⟩
  · rintro ⟨rfl, hBound⟩
    have hWord :
        readBytes width (bigEndian width n ++ rest) =
          .ok (bigEndian width n, rest) :=
      readBytes_eq_ok_iff.mpr ⟨rfl, length_bigEndian width n⟩
    rw [hWord]
    simp only [Except.map_ok, ofBigEndian_bigEndian,
      Nat.mod_eq_of_lt hBound]

------------------------------------------------------------
-- What Fits The Format
------------------------------------------------------------

/- A literal whose text has a length of 32 bits, if it is one. -/
def FitsLiteral : Literal → Prop
| .text s => s.utf8ByteSize < 2 ^ 32
| _ => True

mutual

/-
  An argument in which every tag and text takes fewer than
  2 ^ 32 bytes and every node has fewer arguments than that.
-/
def Fits : Arg → Prop
| .literal value => FitsLiteral value
| .node tag args =>
    tag.utf8ByteSize < 2 ^ 32 ∧ args.length < 2 ^ 32
      ∧ FitsAll args

/- Arguments that all fit the format. -/
def FitsAll : List Arg → Prop
| [] => True
| arg :: args => Fits arg ∧ FitsAll args

end

theorem fitsAll_iff
    {args : List Arg} :
    FitsAll args ↔ ∀ arg ∈ args, Fits arg := by
  induction args with
  | nil => simp [FitsAll]
  | cons arg args ih =>
      rw [FitsAll, ih, List.forall_mem_cons]

------------------------------------------------------------
-- Texts And Literals
------------------------------------------------------------

/- Reading a text undoes writing it, and only that. -/
theorem readText_eq_ok_iff
    {s : String}
    {bytes rest : List UInt8} :
    readText bytes = .ok (s, rest) ↔
      bytes = encodeText s ++ rest ∧
        s.utf8ByteSize < 2 ^ 32 := by
  unfold readText encodeText encodeCount
  rw [← Utf8.length_encode]
  constructor
  · intro h
    rcases Except.bind_eq_ok_iff.mp h with
      ⟨⟨length, afterLength⟩, hLength, hBody⟩
    rcases Except.bind_eq_ok_iff.mp hBody with
      ⟨⟨body, afterBody⟩, hBytes, hText⟩
    rcases readNumber_eq_ok_iff.mp hLength with
      ⟨rfl, hBound⟩
    rcases readBytes_eq_ok_iff.mp hBytes with ⟨rfl, rfl⟩
    cases hDecode : Utf8.decode body with
    | error fault => simp [hDecode] at hText
    | ok text =>
        simp only [hDecode, Except.ok.injEq,
          Prod.mk.injEq] at hText
        rcases hText with ⟨rfl, rfl⟩
        have hBody := Utf8.decode_eq_ok_iff.mp hDecode
        subst hBody
        exact ⟨by rw [List.append_assoc], hBound⟩
  · rintro ⟨rfl, hBound⟩
    have hLength :
        readNumber 4
            (bigEndian 4 (Utf8.encode s).length
              ++ (Utf8.encode s ++ rest)) =
          .ok ((Utf8.encode s).length,
            Utf8.encode s ++ rest) :=
      readNumber_eq_ok_iff.mpr ⟨rfl, hBound⟩
    have hBody :
        readBytes (Utf8.encode s).length
            (Utf8.encode s ++ rest) =
          .ok (Utf8.encode s, rest) :=
      readBytes_eq_ok_iff.mpr ⟨rfl, rfl⟩
    rw [List.append_assoc, hLength]
    simp only [Except.bind_ok, hBody, Utf8.decode_encode]

/- Reading a truth value undoes writing it, and only that. -/
theorem readBool_eq_ok_iff
    {b : Bool}
    {bytes rest : List UInt8} :
    readBool bytes = .ok (b, rest) ↔
      bytes = (if b then 1 else 0) :: rest := by
  cases bytes with
  | nil => simp [readBool]
  | cons byte bytes =>
      rw [readBool]
      by_cases hZero : byte = 0
      · rw [if_pos hZero]
        cases b <;> simp [hZero]
      · rw [if_neg hZero]
        by_cases hOne : byte = 1
        · rw [if_pos hOne]
          cases b <;> simp [hOne]
        · rw [if_neg hOne]
          cases b <;> simp [hZero, hOne]

/- Reading eight bytes undoes writing a word, and only that. -/
theorem readNumber_eight_eq_ok_iff
    {n : Nat}
    {bytes rest : List UInt8} :
    readNumber 8 bytes = .ok (n, rest) ↔
      ∃ word : UInt64,
        n = word.toNat ∧
          bytes = bigEndian 8 word.toNat ++ rest := by
  rw [readNumber_eq_ok_iff]
  constructor
  · rintro ⟨rfl, hBound⟩
    have hWord : n.toUInt64.toNat = n := by
      simp
      omega
    exact ⟨n.toUInt64, hWord.symm, by rw [hWord]⟩
  · rintro ⟨word, rfl, rfl⟩
    exact ⟨rfl, word.toNat_lt⟩

/-
  Reading a literal undoes writing it, and only that.  The
  marker tells which of the four kinds it is.
-/
theorem readLiteral_eq_ok_iff
    {marker : UInt8}
    {value : Literal}
    {bytes rest : List UInt8} :
    readLiteral marker bytes = .ok (value, rest) ↔
      marker :: bytes = encodeLiteral value ++ rest ∧
        FitsLiteral value := by
  unfold readLiteral
  constructor
  · intro h
    split at h
    · next hMarker =>
        rcases Except.map_eq_ok_iff.mp h with
          ⟨⟨s, rest'⟩, hText, hEq⟩
        cases hEq
        rcases readText_eq_ok_iff.mp hText with
          ⟨rfl, hBound⟩
        exact ⟨by rw [hMarker]; rfl, hBound⟩
    · split at h
      · next hMarker =>
          rcases Except.map_eq_ok_iff.mp h with
            ⟨⟨n, rest'⟩, hNumber, hEq⟩
          cases hEq
          rcases readNumber_eight_eq_ok_iff.mp hNumber with
            ⟨word, rfl, rfl⟩
          refine ⟨?_, trivial⟩
          simp [hMarker, encodeLiteral]
      · split at h
        · next hMarker =>
            rcases Except.map_eq_ok_iff.mp h with
              ⟨⟨n, rest'⟩, hNumber, hEq⟩
            cases hEq
            rcases readNumber_eight_eq_ok_iff.mp
                hNumber with
              ⟨word, rfl, rfl⟩
            refine ⟨?_, trivial⟩
            simp [hMarker, encodeLiteral]
        · split at h
          · next hMarker =>
              rcases Except.map_eq_ok_iff.mp h with
                ⟨⟨b, rest'⟩, hBool, hEq⟩
              cases hEq
              rw [readBool_eq_ok_iff] at hBool
              exact ⟨by rw [hMarker, hBool]; rfl, trivial⟩
          · cases h
  · rintro ⟨hBytes, hFits⟩
    cases value with
    | text s =>
        cases hBytes
        have hText :
            readText (encodeText s ++ rest) =
              .ok (s, rest) :=
          readText_eq_ok_iff.mpr ⟨rfl, hFits⟩
        rw [if_pos rfl]
        change
          (readText (encodeText s ++ rest)).map _ = _
        rw [hText]
        rfl
    | int n =>
        cases hBytes
        have hNumber :
            readNumber 8
                (bigEndian 8 n.toUInt64.toNat ++ rest) =
              .ok (n.toUInt64.toNat, rest) :=
          readNumber_eight_eq_ok_iff.mpr ⟨_, rfl, rfl⟩
        rw [if_neg (by decide), if_pos rfl]
        change
          (readNumber 8
            (bigEndian 8 n.toUInt64.toNat ++ rest)).map _ = _
        have hWord :
            n.toUInt64.toNat.toUInt64 = n.toUInt64 :=
          UInt64.ofNat_toNat
        rw [hNumber]
        simp only [Except.map_ok, hWord]
        rfl
    | float x =>
        cases hBytes
        have hNumber :
            readNumber 8
                (bigEndian 8 x.bits.toNat ++ rest) =
              .ok (x.bits.toNat, rest) :=
          readNumber_eight_eq_ok_iff.mpr ⟨_, rfl, rfl⟩
        rw [if_neg (by decide), if_neg (by decide),
          if_pos rfl]
        change
          (readNumber 8
            (bigEndian 8 x.bits.toNat ++ rest)).map _ = _
        rw [hNumber]
        simp
    | bool b =>
        cases hBytes
        have hBool :
            readBool ((if b then 1 else 0) :: rest) =
              .ok (b, rest) :=
          readBool_eq_ok_iff.mpr rfl
        rw [if_neg (by decide), if_neg (by decide),
          if_neg (by decide), if_pos rfl]
        change
          (readBool ((if b then 1 else 0) :: rest)).map _ = _
        rw [hBool]
        rfl

------------------------------------------------------------
-- Arguments
------------------------------------------------------------

/- Every argument takes at least its marker. -/
theorem length_encodeArg_pos
    (arg : Arg) :
    0 < (encodeArg arg).length := by
  cases arg with
  | literal value =>
      rw [encodeArg]
      cases value <;> simp [encodeLiteral]
  | node tag args => simp [encodeArg]

theorem encodeArg_ne_nil
    (arg : Arg) :
    encodeArg arg ≠ [] :=
  List.ne_nil_of_length_pos (length_encodeArg_pos arg)

/- There are at least as many bytes as arguments. -/
theorem length_le_length_encodeArgs
    (args : List Arg) :
    args.length ≤ (encodeArgs args).length := by
  induction args with
  | nil => simp
  | cons arg args ih =>
      have hArg := length_encodeArg_pos arg
      rw [encodeArgs, List.length_append, List.length_cons]
      omega

/-
  Reading a number of arguments undoes writing them, if
  reading one does.  `Good` is what else one reading asks of
  its argument.
-/
theorem readMany_eq_ok_iff
    {read : List UInt8 → Step Arg}
    {Good : Arg → Prop}
    (hRead :
      ∀ {bytes : List UInt8} {arg : Arg} {rest : List UInt8},
        read bytes = .ok (arg, rest) ↔
          bytes = encodeArg arg ++ rest ∧ Good arg)
    {count : Nat}
    {bytes rest : List UInt8}
    {args : List Arg} :
    readMany read count bytes = .ok (args, rest) ↔
      bytes = encodeArgs args ++ rest ∧
        args.length = count ∧ ∀ arg ∈ args, Good arg := by
  induction count generalizing bytes args with
  | zero =>
      rw [readMany]
      constructor
      · intro h
        cases h
        simp [encodeArgs]
      · rintro ⟨rfl, hLength, -⟩
        cases List.length_eq_zero_iff.mp hLength
        rfl
  | succ count ih =>
      rw [readMany]
      constructor
      · intro h
        rcases Except.bind_eq_ok_iff.mp h with
          ⟨⟨first, afterFirst⟩, hFirst, hOthers⟩
        rcases Except.map_eq_ok_iff.mp hOthers with
          ⟨⟨others, afterOthers⟩, hOthers, hEq⟩
        cases hEq
        rcases hRead.mp hFirst with ⟨rfl, hGood⟩
        rcases ih.mp hOthers with ⟨rfl, hLength, hAll⟩
        refine ⟨?_, ?_, List.forall_mem_cons.mpr ⟨hGood, hAll⟩⟩
        · rw [encodeArgs, List.append_assoc]
        · rw [List.length_cons, hLength]
      · rintro ⟨rfl, hLength, hAll⟩
        cases args with
        | nil => cases hLength
        | cons first others =>
            rcases List.forall_mem_cons.mp hAll with
              ⟨hGood, hOthers⟩
            have hFirst :
                read (encodeArg first
                    ++ (encodeArgs others ++ rest)) =
                  .ok (first, encodeArgs others ++ rest) :=
              hRead.mpr ⟨rfl, hGood⟩
            have hRest :
                readMany read count
                    (encodeArgs others ++ rest) =
                  .ok (others, rest) :=
              ih.mpr ⟨rfl, Nat.succ.inj hLength, hOthers⟩
            rw [encodeArgs, List.append_assoc, hFirst]
            simp only [Except.bind_ok, hRest, Except.map_ok]

/-
  Reading a node after its marker undoes writing it.  The
  check of the count against the bytes left refuses nothing
  that was written.
-/
theorem readNode_eq_ok_iff
    {read : List UInt8 → Step Arg}
    {Good : Arg → Prop}
    (hRead :
      ∀ {bytes : List UInt8} {arg : Arg} {rest : List UInt8},
        read bytes = .ok (arg, rest) ↔
          bytes = encodeArg arg ++ rest ∧ Good arg)
    {bytes rest : List UInt8}
    {arg : Arg} :
    readNode read bytes = .ok (arg, rest) ↔
      ∃ tag args,
        arg = .node tag args ∧
          nodeMarker :: bytes = encodeArg arg ++ rest ∧
          tag.utf8ByteSize < 2 ^ 32 ∧
          args.length < 2 ^ 32 ∧
          ∀ inner ∈ args, Good inner := by
  unfold readNode
  constructor
  · intro h
    rcases Except.bind_eq_ok_iff.mp h with
      ⟨⟨tag, afterTag⟩, hTag, hCounted⟩
    rcases Except.bind_eq_ok_iff.mp hCounted with
      ⟨⟨count, afterCount⟩, hCount, hMany⟩
    simp only at hMany
    split at hMany
    · cases hMany
    · rcases Except.map_eq_ok_iff.mp hMany with
        ⟨⟨args, afterArgs⟩, hArgs, hEq⟩
      cases hEq
      rcases readText_eq_ok_iff.mp hTag with
        ⟨rfl, hTagSize⟩
      rcases readNumber_eq_ok_iff.mp hCount with
        ⟨rfl, hCountSize⟩
      rcases (readMany_eq_ok_iff hRead).mp hArgs with
        ⟨rfl, rfl, hGood⟩
      refine
        ⟨tag, args, rfl, ?_, hTagSize, hCountSize, hGood⟩
      simp [encodeArg, encodeCount]
  · rintro ⟨tag, args, rfl, hBytes, hTag, hCount, hGood⟩
    have hBytes :
        bytes =
          encodeText tag ++
            (encodeCount args.length ++
              (encodeArgs args ++ rest)) := by
      simpa [encodeArg] using hBytes
    have hText :
        readText bytes =
          .ok (tag, encodeCount args.length ++
            (encodeArgs args ++ rest)) :=
      readText_eq_ok_iff.mpr ⟨hBytes, hTag⟩
    have hNumber :
        readNumber 4 (encodeCount args.length ++
            (encodeArgs args ++ rest)) =
          .ok (args.length, encodeArgs args ++ rest) :=
      readNumber_eq_ok_iff.mpr ⟨rfl, hCount⟩
    have hEnough :
        ¬ lacks args.length (encodeArgs args ++ rest) =
          true := by
      have hLength := length_le_length_encodeArgs args
      rw [lacks_iff, List.length_append]
      omega
    have hMany :
        readMany read args.length
            (encodeArgs args ++ rest) =
          .ok (args, rest) :=
      (readMany_eq_ok_iff hRead).mpr ⟨rfl, rfl, hGood⟩
    rw [hText]
    simp only [Except.bind_ok, hNumber, if_neg hEnough,
      hMany, Except.map_ok]

/- No literal starts with the marker of a node. -/
theorem encodeLiteral_ne_nodeMarker
    {value : Literal}
    {bytes rest : List UInt8} :
    nodeMarker :: bytes ≠ encodeLiteral value ++ rest := by
  intro h
  cases value with
  | text s => exact absurd (List.cons.inj h).1 (by decide)
  | int n => exact absurd (List.cons.inj h).1 (by decide)
  | float x => exact absurd (List.cons.inj h).1 (by decide)
  | bool b => exact absurd (List.cons.inj h).1 (by decide)

/- After the marker of a node, an argument is a node. -/
theorem exists_node_of_nodeMarker
    {bytes rest : List UInt8}
    {arg : Arg}
    (h : nodeMarker :: bytes = encodeArg arg ++ rest) :
    ∃ tag args, arg = .node tag args := by
  cases arg with
  | literal value =>
      rw [encodeArg] at h
      exact absurd h encodeLiteral_ne_nodeMarker
  | node tag args => exact ⟨tag, args, rfl⟩

/- Without the marker of a node, an argument is a literal. -/
theorem readArg_literal_eq_ok_iff
    {room : Nat}
    {marker : UInt8}
    (hMarker : marker ≠ nodeMarker)
    {bytes rest : List UInt8}
    {arg : Arg} :
    readArg room (marker :: bytes) = .ok (arg, rest) ↔
      marker :: bytes = encodeArg arg ++ rest ∧
        Fits arg ∧ arg.depth ≤ room := by
  rw [readArg.eq_def]
  simp only
  rw [if_neg hMarker]
  constructor
  · intro h
    rcases Except.map_eq_ok_iff.mp h with
      ⟨⟨value, rest'⟩, hValue, hEq⟩
    cases hEq
    rcases readLiteral_eq_ok_iff.mp hValue with
      ⟨hBytes, hFits⟩
    rw [encodeArg, Fits, Arg.depth]
    exact ⟨hBytes, hFits, Nat.zero_le room⟩
  · rintro ⟨hBytes, hFits, -⟩
    cases arg with
    | literal value =>
        rw [encodeArg] at hBytes
        rw [Fits] at hFits
        have hValue :=
          readLiteral_eq_ok_iff.mpr ⟨hBytes, hFits⟩
        rw [hValue, Except.map_ok]
    | node tag args =>
        rw [encodeArg] at hBytes
        exact absurd (List.cons.inj hBytes).1 hMarker

/-
  What is asked of a node within some room is what is asked
  of its arguments within one level less.
-/
theorem fits_node_iff
    {room : Nat}
    {bytes rest : List UInt8}
    {arg : Arg} :
    (∃ tag args,
      arg = .node tag args ∧
        nodeMarker :: bytes = encodeArg arg ++ rest ∧
        tag.utf8ByteSize < 2 ^ 32 ∧
        args.length < 2 ^ 32 ∧
        ∀ inner ∈ args, Fits inner ∧ inner.depth ≤ room) ↔
      nodeMarker :: bytes = encodeArg arg ++ rest ∧
        Fits arg ∧ arg.depth ≤ room + 1 := by
  constructor
  · rintro ⟨tag, args, rfl, hBytes, hTag, hCount, hAll⟩
    have hFits : FitsAll args :=
      fitsAll_iff.mpr fun inner hInner =>
        (hAll inner hInner).1
    have hDepth : Arg.depthList args ≤ room :=
      Arg.depthList_le_iff.mpr fun inner hInner =>
        (hAll inner hInner).2
    rw [Fits, Arg.depth]
    exact ⟨hBytes, ⟨hTag, hCount, hFits⟩, by omega⟩
  · rintro ⟨hBytes, hFits, hDepth⟩
    rcases exists_node_of_nodeMarker hBytes with
      ⟨tag, args, rfl⟩
    rw [Fits, fitsAll_iff] at hFits
    rw [Arg.depth] at hDepth
    have hArgs : Arg.depthList args ≤ room := by omega
    rcases hFits with ⟨hTag, hCount, hAll⟩
    refine ⟨tag, args, rfl, hBytes, hTag, hCount, ?_⟩
    intro inner hInner
    exact
      ⟨hAll inner hInner,
        Arg.depthList_le_iff.mp hArgs inner hInner⟩

/-
  Reading an argument succeeds exactly on its bytes, if it
  fits the format and nests within the room there is.  The
  induction is on the room, as the reader's recursion is.
-/
theorem readArg_eq_ok_iff
    {room : Nat}
    {bytes rest : List UInt8}
    {arg : Arg} :
    readArg room bytes = .ok (arg, rest) ↔
      bytes = encodeArg arg ++ rest ∧
        Fits arg ∧ arg.depth ≤ room := by
  induction room using Nat.strong_induction_on
      generalizing bytes rest arg with
  | _ room ih =>
      cases bytes with
      | nil => simp [readArg, encodeArg_ne_nil]
      | cons marker bytes =>
          by_cases hMarker : marker = nodeMarker
          · subst hMarker
            rw [readArg.eq_def]
            simp only [if_true]
            cases room with
            | zero =>
                constructor
                · intro h
                  cases h
                · rintro ⟨hBytes, -, hDepth⟩
                  rcases exists_node_of_nodeMarker hBytes with
                    ⟨tag, args, rfl⟩
                  rw [Arg.depth] at hDepth
                  omega
            | succ room =>
                have hInner :
                    ∀ {bytes : List UInt8} {arg : Arg}
                      {rest : List UInt8},
                      readArg room bytes = .ok (arg, rest) ↔
                        bytes = encodeArg arg ++ rest ∧
                          (Fits arg ∧ arg.depth ≤ room) :=
                  ih room (Nat.lt_succ_self room)
                simp only
                rw [readNode_eq_ok_iff hInner]
                exact fits_node_iff
          · exact readArg_literal_eq_ok_iff hMarker

------------------------------------------------------------
-- Files
------------------------------------------------------------

/- A tree is stored exactly when it does not nest too deep. -/
theorem encode_eq_ok_iff
    {tree : Node}
    {bytes : List UInt8} :
    encode tree = .ok bytes ↔
      tree.depth ≤ Node.maxDepth ∧
        bytes = magic ++ [version] ++ encodeArg tree.toArg := by
  unfold encode
  cases hDeep : tree.deeperThan Node.maxDepth with
  | true =>
      have hDepth := Node.deeperThan_iff_lt_depth.mp hDeep
      rw [if_pos rfl]
      constructor
      · intro h
        cases h
      · rintro ⟨hBound, -⟩
        omega
  | false =>
      have hDepth := Node.deeperThan_eq_false_iff.mp hDeep
      rw [if_neg (by decide)]
      simp [hDepth, eq_comm]

/- A file is read exactly if it is the file of a tree. -/
theorem readFile_eq_ok_iff
    {tree : Node}
    {bytes : List UInt8} :
    readFile bytes = .ok tree ↔
      bytes = magic ++ [version] ++ encodeArg tree.toArg ∧
        Fits tree.toArg ∧ tree.depth ≤ Node.maxDepth := by
  unfold readFile
  constructor
  · intro h
    split at h
    · next found body hBody =>
        split at h
        · cases h
        · next hMagic =>
            split at h
            · cases h
            · next hVersion =>
                have hStart : bytes.take 4 = magic := by
                  simpa using hMagic
                have hFound : found = version := by
                  simpa using hVersion
                split at h
                · cases h
                · cases h
                · next tag args hRoot =>
                    cases h
                    rcases readArg_eq_ok_iff.mp hRoot with
                      ⟨hArg, hFits, hDepth⟩
                    refine ⟨?_, hFits, hDepth⟩
                    rw [← List.take_append_drop 4 bytes,
                      hStart, hBody, hFound, hArg]
                    simp [Node.toArg]
                · cases h
    · cases h
  · rintro ⟨rfl, hFits, hDepth⟩
    have hRoot :
        readArg Node.maxDepth (encodeArg tree.toArg) =
          .ok (tree.toArg, []) :=
      readArg_eq_ok_iff.mpr ⟨by simp, hFits, hDepth⟩
    unfold Node.toArg at hRoot ⊢
    simp [magic, hRoot]

/- What is wrong with the root is wrong with the file. -/
theorem readFile_eq_error
    {body : List UInt8}
    {fault : Fault}
    (hRoot : readArg Node.maxDepth body = .error fault) :
    readFile (magic ++ [version] ++ body) = .error fault := by
  simp [readFile, magic, hRoot]

/- A file decodes exactly if it is the file of a tree. -/
theorem decode_eq_ok_iff
    {tree : Node}
    {bytes : List UInt8} :
    decode bytes = .ok tree ↔
      encode tree = .ok bytes ∧ Fits tree.toArg := by
  unfold decode
  rw [Except.mapError_eq_ok_iff, readFile_eq_ok_iff,
    encode_eq_ok_iff]
  constructor
  · rintro ⟨hBytes, hFits, hDepth⟩
    exact ⟨⟨hDepth, hBytes⟩, hFits⟩
  · rintro ⟨⟨hDepth, hBytes⟩, hFits⟩
    exact ⟨hBytes, hFits, hDepth⟩

/-
  A tree whose texts and nodes fit the format is stored
  exactly if it nests at most 256 nodes deep, and what is
  stored is read back as the same tree.
-/
theorem encoded_decodes
    (tree : Node)
    (hFits : Fits tree.toArg) :
    ((∃ bytes, encode tree = .ok bytes) ↔
        tree.depth ≤ 256) ∧
      ∀ bytes,
        encode tree = .ok bytes →
          decode bytes = .ok tree := by
  constructor
  · constructor
    · rintro ⟨bytes, hBytes⟩
      exact (encode_eq_ok_iff.mp hBytes).1
    · intro hDepth
      exact ⟨_, encode_eq_ok_iff.mpr ⟨hDepth, rfl⟩⟩
  · intro bytes hBytes
    exact decode_eq_ok_iff.mpr ⟨hBytes, hFits⟩

/- A tree with a not-a-number, a nested node and texts. -/
def payloadTree : Node :=
  ⟨"x",
    [.literal (.float ⟨0x7ff8000000000001⟩),
      .node "static" [Arg.text "é"]]⟩

/- A not-a-number keeps its payload. -/
theorem encoded_decodes_payload :
    Fits payloadTree.toArg ∧
      ((∃ bytes, encode payloadTree = .ok bytes) ↔
        payloadTree.depth ≤ 256) ∧
      ∀ bytes,
        encode payloadTree = .ok bytes →
          decode bytes = .ok payloadTree := by
  have hFits : Fits payloadTree.toArg := by
    simp only [payloadTree, Node.toArg, Arg.text, Fits,
      FitsAll, FitsLiteral]
    decide
  exact ⟨hFits, encoded_decodes payloadTree hFits⟩

/-
  Bytes that are read as a tree are the bytes that the tree
  is stored as.  So no other bytes are read as that tree,
  and it nests at most 256 nodes deep.
-/
theorem decoded_is_encoded
    (bytes : List UInt8)
    (tree : Node)
    (hDecode : decode bytes = .ok tree) :
    encode tree = .ok bytes ∧
      (∀ other, decode other = .ok tree → other = bytes) ∧
      tree.depth ≤ 256 := by
  have hEncode := (decode_eq_ok_iff.mp hDecode).1
  refine ⟨hEncode, ?_, (encode_eq_ok_iff.mp hEncode).1⟩
  intro other hOther
  have hSame := (decode_eq_ok_iff.mp hOther).1
  rw [hEncode] at hSame
  exact (Except.ok.inj hSame).symm

/- The file of a node with one truth value. -/
def flagFile : List UInt8 :=
  [0x57, 0x46, 0x49, 0x52, 1, 0x4e, 0, 0, 0, 1, 0x78,
    0, 0, 0, 1, 0x42, 1]

/- The file of a node with one truth value is canonical. -/
theorem decoded_is_encoded_flag :
    decode flagFile = .ok ⟨"x", [.literal (.bool true)]⟩ ∧
      encode ⟨"x", [.literal (.bool true)]⟩ =
        .ok flagFile ∧
      (∀ other,
        decode other = .ok ⟨"x", [.literal (.bool true)]⟩ →
          other = flagFile) ∧
      (Node.mk "x" [.literal (.bool true)]).depth ≤ 256 := by
  have hDecode :
      decode flagFile =
        .ok ⟨"x", [.literal (.bool true)]⟩ := by
    decide
  exact ⟨hDecode, decoded_is_encoded _ _ hDecode⟩

end Binary

end TemplateTree
