import TemplateTree.Proofs.BinaryFormat

/-
  The lengths that are stored with a tree.

  Main declarations:
    * `Binary.Field`
    * `Binary.encodeArg_eq_flatMap_fields`
    * `Binary.fits_iff_fields`
    * `Binary.StoresFaithfully`
    * `Binary.storesFaithfully_iff`
    * `Binary.stored_lengths_wrap`

  A file is a row of fields, and a field for a length has 32
  bits.  The only tree that is refused is one that nests too
  deep, so a length past 32 bits is stored without its high
  bits, and what follows it is read for something else.
-/

------------------------------------------------------------
-- The Fields Of A File
------------------------------------------------------------

namespace TemplateTree

namespace Binary

/- A length, or bytes that stand for themselves. -/
inductive Field where
| length (n : Nat)
| plain (bytes : List UInt8)

/- The bytes that a field takes in a file. -/
def Field.written : Field → List UInt8
| .length n => encodeCount n
| .plain bytes => bytes

/- The fields of a text: its length in bytes and the bytes. -/
def textFields (s : String) : List Field :=
  [.length s.utf8ByteSize, .plain (Utf8.encode s)]

/- The fields of a literal. -/
def literalFields : Literal → List Field
| .text s => .plain [textMarker] :: textFields s
| value => [.plain (encodeLiteral value)]

mutual

/- The fields of an argument. -/
def fields : Arg → List Field
| .literal value => literalFields value
| .node tag args =>
    .plain [nodeMarker] ::
      (textFields tag ++ .length args.length :: fieldsAll args)

/- The fields of arguments one after another. -/
def fieldsAll : List Arg → List Field
| [] => []
| arg :: args => fields arg ++ fieldsAll args

end

theorem encodeText_eq_flatMap_fields
    (s : String) :
    encodeText s = (textFields s).flatMap Field.written := by
  simp [encodeText, textFields, Field.written,
    Utf8.length_encode]

theorem encodeLiteral_eq_flatMap_fields
    (value : Literal) :
    encodeLiteral value =
      (literalFields value).flatMap Field.written := by
  cases value with
  | text s =>
      simp [encodeLiteral, literalFields, Field.written,
        encodeText_eq_flatMap_fields]
  | int n => simp [literalFields, Field.written]
  | float x => simp [literalFields, Field.written]
  | bool b => simp [literalFields, Field.written]

mutual

/- An argument is stored as its fields. -/
theorem encodeArg_eq_flatMap_fields :
    ∀ arg : Arg,
      encodeArg arg = (fields arg).flatMap Field.written
| .literal value => by
    rw [encodeArg, fields, encodeLiteral_eq_flatMap_fields]
| .node tag args => by
    rw [encodeArg, fields, encodeText_eq_flatMap_fields,
      encodeArgs_eq_flatMap_fields args]
    simp [Field.written]

theorem encodeArgs_eq_flatMap_fields :
    ∀ args : List Arg,
      encodeArgs args =
        (fieldsAll args).flatMap Field.written
| [] => by rw [encodeArgs, fieldsAll, List.flatMap_nil]
| arg :: args => by
    rw [encodeArgs, fieldsAll, List.flatMap_append,
      encodeArg_eq_flatMap_fields arg,
      encodeArgs_eq_flatMap_fields args]

end

------------------------------------------------------------
-- Lengths Of 32 Bits
------------------------------------------------------------

/- Lengths that all have 32 bits. -/
def AllShort (row : List Field) : Prop :=
  ∀ n, .length n ∈ row → n < 2 ^ 32

@[simp] theorem allShort_nil :
    AllShort [] := by
  simp [AllShort]

@[simp] theorem allShort_length_cons
    {n : Nat}
    {row : List Field} :
    AllShort (.length n :: row) ↔
      n < 2 ^ 32 ∧ AllShort row := by
  simp [AllShort]

@[simp] theorem allShort_plain_cons
    {bytes : List UInt8}
    {row : List Field} :
    AllShort (.plain bytes :: row) ↔ AllShort row := by
  simp [AllShort]

@[simp] theorem allShort_append
    {row others : List Field} :
    AllShort (row ++ others) ↔
      AllShort row ∧ AllShort others := by
  simp only [AllShort, List.mem_append, or_imp,
    forall_and]

theorem fitsLiteral_iff_fields
    {value : Literal} :
    FitsLiteral value ↔ AllShort (literalFields value) := by
  cases value with
  | text s => simp [FitsLiteral, literalFields, textFields]
  | int n => simp [FitsLiteral, literalFields]
  | float x => simp [FitsLiteral, literalFields]
  | bool b => simp [FitsLiteral, literalFields]

mutual

/- An argument fits the format if its fields hold its lengths. -/
theorem fits_iff_fields :
    ∀ arg : Arg, Fits arg ↔ AllShort (fields arg)
| .literal value => by
    rw [Fits, fields, fitsLiteral_iff_fields]
| .node tag args => by
    rw [Fits, fields, fitsAll_iff_fields args]
    simp [textFields]

theorem fitsAll_iff_fields :
    ∀ args : List Arg,
      FitsAll args ↔ AllShort (fieldsAll args)
| [] => by simp [FitsAll, fieldsAll]
| arg :: args => by
    rw [FitsAll, fieldsAll, allShort_append,
      fits_iff_fields arg, fitsAll_iff_fields args]

end

/- The field of a length holds its low 32 bits. -/
theorem ofBigEndian_written_length
    (n : Nat) :
    ofBigEndian (Field.length n).written = n % 2 ^ 32 := by
  rw [Field.written, encodeCount, ofBigEndian_bigEndian]
  rfl

/- A row of fields tells its lengths if they have 32 bits. -/
theorem allShort_iff_written
    {row : List Field} :
    AllShort row ↔
      ∀ n, .length n ∈ row →
        ofBigEndian (Field.length n).written = n := by
  have hField (n : Nat) :
      ofBigEndian (Field.length n).written = n ↔
        n < 2 ^ 32 := by
    rw [ofBigEndian_written_length]
    exact Nat.mod_eq_iff_lt (by decide)
  simp only [AllShort, hField]

------------------------------------------------------------
-- Faithful Storage
------------------------------------------------------------

/-
  A tree that is stored with its true lengths and read back,
  or is refused if no file can hold it.
-/
structure StoresFaithfully (tree : Node) : Prop where
  fits :
    ∀ bytes, encode tree = .ok bytes → Fits tree.toArg
  lengths :
    ∀ bytes, encode tree = .ok bytes →
      ∀ n, .length n ∈ fields tree.toArg →
        ofBigEndian (Field.length n).written = n
  reads_back :
    ∀ bytes, encode tree = .ok bytes →
      decode bytes = .ok tree
  refuses :
    (∀ bytes, decode bytes ≠ .ok tree) →
      ∃ message, encode tree = .error (.encode message)

/- A tree is refused exactly if it nests too deep. -/
theorem encode_eq_error_iff
    {tree : Node}
    {fault : CompileError} :
    encode tree = .error fault ↔
      256 < tree.depth ∧ fault = .encode tooDeepMessage := by
  have hDeep := @Node.deeperThan_iff_lt_depth 256 tree
  unfold encode
  by_cases hLimit : tree.deeperThan Node.maxDepth = true
  · rw [if_pos hLimit, Except.error.injEq]
    simp [hDeep.mp hLimit, eq_comm]
  · rw [if_neg hLimit]
    have hShallow : ¬ 256 < tree.depth :=
      fun h => hLimit (hDeep.mpr h)
    simp [hShallow]

/- What is stored is read back exactly if it fits the format. -/
theorem decode_stored_iff
    {tree : Node}
    {bytes : List UInt8}
    (hStored : encode tree = .ok bytes) :
    decode bytes = .ok tree ↔ Fits tree.toArg := by
  rw [decode_eq_ok_iff]
  exact and_iff_right hStored

/-
  Storage is faithful for the trees that fit the format and
  for those that nest too deep, which are refused.
-/
theorem storesFaithfully_iff
    {tree : Node} :
    StoresFaithfully tree ↔
      Fits tree.toArg ∨ 256 < tree.depth := by
  constructor
  · intro h
    by_cases hDepth : tree.depth ≤ 256
    · exact Or.inl
        (h.fits _ (encode_eq_ok_iff.mpr ⟨hDepth, rfl⟩))
    · exact Or.inr (Nat.lt_of_not_le hDepth)
  · rintro (hFits | hDeep)
    · have hLengths :=
        allShort_iff_written.mp ((fits_iff_fields _).mp hFits)
      refine
        ⟨fun _ _ => hFits, fun _ _ => hLengths,
          fun _ hStored => (decode_stored_iff hStored).mpr hFits,
          ?_⟩
      intro hNone
      by_cases hDepth : tree.depth ≤ 256
      · have hStored := encode_eq_ok_iff.mpr ⟨hDepth, rfl⟩
        exact absurd ((decode_stored_iff hStored).mpr hFits)
          (hNone _)
      · exact ⟨_, encode_eq_error_iff.mpr
          ⟨Nat.lt_of_not_le hDepth, rfl⟩⟩
    · have hRefused : ∀ bytes, encode tree ≠ .ok bytes := by
        intro bytes hStored
        have hDepth : tree.depth ≤ 256 :=
          (encode_eq_ok_iff.mp hStored).1
        omega
      exact
        ⟨fun _ hStored => absurd hStored (hRefused _),
          fun _ hStored => absurd hStored (hRefused _),
          fun _ hStored => absurd hStored (hRefused _),
          fun _ => ⟨_, encode_eq_error_iff.mpr ⟨hDeep, rfl⟩⟩⟩

/-
  Storage is faithful exactly for the trees that fit the
  format and those that nest too deep.  Any other tree is
  stored all the same: each length keeps its low 32 bits
  only, and the file is not read back as the tree.
-/
theorem stored_lengths_wrap
    (tree : Node) :
    (StoresFaithfully tree ↔
        Fits tree.toArg ∨ 256 < tree.depth) ∧
      ∀ bytes, encode tree = .ok bytes →
        bytes =
            magic ++ [version]
              ++ (fields tree.toArg).flatMap Field.written ∧
          (∀ n, .length n ∈ fields tree.toArg →
            ofBigEndian (Field.length n).written =
              n % 2 ^ 32) ∧
          (decode bytes = .ok tree ↔ Fits tree.toArg) := by
  refine ⟨storesFaithfully_iff, ?_⟩
  intro bytes hStored
  refine
    ⟨?_, fun n _ => ofBigEndian_written_length n,
      decode_stored_iff hStored⟩
  rw [← encodeArg_eq_flatMap_fields]
  exact (encode_eq_ok_iff.mp hStored).2

------------------------------------------------------------
-- A Tag Of 2 ^ 32 Letters
------------------------------------------------------------

/- A node whose tag is one letter, so many times. -/
def longTag (n : Nat) : Node where
  tag := String.ofList (List.replicate n 'a')
  args := []

theorem encode_tag_longTag
    (n : Nat) :
    Utf8.encode (longTag n).tag = List.replicate n 0x61 := by
  have hLetter : Utf8.encodeChar 'a' = [0x61] := by decide
  rw [longTag, Utf8.encode, String.toList_ofList,
    Utf8.encodeChars]
  induction n with
  | zero => rfl
  | succ n ih =>
      rw [List.replicate_succ, List.flatMap_cons, ih, hLetter]
      rfl

theorem utf8ByteSize_longTag
    (n : Nat) :
    (longTag n).tag.utf8ByteSize = n := by
  rw [← Utf8.length_encode, encode_tag_longTag,
    List.length_replicate]

theorem readMany_eq_error
    {read : List UInt8 → Step Arg}
    {bytes : List UInt8}
    {fault : Fault}
    (hFirst : read bytes = .error fault)
    (count : Nat) :
    readMany read (count + 1) bytes = .error fault := by
  rw [readMany, hFirst, Except.bind_error]

/-
  With a length of zero in front, the first four letters are
  read as a count and the next one as a marker.
-/
theorem readNode_wrapped
    {read : List UInt8 → Step Arg}
    {fault : Fault}
    (hRead : ∀ more, read (0x61 :: more) = .error fault)
    {n : Nat}
    (hEnough : 0x61616161 ≤ n)
    (rest : List UInt8) :
    readNode read
        (encodeCount 0 ++ (List.replicate (4 + n) 0x61 ++ rest)) =
      .error fault := by
  have hTag (body : List UInt8) :
      readText (encodeCount 0 ++ body) = .ok ("", body) :=
    readText_eq_ok_iff.mpr ⟨rfl, by decide⟩
  have hCount (body : List UInt8) :
      readNumber 4 (List.replicate 4 0x61 ++ body) =
        .ok (0x61616161, body) :=
    readNumber_eq_ok_iff.mpr ⟨rfl, by decide⟩
  have hSome :
      ¬ lacks 0x61616161 (List.replicate n 0x61 ++ rest) =
        true := by
    rw [lacks_iff, List.length_append, List.length_replicate]
    omega
  have hFirst :
      read (List.replicate n 0x61 ++ rest) = .error fault := by
    obtain ⟨m, rfl⟩ : ∃ m, n = m + 1 := ⟨n - 1, by omega⟩
    exact hRead _
  have hMany :
      readMany read 0x61616161
          (List.replicate n 0x61 ++ rest) =
        .error fault :=
    readMany_eq_error hFirst 0x61616160
  rw [readNode, List.replicate_add, List.append_assoc]
  simp only [hTag, Except.bind_ok, hCount, if_neg hSome,
    hMany, Except.map_error]

theorem depth_longTag
    (n : Nat) :
    (longTag n).depth = 1 := by
  rw [Node.depth_eq, longTag, Arg.depthList]

/-
  A tag whose length is stored as zero is taken for a count
  and for arguments, of which the first has no kind.
-/
theorem readArg_longTag
    {n : Nat}
    (hWrap : encodeCount n = encodeCount 0)
    (hEnough : 0x61616161 ≤ n - 4)
    (room : Nat) :
    readArg (room + 1) (encodeArg (longTag n).toArg) =
      .error (.unknownMarker 0x61) := by
  have hArg :
      encodeArg (longTag n).toArg =
        nodeMarker ::
          (encodeCount 0 ++
            (List.replicate n 0x61 ++ encodeCount 0)) := by
    rw [Node.toArg, encodeArg, encodeText, encode_tag_longTag,
      List.length_replicate, hWrap]
    simp [longTag, encodeArgs]
  have hLetter (more : List UInt8) :
      readArg room (0x61 :: more) =
        .error (.unknownMarker 0x61) := by
    rw [readArg.eq_def]
    rfl
  have hSplit : 4 + (n - 4) = n := by omega
  have hNode :=
    readNode_wrapped hLetter hEnough (encodeCount 0)
  rw [hSplit] at hNode
  rw [hArg, readArg.eq_def]
  simp only [if_true, hNode]

theorem decode_longTag
    {n : Nat}
    {bytes : List UInt8}
    (hWrap : encodeCount n = encodeCount 0)
    (hEnough : 0x61616161 ≤ n - 4)
    (hStored : encode (longTag n) = .ok bytes) :
    decode bytes =
      .error (.decode "unknown value marker 0x61") := by
  rw [(encode_eq_ok_iff.mp hStored).2, decode,
    readFile_eq_error (readArg_longTag hWrap hEnough 255)]
  rfl

/-
  A tag of 2 ^ 32 letters is not refused.  Its length is
  stored as zero, and the file is not read back at all.
-/
theorem long_tag_is_not_stored_faithfully :
    ¬ StoresFaithfully (longTag (2 ^ 32)) ∧
      ∃ bytes,
        encode (longTag (2 ^ 32)) = .ok bytes ∧
          decode bytes =
            .error (.decode "unknown value marker 0x61") := by
  have hDepth : (longTag (2 ^ 32)).depth ≤ 256 := by
    rw [depth_longTag]
    decide
  have hWrap : encodeCount (2 ^ 32) = encodeCount 0 := by
    decide
  constructor
  · rw [storesFaithfully_iff]
    rintro (hFits | hDeep)
    · rw [Node.toArg, Fits, utf8ByteSize_longTag] at hFits
      exact Nat.lt_irrefl _ hFits.1
    · omega
  · have hStored := encode_eq_ok_iff.mpr ⟨hDepth, rfl⟩
    exact
      ⟨_, hStored, decode_longTag hWrap (by decide) hStored⟩

end Binary

end TemplateTree
