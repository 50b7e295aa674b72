import TemplateTree.Proofs.BinaryFormat

/-
  A stored tree tells where it ends.

  Main declarations:
    * `Binary.IsCut`
    * `Binary.isCut_append_iff`
    * `Binary.readText_cut`
    * `Binary.ReadsWhole`
    * `Binary.readArg_cut`
    * `Binary.readFile_append`
    * `Binary.readFile_cut`
    * `Binary.stored_trees_are_prefix_free`

  No file goes on after the root, and a file that is cut
  short is refused for ending too soon and for nothing else:
  every reader asks for bytes before it looks at them.
-/

------------------------------------------------------------
-- Bytes That Are Cut Short
------------------------------------------------------------

namespace TemplateTree

namespace Binary

/- Bytes without some of those at the end. -/
def IsCut (short whole : List UInt8) : Prop :=
  ∃ lost, lost ≠ [] ∧ whole = short ++ lost

theorem isCut_iff_prefix
    {short whole : List UInt8} :
    IsCut short whole ↔ short <+: whole ∧ short ≠ whole := by
  constructor
  · rintro ⟨lost, hLost, rfl⟩
    exact ⟨List.prefix_append short lost, by simpa using hLost⟩
  · rintro ⟨⟨lost, rfl⟩, hNe⟩
    exact ⟨lost, by simpa using hNe, rfl⟩

theorem IsCut.length_lt
    {short whole : List UInt8}
    (hCut : IsCut short whole) :
    short.length < whole.length := by
  rcases hCut with ⟨lost, hLost, rfl⟩
  have hSome := List.length_pos_iff.mpr hLost
  rw [List.length_append]
  omega

/- What is cut short is cut in its first part or after it. -/
theorem isCut_append_iff
    {short first second : List UInt8} :
    IsCut short (first ++ second) ↔
      IsCut short first ∨
        ∃ begun, short = first ++ begun ∧ IsCut begun second := by
  constructor
  · rintro ⟨lost, hLost, hWhole⟩
    rcases List.append_eq_append_iff.mp hWhole with
      ⟨begun, hShort, hSecond⟩ | ⟨left, hFirst, hLeft⟩
    · exact Or.inr ⟨begun, hShort, lost, hLost, hSecond⟩
    · by_cases hNone : left = []
      · subst hNone
        refine Or.inr ⟨[], by simpa using hFirst.symm, lost, hLost, ?_⟩
        simpa using hLeft.symm
      · exact Or.inl ⟨left, hNone, hFirst⟩
  · rintro (⟨lost, hLost, rfl⟩ | ⟨begun, rfl, lost, hLost, rfl⟩)
    · exact ⟨lost ++ second, by simp [hLost], by simp⟩
    · exact ⟨lost, hLost, by simp⟩

theorem isCut_cons_iff
    {short whole : List UInt8}
    {b : UInt8} :
    IsCut short (b :: whole) ↔
      short = [] ∨
        ∃ begun, short = b :: begun ∧ IsCut begun whole := by
  have hFirst : IsCut short [b] ↔ short = [] := by
    constructor
    · intro hCut
      have hLength := hCut.length_lt
      exact List.length_eq_zero_iff.mp (by simpa using hLength)
    · rintro rfl
      exact ⟨[b], by simp, rfl⟩
  have hAppend := @isCut_append_iff short [b] whole
  rwa [hFirst, List.singleton_append] at hAppend

------------------------------------------------------------
-- Numbers, Texts And Literals
------------------------------------------------------------

theorem readBytes_cut
    {n : Nat}
    {bytes : List UInt8}
    (hShort : bytes.length < n) :
    readBytes n bytes = .error .truncated := by
  rw [readBytes, if_pos (lacks_iff.mpr hShort)]

theorem readNumber_cut
    {width : Nat}
    {bytes : List UInt8}
    (hShort : bytes.length < width) :
    readNumber width bytes = .error .truncated := by
  rw [readNumber, readBytes_cut hShort, Except.map_error]

/- A text is cut in its length or in its bytes. -/
theorem readText_cut
    {s : String}
    {short : List UInt8}
    (hSize : s.utf8ByteSize < 2 ^ 32)
    (hCut : IsCut short (encodeText s)) :
    readText short = .error .truncated := by
  unfold readText
  rcases isCut_append_iff.mp hCut with
    hLength | ⟨body, rfl, hBody⟩
  · have hShort : short.length < 4 := by
      simpa [encodeCount] using hLength.length_lt
    rw [readNumber_cut hShort, Except.bind_error]
  · have hLength :
        readNumber 4
            (encodeCount (Utf8.encode s).length ++ body) =
          .ok ((Utf8.encode s).length, body) := by
      rw [readNumber_eq_ok_iff, Utf8.length_encode]
      exact ⟨rfl, hSize⟩
    rw [hLength]
    simp only [Except.bind_ok, readBytes_cut hBody.length_lt,
      Except.bind_error]

/- After its marker, a literal is cut in what the marker asks for. -/
theorem readLiteral_cut
    {value : Literal}
    {marker : UInt8}
    {short : List UInt8}
    (hFits : FitsLiteral value)
    (hCut : IsCut (marker :: short) (encodeLiteral value)) :
    readLiteral marker short = .error .truncated := by
  -- The marker is there, so the cut is behind it.
  have hBehind {m : UInt8} {whole : List UInt8}
      (hValue : encodeLiteral value = m :: whole) :
      marker = m ∧ IsCut short whole := by
    rw [hValue, isCut_cons_iff] at hCut
    rcases hCut with hNone | ⟨begun, hShort, hBegun⟩
    · cases hNone
    · cases hShort
      exact ⟨rfl, hBegun⟩
  cases value with
  | text s =>
      rcases hBehind rfl with ⟨rfl, hText⟩
      rw [readLiteral, if_pos rfl, readText_cut hFits hText,
        Except.map_error]
  | int n =>
      rcases hBehind rfl with ⟨rfl, hNumber⟩
      have hShort : short.length < 8 := by
        simpa using hNumber.length_lt
      rw [readLiteral, if_neg (by decide), if_pos rfl,
        readNumber_cut hShort, Except.map_error]
  | float x =>
      rcases hBehind rfl with ⟨rfl, hNumber⟩
      have hShort : short.length < 8 := by
        simpa using hNumber.length_lt
      rw [readLiteral, if_neg (by decide), if_neg (by decide),
        if_pos rfl, readNumber_cut hShort, Except.map_error]
  | bool b =>
      rcases hBehind rfl with ⟨rfl, hByte⟩
      have hNone : short = [] :=
        List.length_eq_zero_iff.mp
          (Nat.lt_one_iff.mp hByte.length_lt)
      rw [hNone]
      rfl

------------------------------------------------------------
-- Arguments
------------------------------------------------------------

/-
  A reader that takes an argument from in front of anything,
  and that misses what an argument lacks at its end.
-/
structure ReadsWhole
    (read : List UInt8 → Step Arg)
    (Good : Arg → Prop) : Prop where
  whole :
    ∀ {arg : Arg} (rest : List UInt8), Good arg →
      read (encodeArg arg ++ rest) = .ok (arg, rest)
  cut :
    ∀ {arg : Arg} {short : List UInt8}, Good arg →
      IsCut short (encodeArg arg) →
      read short = .error .truncated

section Arguments

variable {read : List UInt8 → Step Arg}
variable {Good : Arg → Prop}

/- Arguments are cut in one of them, after those before it. -/
theorem readMany_cut
    (hRead : ReadsWhole read Good)
    {args : List Arg}
    {short : List UInt8}
    (hGood : ∀ arg ∈ args, Good arg)
    (hCut : IsCut short (encodeArgs args)) :
    readMany read args.length short = .error .truncated := by
  induction args generalizing short with
  | nil =>
      rw [encodeArgs] at hCut
      exact absurd hCut.length_lt (Nat.not_lt_zero _)
  | cons arg args ih =>
      rcases List.forall_mem_cons.mp hGood with
        ⟨hFirst, hOthers⟩
      rw [encodeArgs] at hCut
      rw [List.length_cons, readMany]
      rcases isCut_append_iff.mp hCut with
        hInFirst | ⟨begun, rfl, hLater⟩
      · rw [hRead.cut hFirst hInFirst, Except.bind_error]
      · simp only [hRead.whole begun hFirst, Except.bind_ok,
          ih hOthers hLater, Except.map_error]

/-
  A node is cut in its tag, in its count or in its arguments.
  In the last case the count may already be more than the
  bytes left, which is the same fault.
-/
theorem readNode_cut
    (hRead : ReadsWhole read Good)
    {tag : String}
    {args : List Arg}
    {short : List UInt8}
    (hTag : tag.utf8ByteSize < 2 ^ 32)
    (hCount : args.length < 2 ^ 32)
    (hGood : ∀ arg ∈ args, Good arg)
    (hCut :
      IsCut short
        (encodeText tag
          ++ (encodeCount args.length ++ encodeArgs args))) :
    readNode read short = .error .truncated := by
  unfold readNode
  rcases isCut_append_iff.mp hCut with
    hInTag | ⟨counted, rfl, hCounted⟩
  · rw [readText_cut hTag hInTag, Except.bind_error]
  have hText :
      readText (encodeText tag ++ counted) =
        .ok (tag, counted) :=
    readText_eq_ok_iff.mpr ⟨rfl, hTag⟩
  rw [hText]
  simp only [Except.bind_ok]
  rcases isCut_append_iff.mp hCounted with
    hInCount | ⟨begun, rfl, hBegun⟩
  · have hShort : counted.length < 4 := by
      simpa [encodeCount] using hInCount.length_lt
    rw [readNumber_cut hShort, Except.bind_error]
  have hNumber :
      readNumber 4 (encodeCount args.length ++ begun) =
        .ok (args.length, begun) :=
    readNumber_eq_ok_iff.mpr ⟨rfl, hCount⟩
  rw [hNumber]
  simp only [Except.bind_ok]
  split
  · rfl
  · rw [readMany_cut hRead hGood hBegun, Except.map_error]

end Arguments

theorem readArg_nil
    (room : Nat) :
    readArg room [] = .error .truncated := by
  rw [readArg]

theorem readArg_literal_cut
    {room : Nat}
    {value : Literal}
    {short : List UInt8}
    (hFits : FitsLiteral value)
    (hCut : IsCut short (encodeLiteral value)) :
    readArg room short = .error .truncated := by
  cases short with
  | nil => exact readArg_nil room
  | cons marker short =>
      have hMarker : marker ≠ nodeMarker := by
        rintro rfl
        rcases hCut with ⟨lost, -, hWhole⟩
        have hStart :
            nodeMarker :: (short ++ lost) =
              encodeLiteral value ++ [] := by
          rw [List.append_nil, hWhole, List.cons_append]
        exact encodeLiteral_ne_nodeMarker hStart
      rw [readArg.eq_def]
      simp only [if_neg hMarker, readLiteral_cut hFits hCut,
        Except.map_error]

/-
  An argument that is cut short is missed by the reader.  The
  induction is on the room, as the reader's recursion is.
-/
theorem readArg_cut
    {room : Nat}
    {arg : Arg}
    {short : List UInt8}
    (hFits : Fits arg)
    (hDepth : arg.depth ≤ room)
    (hCut : IsCut short (encodeArg arg)) :
    readArg room short = .error .truncated := by
  induction room using Nat.strong_induction_on
      generalizing arg short with
  | _ room ih =>
      cases arg with
      | literal value =>
          rw [Fits] at hFits
          rw [encodeArg] at hCut
          exact readArg_literal_cut hFits hCut
      | node tag args =>
          rw [Fits, fitsAll_iff] at hFits
          rw [Arg.depth] at hDepth
          rw [encodeArg, List.append_assoc,
            isCut_cons_iff] at hCut
          rcases hFits with ⟨hTag, hCount, hAll⟩
          rcases hCut with rfl | ⟨begun, rfl, hBegun⟩
          · exact readArg_nil room
          cases room with
          | zero => omega
          | succ room =>
              have hInner :
                  ReadsWhole (readArg room)
                    fun arg => Fits arg ∧ arg.depth ≤ room :=
                ⟨fun rest hGood =>
                  readArg_eq_ok_iff.mpr ⟨rfl, hGood⟩,
                  fun hGood =>
                    ih room (Nat.lt_succ_self room)
                      hGood.1 hGood.2⟩
              have hArgs : Arg.depthList args ≤ room := by
                omega
              rw [readArg.eq_def]
              simp only [if_true]
              refine readNode_cut hInner hTag hCount ?_ hBegun
              intro arg hArg
              exact
                ⟨hAll arg hArg,
                  Arg.depthList_le_iff.mp hArgs arg hArg⟩

------------------------------------------------------------
-- Files
------------------------------------------------------------

/- The bytes after the root of a file are left over. -/
theorem readFile_append
    {bytes more : List UInt8}
    {tree : Node}
    (hRead : readFile bytes = .ok tree)
    (hMore : more ≠ []) :
    readFile (bytes ++ more) = .error (.trailing more.length) := by
  rcases readFile_eq_ok_iff.mp hRead with
    ⟨rfl, hFits, hDepth⟩
  have hRoot :
      readArg Node.maxDepth (encodeArg tree.toArg ++ more) =
        .ok (tree.toArg, more) :=
    readArg_eq_ok_iff.mpr ⟨rfl, hFits, hDepth⟩
  cases more with
  | nil => exact absurd rfl hMore
  | cons b more =>
      unfold Node.toArg at hRoot ⊢
      simp [readFile, magic, hRoot]

/- The fault of a file that ends too soon. -/
def cutFault (short : List UInt8) : Fault :=
  if short.length < 5 then .missingHeader else .truncated

/- A file is cut in its header or in its root. -/
theorem readFile_cut
    {short whole : List UInt8}
    {tree : Node}
    (hRead : readFile whole = .ok tree)
    (hCut : IsCut short whole) :
    readFile short = .error (cutFault short) := by
  rcases readFile_eq_ok_iff.mp hRead with
    ⟨rfl, hFits, hDepth⟩
  rcases isCut_append_iff.mp hCut with
    hHeader | ⟨begun, rfl, hRoot⟩
  · have hShort : short.length < 5 := hHeader.length_lt
    have hNone : short.drop 4 = [] :=
      List.drop_eq_nil_iff.mpr (by omega)
    rw [cutFault, if_pos hShort, readFile, hNone]
  · have hLong :
        ¬ (magic ++ [version] ++ begun).length < 5 := by
      simp [magic]
    rw [cutFault, if_neg hLong,
      readFile_eq_error (readArg_cut hFits hDepth hRoot)]

/-
  A file that is read is no longer read once bytes are added
  to it or taken from its end.  Added bytes are counted, and
  a file cut short lacks its header or ends too soon.
-/
theorem stored_trees_are_prefix_free
    (bytes : List UInt8)
    (tree : Node)
    (hDecode : decode bytes = .ok tree) :
    (∀ more, more ≠ [] →
      decode (bytes ++ more) =
        .error (.decode (Fault.trailing more.length).message)) ∧
    ∀ short, short <+: bytes → short ≠ bytes →
      decode short =
        .error (.decode (cutFault short).message) := by
  have hRead : readFile bytes = .ok tree :=
    Except.mapError_eq_ok_iff.mp hDecode
  constructor
  · intro more hMore
    rw [decode, readFile_append hRead hMore,
      Except.mapError_error]
  · intro short hPrefix hNe
    have hCut := isCut_iff_prefix.mpr ⟨hPrefix, hNe⟩
    rw [decode, readFile_cut hRead hCut,
      Except.mapError_error]

/- The file of a node with a nested node and a text. -/
def nestedFile : List UInt8 :=
  [0x57, 0x46, 0x49, 0x52, 1, 0x4e, 0, 0, 0, 1, 0x78,
    0, 0, 0, 2, 0x4e, 0, 0, 0, 1, 0x79, 0, 0, 0, 0,
    0x53, 0, 0, 0, 2, 0xc3, 0xa9]

/- A file with a nested node and a text ends where it ends. -/
theorem nested_file_is_prefix_free :
    decode nestedFile =
        .ok ⟨"x", [.node "y" [], .literal (.text "é")]⟩ ∧
      (∀ more, more ≠ [] →
        decode (nestedFile ++ more) =
          .error (.decode
            (Fault.trailing more.length).message)) ∧
      ∀ short, short <+: nestedFile → short ≠ nestedFile →
        decode short =
          .error (.decode (cutFault short).message) := by
  have hDecode :
      decode nestedFile =
        .ok ⟨"x", [.node "y" [], .literal (.text "é")]⟩ := by
    decide
  exact ⟨hDecode, stored_trees_are_prefix_free _ _ hDecode⟩

end Binary

end TemplateTree
