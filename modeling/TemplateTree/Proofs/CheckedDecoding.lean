import TemplateTree.Proofs.BinaryFormat

/-
  Decoding with every access to the bytes checked.

  Main declarations:
    * `Binary.Stop`
    * `Binary.Checked.readArg`
    * `Binary.Checked.readFile`
    * `Binary.Checked.readArg_eq`
    * `Binary.Checked.readFile_eq`
    * `Binary.decoding_stays_in_bounds`

  A guard looks at the bytes that are left and refuses the
  input.  An access takes bytes without looking, and here it
  breaks down where too few of them are left.  The same holds
  of setting aside places for arguments, and of going down a
  level.  A decoder that never breaks down on any input makes
  none of these without the guard that it needs.
-/

------------------------------------------------------------
-- Guards And Accesses
------------------------------------------------------------

namespace TemplateTree

namespace Binary

/-
  Why decoding stops: the input is refused, or the decoder
  does what it must not do.
-/
inductive Stop where
| refused (fault : Fault)
| overrun (wanted left : Nat)
| overbooked (places left : Nat)
| overnested (level : Nat)
deriving DecidableEq, Repr

namespace Checked

/- What was done, and the bytes after it. -/
abbrev Step (α : Type) := Except Stop (α × List UInt8)

/- The guard that so many bytes are left. -/
def ensure
    (needed : Nat)
    (bytes : List UInt8) : Except Stop Unit :=
  if bytes.length < needed then .error (.refused .truncated)
  else .ok ()

/- Look at the first bytes. -/
def slice
    (size : Nat)
    (bytes : List UInt8) : Except Stop (List UInt8) :=
  if size ≤ bytes.length then .ok (bytes.take size)
  else .error (.overrun size bytes.length)

/- Pass over the first bytes. -/
def advance
    (size : Nat)
    (bytes : List UInt8) : Except Stop (List UInt8) :=
  if size ≤ bytes.length then .ok (bytes.drop size)
  else .error (.overrun size bytes.length)

/- Take one byte. -/
def takeByte : List UInt8 → Step UInt8
| [] => .error (.overrun 1 0)
| byte :: rest => .ok (byte, rest)

/- Take a number of `width` bytes. -/
def takeNumber
    (width : Nat)
    (bytes : List UInt8) : Step Nat :=
  (slice width bytes).bind fun word =>
    (advance width bytes).map fun rest => (ofBigEndian word, rest)

/- Set places aside, each of which takes a byte to fill. -/
def reserve
    (places : Nat)
    (bytes : List UInt8) : Except Stop Unit :=
  if places ≤ bytes.length then .ok ()
  else .error (.overbooked places bytes.length)

/- Go down to a level below the root. -/
def enter (level : Nat) : Except Stop Unit :=
  if level ≤ Node.maxDepth then .ok ()
  else .error (.overnested level)

------------------------------------------------------------
-- The Decoder
------------------------------------------------------------

/- Read a text with its length. -/
def readText (bytes : List UInt8) : Step String :=
  (ensure 4 bytes).bind fun _ =>
  (takeNumber 4 bytes).bind fun (length, bytes) =>
  (ensure length bytes).bind fun _ =>
  (slice length bytes).bind fun body =>
    match Utf8.decode body with
    | .ok text =>
        (advance length bytes).map fun rest => (text, rest)
    | .error cause => .error (.refused (.invalidText cause))

/- Read a number of eight bytes. -/
def readWord (bytes : List UInt8) : Step Nat :=
  (ensure 8 bytes).bind fun _ => takeNumber 8 bytes

/- Read a truth value, which is one byte. -/
def readBool (bytes : List UInt8) : Step Bool :=
  (ensure 1 bytes).bind fun _ =>
  (takeByte bytes).bind fun (byte, rest) =>
    if byte = 0 then .ok (false, rest)
    else if byte = 1 then .ok (true, rest)
    else .error (.refused (.invalidBool byte))

/- Read a literal after its marker. -/
def readLiteral
    (marker : UInt8)
    (bytes : List UInt8) : Step Literal :=
  if marker = textMarker then
    (readText bytes).map fun (s, rest) => (.text s, rest)
  else if marker = intMarker then
    (readWord bytes).map fun (n, rest) =>
      (.int n.toUInt64.toInt64, rest)
  else if marker = floatMarker then
    (readWord bytes).map fun (n, rest) =>
      (.float ⟨n.toUInt64⟩, rest)
  else if marker = boolMarker then
    (readBool bytes).map fun (b, rest) => (.bool b, rest)
  else .error (.refused (.unknownMarker marker))

/- Fill a given number of places with arguments. -/
def readMany
    (read : List UInt8 → Step Arg) :
    (count : Nat) → List UInt8 → Step (List Arg)
| 0, bytes => .ok ([], bytes)
| count + 1, bytes =>
    (read bytes).bind fun (arg, rest) =>
      (readMany read count rest).map fun (args, rest) =>
        (arg :: args, rest)

/- Read a node after its marker. -/
def readNode
    (read : List UInt8 → Step Arg)
    (bytes : List UInt8) : Step Arg :=
  (readText bytes).bind fun (tag, bytes) =>
  (ensure 4 bytes).bind fun _ =>
  (takeNumber 4 bytes).bind fun (count, bytes) =>
  (ensure count bytes).bind fun _ =>
  (reserve count bytes).bind fun _ =>
  (readMany read count bytes).map fun (args, rest) =>
    (.node tag args, rest)

/- Read an argument on a level below the root. -/
def readArg
    (level : Nat)
    (bytes : List UInt8) : Step Arg :=
  (enter level).bind fun _ =>
  (ensure 1 bytes).bind fun _ =>
  (takeByte bytes).bind fun (marker, bytes) =>
    if marker = nodeMarker then
      if Node.maxDepth ≤ level then .error (.refused .tooDeep)
      else readNode (readArg (level + 1)) bytes
    else
      (readLiteral marker bytes).map fun (value, rest) =>
        (.literal value, rest)
termination_by Node.maxDepth - level

/- Read a file: the header, the root, and nothing after it. -/
def readFile (bytes : List UInt8) : Except Stop Node :=
  if bytes.length < magic.length + 1 then
    .error (.refused .missingHeader)
  else
    (slice magic.length bytes).bind fun start =>
      if start ≠ magic then .error (.refused .missingHeader)
      else
        (advance magic.length bytes).bind fun bytes =>
        (takeByte bytes).bind fun (found, bytes) =>
          if found ≠ version then
            .error (.refused (.unsupportedVersion found))
          else
            (readArg 0 bytes).bind fun (root, rest) =>
              match root with
              | .literal value =>
                  .error (.refused (.literalRoot value.kind))
              | .node tag args =>
                  if rest.isEmpty then .ok ⟨tag, args⟩
                  else .error (.refused (.trailing rest.length))

------------------------------------------------------------
-- Guarded Accesses
------------------------------------------------------------

variable {bytes : List UInt8}

theorem ensure_of_le
    {needed : Nat}
    (h : needed ≤ bytes.length) :
    ensure needed bytes = .ok () := by
  rw [ensure, if_neg (Nat.not_lt.mpr h)]

theorem ensure_of_lt
    {needed : Nat}
    (h : bytes.length < needed) :
    ensure needed bytes = .error (.refused .truncated) := by
  rw [ensure, if_pos h]

theorem slice_of_le
    {size : Nat}
    (h : size ≤ bytes.length) :
    slice size bytes = .ok (bytes.take size) := by
  rw [slice, if_pos h]

theorem advance_of_le
    {size : Nat}
    (h : size ≤ bytes.length) :
    advance size bytes = .ok (bytes.drop size) := by
  rw [advance, if_pos h]

theorem takeNumber_of_le
    {width : Nat}
    (h : width ≤ bytes.length) :
    takeNumber width bytes =
      .ok (ofBigEndian (bytes.take width), bytes.drop width) := by
  rw [takeNumber, slice_of_le h, Except.bind_ok, advance_of_le h,
    Except.map_ok]

/- A number that is guarded by its width is read as before. -/
theorem takeNumber_bind
    {α : Type}
    (width : Nat)
    (next : Nat × List UInt8 → Except Stop α) :
    ((ensure width bytes).bind fun _ =>
        (takeNumber width bytes).bind next) =
      ((Binary.readNumber width bytes).mapError .refused).bind
        next := by
  rw [readNumber]
  by_cases hShort : bytes.length < width
  · rw [ensure_of_lt hShort, readBytes_of_lt hShort]
    rfl
  · have hEnough := Nat.not_lt.mp hShort
    rw [ensure_of_le hEnough, Except.bind_ok,
      takeNumber_of_le hEnough, readBytes_of_le hEnough]
    rfl

theorem readText_eq :
    readText bytes =
      (Binary.readText bytes).mapError .refused := by
  unfold readText Binary.readText
  rw [takeNumber_bind, Except.mapError_bind]
  congr 1
  funext found
  obtain ⟨length, rest⟩ := found
  dsimp only
  by_cases hShort : rest.length < length
  · rw [ensure_of_lt hShort, readBytes_of_lt hShort]
    rfl
  · have hEnough := Nat.not_lt.mp hShort
    rw [ensure_of_le hEnough, Except.bind_ok,
      slice_of_le hEnough, Except.bind_ok,
      readBytes_of_le hEnough, Except.bind_ok]
    cases hText : Utf8.decode (rest.take length) with
    | ok text =>
        simp only [advance_of_le hEnough, Except.map_ok,
          Except.mapError_ok]
    | error cause => simp only [Except.mapError_error]

theorem readWord_eq :
    readWord bytes =
      (Binary.readNumber 8 bytes).mapError .refused := by
  have hLast (r : Step Nat) : r.bind .ok = r := by
    cases r <;> rfl
  have hBind :
      ((ensure 8 bytes).bind fun _ =>
          (takeNumber 8 bytes).bind .ok) =
        ((Binary.readNumber 8 bytes).mapError .refused).bind
          .ok :=
    takeNumber_bind 8 .ok
  simp only [hLast] at hBind
  exact hBind

theorem readBool_eq :
    readBool bytes =
      (Binary.readBool bytes).mapError .refused := by
  cases bytes with
  | nil => rfl
  | cons byte rest =>
      rw [readBool, ensure_of_le (by simp), Except.bind_ok,
        takeByte, Except.bind_ok, Binary.readBool]
      dsimp only
      split
      · rfl
      · split
        · rfl
        · rfl

theorem readLiteral_eq
    (marker : UInt8) :
    readLiteral marker bytes =
      (Binary.readLiteral marker bytes).mapError .refused := by
  unfold readLiteral Binary.readLiteral
  rw [readText_eq, readWord_eq, readBool_eq]
  split
  · rw [Except.mapError_map]
  · split
    · rw [Except.mapError_map]
    · split
      · rw [Except.mapError_map]
      · split
        · rw [Except.mapError_map]
        · rfl

------------------------------------------------------------
-- The Same Decoder
------------------------------------------------------------

variable {read : List UInt8 → Step Arg}
variable {plain : List UInt8 → Binary.Step Arg}

theorem readMany_eq
    (hRead :
      ∀ bytes, read bytes = (plain bytes).mapError .refused)
    (count : Nat) :
    readMany read count bytes =
      (Binary.readMany plain count bytes).mapError .refused := by
  induction count generalizing bytes with
  | zero => rfl
  | succ count ih =>
      rw [readMany, Binary.readMany, hRead, Except.mapError_bind]
      congr 1
      funext found
      obtain ⟨arg, rest⟩ := found
      dsimp only
      rw [ih, Except.mapError_map]

/- The places of a node are guarded by its number of arguments. -/
theorem readNode_eq
    (hRead :
      ∀ bytes, read bytes = (plain bytes).mapError .refused) :
    readNode read bytes =
      (Binary.readNode plain bytes).mapError .refused := by
  unfold readNode Binary.readNode
  rw [readText_eq, Except.mapError_bind]
  congr 1
  funext found
  obtain ⟨tag, afterTag⟩ := found
  dsimp only
  rw [takeNumber_bind, Except.mapError_bind]
  congr 1
  funext found
  obtain ⟨count, rest⟩ := found
  dsimp only
  by_cases hShort : rest.length < count
  · rw [ensure_of_lt hShort, if_pos (lacks_iff.mpr hShort)]
    rfl
  · have hEnough := Nat.not_lt.mp hShort
    rw [ensure_of_le hEnough, Except.bind_ok, reserve,
      if_pos hEnough, Except.bind_ok, readMany_eq hRead,
      if_neg (fun h => hShort (lacks_iff.mp h)),
      Except.mapError_map]

theorem readArg_nil
    {level : Nat}
    (hLevel : level ≤ Node.maxDepth) :
    readArg level [] = .error (.refused .truncated) := by
  rw [readArg, enter, if_pos hLevel]
  rfl

theorem readArg_cons
    {level : Nat}
    (hLevel : level ≤ Node.maxDepth)
    (marker : UInt8)
    (bytes : List UInt8) :
    readArg level (marker :: bytes) =
      if marker = nodeMarker then
        if Node.maxDepth ≤ level then .error (.refused .tooDeep)
        else readNode (readArg (level + 1)) bytes
      else
        (readLiteral marker bytes).map fun found =>
          (.literal found.1, found.2) := by
  rw [readArg, enter, if_pos hLevel]
  rfl

/-
  On every level down to the limit, what is left of the limit
  is the room that there is.  The guard of a node keeps its
  arguments from being read a level below that.
-/
theorem readArg_eq
    {level room : Nat}
    (hLevel : level + room = Node.maxDepth) :
    readArg level bytes =
      (Binary.readArg room bytes).mapError .refused := by
  induction room generalizing level bytes with
  | zero =>
      cases bytes with
      | nil =>
          rw [readArg_nil (by omega)]
          rfl
      | cons marker rest =>
          rw [readArg_cons (by omega), Binary.readArg.eq_def]
          dsimp only
          split
          · rw [if_pos (by omega)]
            rfl
          · rw [readLiteral_eq, Except.mapError_map]
  | succ room ih =>
      cases bytes with
      | nil =>
          rw [readArg_nil (by omega)]
          rfl
      | cons marker rest =>
          rw [readArg_cons (by omega), Binary.readArg.eq_def]
          dsimp only
          split
          · rw [if_neg (by omega)]
            apply readNode_eq
            intro bytes
            exact ih (by omega)
          · rw [readLiteral_eq, Except.mapError_map]

/- The header is guarded by the length of a file. -/
theorem readFile_eq :
    readFile bytes =
      (Binary.readFile bytes).mapError .refused := by
  have hMagic : magic.length = 4 := rfl
  unfold readFile Binary.readFile
  rw [hMagic]
  cases hBody : bytes.drop 4 with
  | nil =>
      have hShort : bytes.length < 4 + 1 := by
        have hLength := List.drop_eq_nil_iff.mp hBody
        omega
      rw [if_pos hShort]
      rfl
  | cons found body =>
      have hLong : 4 + 1 ≤ bytes.length := by
        have hLength := congrArg List.length hBody
        rw [List.length_drop, List.length_cons] at hLength
        omega
      have hHeader : 4 ≤ bytes.length := by omega
      rw [if_neg (Nat.not_lt.mpr hLong), slice_of_le hHeader,
        Except.bind_ok, advance_of_le hHeader, Except.bind_ok,
        hBody, takeByte, Except.bind_ok]
      dsimp only
      split
      · rfl
      · split
        · rfl
        · rw [readArg_eq (Nat.zero_add Node.maxDepth)]
          cases hRoot : Binary.readArg Node.maxDepth body with
          | error fault => rfl
          | ok result =>
              rcases result with ⟨root, rest⟩
              cases root with
              | literal value => rfl
              | node tag args =>
                  cases rest with
                  | nil => rfl
                  | cons byte rest => rfl

/- No argument is read below the lowest level. -/
theorem level_le_of_readArg
    {level : Nat}
    {result : Arg × List UInt8}
    (h : readArg level bytes = .ok result) :
    level ≤ Node.maxDepth := by
  rw [readArg, enter] at h
  split at h
  · next hLevel => exact hLevel
  · cases h

/- An argument is made of the bytes that were taken for it. -/
theorem exists_taken_of_readArg
    {level : Nat}
    {rest : List UInt8}
    {arg : Arg}
    (h : readArg level bytes = .ok (arg, rest)) :
    ∃ taken, taken ≠ [] ∧ bytes = taken ++ rest := by
  have hLevel := level_le_of_readArg h
  rw [readArg_eq (Nat.add_sub_of_le hLevel),
    Except.mapError_eq_ok_iff] at h
  exact
    ⟨encodeArg arg, encodeArg_ne_nil arg,
      (readArg_eq_ok_iff.mp h).1⟩

end Checked

------------------------------------------------------------
-- Any Input
------------------------------------------------------------

/-
  On every input, decoding with all accesses checked ends as
  decoding does.  So it stops for a fault of the input only:
  no access goes past the end, no more places are set aside
  than bytes are left, and no level below the limit is gone
  down to.  An argument that is read, on any level, takes at
  least one byte from the front and leaves the others.
-/
theorem decoding_stays_in_bounds
    (bytes : List UInt8) :
    Checked.readFile bytes =
        (readFile bytes).mapError .refused ∧
      (∀ stop,
        Checked.readFile bytes = .error stop →
          ∃ fault,
            stop = .refused fault ∧
              decode bytes = .error (.decode fault.message)) ∧
      ∀ level arg rest,
        Checked.readArg level bytes = .ok (arg, rest) →
          level ≤ 256 ∧
            ∃ taken, taken ≠ [] ∧ bytes = taken ++ rest := by
  refine ⟨Checked.readFile_eq, ?_, ?_⟩
  · intro stop hStop
    rw [Checked.readFile_eq, Except.mapError_eq_error_iff] at hStop
    rcases hStop with ⟨fault, hFault, rfl⟩
    refine ⟨fault, rfl, ?_⟩
    rw [decode, hFault]
    rfl
  · intro level arg rest hArg
    exact
      ⟨Checked.level_le_of_readArg hArg,
        Checked.exists_taken_of_readArg hArg⟩

/- A file with a node of more arguments than it has bytes. -/
def crowdedFile : List UInt8 :=
  [0x57, 0x46, 0x49, 0x52, 1, 0x4e, 0, 0, 0, 0,
    0xff, 0xff, 0xff, 0xff, 0x42, 1]

/-
  Such a file is refused before any place is set aside, and a
  truth value on the lowest level takes its two bytes.
-/
theorem crowded_file_stays_in_bounds :
    (∃ fault,
      Checked.readFile crowdedFile = .error (.refused fault) ∧
        decode crowdedFile = .error (.decode fault.message)) ∧
    ∃ taken,
      taken ≠ [] ∧
        ([0x42, 1, 0x07] : List UInt8) = taken ++ [0x07] := by
  have hCrowded :
      Checked.readFile crowdedFile =
        .error (.refused .truncated) := by
    rw [Checked.readFile_eq]
    decide
  have hFlag :
      Checked.readArg 256 [0x42, 1, 0x07] =
        .ok (.literal (.bool true), [0x07]) := by
    rw [Checked.readArg_eq (Nat.add_zero 256)]
    decide
  constructor
  · rcases (decoding_stays_in_bounds crowdedFile).2.1 _ hCrowded
      with ⟨fault, hFault, hDecode⟩
    cases hFault
    exact ⟨.truncated, hCrowded, hDecode⟩
  · exact
      ((decoding_stays_in_bounds _).2.2 256 _ _ hFlag).2

end Binary

end TemplateTree
