import TemplateTree.Proofs.JsonDocuments
import TemplateTree.Proofs.JsonReading
import TemplateTree.Proofs.StoredLengths

/-
  The limit on the depth of trees, in writers and readers.

  Main declarations:
    * `EndsCapped`
    * `Binary.readArg_caps`
    * `Json.readArg_caps`
    * `Binary.Holds`
    * `Json.Holds`
    * `depth_limits_agree`

  A writer looks at a whole tree before it writes, and counts
  down from the limit.  A reader never has the whole tree: it
  counts the nodes it is in and gives up at the first one
  past the limit.  Reading with more room shows which tree it
  would have been.
-/

------------------------------------------------------------
-- Readings With A Limit
------------------------------------------------------------

namespace TemplateTree

section Capped

variable {α β ε : Type}
variable {deep : ε → Prop}
variable {limit depth : Nat}

/-
  How a reading ends that has a limit, if without it a result
  of some depth would be read: with that result up to the
  limit, and past the limit with an error of its own kind.
-/
def EndsCapped
    (deep : ε → Prop)
    (limit depth : Nat)
    (result : α)
    (ending : Except ε α) : Prop :=
  (depth ≤ limit ∧ ending = .ok result) ∨
    (limit < depth ∧
      ∃ error, deep error ∧ ending = .error error)

/- A reader that takes what another one takes, up to a limit. -/
def Caps
    (deep : ε → Prop)
    (limit : Nat)
    (free capped : List UInt8 → Except ε (Arg × List UInt8)) :
    Prop :=
  ∀ {bytes rest : List UInt8} {arg : Arg},
    free bytes = .ok (arg, rest) →
      EndsCapped deep limit arg.depth (arg, rest)
        (capped bytes)

theorem EndsCapped.map
    {result : α}
    {ending : Except ε α}
    (h : EndsCapped deep limit depth result ending)
    (f : α → β) :
    EndsCapped deep limit depth (f result) (ending.map f) := by
  rcases h with ⟨hDepth, rfl⟩ | ⟨hDepth, error, hError, rfl⟩
  · exact .inl ⟨hDepth, rfl⟩
  · exact .inr ⟨hDepth, error, hError, rfl⟩

/- Of two readings one after another, the deeper one counts. -/
theorem EndsCapped.bind
    {first : α}
    {second : β}
    {ending : Except ε α}
    {next : α → Except ε β}
    {depth' : Nat}
    (hFirst : EndsCapped deep limit depth first ending)
    (hSecond :
      EndsCapped deep limit depth' second (next first)) :
    EndsCapped deep limit (max depth depth') second
      (ending.bind next) := by
  rcases hFirst with ⟨hDepth, rfl⟩ | ⟨hDepth, error, hError, rfl⟩
  · rcases hSecond with
      ⟨hDepth', hNext⟩ | ⟨hDepth', error, hError, hNext⟩
    · exact .inl ⟨Nat.max_le.mpr ⟨hDepth, hDepth'⟩, hNext⟩
    · exact
        .inr ⟨lt_max_of_lt_right hDepth', error, hError, hNext⟩
  · exact .inr ⟨lt_max_of_lt_left hDepth, error, hError, rfl⟩

/- A node is one deeper than what was read inside it. -/
theorem EndsCapped.succ
    {result : α}
    {ending : Except ε α}
    (h : EndsCapped deep limit depth result ending) :
    EndsCapped deep (limit + 1) (1 + depth) result ending := by
  rcases h with ⟨hDepth, hEnding⟩ | ⟨hDepth, hError⟩
  · exact .inl ⟨by omega, hEnding⟩
  · exact .inr ⟨by omega, hError⟩

theorem EndsCapped.mapError
    {η : Type}
    {result : α}
    {ending : Except ε α}
    (h : EndsCapped deep limit depth result ending)
    {deep' : η → Prop}
    {f : ε → η}
    (hError : ∀ error, deep error → deep' (f error)) :
    EndsCapped deep' limit depth result (ending.mapError f) := by
  rcases h with ⟨hDepth, rfl⟩ | ⟨hDepth, error, hDeep, rfl⟩
  · exact .inl ⟨hDepth, rfl⟩
  · exact .inr ⟨hDepth, f error, hError error hDeep, rfl⟩

theorem EndsCapped.eq_ok_iff
    {result : α}
    {ending : Except ε α}
    (h : EndsCapped deep limit depth result ending) :
    ending = .ok result ↔ depth ≤ limit := by
  rcases h with ⟨hDepth, rfl⟩ | ⟨hDepth, error, -, rfl⟩
  · simp [hDepth]
  · simp [hDepth]

theorem EndsCapped.eq_error_iff
    {result : α}
    {ending : Except ε α}
    (h : EndsCapped deep limit depth result ending) :
    (∃ error, deep error ∧ ending = .error error) ↔
      limit < depth := by
  rcases h with ⟨hDepth, rfl⟩ | ⟨hDepth, error, hError, rfl⟩
  · simp [hDepth]
  · simpa [hDepth] using hError

end Capped

------------------------------------------------------------
-- Binary Files
------------------------------------------------------------

namespace Binary

variable {limit : Nat}
variable {free capped : List UInt8 → Step Arg}

/- The fault of a node past the limit. -/
def IsTooDeep (fault : Fault) : Prop :=
  fault = .tooDeep

theorem readMany_endsCapped
    (hRead : Caps IsTooDeep limit free capped)
    {count : Nat}
    {bytes rest : List UInt8}
    {args : List Arg}
    (h : readMany free count bytes = .ok (args, rest)) :
    EndsCapped IsTooDeep limit (Arg.depthList args) (args, rest)
      (readMany capped count bytes) := by
  induction count generalizing bytes args with
  | zero =>
      cases h
      exact .inl ⟨Nat.zero_le limit, rfl⟩
  | succ count ih =>
      rw [readMany] at h
      rcases Except.bind_eq_ok_iff.mp h with
        ⟨⟨arg, between⟩, hArg, hOthers⟩
      rcases Except.map_eq_ok_iff.mp hOthers with
        ⟨⟨others, last⟩, hOthers, hEq⟩
      cases hEq
      rw [readMany, Arg.depthList]
      apply (hRead hArg).bind
      exact (ih hOthers).map fun found => (arg :: found.1, found.2)

theorem readNode_endsCapped
    (hRead : Caps IsTooDeep limit free capped) :
    Caps IsTooDeep (limit + 1) (readNode free)
      (readNode capped) := by
  intro bytes rest arg h
  unfold readNode at h ⊢
  rcases Except.bind_eq_ok_iff.mp h with
    ⟨⟨tag, afterTag⟩, hTag, hCounted⟩
  rcases Except.bind_eq_ok_iff.mp hCounted with
    ⟨⟨count, afterCount⟩, hCount, hMany⟩
  simp only at hMany
  split at hMany
  · cases hMany
  · next hEnough =>
      rcases Except.map_eq_ok_iff.mp hMany with
        ⟨⟨args, last⟩, hArgs, hEq⟩
      cases hEq
      simp only [hTag, Except.bind_ok, hCount, if_neg hEnough]
      rw [Arg.depth]
      have hCapped := (readMany_endsCapped hRead hArgs).succ
      exact hCapped.map fun found => (Arg.node tag found.1, found.2)

/-
  A reader with less room reads the same, or gives up at the
  first node that it has no room for.
-/
theorem readArg_caps
    (room limit : Nat) :
    Caps IsTooDeep limit (readArg room) (readArg limit) := by
  induction room generalizing limit with
  | zero =>
      intro bytes rest arg h
      rcases readArg_eq_ok_iff.mp h with ⟨hBytes, hFits, hDepth⟩
      have hWithin : arg.depth ≤ limit := by omega
      exact
        .inl ⟨hWithin,
          readArg_eq_ok_iff.mpr ⟨hBytes, hFits, hWithin⟩⟩
  | succ room ih =>
      intro bytes rest arg h
      rcases readArg_eq_ok_iff.mp h with ⟨hBytes, hFits, -⟩
      cases arg with
      | literal value =>
          have hWithin : (Arg.literal value).depth ≤ limit :=
            Nat.zero_le limit
          exact
            .inl ⟨hWithin,
              readArg_eq_ok_iff.mpr ⟨hBytes, hFits, hWithin⟩⟩
      | node tag args =>
          rw [encodeArg, List.cons_append] at hBytes
          subst hBytes
          cases limit with
          | zero =>
              exact .inr ⟨by rw [Arg.depth]; omega, _, rfl, rfl⟩
          | succ limit => exact readNode_endsCapped (ih limit) h

/-
  A file that holds a tree, however deep the tree nests: its
  reader would find the tree if it had the room.
-/
def Holds
    (bytes : List UInt8)
    (node : Node) : Prop :=
  ∃ room body,
    bytes = magic ++ [version] ++ body ∧
      readArg room body = .ok (node.toArg, [])

/- There is such a file for every tree that fits the format. -/
theorem holds_of_fits
    {node : Node}
    (hFits : Fits node.toArg) :
    Holds (magic ++ [version] ++ encodeArg node.toArg) node := by
  refine ⟨node.depth, _, rfl, ?_⟩
  apply readArg_eq_ok_iff.mpr
  exact ⟨by simp, hFits, Nat.le_refl _⟩

theorem readFile_of_holds
    {bytes : List UInt8}
    {node : Node}
    (h : Holds bytes node) :
    EndsCapped IsTooDeep Node.maxDepth node.depth node
      (readFile bytes) := by
  rcases h with ⟨room, body, rfl, hBody⟩
  rcases readArg_caps room Node.maxDepth hBody with
    ⟨hDepth, hRoot⟩ | ⟨hDepth, fault, hFault, hRoot⟩
  · refine .inl ⟨hDepth, ?_⟩
    unfold Node.toArg at hRoot
    simp [readFile, magic, hRoot]
  · exact .inr ⟨hDepth, fault, hFault, readFile_eq_error hRoot⟩

end Binary

------------------------------------------------------------
-- JSON Texts
------------------------------------------------------------

namespace Json

variable {limit : Nat}
variable {free capped : List UInt8 → Step Arg}

/- A failure at a node past the limit, wherever it is. -/
def IsTooDeep (failure : Failure) : Prop :=
  failure.cause = .mismatch .tooDeep

theorem readArgs_endsCapped
    (hRead : Caps IsTooDeep limit free capped)
    {fuel : Nat}
    {bytes rest : List UInt8}
    {args : List Arg}
    (h : readArgs free fuel bytes = .ok (args, rest)) :
    EndsCapped IsTooDeep limit (Arg.depthList args) (args, rest)
      (readArgs capped fuel bytes) := by
  induction fuel generalizing bytes args with
  | zero => cases h
  | succ fuel ih =>
      rw [readArgs] at h ⊢
      cases hBytes : skipBlank bytes with
      | nil => simp [hBytes] at h
      | cons b after =>
          simp only [hBytes] at h ⊢
          by_cases hClose : b = byte ']'
          · simp only [if_pos hClose] at h ⊢
            cases h
            exact .inl ⟨Nat.zero_le limit, rfl⟩
          · simp only [if_neg hClose] at h ⊢
            split at h
            · next hComma =>
                simp only [if_pos hComma]
                cases hNext : skipBlank after with
                | nil => simp [hNext] at h
                | cons c next =>
                    simp only [hNext] at h ⊢
                    split at h
                    · cases h
                    · next hItem =>
                        rcases Except.bind_eq_ok_iff.mp h with
                          ⟨⟨arg, between⟩, hArg, hTail⟩
                        rcases Except.map_eq_ok_iff.mp hTail with
                          ⟨⟨others, last⟩, hOthers, hEq⟩
                        cases hEq
                        rw [if_neg hItem, Arg.depthList]
                        apply (hRead hArg).bind
                        exact
                          (ih hOthers).map fun found =>
                            (arg :: found.1, found.2)
            · cases h

theorem readNode_endsCapped
    (hRead : Caps IsTooDeep limit free capped)
    {bytes rest : List UInt8}
    {node : Node}
    (h : readNode free bytes = .ok (node, rest)) :
    EndsCapped IsTooDeep (limit + 1) node.depth (node, rest)
      (readNode capped bytes) := by
  rw [readNode] at h ⊢
  cases hBytes : skipBlank bytes with
  | nil => simp [hBytes] at h
  | cons b after =>
      simp only [hBytes] at h ⊢
      split at h
      · cases h
      · next hOpen =>
          rcases Except.bind_eq_ok_iff.mp h with
            ⟨⟨tag, afterTag⟩, hTag, hBody⟩
          rcases Except.map_eq_ok_iff.mp hBody with
            ⟨⟨args, last⟩, hArgs, hEq⟩
          cases hEq
          simp only [if_neg hOpen, hTag, Except.bind_ok]
          rw [Node.depth_eq]
          have hCapped := (readArgs_endsCapped hRead hArgs).succ
          exact hCapped.map fun found =>
            (Node.mk tag found.1, found.2)

/- A literal is read with any room. -/
theorem readArg_scalar
    {bytes after rest : List UInt8}
    {first : UInt8}
    {scalar : Scalar}
    {value : Literal}
    (hBytes : skipBlank bytes = first :: after)
    (hScalar : readScalar first after = .ok (scalar, rest))
    (hValue : scalar.toLiteral = .ok value)
    (room : Nat) :
    readArg room bytes = .ok (.literal value, rest) := by
  have hOther {b : UInt8}
      (hb :
        readScalar b after =
          .error (.next .expectedValue (b :: after))) :
      first ≠ b := by
    rintro rfl
    rw [hb] at hScalar
    cases hScalar
  have hList : first ≠ byte '[' := hOther rfl
  have hMap : first ≠ byte '\x7b' := hOther rfl
  rw [readArg.eq_def]
  simp only [hBytes, if_neg hList, if_neg hMap, hScalar,
    Except.bind_ok, hValue]

/-
  A reader with less room reads the same, or gives up at the
  first node that it has no room for.
-/
theorem readArg_caps
    (room limit : Nat) :
    Caps IsTooDeep limit (readArg room) (readArg limit) := by
  induction room generalizing limit with
  | zero =>
      intro bytes rest arg h
      rcases readArg_cases h with
        ⟨first, after, scalar, value, hBytes, hScalar, hValue, rfl⟩ |
          ⟨inner, after, node, hRoom, -⟩
      · exact
          .inl ⟨Nat.zero_le limit,
            readArg_scalar hBytes hScalar hValue limit⟩
      · cases hRoom
  | succ room ih =>
      intro bytes rest arg h
      rcases readArg_cases h with
        ⟨first, after, scalar, value, hBytes, hScalar, hValue, rfl⟩ |
          ⟨inner, after, node, hRoom, hBytes, hNode, rfl⟩
      · exact
          .inl ⟨Nat.zero_le limit,
            readArg_scalar hBytes hScalar hValue limit⟩
      · cases hRoom
        rw [readArg.eq_def]
        simp only [hBytes, if_true]
        cases limit with
        | zero =>
            have hDepth : 0 < node.toArg.depth := by
              rw [Node.toArg, Arg.depth]
              omega
            refine .inr ⟨hDepth, _, ?_, rfl⟩
            rfl
        | succ limit =>
            exact
              (readNode_endsCapped (ih limit) hNode).map
                fun found => (found.1.toArg, found.2)

/-
  A text that holds a tree, however deep the tree nests: its
  reader would find the tree if it had the room.
-/
def Holds
    (bytes : List UInt8)
    (node : Node) : Prop :=
  ∃ room, finish (readArg room bytes) = .ok node.toArg

/- There is such a text for every tree of finite floats. -/
theorem holds_of_allFinite
    {gap : Nat → List Char}
    (hGap : IsGap gap)
    {node : Node}
    (hFinite : node.AllFinite) :
    Holds (Utf8.encodeChars (writeArg gap 0 node.toArg)) node := by
  have hWritable : node.toArg.Writable node.depth :=
    ⟨Nat.le_refl _, hFinite⟩
  have hEnd : EndsNumber [] := by simp [EndsNumber]
  rcases readsArg_writeArg hGap 0 hWritable [] hEnd with
    ⟨first, tail, hShape, -, -, hRead⟩
  rw [List.append_nil] at hShape
  refine ⟨node.depth, finish_eq_ok_iff.mpr ⟨[], ?_, rfl⟩⟩
  rw [hShape]
  exact hRead

theorem finish_readRoot_of_holds
    {bytes : List UInt8}
    {node : Node}
    (h : Holds bytes node) :
    EndsCapped IsTooDeep Node.maxDepth node.depth node
      (finish (readRoot bytes)) := by
  rcases h with ⟨room, hFinish⟩
  rcases finish_eq_ok_iff.mp hFinish with ⟨rest, hArg, hRest⟩
  rcases readArg_cases hArg with
    ⟨first, after, scalar, value, -, -, -, hLiteral⟩ |
      ⟨inner, after, found, -, hBytes, hNode, hFound⟩
  · cases hLiteral
  · have hSame : found = node := by
      cases found
      cases node
      cases hFound
      rfl
    subst hSame
    have hRoot :
        readRoot bytes =
          readNode (readArg (Node.maxDepth - 1)) after := by
      simp only [readRoot, hBytes, if_true]
    have hCapped :
        EndsCapped IsTooDeep Node.maxDepth found.depth (found, rest)
          (readRoot bytes) := by
      rw [hRoot]
      exact readNode_endsCapped (readArg_caps inner _) hNode
    have hEnd :
        finish (.ok (found, rest)) = .ok found :=
      finish_eq_ok_iff.mpr ⟨rest, rfl, hRest⟩
    rw [← Nat.max_zero found.depth]
    exact hCapped.bind (.inl ⟨Nat.zero_le _, hEnd⟩)

/- A tree is not taken for too deep because of its floats. -/
theorem floatMessage_ne_tooDeepMessage
    (x : Double) :
    "JSON cannot represent the float "
        ++ FloatLayout.plain.write x ≠
      Binary.tooDeepMessage := by
  intro hEq
  have hFirst : Binary.tooDeepMessage.toList.head? = some 'n' := by
    unfold Binary.tooDeepMessage
    simp
  rw [← hEq, String.toList_append] at hFirst
  simp at hFirst

theorem write_eq_tooDeep_iff
    {gap : Nat → List Char}
    {node : Node} :
    write gap node = .error (.encode Binary.tooDeepMessage) ↔
      node.deeperThan Node.maxDepth = true := by
  rw [write, Except.map_eq_error_iff, ensureWritable]
  cases hDeep : node.deeperThan Node.maxDepth with
  | true => exact iff_of_true rfl rfl
  | false =>
      refine iff_of_false ?_ (by decide)
      simp only [Bool.false_eq_true, if_false]
      cases hFloat : node.findNonFinite? with
      | none => intro hEq; cases hEq
      | some x =>
          simp only [Except.error.injEq,
            CompileError.encode.injEq]
          exact floatMessage_ne_tooDeepMessage x

end Json

------------------------------------------------------------
-- One Limit
------------------------------------------------------------

/-
  The bounded check of a tree is exact at every limit.  At the
  common limit, both writers refuse a tree exactly if either
  reader refuses it for its depth, in whatever file or text it
  stands, and otherwise both readers find the tree.
-/
theorem depth_limits_agree
    (node : Node) :
    (∀ limit,
      node.deeperThan limit = true ↔ limit < node.depth) ∧
    (Binary.encode node =
        .error (.encode Binary.tooDeepMessage) ↔
      node.deeperThan 256 = true) ∧
    (∀ gap,
      Json.write gap node =
          .error (.encode Binary.tooDeepMessage) ↔
        node.deeperThan 256 = true) ∧
    (∀ bytes, Binary.Holds bytes node →
      (Binary.decode bytes =
          .error (.decode Binary.tooDeepMessage) ↔
        node.deeperThan 256 = true) ∧
      (Binary.decode bytes = .ok node ↔
        node.deeperThan 256 = false)) ∧
    ∀ bytes, Json.Holds bytes node →
      ((∃ failure : Json.Failure,
          Json.IsTooDeep failure ∧
            Json.load bytes =
              .error (.decode (failure.message bytes))) ↔
        node.deeperThan 256 = true) ∧
      (Json.load bytes = .ok node ↔
        node.deeperThan 256 = false) := by
  have hDeep :
      node.deeperThan 256 = true ↔ 256 < node.depth :=
    Node.deeperThan_iff_lt_depth
  have hShallow :
      node.deeperThan 256 = false ↔ node.depth ≤ 256 :=
    Node.deeperThan_eq_false_iff
  refine
    ⟨fun limit => Node.deeperThan_iff_lt_depth, ?_,
      fun gap => Json.write_eq_tooDeep_iff, ?_, ?_⟩
  · rw [Binary.encode_eq_error_iff, hDeep, and_iff_left rfl]
  · intro bytes hBytes
    have hFile :
        EndsCapped (· = CompileError.decode Binary.tooDeepMessage)
          256 node.depth node (Binary.decode bytes) := by
      apply (Binary.readFile_of_holds hBytes).mapError
      rintro fault rfl
      rfl
    rw [hDeep, hShallow, ← hFile.eq_error_iff, hFile.eq_ok_iff]
    simp
  · intro bytes hBytes
    have hText :
        EndsCapped
          (fun error =>
            ∃ failure : Json.Failure,
              Json.IsTooDeep failure ∧
                error = .decode (failure.message bytes))
          256 node.depth node (Json.load bytes) := by
      rw [Json.load, Json.loadNode, Except.mapError_mapError]
      apply (Json.finish_readRoot_of_holds hBytes).mapError
      intro failure hFailure
      exact ⟨failure, hFailure, rfl⟩
    rw [hDeep, hShallow, ← hText.eq_error_iff, hText.eq_ok_iff]
    refine ⟨?_, Iff.rfl⟩
    constructor
    · rintro ⟨failure, hFailure, hLoad⟩
      exact ⟨_, ⟨failure, hFailure, rfl⟩, hLoad⟩
    · rintro ⟨_, ⟨failure, hFailure, rfl⟩, hLoad⟩
      exact ⟨failure, hFailure, hLoad⟩

namespace Tower

/- A sequence in a sequence and so on, one deeper than said. -/
def tree : Nat → Node
| 0 => Node.empty
| height + 1 => Node.sequence [tree height]

theorem depth_tree
    (height : Nat) :
    (tree height).depth = height + 1 := by
  induction height with
  | zero => rfl
  | succ height ih =>
      rw [Node.depth_eq]
      change 1 + max (tree height).depth 0 = height + 1 + 1
      omega

theorem fits_tree
    (height : Nat) :
    Binary.Fits (tree height).toArg := by
  have hTag : CoreTag.sequence.name.utf8ByteSize < 2 ^ 32 := by
    decide
  induction height with
  | zero => exact ⟨hTag, by decide, trivial⟩
  | succ height ih =>
      have hOne : [(tree height).toArg].length < 2 ^ 32 := by
        rw [List.length_singleton]
        decide
      exact ⟨hTag, hOne, ih, trivial⟩

theorem literals_tree
    (height : Nat) :
    (tree height).toArg.literals = [] := by
  induction height with
  | zero => rfl
  | succ height ih =>
      change (tree height).toArg.literals ++ [] = []
      rw [ih, List.append_nil]

/- The file of a tower, whether it may be stored or not. -/
def file (height : Nat) : List UInt8 :=
  Binary.magic ++ [Binary.version]
    ++ Binary.encodeArg (tree height).toArg

theorem holds_file
    (height : Nat) :
    Binary.Holds (file height) (tree height) :=
  Binary.holds_of_fits (fits_tree height)

/- The text of a tower, whether it may be written or not. -/
def text (height : Nat) : List UInt8 :=
  Utf8.encodeChars
    (Json.writeArg Json.lineGap 0 (tree height).toArg)

theorem holds_text
    (height : Nat) :
    Json.Holds (text height) (tree height) := by
  apply Json.holds_of_allFinite Json.isGap_lineGap
  rw [Node.AllFinite, literals_tree]
  simp

/-
  A tower of 257 nodes is refused by both writers and both
  readers, and one of 256 nodes by none of them.
-/
theorem tower_meets_every_limit :
    (Binary.encode (tree 256) =
        .error (.encode Binary.tooDeepMessage) ∧
      Json.pretty (tree 256) =
        .error (.encode Binary.tooDeepMessage) ∧
      Binary.decode (file 256) =
        .error (.decode Binary.tooDeepMessage) ∧
      ∃ failure : Json.Failure,
        Json.IsTooDeep failure ∧
          Json.load (text 256) =
            .error (.decode (failure.message (text 256)))) ∧
    Binary.decode (file 255) = .ok (tree 255) ∧
      Json.load (text 255) = .ok (tree 255) := by
  rcases depth_limits_agree (tree 256) with
    ⟨hCheck, hEncode, hWrite, hDecode, hLoad⟩
  have hDeep : (tree 256).deeperThan 256 = true := by
    rw [hCheck, depth_tree]
    omega
  rcases depth_limits_agree (tree 255) with
    ⟨hCheck', -, -, hDecode', hLoad'⟩
  have hShallow : (tree 255).deeperThan 256 = false := by
    rw [← Bool.not_eq_true, hCheck', depth_tree]
    omega
  refine ⟨⟨hEncode.mpr hDeep, (hWrite _).mpr hDeep, ?_, ?_⟩, ?_, ?_⟩
  · exact (hDecode _ (holds_file 256)).1.mpr hDeep
  · exact (hLoad _ (holds_text 256)).1.mpr hDeep
  · exact (hDecode' _ (holds_file 255)).2.mpr hShallow
  · exact (hLoad' _ (holds_text 255)).2.mpr hShallow

end Tower

end TemplateTree
