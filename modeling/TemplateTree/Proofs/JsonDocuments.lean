import TemplateTree.Json.Reader
import TemplateTree.Json.Writer
import TemplateTree.Proofs.Depth
import TemplateTree.Proofs.JsonNumbers

/-
  Reading back the JSON documents that trees are written as.

  Main declarations:
    * `Json.readsScalar_literal`
    * `Json.readArgs_writeArgs`
    * `Json.readNode_nodeBody`
    * `Json.ensureWritable_eq_ok_iff`
    * `Json.written_reads_back`

  What is written for an argument reads back whatever white
  space stands around it, so both forms of a document are
  covered by one argument about gaps.
-/

------------------------------------------------------------
-- Finite Floats
------------------------------------------------------------

namespace TemplateTree

/- A literal that is not a float without a finite value. -/
def Literal.IsFinite (value : Literal) : Prop :=
  ∀ x, value = .float x → x.isFinite = true

namespace Arg

mutual

/- The literals of an argument, from left to right. -/
def literals : Arg → List Literal
| .literal value => [value]
| .node _ args => literalsList args

/- The literals of a list of arguments. -/
def literalsList : List Arg → List Literal
| [] => []
| arg :: args => literals arg ++ literalsList args

end

theorem mem_literalsList_iff
    {args : List Arg}
    {value : Literal} :
    value ∈ literalsList args ↔
      ∃ arg ∈ args, value ∈ arg.literals := by
  induction args with
  | nil => simp [literalsList]
  | cons arg args ih => simp [literalsList, ih]

mutual

theorem findNonFinite?_eq_none_iff :
    (arg : Arg) →
    (arg.findNonFinite? = none ↔
      ∀ value ∈ arg.literals, value.IsFinite)
| .literal value => by
    cases value <;>
      simp [findNonFinite?, literals, Literal.IsFinite]
| .node tag args => by
    rw [findNonFinite?, literals]
    exact findNonFiniteList?_eq_none_iff args

theorem findNonFiniteList?_eq_none_iff :
    (args : List Arg) →
    (findNonFiniteList? args = none ↔
      ∀ value ∈ literalsList args, value.IsFinite)
| [] => by simp [findNonFiniteList?, literalsList]
| arg :: args => by
    rw [findNonFiniteList?, literalsList,
      List.forall_mem_append,
      ← findNonFinite?_eq_none_iff arg,
      ← findNonFiniteList?_eq_none_iff args]
    cases findNonFinite? arg <;> simp

end

/- What a document can hold, with room for some nesting. -/
def Writable
    (room : Nat)
    (arg : Arg) : Prop :=
  arg.depth ≤ room ∧ ∀ value ∈ arg.literals, value.IsFinite

theorem Writable.literal
    {room : Nat}
    {value : Literal}
    (hArg : (Arg.literal value).Writable room) :
    value.IsFinite :=
  hArg.2 value (by simp [literals])

theorem Writable.of_mem
    {room : Nat}
    {tag : Tag}
    {args : List Arg}
    {arg : Arg}
    (hArgs : (Arg.node tag args).Writable (room + 1))
    (hMem : arg ∈ args) :
    arg.Writable room := by
  rcases hArgs with ⟨hDepth, hFinite⟩
  rw [depth] at hDepth
  rw [literals] at hFinite
  constructor
  · exact depthList_le_iff.mp (by omega) arg hMem
  · intro value hValue
    exact hFinite value
      (mem_literalsList_iff.mpr ⟨arg, hMem, hValue⟩)

end Arg

/- A tree that holds no infinity and no not-a-number. -/
def Node.AllFinite (node : Node) : Prop :=
  ∀ value ∈ node.toArg.literals, value.IsFinite

------------------------------------------------------------
-- Literals
------------------------------------------------------------

namespace Json

/- A byte that starts a scalar. -/
def StartsScalar (first : UInt8) : Prop :=
  isBlank first = false ∧ first ≠ byte '[' ∧
    first ≠ byte '\x7b' ∧ first ≠ byte ']'

instance
    (first : UInt8) :
    Decidable (StartsScalar first) :=
  inferInstanceAs (Decidable (_ ∧ _))

/- Characters that read back as a scalar before other bytes. -/
def ReadsScalar
    (cs : List Char)
    (scalar : Scalar)
    (rest : List UInt8) : Prop :=
  ∃ first tail,
    Utf8.encodeChars cs ++ rest = first :: tail ∧
    StartsScalar first ∧
    readScalar first tail = .ok (scalar, rest)

theorem readsScalar_string
    (s : String)
    (rest : List UInt8) :
    ReadsScalar (quotedChars s) (.string s) rest := by
  refine ⟨byte '"',
    Utf8.encodeChars (s.toList.flatMap quotedChar ++ ['"'])
      ++ rest, rfl, by decide, ?_⟩
  unfold readScalar
  iterate 5 rw [if_neg (by decide)]
  rw [if_pos rfl, readString_quoted, Except.map_ok]

theorem readWord_append
    (word rest : List UInt8) :
    readWord word (word ++ rest) = .ok ((), rest) := by
  induction word with
  | nil => rfl
  | cons w word ih => simp [readWord, ih]

theorem readsScalar_bool
    (b : Bool)
    (rest : List UInt8) :
    ReadsScalar (Literal.boolText b).toList (.bool b) rest := by
  cases b with
  | false =>
      refine ⟨byte 'f', falseTail ++ rest, rfl, by decide, ?_⟩
      unfold readScalar
      iterate 2 rw [if_neg (by decide)]
      rw [if_pos rfl, readWord_append, Except.map_ok]
  | true =>
      refine ⟨byte 't', trueTail ++ rest, rfl, by decide, ?_⟩
      unfold readScalar
      rw [if_neg (by decide), if_pos rfl, readWord_append,
        Except.map_ok]

theorem readsScalar_number
    {negative : Bool}
    {n : Numeral}
    {number : Number}
    {rest : List UInt8}
    (hRead :
      readNumber negative
          (Utf8.encodeChars (n.chars true) ++ rest) =
        .ok (number, rest)) :
    ReadsScalar
      ((if negative then ['-'] else []) ++ n.chars true)
      (.number number) rest := by
  cases negative with
  | true =>
      refine ⟨byte '-',
        Utf8.encodeChars (n.chars true) ++ rest, rfl,
        by decide, ?_⟩
      unfold readScalar
      iterate 3 rw [if_neg (by decide)]
      rw [if_pos rfl, hRead, Except.map_ok]
  | false =>
      rcases n.exists_cons true with ⟨c, cs, hChars, hc⟩
      have hFirst := isDigit_byte hc
      have hOther (b : UInt8) (hb : isDigit b = false) :
          byte c ≠ b := by
        rintro rfl
        rw [hFirst] at hb
        cases hb
      have hShape :
          Utf8.encodeChars (n.chars true) ++ rest =
            byte c :: (Utf8.encodeChars cs ++ rest) := by
        have hRange := toNat_of_isDigit hc
        rw [hChars, Utf8.encodeChars_cons,
          encodeChar_ascii (by omega)]
        rfl
      refine ⟨byte c, Utf8.encodeChars cs ++ rest, hShape,
        ?_, ?_⟩
      · refine ⟨?_, hOther _ (by decide), hOther _ (by decide),
          hOther _ (by decide)⟩
        simp [isBlank, hOther 0x20 (by decide),
          hOther 0x0a (by decide), hOther 0x09 (by decide),
          hOther 0x0d (by decide)]
      · unfold readScalar
        iterate 4 rw [if_neg (hOther _ (by decide))]
        rw [if_pos hFirst, ← hShape, hRead, Except.map_ok]

theorem readsScalar_float
    {x : Double}
    {rest : List UInt8}
    (hFinite : x.isFinite = true)
    (hEnd : EndsNumber rest) :
    ReadsScalar (floatLayout.write x).toList
      (.number (.float x)) rest := by
  rcases floatLayout.exists_numeral hFinite
    with ⟨n, hText, hMagnitude, hFloat, hExponent⟩
  have hSmall : ∀ e ∈ n.exponent, e.natAbs ≤ maxExponent := by
    intro e he
    have hSize := hExponent e he
    unfold maxExponent
    omega
  have hRead :
      readNumber x.isNegative
          (Utf8.encodeChars (n.chars true) ++ rest) =
        .ok (.float x, rest) := by
    rw [readNumber_numeral x.isNegative n hEnd,
      readFraction_float x.isNegative (hFloat rfl) hSmall hEnd]
    exact finishFloat_finite hFinite hMagnitude rest
  rw [hText]
  exact readsScalar_number hRead

theorem readsScalar_int
    (value : Int64)
    {rest : List UInt8}
    (hEnd : EndsNumber rest) :
    ReadsScalar (Literal.intText value.toInt).toList
      (.number (.integer value.toInt)) rest := by
  have hLow : -9223372036854775808 ≤ value.toInt :=
    value.le_toInt
  have hHigh : value.toInt < 9223372036854775808 :=
    value.toInt_lt
  generalize value.toInt = k at hLow hHigh
  have hText :
      (Literal.intText k).toList =
        (if decide (k < 0) then ['-'] else [])
          ++ (Numeral.ofNat k.natAbs).chars true := by
    unfold Literal.intText
    by_cases hSign : k < 0 <;>
      simp [hSign, Numeral.ofNat, Numeral.chars,
        Numeral.fractionChars, Numeral.exponentChars]
  have hRead :
      readNumber (decide (k < 0))
          (Utf8.encodeChars
            ((Numeral.ofNat k.natAbs).chars true) ++ rest) =
        .ok (.integer k, rest) := by
    rw [readNumber_numeral _ _ hEnd,
      ← finishInteger_signed hLow hHigh rest]
    exact readFraction_whole _ _ hEnd
  rw [hText]
  exact readsScalar_number hRead

/- A written literal reads back as the literal. -/
theorem readsScalar_literal
    {value : Literal}
    {rest : List UInt8}
    (hFinite : value.IsFinite)
    (hEnd : EndsNumber rest) :
    ∃ scalar,
      ReadsScalar (literalChars value) scalar rest ∧
      scalar.toLiteral = .ok value := by
  cases value with
  | text s => exact ⟨_, readsScalar_string s rest, rfl⟩
  | int n =>
      have hHigh : n.toInt < 9223372036854775808 := n.toInt_lt
      refine ⟨_, readsScalar_int n hEnd, ?_⟩
      have hPow :
          ((Nat.pow 2 63 : Nat) : Int) =
            9223372036854775808 := rfl
      rw [Scalar.toLiteral, hPow, if_pos hHigh,
        Int64.ofInt_toInt]
  | float x =>
      have hx := hFinite x rfl
      refine ⟨_, readsScalar_float hx hEnd, ?_⟩
      rw [Scalar.toLiteral, if_pos hx]
  | bool b => exact ⟨_, readsScalar_bool b rest, rfl⟩

------------------------------------------------------------
-- Gaps
------------------------------------------------------------

/- Gaps are white space on every level. -/
def IsGap (gap : Nat → List Char) : Prop :=
  ∀ level, ∀ c ∈ gap level, c = ' ' ∨ c = '\n'

theorem isGap_noGap : IsGap noGap := by
  intro level c hc
  cases hc

theorem isGap_lineGap : IsGap lineGap := by
  intro level c hc
  rcases List.mem_cons.mp hc with rfl | hc
  · exact Or.inr rfl
  · exact Or.inl (List.eq_of_mem_replicate hc)

theorem skipBlank_cons
    {b : UInt8}
    (hb : isBlank b = false)
    (rest : List UInt8) :
    skipBlank (b :: rest) = b :: rest := by
  simp [skipBlank, hb]

theorem isBlank_of_mem_gap
    {gap : Nat → List Char}
    (hGap : IsGap gap)
    (level : Nat)
    {b : UInt8}
    (hb : b ∈ Utf8.encodeChars (gap level)) :
    isBlank b = true := by
  rcases List.mem_flatMap.mp hb with ⟨c, hc, hb⟩
  rcases hGap level c hc with rfl | rfl
  · rcases List.mem_singleton.mp hb with rfl
    decide
  · rcases List.mem_singleton.mp hb with rfl
    decide

theorem skipBlank_gap
    {gap : Nat → List Char}
    (hGap : IsGap gap)
    (level : Nat)
    {b : UInt8}
    (hb : isBlank b = false)
    (rest : List UInt8) :
    skipBlank (Utf8.encodeChars (gap level) ++ b :: rest) =
      b :: rest := by
  unfold skipBlank
  rw [List.dropWhile_append_of_pos fun _ =>
    isBlank_of_mem_gap hGap level]
  exact skipBlank_cons hb rest

theorem endsNumber_of_isBlank
    {b : UInt8}
    (hb : isBlank b = true)
    (rest : List UInt8) :
    EndsNumber (b :: rest) := by
  rintro c ⟨⟩
  simp only [isBlank, Bool.or_eq_true, beq_iff_eq] at hb
  rcases hb with ((rfl | rfl) | rfl) | rfl <;> decide

/- Neither a gap nor a closing bracket extends a number. -/
theorem endsNumber_close
    {gap : Nat → List Char}
    (hGap : IsGap gap)
    (level : Nat)
    (rest : List UInt8) :
    EndsNumber
      (Utf8.encodeChars (gap level) ++ byte ']' :: rest) := by
  cases hBytes : Utf8.encodeChars (gap level) with
  | nil =>
      rintro b ⟨⟩
      decide
  | cons b bytes =>
      apply endsNumber_of_isBlank
      exact isBlank_of_mem_gap hGap level (by simp [hBytes])

theorem endsNumber_writeArgs
    (gap : Nat → List Char)
    (level : Nat)
    (args : List Arg)
    {rest : List UInt8}
    (hEnd : EndsNumber rest) :
    EndsNumber
      (Utf8.encodeChars (writeArgs gap level args) ++ rest) := by
  cases args with
  | nil => exact hEnd
  | cons arg args =>
      rintro b ⟨⟩
      decide

------------------------------------------------------------
-- Arguments
------------------------------------------------------------

/- A reader gives an argument back from what is written for it. -/
def ReadsArg
    (read : List UInt8 → Step Arg)
    (cs : List Char)
    (arg : Arg) : Prop :=
  ∀ rest, EndsNumber rest →
    ∃ first tail,
      Utf8.encodeChars cs ++ rest = first :: tail ∧
      isBlank first = false ∧ first ≠ byte ']' ∧
      read (first :: tail) = .ok (arg, rest)

theorem readsArg_literal
    (room : Nat)
    {value : Literal}
    (hFinite : value.IsFinite) :
    ReadsArg (readArg room) (literalChars value)
      (.literal value) := by
  intro rest hEnd
  rcases readsScalar_literal hFinite hEnd
    with ⟨scalar, ⟨first, tail, hShape, hStart, hRead⟩, hValue⟩
  rcases hStart with ⟨hBlank, hList, hMap, hClose⟩
  refine ⟨first, tail, hShape, hBlank, hClose, ?_⟩
  rw [readArg.eq_def]
  simp only [skipBlank_cons hBlank, hList, hMap, hRead, hValue,
    Except.bind_ok, ↓reduceIte]

/- Every argument takes at least its comma. -/
theorem length_le_writeArgs
    (gap : Nat → List Char)
    (level : Nat)
    (args : List Arg) :
    args.length ≤
      (Utf8.encodeChars (writeArgs gap level args)).length := by
  induction args with
  | nil => simp
  | cons arg args ih =>
      rw [writeArgs, List.cons_append, List.cons_append,
        Utf8.encodeChars_cons, encodeChar_ascii (by decide),
        Utf8.encodeChars_append]
      simp only [List.length_cons, List.length_append,
        List.length_nil]
      omega

theorem readArgs_writeArgs
    {read : List UInt8 → Step Arg}
    {gap : Nat → List Char}
    (hGap : IsGap gap)
    {level outer : Nat}
    {args : List Arg}
    (hRead :
      ∀ arg ∈ args,
        ReadsArg read (writeArg gap level arg) arg)
    {fuel : Nat}
    (hFuel : args.length < fuel)
    (rest : List UInt8) :
    readArgs read fuel
        (Utf8.encodeChars (writeArgs gap level args)
          ++ (Utf8.encodeChars (gap outer)
            ++ byte ']' :: rest)) =
      .ok (args, rest) := by
  induction args generalizing fuel with
  | nil =>
      cases fuel with
      | zero => cases hFuel
      | succ fuel =>
          rw [writeArgs, Utf8.encodeChars_nil, List.nil_append,
            readArgs, skipBlank_gap hGap outer (by decide)]
          rfl
  | cons arg args ih =>
      cases fuel with
      | zero => cases hFuel
      | succ fuel =>
          have hEnd :=
            endsNumber_writeArgs gap level args
              (endsNumber_close hGap outer rest)
          rcases hRead arg List.mem_cons_self _ hEnd
            with ⟨first, tail, hShape, hBlank, hClose, hArg⟩
          have hTail := ih
            (fun a ha => hRead a (List.mem_cons_of_mem arg ha))
            (Nat.lt_of_succ_lt_succ hFuel)
          rw [writeArgs, List.cons_append, List.cons_append,
            Utf8.encodeChars_cons, encodeChar_ascii (by decide),
            Utf8.encodeChars_append, Utf8.encodeChars_append,
            List.append_assoc, List.append_assoc,
            List.append_assoc, hShape, List.singleton_append,
            readArgs, skipBlank_cons (by decide)]
          simp only [skipBlank_gap hGap level hBlank, hClose,
            hArg, hTail, Except.bind_ok, Except.map_ok,
            ↓reduceIte]
          rfl

/- A node after its opening bracket. -/
def nodeBody
    (gap : Nat → List Char)
    (level : Nat)
    (tag : Tag)
    (args : List Arg) : List Char :=
  gap (level + 1) ++ (quotedChars tag
    ++ (writeArgs gap (level + 1) args ++ (gap level ++ [']'])))

theorem writeArg_node
    (gap : Nat → List Char)
    (level : Nat)
    (tag : Tag)
    (args : List Arg) :
    writeArg gap level (.node tag args) =
      '[' :: nodeBody gap level tag args := by
  simp [writeArg, nodeBody]

theorem readNode_nodeBody
    {read : List UInt8 → Step Arg}
    {gap : Nat → List Char}
    (hGap : IsGap gap)
    (level : Nat)
    (tag : Tag)
    {args : List Arg}
    (hRead :
      ∀ arg ∈ args,
        ReadsArg read (writeArg gap (level + 1) arg) arg)
    (rest : List UInt8) :
    readNode read
        (Utf8.encodeChars (nodeBody gap level tag args)
          ++ rest) =
      .ok (⟨tag, args⟩, rest) := by
  let after :=
    Utf8.encodeChars (writeArgs gap (level + 1) args)
      ++ (Utf8.encodeChars (gap level) ++ byte ']' :: rest)
  have hShape :
      Utf8.encodeChars (nodeBody gap level tag args) ++ rest =
        Utf8.encodeChars (gap (level + 1)) ++ byte '"' ::
          (Utf8.encodeChars
            (tag.toList.flatMap quotedChar ++ ['"'])
              ++ after) := by
    have hClose : Utf8.encodeChars [']'] = [byte ']'] := by decide
    have hOpen : Utf8.encodeChar '"' = [byte '"'] := by decide
    simp only [nodeBody, quotedChars, after,
      Utf8.encodeChars_append, Utf8.encodeChars_cons,
      Utf8.encodeChars_nil, hClose, hOpen, List.cons_append,
      List.append_assoc, List.nil_append]
  have hTag :
      readTag (byte '"')
          (Utf8.encodeChars
            (tag.toList.flatMap quotedChar ++ ['"']) ++ after) =
        .ok (tag, after) := by
    rw [readTag, if_pos rfl, readString_quoted]
  have hFuel : args.length < after.length + 1 := by
    have hLength := length_le_writeArgs gap (level + 1) args
    simp only [after, List.length_append]
    omega
  have hArgs :
      readArgs read (after.length + 1) after =
        .ok (args, rest) :=
    readArgs_writeArgs hGap hRead hFuel rest
  have hQuote : byte '"' ≠ byte ']' := by decide
  have hBlank : isBlank (byte '"') = false := by decide
  rw [hShape]
  simp only [readNode, skipBlank_gap hGap _ hBlank, hQuote,
    hTag, hArgs, Except.bind_ok, Except.map_ok, ↓reduceIte]

/- What is written for an argument reads back as it. -/
theorem readsArg_writeArg
    {gap : Nat → List Char}
    (hGap : IsGap gap)
    (level : Nat)
    {room : Nat}
    {arg : Arg}
    (hArg : arg.Writable room) :
    ReadsArg (readArg room) (writeArg gap level arg) arg := by
  -- Each node takes one from the room, so that is the measure.
  induction room generalizing level arg with
  | zero =>
      cases arg with
      | literal value =>
          rw [writeArg]
          exact readsArg_literal 0 hArg.literal
      | node tag args =>
          have hDepth := hArg.1
          rw [Arg.depth] at hDepth
          omega
  | succ room ih =>
      cases arg with
      | literal value =>
          rw [writeArg]
          exact readsArg_literal (room + 1) hArg.literal
      | node tag args =>
          intro rest hEnd
          have hNode :=
            readNode_nodeBody hGap level tag
              (fun arg hMem =>
                ih (level + 1) (hArg.of_mem hMem)) rest
          have hBlank : isBlank (byte '[') = false := by decide
          refine ⟨byte '[',
            Utf8.encodeChars (nodeBody gap level tag args)
              ++ rest,
            by rw [writeArg_node]; rfl, hBlank, by decide, ?_⟩
          rw [readArg.eq_def]
          simp only [skipBlank_cons hBlank, hNode,
            Except.map_ok, ↓reduceIte]
          rfl

------------------------------------------------------------
-- Documents
------------------------------------------------------------

theorem ensureWritable_eq_ok_iff
    {node : Node} :
    ensureWritable node = .ok () ↔
      node.toArg.Writable Node.maxDepth := by
  unfold ensureWritable Arg.Writable
  rw [← Arg.findNonFinite?_eq_none_iff, ← Node.depth,
    ← Node.deeperThan_eq_false_iff]
  cases hDeep : node.deeperThan Node.maxDepth with
  | true => simp
  | false =>
      cases hFloat : node.toArg.findNonFinite? with
      | none => simp [Node.findNonFinite?, hFloat]
      | some x => simp [Node.findNonFinite?, hFloat]

theorem write_eq_ok_iff
    {gap : Nat → List Char}
    {node : Node}
    {text : String} :
    write gap node = .ok text ↔
      node.toArg.Writable Node.maxDepth ∧
        String.ofList (writeArg gap 0 node.toArg) = text := by
  rw [← ensureWritable_eq_ok_iff, write, Except.map_eq_ok_iff]
  constructor
  · rintro ⟨⟨⟩, hWritable, hText⟩
    exact ⟨hWritable, hText⟩
  · rintro ⟨hWritable, hText⟩
    exact ⟨(), hWritable, hText⟩

theorem exists_write_iff
    {gap : Nat → List Char}
    {node : Node} :
    (∃ text, write gap node = .ok text) ↔
      node.depth ≤ 256 ∧ node.AllFinite := by
  simp only [write_eq_ok_iff]
  exact ⟨fun ⟨_, h, _⟩ => h, fun h => ⟨_, h, rfl⟩⟩

/- A written document is read up to its end. -/
theorem readRoot_writeArg
    {gap : Nat → List Char}
    (hGap : IsGap gap)
    {node : Node}
    (hWritable : node.toArg.Writable Node.maxDepth)
    (rest : List UInt8) :
    readRoot
        (Utf8.encodeChars (writeArg gap 0 node.toArg) ++ rest) =
      .ok (node, rest) := by
  have hShape :
      Utf8.encodeChars (writeArg gap 0 node.toArg) ++ rest =
        byte '[' ::
          (Utf8.encodeChars (nodeBody gap 0 node.tag node.args)
            ++ rest) := by
    rw [Node.toArg, writeArg_node]
    rfl
  have hNode :
      readNode (readArg (Node.maxDepth - 1))
          (Utf8.encodeChars (nodeBody gap 0 node.tag node.args)
            ++ rest) =
        .ok (node, rest) :=
    readNode_nodeBody hGap 0 node.tag
      (fun arg hMem =>
        readsArg_writeArg hGap 1 (hWritable.of_mem hMem)) rest
  have hBlank : isBlank (byte '[') = false := by decide
  rw [hShape]
  simp only [readRoot, skipBlank_cons hBlank, hNode,
    ↓reduceIte]

/- Nothing but white space stands after what was read. -/
theorem finish_eq_ok_iff
    {α : Type}
    {step : Step α}
    {value : α} :
    finish step = .ok value ↔
      ∃ rest, step = .ok (value, rest) ∧ skipBlank rest = [] := by
  rw [finish, Except.bind_eq_ok_iff]
  constructor
  · rintro ⟨⟨found, rest⟩, hStep, hFinish⟩
    cases hRest : skipBlank rest with
    | nil =>
        simp only [hRest, Except.ok.injEq] at hFinish
        cases hFinish
        exact ⟨rest, hStep, hRest⟩
    | cons b after => simp [hRest] at hFinish
  · rintro ⟨rest, hStep, hRest⟩
    exact ⟨(value, rest), hStep, by simp [hRest]⟩

/- A document is a root with nothing but white space after it. -/
theorem load_eq_ok_iff
    {bytes : List UInt8}
    {node : Node} :
    load bytes = .ok node ↔
      ∃ rest,
        readRoot bytes = .ok (node, rest) ∧
          skipBlank rest = [] := by
  rw [load, loadNode, Except.mapError_eq_ok_iff,
    Except.mapError_eq_ok_iff, finish_eq_ok_iff]

/-
  A written document reads back, whatever its gaps and the
  white space after it.
-/
theorem load_write_append
    {gap : Nat → List Char}
    (hGap : IsGap gap)
    {node : Node}
    {text : String}
    (hWrite : write gap node = .ok text)
    {rest : List UInt8}
    (hRest : skipBlank rest = []) :
    load (Utf8.encode text ++ rest) = .ok node := by
  rcases write_eq_ok_iff.mp hWrite with ⟨hWritable, rfl⟩
  rw [Utf8.encode, String.toList_ofList]
  apply load_eq_ok_iff.mpr
  exact ⟨rest, readRoot_writeArg hGap hWritable rest, hRest⟩

theorem load_write
    {gap : Nat → List Char}
    (hGap : IsGap gap)
    {node : Node}
    {text : String}
    (hWrite : write gap node = .ok text) :
    load (Utf8.encode text) = .ok node := by
  have hLoad :=
    load_write_append hGap hWrite (show skipBlank [] = [] from rfl)
  rw [List.append_nil] at hLoad
  exact hLoad

/-
  Both forms of a document can be written for exactly the
  trees that nest at most 256 deep and hold only finite
  floats, and either form reads back as the tree.
-/
theorem written_reads_back
    (tree : Node) :
    ((∃ text, compact tree = .ok text) ↔
      tree.depth ≤ 256 ∧ tree.AllFinite) ∧
    ((∃ text, pretty tree = .ok text) ↔
      tree.depth ≤ 256 ∧ tree.AllFinite) ∧
    ∀ text,
      compact tree = .ok text ∨ pretty tree = .ok text →
        load (Utf8.encode text) = .ok tree := by
  refine ⟨exists_write_iff, exists_write_iff, ?_⟩
  rintro text (hCompact | hPretty)
  · exact load_write isGap_noGap hCompact
  · exact load_write isGap_lineGap hPretty

end Json

end TemplateTree
