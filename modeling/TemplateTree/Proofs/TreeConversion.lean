import TemplateTree.Proofs.BinaryFormat
import TemplateTree.Proofs.CommandSteps
import TemplateTree.Proofs.Directories
import TemplateTree.Proofs.JsonDocuments
import TemplateTree.Proofs.JsonReading

/-
  Converting trees between their two stored forms.

  Main declarations:
    * `Json.writable_of_readArg`
    * `Json.writable_of_load`
    * `load_jsonLines`
    * `Command.loadTree_written`
    * `conversion_is_lossless`

  What one reader returns lies within the limits of the other
  writer.  A document never holds more than 256 nodes below
  each other and no float without a finite value, and a binary
  file is the only one of its tree.
-/

------------------------------------------------------------
-- What Documents Hold
------------------------------------------------------------

namespace TemplateTree

theorem Arg.writable_literal
    {room : Nat}
    {value : Literal}
    (hValue : value.IsFinite) :
    (Arg.literal value).Writable room := by
  constructor
  · exact Nat.zero_le room
  · simpa [literals] using hValue

/- A node can be written if its arguments can, one level down. -/
theorem Arg.writable_node
    {room : Nat}
    {tag : Tag}
    {args : List Arg}
    (hArgs : ∀ arg ∈ args, arg.Writable room) :
    (Arg.node tag args).Writable (room + 1) := by
  constructor
  · have hDepth : depthList args ≤ room := by
      apply depthList_le_iff.mpr
      intro arg hArg
      exact (hArgs arg hArg).1
    rw [depth]
    omega
  · rw [literals]
    intro value hValue
    rcases mem_literalsList_iff.mp hValue with
      ⟨arg, hArg, hOwn⟩
    exact (hArgs arg hArg).2 value hOwn

namespace Json

/- A scalar that is taken for a literal has a finite value. -/
theorem isFinite_of_toLiteral
    {scalar : Scalar}
    {value : Literal}
    (h : scalar.toLiteral = .ok value) :
    value.IsFinite := by
  intro x hFloat
  subst hFloat
  unfold Scalar.toLiteral at h
  split at h
  · cases h
  · cases h
  · split at h <;> cases h
  · split at h
    · next hFinite =>
        cases h
        exact hFinite
    · cases h
  · cases h

/- What holds of each argument that is read holds of all. -/
theorem forall_of_readArgs
    {P : Arg → Prop}
    {read : List UInt8 → Step Arg}
    (hRead :
      ∀ bytes arg rest, read bytes = .ok (arg, rest) → P arg)
    {fuel : Nat}
    {bytes rest : List UInt8}
    {args : List Arg}
    (h : readArgs read fuel bytes = .ok (args, rest)) :
    ∀ arg ∈ args, P arg := by
  induction fuel generalizing bytes args with
  | zero => cases h
  | succ fuel ih =>
      rcases readArgs_cases h with
        ⟨-, rfl⟩ |
          ⟨inner, next, arg, between, others, hFuel, -, hArg,
            hOthers, rfl⟩
      · simp
      · cases hFuel
        rw [List.forall_mem_cons]
        exact ⟨hRead _ _ _ hArg, ih hOthers⟩

theorem forall_of_readNode
    {P : Arg → Prop}
    {read : List UInt8 → Step Arg}
    (hRead :
      ∀ bytes arg rest, read bytes = .ok (arg, rest) → P arg)
    {bytes rest : List UInt8}
    {node : Node}
    (h : readNode read bytes = .ok (node, rest)) :
    ∀ arg ∈ node.args, P arg := by
  rcases readNode_cases h with ⟨quoted, after, fuel, -, -, hArgs⟩
  exact forall_of_readArgs hRead hArgs

/- An argument that was read can be written again. -/
theorem writable_of_readArg
    {room : Nat}
    {bytes rest : List UInt8}
    {arg : Arg}
    (h : readArg room bytes = .ok (arg, rest)) :
    arg.Writable room := by
  induction room generalizing bytes arg rest with
  | zero =>
      rcases readArg_cases h with
        ⟨_, _, scalar, value, -, -, hValue, rfl⟩ |
          ⟨inner, _, _, hRoom, _⟩
      · exact Arg.writable_literal (isFinite_of_toLiteral hValue)
      · cases hRoom
  | succ room ih =>
      rcases readArg_cases h with
        ⟨_, _, scalar, value, -, -, hValue, rfl⟩ |
          ⟨inner, after, node, hRoom, -, hNode, rfl⟩
      · exact Arg.writable_literal (isFinite_of_toLiteral hValue)
      · cases hRoom
        apply Arg.writable_node
        refine forall_of_readNode ?_ hNode
        intro bytes arg rest hArg
        exact ih hArg

/- A tree that was read can be written again. -/
theorem writable_of_load
    {bytes : List UInt8}
    {tree : Node}
    (h : load bytes = .ok tree) :
    tree.toArg.Writable Node.maxDepth := by
  rcases load_eq_ok_iff.mp h with ⟨rest, hRoot, -⟩
  rcases readRoot_cases hRoot with ⟨after, -, hNode⟩
  have hArgs :
      ∀ arg ∈ tree.args, arg.Writable (Node.maxDepth - 1) := by
    refine forall_of_readNode ?_ hNode
    intro bytes arg rest hArg
    exact writable_of_readArg hArg
  exact Arg.writable_node hArgs

theorem exists_write_and_load
    {gap : Nat → List Char}
    (hGap : IsGap gap)
    {tree : Node}
    (hWritable : tree.toArg.Writable Node.maxDepth) :
    ∃ document,
      write gap tree = .ok document ∧
        load (Utf8.encode document) = .ok tree := by
  have hExists : ∃ document, write gap tree = .ok document :=
    exists_write_iff.mpr hWritable
  rcases hExists with ⟨document, hWrite⟩
  exact ⟨document, hWrite, load_write hGap hWrite⟩

end Json

------------------------------------------------------------
-- Documents Of Commands
------------------------------------------------------------

/- The gap of a document on one line, or on several. -/
def jsonGap (compact : Bool) : Nat → List Char :=
  if compact then Json.noGap else Json.lineGap

theorem isGap_jsonGap
    (compact : Bool) :
    Json.IsGap (jsonGap compact) := by
  cases compact with
  | true => exact Json.isGap_noGap
  | false => exact Json.isGap_lineGap

/- What commands write is a document and a newline. -/
theorem jsonLines_eq_ok_iff
    {compact : Bool}
    {tree : Node}
    {text : String} :
    jsonLines compact tree = .ok text ↔
      ∃ document,
        Json.write (jsonGap compact) tree = .ok document ∧
          document ++ "\n" = text := by
  rw [jsonLines, Except.map_eq_ok_iff]
  cases compact with
  | true => rfl
  | false => rfl

theorem exists_jsonLines_iff
    {compact : Bool}
    {tree : Node} :
    (∃ text, jsonLines compact tree = .ok text) ↔
      tree.depth ≤ 256 ∧ tree.AllFinite := by
  have hWritten :
      (∃ document,
          Json.write (jsonGap compact) tree = .ok document) ↔
        tree.depth ≤ 256 ∧ tree.AllFinite :=
    Json.exists_write_iff
  rw [← hWritten]
  simp only [jsonLines_eq_ok_iff]
  constructor
  · intro ⟨text, document, hWrite, hText⟩
    exact ⟨document, hWrite⟩
  · intro ⟨document, hWrite⟩
    exact ⟨_, document, hWrite, rfl⟩

/- The newline at the end does not keep it from being read. -/
theorem load_jsonLines
    {compact : Bool}
    {tree : Node}
    {text : String}
    (h : jsonLines compact tree = .ok text) :
    Json.load (Utf8.encode text) = .ok tree := by
  rcases jsonLines_eq_ok_iff.mp h with ⟨document, hWrite, rfl⟩
  rw [Utf8.encode, String.toList_append,
    Utf8.encodeChars_append]
  apply Json.load_write_append (isGap_jsonGap compact) hWrite
  decide

------------------------------------------------------------
-- Files Of Commands
------------------------------------------------------------

theorem loadTree_binary
    {read : ReadFile}
    {path : String}
    {bytes : List UInt8}
    {tree : Node}
    (hFormat : TreeFormat.ofPath path = .binary)
    (hRead : read path = .ok bytes)
    (hDecode : Binary.decode bytes = .ok tree) :
    loadTree read path = .ok tree := by
  simp [loadTree, treeOf, readBytes, hFormat, hRead, hDecode]

theorem loadTree_json
    {read : ReadFile}
    {path text : String}
    {tree : Node}
    (hFormat : TreeFormat.ofPath path = .json)
    (hRead : read path = .ok (Utf8.encode text))
    (hLoad : Json.load (Utf8.encode text) = .ok tree) :
    loadTree read path = .ok tree := by
  simp [loadTree, treeOf, textOf, readBytes, hFormat, hRead,
    hLoad]

/- The form of a file is told by the last component alone. -/
theorem TreeFormat.ofPath_congr
    {path other : String}
    (hLast :
      (Path.components path).getLast? =
        (Path.components other).getLast?) :
    ofPath path = ofPath other := by
  unfold ofPath Path.extension?
  rw [hLast]

namespace Command

theorem readIn_eq_ok_iff
    {dir : Directory}
    {here : Directory.Place}
    {path : String}
    {bytes : List UInt8} :
    readIn dir here path = .ok bytes ↔
      dir.read here path = .ok bytes := by
  rw [readIn, Except.mapError_eq_ok_iff]

/- A command that writes a file succeeds if it can be written. -/
theorem run_eq_iff_write_eq
    {dir dir' : Directory}
    {here : Directory.Place}
    {command : Command}
    {path : String}
    {bytes : List UInt8}
    (hPerform :
      command.perform (readIn dir here) =
        .ok (.write path bytes)) :
    run dir here command = ⟨.ok (), [], dir'⟩ ↔
      dir.write here path bytes = .ok dir' := by
  rw [run]
  rcases runWith_write_cases .opened hPerform with
    ⟨written, hWrite, hRun⟩ | ⟨fault, hFault, hRun⟩
  · simp [hRun, hWrite]
  · simp [hRun, hFault, Outcome.failed]

/-
  The trees in two files of different forms stay the same when
  the second is made from the first.
-/
theorem loadTree_written
    {dir dir' : Directory}
    {here : Directory.Place}
    {input output text : String}
    {bytes : List UInt8}
    {tree : Node}
    (hInput : TreeFormat.ofPath input = .json)
    (hOutput : TreeFormat.ofPath output = .binary)
    (hRead : dir.read here input = .ok (Utf8.encode text))
    (hLoad : Json.load (Utf8.encode text) = .ok tree)
    (hDecode : Binary.decode bytes = .ok tree)
    (hWrite : dir.write here output bytes = .ok dir') :
    loadTree (readIn dir' here) output = .ok tree ∧
      loadTree (readIn dir' here) input = .ok tree := by
  have hNames :
      (Path.components output).getLast? ≠
        (Path.components input).getLast? := by
    intro hSame
    rw [TreeFormat.ofPath_congr hSame, hInput] at hOutput
    cases hOutput
  constructor
  · apply loadTree_binary hOutput ?_ hDecode
    exact readIn_eq_ok_iff.mpr (Directory.read_written hWrite)
  · apply loadTree_json hInput ?_ hLoad
    exact readIn_eq_ok_iff.mpr
      (Directory.read_kept hWrite hRead hNames)

/- Two files that are compiled and rendered alike. -/
def Alike
    (dir : Directory)
    (here : Directory.Place)
    (path other : String) : Prop :=
  (∀ engine generator target,
    run dir here (.compile path engine generator target) =
      run dir here (.compile other engine generator target)) ∧
    ∀ engine bindings,
      run dir here (.render path engine bindings) =
        run dir here (.render other engine bindings)

/- Of a file with a tree, commands see the tree alone. -/
theorem alike_of_loadTree_eq
    {dir : Directory}
    {here : Directory.Place}
    {path other : String}
    (hTree :
      loadTree (readIn dir here) path =
        loadTree (readIn dir here) other) :
    Alike dir here path other := by
  constructor
  · intro engine generator target
    apply runWith_congr
    rw [perform_compile, perform_compile, hTree]
  · intro engine bindings
    apply runWith_congr
    rw [perform_render, perform_render, hTree]

/- Encoding writes the bytes of the tree in a document. -/
theorem perform_encode_document
    {dir : Directory}
    {here : Directory.Place}
    {input text : String}
    {bytes : List UInt8}
    {tree : Node}
    (hInput : TreeFormat.ofPath input = .json)
    (hRead : dir.read here input = .ok (Utf8.encode text))
    (hLoad : Json.load (Utf8.encode text) = .ok tree)
    (hEncode : Binary.encode tree = .ok bytes)
    (output : String) :
    (Command.encode input output).perform (readIn dir here) =
      .ok (.write output bytes) := by
  have hTree : loadTree (readIn dir here) input = .ok tree :=
    loadTree_json hInput (readIn_eq_ok_iff.mpr hRead) hLoad
  simp [perform_encode, hTree, hEncode]

end Command

------------------------------------------------------------
-- Conversion
------------------------------------------------------------

/-
  A tree from a binary file can be written as a document,
  compact or not, exactly if its floats are finite, and the
  document leads back to the bytes of the file.

  A tree from a document can be written again in both forms if
  its texts and nodes fit the binary one, and each form is read
  as the tree.  So a binary file that is made from a document
  is compiled and rendered as the document is.
-/
theorem conversion_is_lossless :
    (∀ bytes tree compact,
      Binary.decode bytes = .ok tree →
        ((∃ text, jsonLines compact tree = .ok text) ↔
            tree.AllFinite) ∧
          ∀ text,
            jsonLines compact tree = .ok text →
              ∃ loaded,
                Json.load (Utf8.encode text) = .ok loaded ∧
                  Binary.encode loaded = .ok bytes) ∧
    ∀ text tree,
      Json.load (Utf8.encode text) = .ok tree →
      Binary.Fits tree.toArg →
        (∃ document,
          Json.compact tree = .ok document ∧
            Json.load (Utf8.encode document) = .ok tree) ∧
        (∃ document,
          Json.pretty tree = .ok document ∧
            Json.load (Utf8.encode document) = .ok tree) ∧
        ∃ bytes,
          Binary.encode tree = .ok bytes ∧
          Binary.decode bytes = .ok tree ∧
          ∀ dir here input output,
            TreeFormat.ofPath input = .json →
            TreeFormat.ofPath output = .binary →
            Directory.read dir here input =
                .ok (Utf8.encode text) →
              (Command.encode input output).perform
                  (Command.readIn dir here) =
                .ok (.write output bytes) ∧
              ∀ dir',
                Command.run dir here (.encode input output) =
                    ⟨.ok (), [], dir'⟩ →
                  Command.Alike dir' here output input := by
  constructor
  · intro bytes tree compact hDecode
    have hEncode := (Binary.decode_eq_ok_iff.mp hDecode).1
    have hDepth := (Binary.encode_eq_ok_iff.mp hEncode).1
    constructor
    · rw [exists_jsonLines_iff]
      exact and_iff_right hDepth
    · intro text hText
      exact ⟨tree, load_jsonLines hText, hEncode⟩
  · intro text tree hLoad hFits
    have hWritable := Json.writable_of_load hLoad
    have hEncode := Binary.encode_eq_ok_iff.mpr ⟨hWritable.1, rfl⟩
    have hDecode := Binary.decode_eq_ok_iff.mpr ⟨hEncode, hFits⟩
    refine ⟨?_, ?_, _, hEncode, hDecode, ?_⟩
    · exact Json.exists_write_and_load Json.isGap_noGap hWritable
    · exact Json.exists_write_and_load Json.isGap_lineGap hWritable
    · intro dir here input output hInput hOutput hRead
      have hPerform :=
        Command.perform_encode_document hInput hRead hLoad hEncode
          output
      refine ⟨hPerform, ?_⟩
      intro dir' hRun
      have hTrees :=
        Command.loadTree_written hInput hOutput hRead hLoad
          hDecode
          ((Command.run_eq_iff_write_eq hPerform).mp hRun)
      apply Command.alike_of_loadTree_eq
      rw [hTrees.1, hTrees.2]

namespace StoredPage

def page : Node :=
  Node.sequence [Node.static "caf\u00e9\n", Node.dynamic "n"]

/- The page as a document with some white space in it. -/
def document : String :=
  "[\"sequence\", [\"static\", \"caf\u00e9\\n\"],\n"
    ++ "  [\"dynamic\", \"n\"] ]"

/- The page as a binary file. -/
def bytes : List UInt8 :=
  Binary.magic ++ [Binary.version] ++ Binary.encodeArg page.toArg

def before : Directory :=
  Directory.ofList [("pages/home.json", Utf8.encode document)]

def after : Directory :=
  before.stored ["pages", "home.wfir"] bytes

theorem page_conversion_is_lossless :
    Binary.decode bytes = .ok page ∧
      (∃ text, jsonLines true page = .ok text) ∧
        Json.load (Utf8.encode document) = .ok page ∧
          Command.run before (.below [])
              (.encode "pages/home.json" "pages/home.wfir") =
              ⟨.ok (), [], after⟩ ∧
            Command.Alike after (.below [])
              "pages/home.wfir" "pages/home.json" := by
  have hLoad : Json.load (Utf8.encode document) = .ok page := by
    decide +kernel
  have hFits : Binary.Fits page.toArg := by
    simp only [page, Node.sequence, Node.static, Node.dynamic,
      Node.ofText, Node.toArg, Arg.text, List.map, Binary.Fits,
      Binary.FitsAll, Binary.FitsLiteral]
    decide
  have hEncode : Binary.encode page = .ok bytes :=
    Binary.encode_eq_ok_iff.mpr ⟨by decide, rfl⟩
  have hDecode : Binary.decode bytes = .ok page :=
    Binary.decode_eq_ok_iff.mpr ⟨hEncode, hFits⟩
  have hRead :
      before.read (.below []) "pages/home.json" =
        .ok (Utf8.encode document) := by
    apply Directory.read_eq_ok_iff.mpr
    refine ⟨.below ["pages", "home.json"], ?_, ?_, ?_, rfl⟩
    all_goals decide
  have hWrite :
      before.write (.below []) "pages/home.wfir" bytes =
        .ok after := by
    apply Directory.write_eq_ok_iff.mpr
    refine ⟨["pages", "home.wfir"], ?_, ?_, ?_, rfl⟩
    all_goals decide
  have hRun :
      Command.run before (.below [])
          (.encode "pages/home.json" "pages/home.wfir") =
        ⟨.ok (), [], after⟩ := by
    apply (Command.run_eq_iff_write_eq ?_).mpr hWrite
    exact
      Command.perform_encode_document (by decide) hRead hLoad
        hEncode _
  rcases conversion_is_lossless with ⟨hBinary, hJson⟩
  rcases hJson document page hLoad hFits with
    ⟨-, -, _, -, -, hFiles⟩
  refine ⟨hDecode, ?_, hLoad, hRun, ?_⟩
  · apply (hBinary bytes page true hDecode).1.mpr
    exact (Json.writable_of_load hLoad).2
  · apply (hFiles before _ _ _ ?_ ?_ hRead).2
    · exact hRun
    · decide
    · decide

end StoredPage

end TemplateTree
