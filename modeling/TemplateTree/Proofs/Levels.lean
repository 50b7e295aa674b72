import TemplateTree.Program.Emitter

/-
  Levels of indentation.

  Main declarations:
    * `Layout.place`
    * `Layout.emit`
    * `Layout.endLevel`
    * `Emitter.foldl_push`
    * `Layout.place_append`
    * `Layout.IsOpening`
    * `Layout.Lays`
    * `Layout.Lays.block`

  Entries are placed from a level on and leave a level behind
  them, as an emitter does that takes them one by one.  Those
  between a fragment that opens a block and one that closes it
  stand one level to the right, and the level that is left is
  the level at the start.
-/

------------------------------------------------------------
-- Levels
------------------------------------------------------------

namespace TemplateTree

/- A line to be printed as it stands, or a fragment of code. -/
inductive Entry where
| line (text : String)
| code (text : String)
deriving DecidableEq, Repr

namespace Layout

/- The lines of entries with their levels of indentation. -/
def place : (level : Nat) → List Entry → List (Nat × String)
| _, [] => []
| level, .line text :: rest => (level, text) :: place level rest
| level, .code text :: rest =>
    let code := Text.trim text
    let here := levelAt level code
    (here, code) :: place (levelAfter here code) rest

/- The text of entries. -/
def emit (entries : List Entry) : String :=
  String.join ((place 0 entries).map printLine)

/- The level after entries. -/
def endLevel : (level : Nat) → List Entry → Nat
| level, [] => level
| level, .line _ :: rest => endLevel level rest
| level, .code text :: rest =>
    let code := Text.trim text
    endLevel (levelAfter (levelAt level code) code) rest

/- Entries are placed on from where those before them end. -/
theorem place_append
    (level : Nat)
    (first rest : List Entry) :
    place level (first ++ rest) =
      place level first ++
        place (endLevel level first) rest := by
  induction first generalizing level with
  | nil => rfl
  | cons entry first ih =>
      cases entry with
      | line text => simp [place, endLevel, ih]
      | code text => simp [place, endLevel, ih]

theorem endLevel_append
    (level : Nat)
    (first rest : List Entry) :
    endLevel level (first ++ rest) =
      endLevel (endLevel level first) rest := by
  induction first generalizing level with
  | nil => rfl
  | cons entry first ih =>
      cases entry with
      | line text => simp [endLevel, ih]
      | code text => simp [endLevel, ih]

end Layout

------------------------------------------------------------
-- Emitters
------------------------------------------------------------

namespace Emitter

/- Put out an entry. -/
def push
    (out : Emitter) :
    Entry → Emitter
| .line text => out.pushLine text
| .code text => out.pushCode text

/- One entry is put out where the level of the emitter places it. -/
theorem push_eq
    (out : Emitter)
    (entry : Entry) :
    out.push entry =
      ⟨out.code ++
          String.join
            ((Layout.place out.indent [entry]).map Layout.printLine),
        Layout.endLevel out.indent [entry]⟩ := by
  cases entry with
  | line text =>
      simp [push, pushLine, Layout.place, Layout.endLevel]
  | code text =>
      simp [push, pushCode, stepLeft, pushLine, stepRight,
        Layout.place, Layout.endLevel]

/- So are entries that are put out one after another. -/
theorem foldl_push
    (entries : List Entry)
    (out : Emitter) :
    entries.foldl push out =
      ⟨out.code ++
          String.join
            ((Layout.place out.indent entries).map Layout.printLine),
        Layout.endLevel out.indent entries⟩ := by
  induction entries generalizing out with
  | nil => simp [Layout.place, Layout.endLevel]
  | cons entry rest ih =>
      -- The rest starts on the level that the entry leaves.
      have hPlace := Layout.place_append out.indent [entry] rest
      have hLevel := Layout.endLevel_append out.indent [entry] rest
      rw [List.singleton_append] at hPlace hLevel
      rw [List.foldl_cons, ih, push_eq, hPlace, hLevel]
      simp [String.append_assoc]

/- What an emitter holds that took all entries is their text. -/
theorem code_foldl_push
    (entries : List Entry) :
    (entries.foldl push empty).code = Layout.emit entries := by
  rw [foldl_push]
  simp [empty, Layout.emit]

end Emitter

------------------------------------------------------------
-- Blocks
------------------------------------------------------------

namespace Layout

/- Code that opens a block and closes none. -/
structure IsOpening (code : String) : Prop where
  trimmed : Text.trim code = code
  opens : opens code = true
  closes : closes code = false

/-
  Entries that give certain lines, which depend on the level
  they start on, and that end on that level.
-/
def Lays
    (entries : List Entry)
    (lines : Nat → List (Nat × String)) : Prop :=
  ∀ level,
    place level entries = lines level ∧
      endLevel level entries = level

theorem lays_nil :
    Lays [] fun _ => [] := by
  intro level
  exact ⟨rfl, rfl⟩

theorem lays_line
    (text : String) :
    Lays [.line text] fun level => [(level, text)] := by
  intro level
  exact ⟨rfl, rfl⟩

theorem Lays.append
    {first rest : List Entry}
    {firstLines restLines : Nat → List (Nat × String)}
    (hFirst : Lays first firstLines)
    (hRest : Lays rest restLines) :
    Lays (first ++ rest)
      fun level => firstLines level ++ restLines level := by
  intro level
  rcases hFirst level with ⟨hPlace, hEnd⟩
  rw [place_append, endLevel_append, hPlace, hEnd]
  exact ⟨congrArg _ (hRest level).1, (hRest level).2⟩

/- An opening fragment moves what follows to the right. -/
theorem place_opening
    {code : String}
    (hCode : IsOpening code)
    (level : Nat)
    (rest : List Entry) :
    place level (.code code :: rest) =
      (level, code) :: place (level + 1) rest := by
  simp [place, levelAt, levelAfter, hCode.trimmed,
    hCode.opens, hCode.closes]

theorem endLevel_opening
    {code : String}
    (hCode : IsOpening code)
    (level : Nat)
    (rest : List Entry) :
    endLevel level (.code code :: rest) =
      endLevel (level + 1) rest := by
  simp [endLevel, levelAt, levelAfter, hCode.trimmed,
    hCode.opens, hCode.closes]

/- A closing brace stands where its block was opened. -/
theorem place_closing
    (level : Nat)
    (rest : List Entry) :
    place (level + 1) (.code "\x7d" :: rest) =
      (level, "\x7d") :: place level rest := by
  rfl

theorem endLevel_closing
    (level : Nat)
    (rest : List Entry) :
    endLevel (level + 1) (.code "\x7d" :: rest) =
      endLevel level rest := by
  rfl

/- Between two branches one block ends and another starts. -/
theorem place_otherwise
    (level : Nat)
    (rest : List Entry) :
    place (level + 1) (.code "\x7d else \x7b" :: rest) =
      (level, "\x7d else \x7b") :: place (level + 1) rest := by
  rfl

theorem endLevel_otherwise
    (level : Nat)
    (rest : List Entry) :
    endLevel (level + 1) (.code "\x7d else \x7b" :: rest) =
      endLevel (level + 1) rest := by
  rfl

/- A body between braces is indented by one level. -/
theorem Lays.block
    {code : String}
    {body : List Entry}
    {lines : Nat → List (Nat × String)}
    (hCode : IsOpening code)
    (hBody : Lays body lines) :
    Lays (.code code :: body ++ [.code "\x7d"])
      fun level =>
        (level, code) :: lines (level + 1) ++
          [(level, "\x7d")] := by
  intro level
  rcases hBody (level + 1) with ⟨hPlace, hEnd⟩
  constructor
  · rw [List.cons_append, place_opening hCode, place_append,
      hPlace, hEnd, place_closing]
    rfl
  · rw [List.cons_append, endLevel_opening hCode,
      endLevel_append, hEnd, endLevel_closing]
    rfl

/- So are two bodies with the fragment between branches. -/
theorem Lays.branches
    {code : String}
    {body other : List Entry}
    {lines otherLines : Nat → List (Nat × String)}
    (hCode : IsOpening code)
    (hBody : Lays body lines)
    (hOther : Lays other otherLines) :
    Lays
      (.code code :: body ++ .code "\x7d else \x7b" :: other ++
        [.code "\x7d"])
      fun level =>
        (level, code) :: lines (level + 1) ++
          (level, "\x7d else \x7b") :: otherLines (level + 1) ++
            [(level, "\x7d")] := by
  intro level
  rcases hBody (level + 1) with ⟨hPlace, hEnd⟩
  rcases hOther (level + 1) with ⟨hOtherPlace, hOtherEnd⟩
  constructor
  · rw [List.append_assoc, List.cons_append,
      place_opening hCode, place_append, hPlace, hEnd,
      List.cons_append, place_otherwise, place_append,
      hOtherPlace, hOtherEnd, place_closing]
    simp [place]
  · rw [List.append_assoc, List.cons_append,
      endLevel_opening hCode, endLevel_append, hEnd,
      List.cons_append, endLevel_otherwise, endLevel_append,
      hOtherEnd, endLevel_closing]
    rfl

end Layout

------------------------------------------------------------
-- Fragments That Open A Block
------------------------------------------------------------

namespace Text

theorem trimEnd_append_singleton
    {c : Char}
    (hc : isBlank c = false)
    (cs : List Char) :
    trimEnd (cs ++ [c]) = cs ++ [c] := by
  induction cs with
  | nil => simp [trimEnd, hc]
  | cons d cs ih =>
      rw [List.cons_append, trimEnd, ih]
      cases cs with
      | nil => rfl
      | cons e cs => rfl

/- Nothing is trimmed between two characters that stay. -/
theorem trimChars_eq_self
    {c d : Char}
    (hc : isBlank c = false)
    (hd : isBlank d = false)
    (cs : List Char) :
    trimChars (c :: cs ++ [d]) = c :: cs ++ [d] := by
  unfold trimChars
  rw [List.cons_append, List.dropWhile_cons_of_neg (by simp [hc]),
    ← List.cons_append, trimEnd_append_singleton hd]

/- A trimmed text starts with no white space. -/
theorem isBlank_of_head?_trim
    {s : String}
    {c : Char}
    (hHead : (trim s).toList.head? = some c) :
    isBlank c = false := by
  rw [trim, String.toList_ofList] at hHead
  have hKept :=
    List.head?_dropWhile_not isBlank (trimChars s.toList)
  rw [dropWhile_trimChars, hHead] at hKept
  exact hKept

end Text

namespace Layout

/- Code with a brace after it opens a block. -/
theorem isOpening_of_head?
    {code : String}
    {c : Char}
    (hHead : code.toList.head? = some c)
    (hBlank : Text.isBlank c = false)
    (hBrace : c ≠ '\x7d') :
    IsOpening (code ++ " \x7b") := by
  rcases List.head?_eq_some_iff.mp hHead with ⟨cs, hCode⟩
  have hChars :
      (code ++ " \x7b").toList = c :: (cs ++ [' ']) ++ ['\x7b'] := by
    rw [String.toList_append, hCode]
    simp
  refine ⟨?_, ?_, ?_⟩
  · rw [Text.trim, hChars,
      Text.trimChars_eq_self hBlank (by decide), ← hChars,
      String.ofList_toList]
  · rw [opens, hChars, List.getLast?_concat]
    rfl
  · rw [closes, hChars]
    simp [hBrace]

theorem isOpening_if
    (test : String) :
    IsOpening ("if " ++ test ++ " \x7b") :=
  isOpening_of_head? (c := 'i')
    (by rw [String.toList_append]; rfl) (by decide) (by decide)

/- A header that closes no block opens one. -/
theorem isOpening_header
    {header : String}
    (hBlank : Text.trim header ≠ "")
    (hCloses : closes (Text.trim header) = false) :
    IsOpening (Text.trim header ++ " \x7b") := by
  cases hHead : (Text.trim header).toList.head? with
  | none =>
      rw [List.head?_eq_none_iff] at hHead
      exact absurd (String.toList_eq_nil_iff.mp hHead) hBlank
  | some c =>
      refine isOpening_of_head? hHead
        (Text.isBlank_of_head?_trim hHead) ?_
      rintro rfl
      simp [closes, hHead] at hCloses

end Layout

end TemplateTree
