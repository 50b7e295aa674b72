import TemplateTree.Proofs.TomlValues

/-
  Reading the lines that a TOML document is written with, and
  building its tables from them.

  Main declarations:
    * `Toml.Spells`
    * `Toml.spells_entry`
    * `Toml.spells_tableHeader`
    * `Toml.spells_elementHeader`
    * `Toml.Spells.read_eq`
    * `Toml.buildFrom_within`
    * `Toml.buildFrom_table`
    * `Toml.buildFrom_elements`

  Statements are read line by line, so that a text which
  spells some statements does so before any other text.  A
  section is built like a document of its own, inside the
  table that its header opens.
-/

------------------------------------------------------------
-- Texts Of Statements
------------------------------------------------------------

namespace TemplateTree

namespace Toml

/- What is left of a document is read with this result. -/
def Reads
    (cs : List Char)
    (result : Option (List Statement)) : Prop :=
  ∀ fuel, cs.length < fuel → readStatements fuel cs = result

theorem reads_nil : Reads [] (some []) := by
  intro fuel hFuel
  obtain ⟨fuel, rfl⟩ :=
    Nat.exists_eq_add_one.mpr (Nat.zero_lt_of_lt hFuel)
  rfl

/- How deep a value may nest that stands after a key. -/
def valueRoom : Nat :=
  nestingLimit - 1

/-
  A text spells statements of some depth if they are read from
  it before all that follows, and nothing is read at all when
  they are too deep.
-/
structure Spells
    (text : List Char)
    (depth : Nat)
    (statements : List Statement) : Prop where
  reads :
    ∀ {rest : List Char} {result : Option (List Statement)},
      Reads rest result →
        Reads (text ++ rest)
          ((upTo valueRoom depth statements).bind fun first =>
            result.map (first ++ ·))
  no_return : '\r' ∉ text

theorem spells_nil : Spells [] 0 [] where
  reads hRest := by
    rw [upTo_zero, Option.bind_some]
    simpa using hRest
  no_return := List.not_mem_nil

theorem Spells.append
    {text text' : List Char}
    {depth depth' : Nat}
    {statements statements' : List Statement}
    (h : Spells text depth statements)
    (h' : Spells text' depth' statements') :
    Spells (text ++ text') (max depth depth')
      (statements ++ statements') where
  reads {rest result} hRest := by
    rw [List.append_assoc]
    have hReads := h.reads (h'.reads hRest)
    have hJoined :
        ((upTo valueRoom depth statements).bind fun first =>
          ((upTo valueRoom depth' statements').bind fun second =>
            result.map (second ++ ·)).map (first ++ ·)) =
        (upTo valueRoom (max depth depth')
            (statements ++ statements')).bind fun both =>
          result.map (both ++ ·) := by
      unfold upTo
      by_cases hDepth : depth ≤ valueRoom
      · by_cases hDepth' : depth' ≤ valueRoom
        · rw [if_pos hDepth, if_pos hDepth',
            if_pos (Nat.max_le.mpr ⟨hDepth, hDepth'⟩)]
          simp [Function.comp_def]
        · rw [if_pos hDepth, if_neg hDepth', if_neg (by omega)]
          rfl
      · have hBoth : ¬ max depth depth' ≤ valueRoom := by omega
        rw [if_neg hDepth, if_neg hBoth]
        rfl
    rwa [hJoined] at hReads
  no_return := by
    simp [h.no_return, h'.no_return]

------------------------------------------------------------
-- Entries
------------------------------------------------------------

theorem readKey_writeKey
    (name : String)
    {rest : List Char}
    (hRest : EndsPath rest) :
    readKey (writeKey name ++ rest) =
      some (⟨[], name⟩, skipBlank rest) :=
  readNames_last name hRest _

theorem endsPath_equals
    (rest : List Char) :
    EndsPath (" = ".toList ++ rest) := by
  constructor
  · rintro c ⟨⟩
    decide
  · exact fun h => absurd (Option.some.inj h) (by decide)

theorem readField?_entry
    (name : String)
    {value : OptionValue}
    (hNumber : value.hasNaN = false)
    (rest : List Char) :
    readField? (readValue valueRoom)
        (writeKey name ++ (" = ".toList
          ++ (writeValue value.toToml ++ '\n' :: rest))) =
      upTo valueRoom value.nesting
        ((⟨[], name⟩, value.toToml), '\n' :: rest) := by
  have hNewline := endsValue_cons (.inr (.inr rfl)) rest
  have hRead := readsUpTo_of_hasNaN valueRoom hNumber _ hNewline
  have hBlank :
      skipBlank
          (' ' :: (writeValue value.toToml ++ '\n' :: rest)) =
        writeValue value.toToml ++ '\n' :: rest := by
    obtain ⟨c, tail, hShape, -, hc, -⟩ :=
      startsItem_writeValue hNumber hNewline
    rw [hShape, skipBlank, List.dropWhile_cons_of_pos (by decide),
      List.dropWhile_cons_of_neg (by simp [hc])]
  rw [readField?, readKey_writeKey name (endsPath_equals _),
    Option.bind_some]
  change (readValue valueRoom
    (skipBlank (' ' :: (writeValue value.toToml ++ '\n' :: rest)))
      ).map _ = _
  rw [hBlank, hRead, upTo_map]

theorem readStatement_entry
    (name : String)
    {value : OptionValue}
    (hNumber : value.hasNaN = false)
    (rest : List Char) :
    readStatement
        (writeKey name ++ (" = ".toList
          ++ (writeValue value.toToml ++ '\n' :: rest))) =
      upTo valueRoom value.nesting
        (.assign ⟨[], name⟩ value.toToml, '\n' :: rest) := by
  have hField := readField?_entry name hNumber rest
  obtain ⟨c, cs, hName, hc⟩ := writeKey_eq_cons_of_mark name
  rw [hName, List.cons_append] at hField ⊢
  unfold readStatement
  split
  · next hBracket => simp_all
  · rw [show nestingLimit - 1 = valueRoom from rfl, hField, upTo_map]

/- A statement, before the lines that follow. -/
theorem reads_statement
    {text rest : List Char}
    {depth : Nat}
    {statement : Statement}
    {result : Option (List Statement)}
    (hStart :
      ∃ c cs, text = c :: cs ∧ c ∉ ['#', '\n', ' ', '\t'])
    (hRead :
      readStatement text =
        upTo valueRoom depth (statement, '\n' :: rest))
    (hLength : rest.length < text.length)
    (hRest : Reads rest result) :
    Reads text
      ((upTo valueRoom depth [statement]).bind fun first =>
        result.map (first ++ ·)) := by
  intro fuel hFuel
  obtain ⟨fuel, rfl⟩ :=
    Nat.exists_eq_add_one.mpr (Nat.zero_lt_of_lt hFuel)
  obtain ⟨c, cs, rfl, hc⟩ := hStart
  simp only [List.mem_cons, List.not_mem_nil, or_false,
    not_or] at hc
  have hBlank : skipBlank (c :: cs) = c :: cs := by
    rw [skipBlank,
      List.dropWhile_cons_of_neg (by simp [isBlank, hc])]
  have hLater : readStatements fuel rest = result :=
    hRest fuel (by omega)
  rw [readStatements, hBlank]
  dsimp only
  rw [if_neg (by simp [hc]), hRead]
  unfold upTo
  split
  · change ((some rest).bind (readStatements fuel)).map _ = _
    rw [Option.bind_some, hLater]
    rfl
  · rfl

theorem spells_entry
    (name : String)
    {value : OptionValue}
    (hNumber : value.hasNaN = false) :
    Spells (writeEntry (name, value.toToml)) value.nesting
      [.assign ⟨[], name⟩ value.toToml] where
  reads {rest result} hRest := by
    have hText :
        writeEntry (name, value.toToml) ++ rest =
          writeKey name ++ (" = ".toList
            ++ (writeValue value.toToml ++ '\n' :: rest)) := by
      simp [writeEntry]
    obtain ⟨c, cs, hName, hc⟩ := writeKey_eq_cons_of_mark name
    have hMark : c ∉ ['#', '\n', ' ', '\t'] := by
      simp_all
    rw [hText]
    refine reads_statement ?_
      (readStatement_entry name hNumber rest) ?_ hRest
    · exact ⟨c, cs ++ _, by rw [hName]; rfl, hMark⟩
    · simp only [List.length_append, List.length_cons]
      omega
  no_return := by
    simp [writeEntry, noReturn_writeKey, noReturn_writeValue]

------------------------------------------------------------
-- Headers
------------------------------------------------------------

/- An empty line stands before each header. -/
theorem reads_emptyLine
    {rest : List Char}
    {result : Option (List Statement)}
    (hRest : Reads rest result) :
    Reads ('\n' :: rest) result := by
  intro fuel hFuel
  obtain ⟨fuel, rfl⟩ :=
    Nat.exists_eq_add_one.mpr (Nat.zero_lt_of_lt hFuel)
  exact hRest fuel (Nat.lt_of_succ_lt_succ hFuel)

theorem endsPath_bracket
    (rest : List Char) :
    EndsPath (']' :: rest) := by
  constructor
  · rintro c ⟨⟩
    decide
  · exact fun h => absurd (Option.some.inj h) (by decide)

theorem readKey_writePath
    {parents : List String}
    (hPath : parents.length < valueRoom)
    (name : String)
    (rest : List Char) :
    readKey (writePath (parents ++ [name]) ++ ']' :: rest) =
      some (⟨parents, name⟩, ']' :: rest) :=
  readNames_writePath parents name (endsPath_bracket rest) hPath

theorem writePath_eq_cons
    (parents : List String)
    (name : String) :
    ∃ c cs, writePath (parents ++ [name]) = c :: cs ∧ c ≠ '[' := by
  cases parents with
  | nil =>
      obtain ⟨c, cs, hName, hc⟩ := writeKey_eq_cons_of_mark name
      rw [List.nil_append, writePath_singleton]
      exact ⟨c, cs, hName, by rintro rfl; simp at hc⟩
  | cons parent parents =>
      obtain ⟨c, cs, hName, hc⟩ := writeKey_eq_cons_of_mark parent
      rw [List.cons_append, writePath_cons parent (by simp), hName]
      exact ⟨c, _, rfl, by rintro rfl; simp at hc⟩

theorem readHeader_table
    {parents : List String}
    (hPath : parents.length < valueRoom)
    (name : String)
    (rest : List Char) :
    readHeader (writePath (parents ++ [name]) ++ ']' :: rest) =
      some (.table ⟨parents, name⟩, rest) := by
  have hKey := readKey_writePath hPath name rest
  obtain ⟨c, cs, hShape, hc⟩ := writePath_eq_cons parents name
  rw [hShape, List.cons_append] at hKey ⊢
  unfold readHeader
  split
  · simp_all
  · rw [hKey]
    rfl

theorem spells_tableHeader
    {parents : List String}
    (hPath : parents.length < valueRoom)
    (name : String) :
    Spells (tableHeader (parents ++ [name])) 0
      [.table ⟨parents, name⟩] where
  reads {rest result} hRest := by
    have hText :
        tableHeader (parents ++ [name]) ++ rest =
          '\n' :: '[' :: (writePath (parents ++ [name])
            ++ ']' :: '\n' :: rest) := by
      simp [tableHeader]
    rw [hText]
    refine reads_emptyLine (reads_statement ?_ ?_ ?_ hRest)
    · exact ⟨'[', _, rfl, by decide⟩
    · rw [readStatement, readHeader_table hPath, upTo_zero]
    · simp only [List.length_append, List.length_cons]
      omega
  no_return := by
    simp [tableHeader, noReturn_writePath]

theorem spells_elementHeader
    {parents : List String}
    (hPath : parents.length < valueRoom)
    (name : String) :
    Spells (elementHeader (parents ++ [name])) 0
      [.element ⟨parents, name⟩] where
  reads {rest result} hRest := by
    have hText :
        elementHeader (parents ++ [name]) ++ rest =
          '\n' :: '[' :: '[' :: (writePath (parents ++ [name])
            ++ ']' :: ']' :: '\n' :: rest) := by
      simp [elementHeader]
    rw [hText]
    refine reads_emptyLine (reads_statement ?_ ?_ ?_ hRest)
    · exact ⟨'[', _, rfl, by decide⟩
    · rw [readStatement, readHeader, readKey_writePath hPath,
        upTo_zero]
      rfl
    · simp only [List.length_append, List.length_cons]
      omega
  no_return := by
    simp [elementHeader, noReturn_writePath]

------------------------------------------------------------
-- Documents
------------------------------------------------------------

theorem unifyLineEnds_of_noReturn
    {cs : List Char}
    (hReturn : '\r' ∉ cs) :
    unifyLineEnds cs = cs := by
  induction cs with
  | nil => rfl
  | cons c cs ih =>
      simp only [List.mem_cons, not_or] at hReturn
      rw [unifyLineEnds, if_neg fun h => hReturn.1 h.1.symm,
        ih hReturn.2]

theorem dropByteOrderMark_of_head?
    {cs : List Char}
    (hMark : cs.head? ≠ some '\ufeff') :
    dropByteOrderMark cs = cs := by
  unfold dropByteOrderMark
  split
  · simp at hMark
  · rfl

/- A document holds what its statements build. -/
theorem Spells.read_eq
    {text : List Char}
    {depth : Nat}
    {statements : List Statement}
    (h : Spells text depth statements)
    (hMark : text.head? ≠ some '\ufeff') :
    read (String.ofList text) =
      (upTo valueRoom depth statements).bind build := by
  have hReads := h.reads reads_nil
  rw [List.append_nil] at hReads
  unfold read
  dsimp only
  rw [String.toList_ofList, dropByteOrderMark_of_head? hMark,
    unifyLineEnds_of_noReturn h.no_return,
    hReads _ (Nat.lt_succ_self _)]
  simp

------------------------------------------------------------
-- Changing Entries
------------------------------------------------------------

/- A name that no entry has. -/
def Entries.Fresh
    (name : String)
    (entries : Entries) : Prop :=
  ∀ entry ∈ entries, entry.1 ≠ name

theorem Entries.get?_of_fresh
    {name : String}
    {entries : Entries}
    (h : Fresh name entries) :
    entries.get? name = none := by
  rw [get?, Option.map_eq_none_iff, List.find?_eq_none]
  intro entry hEntry
  simpa using h entry hEntry

/- A new entry is added at the end. -/
theorem Entries.update_of_fresh
    {name : String}
    {entries : Entries}
    (h : Fresh name entries)
    (change : Option Item → Option Item) :
    update name change entries =
      (change none).map fun item => entries ++ [(name, item)] := by
  induction entries with
  | nil => rfl
  | cons entry entries ih =>
      obtain ⟨other, item⟩ := entry
      obtain ⟨hOther, hRest⟩ := List.forall_mem_cons.mp h
      rw [update, if_neg hOther, ih hRest, Option.map_map]
      rfl

/- The last entry is changed in its place. -/
theorem Entries.update_last
    {name : String}
    {entries : Entries}
    (h : Fresh name entries)
    (change : Option Item → Option Item)
    (item : Item) :
    update name change (entries ++ [(name, item)]) =
      (change (some item)).map fun item =>
        entries ++ [(name, item)] := by
  induction entries with
  | nil => rw [List.nil_append, update, if_pos rfl]; rfl
  | cons entry entries ih =>
      obtain ⟨other, first⟩ := entry
      obtain ⟨hOther, hRest⟩ := List.forall_mem_cons.mp h
      rw [List.cons_append, update, if_neg hOther, ih hRest,
        Option.map_map]
      rfl

theorem updateLast_concat
    {α : Type}
    (change : α → Option α)
    (xs : List α)
    (x : α) :
    updateLast change (xs ++ [x]) =
      (change x).map fun x => xs ++ [x] := by
  induction xs with
  | nil => rfl
  | cons y ys ih =>
      cases ys with
      | nil => 
          rw [List.singleton_append, updateLast, updateLast,
            Option.map_map]
          rfl
      | cons z zs =>
          rw [List.cons_append, List.cons_append, updateLast,
            ← List.cons_append, ih, Option.map_map]
          rfl

------------------------------------------------------------
-- Sections
------------------------------------------------------------

/-
  A place for the entries of a table that a name leads to.
-/
def Opens
    (name : String)
    (place : Entries → Entries) : Prop :=
  ∀ change inner,
    descend [name] change (place inner) = (change inner).map place

/- The table of the last header. -/
theorem opens_table
    {name : String}
    {entries : Entries}
    (h : Entries.Fresh name entries) :
    Opens name fun inner =>
      entries ++ [(name, .table .header inner)] := by
  intro change inner
  rw [descend, Entries.update_last h, inside, if_pos rfl,
    Option.map_map]
  rfl

/- The last element of an array of tables. -/
theorem opens_element
    {name : String}
    {entries : Entries}
    (h : Entries.Fresh name entries)
    (done : List Entries) :
    Opens name fun inner =>
      entries ++ [(name, .tables (done ++ [inner]))] := by
  intro change inner
  rw [descend, Entries.update_last h, inside, updateLast_concat,
    Option.map_map, Option.map_map]
  rfl

/- The path of a header, seen from further up. -/
def Statement.within
    (name : String) :
    Statement → Statement
| .assign path value => .assign path value
| .table path => .table (path.within name)
| .element path => .element (path.within name)

/- What leads further down goes through the place. -/
theorem Opens.descend_cons
    {name : String}
    {place : Entries → Entries}
    (h : Opens name place)
    (names : List String)
    (change : Entries → Option Entries)
    (inner : Entries) :
    descend (name :: names) change (place inner) =
      (descend names change inner).map place :=
  h (descend names change) inner

/- A section is built like a document of its own. -/
theorem buildFrom_within
    {name : String}
    {place : Entries → Entries}
    (h : Opens name place)
    (here : List String)
    (statements : List Statement)
    (inner : Entries) :
    buildFrom (name :: here)
        (statements.map (Statement.within name)) (place inner) =
      (buildFrom here statements inner).map place := by
  induction statements generalizing here inner with
  | nil => rfl
  | cons statement statements ih =>
      -- Each statement changes what is inside the place, and
      -- the statements after it find it there again.
      have hNext
          (here : List String)
          (found : Option Entries) :
          (found.map place).bind
              (buildFrom (name :: here)
                (statements.map (Statement.within name))) =
            (found.bind (buildFrom here statements)).map place := by
        cases found with
        | none => rfl
        | some inner => exact ih here inner
      cases statement with
      | assign path value =>
          rw [List.map_cons, Statement.within, buildFrom,
            h.descend_cons, hNext]
          rfl
      | table path =>
          rw [List.map_cons, Statement.within, buildFrom, openTable,
            KeyPath.within, h.descend_cons, List.cons_append, hNext]
          rfl
      | element path =>
          rw [List.map_cons, Statement.within, buildFrom,
            openElement, KeyPath.within, h.descend_cons,
            List.cons_append, hNext]
          rfl

/- Statements that do not belong to the table before them. -/
def Headed (rest : List Statement) : Prop :=
  ∀ here here', buildFrom here rest = buildFrom here' rest

theorem headed_nil : Headed [] :=
  fun _ _ => rfl

theorem headed_table
    (path : KeyPath)
    (rest : List Statement) :
    Headed (.table path :: rest) :=
  fun _ _ => rfl

theorem headed_element
    (path : KeyPath)
    (rest : List Statement) :
    Headed (.element path :: rest) :=
  fun _ _ => rfl

theorem buildFrom_append
    {rest : List Statement}
    (hRest : Headed rest)
    (here : List String)
    (first : List Statement)
    (entries : Entries) :
    buildFrom here (first ++ rest) entries =
      (buildFrom here first entries).bind (buildFrom here rest) := by
  induction first generalizing here entries with
  | nil => rfl
  | cons statement first ih =>
      cases statement with
      | assign path value =>
          rw [List.cons_append, buildFrom, buildFrom,
            Option.bind_assoc, funext (ih here)]
      | table path =>
          rw [List.cons_append, buildFrom, buildFrom,
            Option.bind_assoc, hRest here,
            funext (ih _)]
      | element path =>
          rw [List.cons_append, buildFrom, buildFrom,
            Option.bind_assoc, hRest here,
            funext (ih _)]

section Sections

variable {name : String}
variable {here : List String}
variable {rest : List Statement}
variable {entries inner : Entries}

/- A header opens a new table, and its section fills it. -/
theorem buildFrom_table
    {statements : List Statement}
    (hInner : buildFrom [] statements [] = some inner)
    (hName : Entries.Fresh name entries)
    (hRest : Headed rest) :
    buildFrom here
        (.table ⟨[], name⟩
          :: (statements.map (Statement.within name) ++ rest))
        entries =
      buildFrom here rest
        (entries ++ [(name, .table .header inner)]) := by
  have hOpen :
      openTable ⟨[], name⟩ entries =
        some (entries ++ [(name, .table .header [])]) := by
    rw [openTable, descend, Entries.get?_of_fresh hName]
  have hSection :=
    buildFrom_within (opens_table hName) [] statements []
  rw [hInner] at hSection
  rw [buildFrom, hOpen, Option.bind_some, List.nil_append,
    buildFrom_append hRest, hSection, hRest here [name]]
  rfl

/- Entries after some elements of an array of tables. -/
def withElements
    (name : String)
    (done : List Entries)
    (entries : Entries) : Entries :=
  if done = [] then entries
  else entries ++ [(name, .tables done)]

theorem openElement_withElements
    (hName : Entries.Fresh name entries)
    (done : List Entries) :
    openElement ⟨[], name⟩ (withElements name done entries) =
      some (entries ++ [(name, .tables (done ++ [[]]))]) := by
  unfold withElements
  rw [openElement, descend]
  split
  · next hDone => rw [Entries.update_of_fresh hName, hDone]; rfl
  · rw [Entries.update_last hName]; rfl

theorem headed_elements
    {α : Type}
    (path : KeyPath)
    (statements : α → List Statement)
    (xs : List α)
    (hRest : Headed rest) :
    Headed
      (xs.flatMap (fun x => .element path :: statements x)
        ++ rest) := by
  cases xs with
  | nil => exact hRest
  | cons x xs => exact headed_element _ _

/- A header adds an element, and its section fills it. -/
theorem buildFrom_element
    {statements : List Statement}
    (hInner : buildFrom [] statements [] = some inner)
    (hName : Entries.Fresh name entries)
    (hRest : Headed rest)
    (done : List Entries) :
    buildFrom here
        (.element ⟨[], name⟩
          :: (statements.map (Statement.within name) ++ rest))
        (withElements name done entries) =
      buildFrom here rest
        (withElements name (done ++ [inner]) entries) := by
  have hSection :=
    buildFrom_within (opens_element hName done) [] statements []
  rw [hInner] at hSection
  rw [buildFrom, openElement_withElements hName, Option.bind_some,
    List.nil_append, buildFrom_append hRest, hSection,
    hRest here [name], withElements, if_neg (by simp)]
  rfl

/- Each header of an element adds one, and its section fills it. -/
theorem buildFrom_elements
    {α : Type}
    {statements : α → List Statement}
    {inner : α → Entries}
    {xs : List α}
    (hInner :
      ∀ x ∈ xs, buildFrom [] (statements x) [] = some (inner x))
    (hName : xs ≠ [] → Entries.Fresh name entries)
    (hRest : Headed rest)
    (done : List Entries) :
    buildFrom here
        (xs.flatMap
            (fun x =>
              .element ⟨[], name⟩
                :: (statements x).map (Statement.within name))
          ++ rest)
        (withElements name done entries) =
      buildFrom here rest
        (withElements name (done ++ xs.map inner) entries) := by
  induction xs generalizing done with
  | nil =>
      rw [List.flatMap_nil, List.map_nil, List.append_nil,
        List.nil_append]
  | cons x xs ih =>
      obtain ⟨hFirst, hLater⟩ := List.forall_mem_cons.mp hInner
      have hFresh := hName (List.cons_ne_nil x xs)
      rw [List.flatMap_cons, List.append_assoc, List.cons_append,
        buildFrom_element hFirst hFresh
          (headed_elements _ _ xs hRest) done,
        ih hLater fun _ => hFresh]
      simp

end Sections

/- The statements of entries that stand on lines of their own. -/
def assigns
    (values : List (String × OptionValue)) : List Statement :=
  values.map fun entry => .assign ⟨[], entry.1⟩ entry.2.toToml

/- The entries that such statements give a table. -/
def valueItems
    (values : List (String × OptionValue)) : Entries :=
  values.map fun entry => (entry.1, .value entry.2.toToml)

theorem buildFrom_assigns
    {values : List (String × OptionValue)}
    (hNames : (values.map Prod.fst).Nodup)
    {entries : Entries}
    (hFresh :
      ∀ value ∈ values, Entries.Fresh value.1 entries) :
    buildFrom [] (assigns values) entries =
      some (entries ++ valueItems values) := by
  induction values generalizing entries with
  | nil => simp [assigns, valueItems, buildFrom]
  | cons value values ih =>
      obtain ⟨hFirst, hLater⟩ := List.forall_mem_cons.mp hFresh
      obtain ⟨hOther, hNames⟩ := List.nodup_cons.mp hNames
      have hAdd :
          assign [] value.1 value.2.toToml entries =
            some (entries ++ [(value.1, .value value.2.toToml)]) := by
        rw [assign, addNew, Entries.update_of_fresh hFirst]
        rfl
      have hNext :
          ∀ later ∈ values,
            Entries.Fresh later.1
              (entries ++ [(value.1, .value value.2.toToml)]) := by
        intro later hMem entry hEntry
        rcases List.mem_append.mp hEntry with hOld | hNew
        · exact hLater later hMem entry hOld
        · rw [List.mem_singleton.mp hNew]
          intro hSame
          apply hOther
          exact hSame ▸ List.mem_map_of_mem hMem
      have hTail := ih hNames hNext
      unfold assigns at hTail ⊢
      rw [List.map_cons, buildFrom, descend, hAdd,
        Option.bind_some, hTail]
      simp [valueItems]

end Toml

end TemplateTree
