import AppPort.Lib.Toml

/-!
# A fragment of TOML

A parser of the documents that programs write: tables with bare names, and pairs of a key
with a number, a plain string, a list of such or an inline table of such, one to a line.
Anything else is refused. It is lawful, and a document written table by table is read as
its tables.
-/

namespace Toml

/-! ## The parser -/

/-- A string that TOML writes without escapes. -/
def isPlainChar (c : Char) : Bool := c != '"' && c != '\\' && 32 ≤ c.toNat && c.toNat != 127

def isPlain (s : String) : Bool := s.toList.all isPlainChar

inductive Statement where
  | blank
  | header (path : List String)
  | entry (key : String) (value : Value)

/-- Without the white space around it. -/
def trimBlank (chars : List Char) : List Char :=
  ((chars.dropWhile isBlankChar).reverse.dropWhile isBlankChar).reverse

/-- What stands between two characters. -/
def between (left right : Char) (chars : List Char) : Option (List Char) :=
  match chars with
  | [] => none
  | first :: rest =>
    match rest.reverse with
    | [] => none
    | last :: inner => if first = left ∧ last = right then some inner.reverse else none

def readQuoted (chars : List Char) : Option String :=
  (between '"' '"' chars).bind fun inner =>
    if inner.all isPlainChar then some (String.ofList inner) else none

def readBareKey (chars : List Char) : Option String :=
  if isBareKey (String.ofList chars) then some (String.ofList chars) else none

def readKey (chars : List Char) : Option String := readBareKey chars <|> readQuoted chars

def readNumber (chars : List Char) : Option Int :=
  if chars ≠ [] ∧ chars.all Char.isDigit then
    some (chars.foldl (fun n c => 10 * n + (c.toNat - 48 : Nat)) 0)
  else none

def readScalar (chars : List Char) : Option Value :=
  if chars = "true".toList then some (.bool true)
  else if chars = "false".toList then some (.bool false)
  else (readQuoted chars).map Value.str <|> (readNumber chars).map Value.num

/-- A key, an equals sign, and a value. -/
def readPair (value : List Char → Option Value) (chars : List Char) : Option (String × Value) :=
  match chars.dropWhile (· != '=') with
  | [] => none
  | _ :: rest => do
    let key ← readKey (trimBlank (chars.takeWhile (· != '=')))
    let v ← value (trimBlank rest)
    pure (key, v)

/-- The items of a list. -/
def readItems {α : Type} (item : List Char → Option α) (chars : List Char) : Option (List α) :=
  if trimBlank chars = [] then some []
  else (chars.splitOn ',').mapM fun part => item (trimBlank part)

def readValue (chars : List Char) : Option Value :=
  match between '[' ']' chars with
  | some inner => (readItems readScalar inner).map Value.arr
  | none =>
    match between '\x7b' '\x7d' chars with
    | some inner => (readItems (readPair readScalar) inner).map Value.table
    | none => readScalar chars

def readStatement (line : String) : Option Statement :=
  if isBlankLine line then some .blank
  else
    match between '[' ']' (trimBlank line.toList) with
    | some inner => ((inner.splitOn '.').mapM readBareKey).map Statement.header
    | none => (readPair readValue (trimBlank line.toList)).map fun pair => .entry pair.1 pair.2

/-- A value under a path of keys. -/
def Table.insert : List String → Value → Table → Option Table
  | [], _, _ => none
  | [key], value, table => if (table.lookup key).isSome then none else some (table ++ [(key, value)])
  | key :: rest, value, table =>
    match table.lookup key with
    | none => (Table.insert rest value []).map fun inner => table ++ [(key, .table inner)]
    | some (.table fields) => (Table.insert rest value fields).map fun inner =>
        table.map fun entry => if entry.1 = key then (key, .table inner) else entry
    | some _ => none

/-- There is a table under the path. -/
def Table.hasTable : List String → Table → Bool
  | [], _ => true
  | key :: rest, table =>
    match table.lookup key with
    | some (.table fields) => Table.hasTable rest fields
    | _ => false

/-- A document as far as it is read. -/
structure Doc where
  root : Table := []
  /-- The table pairs go into. -/
  current : List String := []
  /-- The tables that were opened by a header. -/
  opened : List (List String) := []

def Doc.add (doc : Doc) : Statement → Option Doc
  | .blank => some doc
  | .header path =>
    if path ∈ doc.opened then none
    else
      (if doc.root.hasTable path then some doc.root else doc.root.insert path (.table [])).map
        fun root => { root, current := path, opened := path :: doc.opened }
  | .entry key value => (doc.root.insert (doc.current ++ [key]) value).map fun root => { doc with root }

def Doc.read (doc : Doc) (line : String) : Option Doc := (readStatement line).bind doc.add

/-- The document of some lines. -/
def Doc.readAll (doc : Doc) (lines : List String) : Option Doc := lines.foldlM Doc.read doc

/-- The parser. -/
def readDocument (text : String) : Except String Table :=
  match (Doc.readAll {} (splitLines text)) with
  | some doc => .ok doc.root
  | none => .error "Unexpected character"

/-! ## It is lawful -/

theorem Doc.readAll_append (doc : Doc) (lines lines' : List String) :
    doc.readAll (lines ++ lines') = (doc.readAll lines).bind fun doc' => doc'.readAll lines' :=
  List.foldlM_append

theorem Doc.readAll_cons (doc : Doc) (line : String) (lines : List String) :
    doc.readAll (line :: lines) = (doc.read line).bind fun doc' => doc'.readAll lines :=
  List.foldlM_cons

theorem trimBlank_of_ends {first last : Char} (chars : List Char) (hfirst : isBlankChar first = false)
    (hlast : isBlankChar last = false) :
    trimBlank (first :: (chars ++ [last])) = first :: (chars ++ [last]) := by
  unfold trimBlank
  rw [List.dropWhile_cons_of_neg (by simp [hfirst]), List.reverse_cons, List.reverse_append,
    List.reverse_singleton, List.singleton_append, List.cons_append,
    List.dropWhile_cons_of_neg (by simp [hlast])]
  simp

theorem between_ends (left right : Char) (chars : List Char) :
    between left right (left :: (chars ++ [right])) = some chars := by
  unfold between
  simp

theorem readStatement_header {key : String} (h : isBareKey key = true) :
    readStatement (header key) = some (.header [key]) := by
  have hchars : (header key).toList = '[' :: (key.toList ++ [']']) := by
    simp [header]
  have hkeys : ∀ c ∈ key.toList, isKeyChar c = true := by
    unfold isBareKey at h
    rw [Bool.and_eq_true] at h
    exact List.all_eq_true.mp h.2
  have hdots : '.' ∉ key.toList := fun hmem => by
    have := hkeys _ hmem
    revert this
    decide
  unfold readStatement isBlankLine
  rw [hchars, List.dropWhile_cons_of_neg (by decide), trimBlank_of_ends _ (by decide) (by decide),
    between_ends]
  simp [List.splitOn_eq_singleton hdots, readBareKey, h]

theorem Doc.read_header {key : String} (h : isBareKey key = true) (doc : Doc) :
    doc.read (header key) = doc.add (.header [key]) := by
  unfold Doc.read
  rw [readStatement_header h]
  rfl

/-- What was opened stays opened. -/
theorem Doc.opened_of_add {doc doc' : Doc} {statement : Statement} (h : doc.add statement = some doc')
    {path : List String} (hpath : path ∈ doc.opened) : path ∈ doc'.opened := by
  cases statement with
  | blank =>
    obtain rfl := Option.some.inj h
    exact hpath
  | header other =>
    simp only [Doc.add] at h
    split at h
    · cases h
    · obtain ⟨root, -, rfl⟩ := Option.map_eq_some_iff.mp h
      exact List.mem_cons_of_mem _ hpath
  | entry key value =>
    obtain ⟨root, -, rfl⟩ := Option.map_eq_some_iff.mp h
    exact hpath

theorem Doc.opened_of_readAll {path : List String} : (lines : List String) → {doc doc' : Doc} →
    doc.readAll lines = some doc' → path ∈ doc.opened → path ∈ doc'.opened
  | [], doc, doc', h, hpath => by
    obtain rfl := Option.some.inj h
    exact hpath
  | line :: lines, doc, doc', h, hpath => by
    rw [Doc.readAll_cons] at h
    obtain ⟨next, hnext, hrest⟩ := Option.bind_eq_some_iff.mp h
    obtain ⟨statement, -, hadd⟩ := Option.bind_eq_some_iff.mp hnext
    exact Doc.opened_of_readAll lines hrest (Doc.opened_of_add hadd hpath)

/-- A header that is read opens its table. -/
theorem Doc.opened_of_header {key : String} (h : isBareKey key = true) {doc doc' : Doc}
    (hread : doc.read (header key) = some doc') : [key] ∉ doc.opened ∧ [key] ∈ doc'.opened := by
  rw [Doc.read_header h] at hread
  simp only [Doc.add] at hread
  split at hread
  · cases hread
  · next hnew =>
    obtain ⟨root, -, rfl⟩ := Option.map_eq_some_iff.mp hread
    exact ⟨hnew, List.mem_cons_self⟩

/-- **The parser of the fragment is lawful.** -/
theorem readDocument_lawful : Lawful readDocument where
  header := by
    intro text key hkey hlines
    unfold readDocument
    rw [hlines, Doc.readAll_cons, Doc.read_header hkey]
    rfl
  twice := by
    intro text key before mid rest hkey hlines _ _
    unfold readDocument
    rw [hlines, Doc.readAll_append]
    refine ⟨"Unexpected character", ?_⟩
    have hnone : ((Doc.readAll {} before).bind fun doc =>
        doc.readAll (header key :: (mid ++ header key :: rest))) = none := by
      rw [Option.bind_eq_none_iff]
      intro doc _
      rw [Doc.readAll_cons, Option.bind_eq_none_iff]
      intro opened hopened
      rw [Doc.readAll_append, Option.bind_eq_none_iff]
      intro doc' hdoc'
      rw [Doc.readAll_cons, Option.bind_eq_none_iff]
      intro again hagain
      have hfirst := (Doc.opened_of_header hkey hopened).2
      exact absurd (Doc.opened_of_readAll mid hdoc' hfirst) (Doc.opened_of_header hkey hagain).1
    rw [hnone]
  blank := by
    intro text text' line before rest hblank hlines hlines' _
    have hread : ∀ doc : Doc, doc.read line = some doc := by
      intro doc
      unfold Doc.read readStatement
      rw [if_pos hblank]
      rfl
    unfold readDocument
    rw [hlines, hlines', Doc.readAll_append, Doc.readAll_append]
    simp only [Doc.readAll_cons, hread, Option.bind_some]
    exact Agrees.refl _

/-! ## Documents written table by table -/

/-- A table of a document: its pairs, and then its own tables. -/
structure Section where
  key : String
  pairs : Table
  tables : List (String × Table)

namespace Section

/-- The keys in the table. -/
def keys (s : Section) : List String := s.pairs.map Prod.fst ++ s.tables.map Prod.fst

/-- No key is written twice. -/
structure WellFormed (s : Section) : Prop where
  keys : s.keys.Nodup
  inner : ∀ t ∈ s.tables, (t.2.map Prod.fst).Nodup

def value (s : Section) : Value := .table (s.pairs ++ s.tables.map fun t => (t.1, .table t.2))

def statements (s : Section) : List Statement :=
  .header [s.key] :: (s.pairs.map (fun pair => .entry pair.1 pair.2) ++
    s.tables.flatMap fun t => .header [s.key, t.1] :: t.2.map fun pair => .entry pair.1 pair.2)

end Section

def Doc.addAll (doc : Doc) (statements : List Statement) : Option Doc := statements.foldlM Doc.add doc

theorem Doc.addAll_append (doc : Doc) (statements statements' : List Statement) :
    doc.addAll (statements ++ statements') =
      (doc.addAll statements).bind fun doc' => doc'.addAll statements' :=
  List.foldlM_append

theorem Doc.addAll_cons (doc : Doc) (statement : Statement) (statements : List Statement) :
    doc.addAll (statement :: statements) =
      (doc.add statement).bind fun doc' => doc'.addAll statements :=
  List.foldlM_cons

/-- A document is read statement by statement. -/
theorem Doc.readAll_of_mapM : (lines : List String) → {statements : List Statement} → {doc : Doc} →
    lines.mapM readStatement = some statements → doc.readAll lines = doc.addAll statements
  | [], statements, doc, h => by
    obtain rfl := Option.some.inj h
    rfl
  | line :: lines, statements, doc, h => by
    rw [List.mapM_cons] at h
    obtain ⟨statement, hstatement, h⟩ := Option.bind_eq_some_iff.mp h
    obtain ⟨rest, hrest, h⟩ := Option.bind_eq_some_iff.mp h
    obtain rfl := Option.some.inj h
    rw [Doc.readAll_cons, Doc.addAll_cons, Doc.read, hstatement, Option.bind_some]
    cases doc.add statement with
    | none => rfl
    | some doc' => exact Doc.readAll_of_mapM lines hrest

theorem lookup_append_of_none {table table' : Table} {key : String} (h : table.lookup key = none) :
    (table ++ table').lookup key = table'.lookup key := by
  rw [List.lookup_append, h, Option.none_or]

theorem lookup_eq_none {table : Table} {key : String} (h : key ∉ table.map Prod.fst) :
    table.lookup key = none := by
  rw [List.lookup_eq_none_iff]
  intro entry hentry
  rw [bne_iff_ne]
  rintro rfl
  exact h (List.mem_map_of_mem hentry)

/-- Replacing the last table leaves what stands before it. -/
theorem map_replace_last {root : Table} {key : String} (hkey : key ∉ root.map Prod.fst)
    (value value' : Value) :
    ((root ++ [(key, value)]).map fun entry => if entry.1 = key then (key, value') else entry) =
      root ++ [(key, value')] := by
  rw [List.map_append]
  congr 1
  · have hid : ∀ entry ∈ root, (if entry.1 = key then (key, value') else entry) = entry := by
      intro entry hentry
      rw [if_neg]
      rintro rfl
      exact hkey (List.mem_map_of_mem hentry)
    exact (List.map_congr_left hid).trans (List.map_id root)
  · simp

/-- A pair goes at the end of the last table. -/
theorem insert_last {root fields : Table} {key : String} (hkey : key ∉ root.map Prod.fst)
    {path : List String} (hpath : path ≠ []) {value : Value} {fields' : Table}
    (h : Table.insert path value fields = some fields') :
    Table.insert (key :: path) value (root ++ [(key, .table fields)]) =
      some (root ++ [(key, .table fields')]) := by
  cases path with
  | nil => exact absurd rfl hpath
  | cons next rest =>
    have hlookup : (root ++ [(key, Value.table fields)]).lookup key = some (.table fields) := by
      rw [lookup_append_of_none (lookup_eq_none hkey)]
      simp
    simp only [Table.insert, hlookup, h, Option.map_some]
    rw [map_replace_last hkey]

theorem insert_new {fields : Table} {key : String} (hkey : key ∉ fields.map Prod.fst) (value : Value) :
    Table.insert [key] value fields = some (fields ++ [(key, value)]) := by
  simp [Table.insert, lookup_eq_none hkey]

/-- Pairs go at the end of the table they are in, one after the other. -/
theorem Doc.addAll_pairs (place : Table → Table) (path : List String)
    (hinsert : ∀ fields pair, pair.1 ∉ fields.map Prod.fst →
      Table.insert (path ++ [pair.1]) pair.2 (place fields) = some (place (fields ++ [pair])))
    (opened : List (List String)) :
    (pairs fields : Table) → (fields.map Prod.fst ++ pairs.map Prod.fst).Nodup →
    Doc.addAll { root := place fields, current := path, opened }
        (pairs.map fun pair => .entry pair.1 pair.2) =
      some { root := place (fields ++ pairs), current := path, opened }
  | [], fields, _ => by
    rw [List.append_nil]
    rfl
  | pair :: pairs, fields, hnodup => by
    have hnew : pair.1 ∉ fields.map Prod.fst := by
      intro hmem
      exact (List.nodup_append.mp hnodup).2.2 _ hmem _ List.mem_cons_self rfl
    have hadd : Doc.add { root := place fields, current := path, opened }
        (.entry pair.1 pair.2) =
          some { root := place (fields ++ [pair]), current := path, opened } := by
      simp only [Doc.add, hinsert fields pair hnew, Option.map_some]
    have hrest : ((fields ++ [pair]).map Prod.fst ++ pairs.map Prod.fst).Nodup := by
      simpa using hnodup
    rw [List.map_cons, Doc.addAll_cons, hadd, Option.bind_some,
      Doc.addAll_pairs place path hinsert opened pairs (fields ++ [pair]) hrest]
    simp

/-- A header opens an empty table. -/
theorem Doc.add_header {doc : Doc} {path : List String} {root : Table} (hnew : path ∉ doc.opened)
    (htable : doc.root.hasTable path = false)
    (hinsert : doc.root.insert path (.table []) = some root) :
    doc.add (.header path) = some { root, current := path, opened := path :: doc.opened } := by
  unfold Doc.add
  simp only [if_neg hnew, htable, hinsert]
  rfl

/-- The tables of a table, one after the other. -/
theorem Doc.addAll_tables {key : String} {root : Table} (hkey : key ∉ root.map Prod.fst) :
    (tables : List (String × Table)) → (fields : Table) → (current : List String) →
    (opened : List (List String)) →
    (fields.map Prod.fst ++ tables.map Prod.fst).Nodup → (∀ t ∈ tables, (t.2.map Prod.fst).Nodup) →
    (∀ t ∈ tables, [key, t.1] ∉ opened) →
    ∃ doc', Doc.addAll { root := root ++ [(key, .table fields)], current, opened }
        (tables.flatMap fun t => .header [key, t.1] :: t.2.map fun pair => .entry pair.1 pair.2) =
      some doc' ∧
      doc'.root = root ++ [(key, .table (fields ++ tables.map fun t => (t.1, .table t.2)))] ∧
      ∀ path ∈ doc'.opened, path ∈ opened ∨ path.head? = some key
  | [], fields, current, opened, _, _, _ => by
    refine ⟨_, rfl, ?_, fun path hpath => .inl hpath⟩
    simp
  | (name, pairs) :: rest, fields, current, opened, hnodup, hinner, hopened => by
    have hname : name ∉ fields.map Prod.fst := by
      intro hmem
      exact (List.nodup_append.mp hnodup).2.2 _ hmem _ List.mem_cons_self rfl
    have hlookup : (root ++ [(key, Value.table fields)]).lookup key = some (.table fields) := by
      rw [lookup_append_of_none (lookup_eq_none hkey)]
      simp
    -- the header opens an empty table
    have hheader : Doc.add { root := root ++ [(key, .table fields)], current, opened }
        (.header [key, name]) = some {
          root := root ++ [(key, .table (fields ++ [(name, .table [])]))], current := [key, name]
          opened := [key, name] :: opened } := by
      have hnew : Table.hasTable [key, name] (root ++ [(key, Value.table fields)]) = false := by
        simp [Table.hasTable, hlookup, lookup_eq_none hname]
      exact Doc.add_header (hopened (name, pairs) List.mem_cons_self) hnew
        (insert_last hkey (by simp) (insert_new hname _))
    -- and its pairs fill it
    have hinsert : ∀ (inner : Table) (pair : String × Value), pair.1 ∉ inner.map Prod.fst →
        Table.insert [key, name, pair.1] pair.2
            (root ++ [(key, .table (fields ++ [(name, .table inner)]))]) =
          some (root ++ [(key, .table (fields ++ [(name, .table (inner ++ [pair]))]))]) :=
      fun inner pair hpair =>
        insert_last hkey (by simp) (insert_last hname (by simp) (insert_new hpair pair.2))
    have hpairs := Doc.addAll_pairs
      (fun inner => root ++ [(key, Value.table (fields ++ [(name, Value.table inner)]))])
      [key, name] hinsert ([key, name] :: opened) pairs [] (by simpa using hinner (name, pairs) List.mem_cons_self)
    have hrest : ((fields ++ [(name, Value.table pairs)]).map Prod.fst ++ rest.map Prod.fst).Nodup := by
      simpa using hnodup
    obtain ⟨doc', hdoc', hroot, hpaths⟩ := Doc.addAll_tables hkey rest _ [key, name]
      ([key, name] :: opened) hrest (fun t ht => hinner t (List.mem_cons_of_mem _ ht)) (by
        intro t ht
        rw [List.mem_cons, not_or]
        refine ⟨fun heq => ?_, hopened t (List.mem_cons_of_mem _ ht)⟩
        simp only [List.cons.injEq, and_true, true_and] at heq
        have hmem : name ∈ rest.map Prod.fst := heq ▸ List.mem_map_of_mem ht
        have hsecond := (List.nodup_append.mp hnodup).2.1
        rw [List.map_cons, List.nodup_cons] at hsecond
        exact hsecond.1 hmem)
    refine ⟨doc', ?_, ?_, ?_⟩
    · rw [List.flatMap_cons, List.cons_append, Doc.addAll_cons, hheader, Option.bind_some,
        Doc.addAll_append, hpairs]
      exact hdoc'
    · rw [hroot]
      simp
    · intro path hpath
      rcases hpaths path hpath with hpath | hpath
      · rcases List.mem_cons.mp hpath with rfl | hpath
        · exact .inr rfl
        · exact .inl hpath
      · exact .inr hpath

/-- **A table is read as it is written.** -/
theorem Doc.addAll_section {doc : Doc} {s : Section} (hs : s.WellFormed)
    (hkey : s.key ∉ doc.root.map Prod.fst) (hopened : ∀ path ∈ doc.opened, path.head? ≠ some s.key) :
    ∃ doc', doc.addAll s.statements = some doc' ∧ doc'.root = doc.root ++ [(s.key, s.value)] ∧
      ∀ path ∈ doc'.opened, path ∈ doc.opened ∨ path.head? = some s.key := by
  have hheader : doc.add (.header [s.key]) = some {
      root := doc.root ++ [(s.key, .table [])], current := [s.key]
      opened := [s.key] :: doc.opened } := by
    have hnew : Table.hasTable [s.key] doc.root = false := by
      simp [Table.hasTable, lookup_eq_none hkey]
    exact Doc.add_header (fun hmem => hopened _ hmem rfl) hnew (insert_new hkey _)
  have hkeys := hs.keys
  unfold Section.keys at hkeys
  have hinsert : ∀ (fields : Table) (pair : String × Value), pair.1 ∉ fields.map Prod.fst →
      Table.insert [s.key, pair.1] pair.2 (doc.root ++ [(s.key, .table fields)]) =
        some (doc.root ++ [(s.key, .table (fields ++ [pair]))]) :=
    fun fields pair hpair => insert_last hkey (by simp) (insert_new hpair pair.2)
  have hpairs := Doc.addAll_pairs (fun fields => doc.root ++ [(s.key, Value.table fields)])
    [s.key] hinsert ([s.key] :: doc.opened) s.pairs [] (by simpa using (List.nodup_append.mp hkeys).1)
  obtain ⟨doc', hdoc', hroot, hpaths⟩ := Doc.addAll_tables hkey s.tables s.pairs
    [s.key] ([s.key] :: doc.opened) hkeys hs.inner (by
      intro t _
      rw [List.mem_cons, not_or]
      exact ⟨by simp, fun hmem => hopened _ hmem rfl⟩)
  refine ⟨doc', ?_, hroot, ?_⟩
  · unfold Section.statements
    rw [Doc.addAll_cons, hheader, Option.bind_some, Doc.addAll_append, hpairs]
    simpa using hdoc'
  · intro path hpath
    rcases hpaths path hpath with hpath | hpath
    · rcases List.mem_cons.mp hpath with rfl | hpath
      · exact .inr rfl
      · exact .inl hpath
    · exact .inr hpath

/-- **A document written table by table is read as its tables.** -/
theorem Doc.addAll_sections : (sections : List Section) → (doc : Doc) →
    (∀ s ∈ sections, s.WellFormed) → (doc.root.map Prod.fst ++ sections.map Section.key).Nodup →
    (∀ s ∈ sections, ∀ path ∈ doc.opened, path.head? ≠ some s.key) →
    ∃ doc', doc.addAll (sections.flatMap Section.statements) = some doc' ∧
      doc'.root = doc.root ++ sections.map fun s => (s.key, s.value)
  | [], doc, _, _, _ => ⟨doc, rfl, by simp⟩
  | s :: rest, doc, hwell, hnodup, hopened => by
    have hkey : s.key ∉ doc.root.map Prod.fst := by
      intro hmem
      exact (List.nodup_append.mp hnodup).2.2 _ hmem _ List.mem_cons_self rfl
    obtain ⟨next, hnext, hroot, hpaths⟩ := Doc.addAll_section (hwell s List.mem_cons_self) hkey
      (hopened s List.mem_cons_self)
    obtain ⟨doc', hdoc', hroot'⟩ := Doc.addAll_sections rest next
      (fun s' hs' => hwell s' (List.mem_cons_of_mem _ hs')) (by rw [hroot]; simpa using hnodup) (by
        intro s' hs' path hpath
        rcases hpaths path hpath with hpath | hpath
        · exact hopened s' (List.mem_cons_of_mem _ hs') path hpath
        · rw [hpath]
          intro heq
          have hsecond := (List.nodup_append.mp hnodup).2.1
          rw [List.map_cons, List.nodup_cons] at hsecond
          exact hsecond.1 (Option.some.inj heq ▸ List.mem_map_of_mem hs'))
    refine ⟨doc', ?_, ?_⟩
    · rw [List.flatMap_cons, Doc.addAll_append, hnext]
      exact hdoc'
    · rw [hroot', hroot]
      simp

/-- A statement that says something. -/
def Statement.says : Statement → Bool
  | .blank => false
  | _ => true

/-- Blank lines say nothing. -/
theorem Doc.addAll_says : (statements : List Statement) → (doc : Doc) →
    doc.addAll statements = doc.addAll (statements.filter Statement.says)
  | [], _ => rfl
  | .blank :: rest, doc => Doc.addAll_says rest doc
  | .header path :: rest, doc => by
    rw [List.filter_cons_of_pos rfl, Doc.addAll_cons, Doc.addAll_cons]
    exact congrArg _ (funext fun doc' => Doc.addAll_says rest doc')
  | .entry key value :: rest, doc => by
    rw [List.filter_cons_of_pos rfl, Doc.addAll_cons, Doc.addAll_cons]
    exact congrArg _ (funext fun doc' => Doc.addAll_says rest doc')

/-! ## Strings that are read -/

/-- White space after a text is trimmed. -/
theorem trimBlank_pad {chars after : List Char} (hafter : ∀ c ∈ after, isBlankChar c = true)
    (hchars : ∀ c ∈ chars, isBlankChar c = false) (hne : chars ≠ []) :
    trimBlank (chars ++ after) = chars := by
  have hkeep : ∀ kept rest : List Char, (∀ c ∈ kept, isBlankChar c = false) → kept ≠ [] →
      (kept ++ rest).dropWhile isBlankChar = kept ++ rest := by
    intro kept rest hkept hne
    cases kept with
    | nil => exact absurd rfl hne
    | cons c kept =>
      rw [List.cons_append, List.dropWhile_cons_of_neg (by simp [hkept c List.mem_cons_self])]
  have hback := hkeep chars.reverse [] (by simpa using hchars) (by simpa using hne)
  rw [List.append_nil] at hback
  unfold trimBlank
  rw [hkeep chars after hchars hne, List.reverse_append,
    List.dropWhile_append_of_pos (by simpa using hafter), hback, List.reverse_reverse]

theorem between_of_first {left right first : Char} (h : first ≠ left) (chars : List Char) :
    between left right (first :: chars) = none := by
  unfold between
  cases hback : chars.reverse with
  | nil => simp only [hback]
  | cons last inner =>
    simp only [hback]
    rw [if_neg]
    intro hends
    exact h hends.1

theorem isKeyChar_of_bareKey {key : String} (h : isBareKey key = true) :
    key.toList ≠ [] ∧ ∀ c ∈ key.toList, isKeyChar c = true := by
  unfold isBareKey at h
  rw [Bool.and_eq_true] at h
  exact ⟨by simpa using h.1, List.all_eq_true.mp h.2⟩

theorem not_blank_of_key {c : Char} (h : isKeyChar c = true) : isBlankChar c = false := by
  by_contra hblank
  unfold isBlankChar at hblank
  simp only [Bool.not_eq_false, Bool.or_eq_true, beq_iff_eq] at hblank
  rcases hblank with (rfl | rfl) | rfl <;> revert h <;> decide

/-- **A plain string under a bare key is read as it is written.** -/
theorem readStatement_quoted (key : String) {value : String} (hkey : isBareKey key = true)
    (hvalue : isPlain value = true) :
    readStatement (key ++ " = \"" ++ value ++ "\"") = some (.entry key (.str value)) := by
  obtain ⟨hne, hkeys⟩ := isKeyChar_of_bareKey hkey
  obtain ⟨k, ks, hchars⟩ := List.exists_cons_of_ne_nil hne
  have hk : isKeyChar k = true := hkeys k (by rw [hchars]; exact List.mem_cons_self)
  have hkb := not_blank_of_key hk
  have hline : (key ++ " = \"" ++ value ++ "\"").toList =
      k :: ((ks ++ " = \"".toList ++ value.toList) ++ ['"']) := by
    simp [hchars]
  have hpair : k :: ((ks ++ " = \"".toList ++ value.toList) ++ ['"']) =
      (key.toList ++ [' ']) ++ '=' :: (' ' :: ('"' :: (value.toList ++ ['"']))) := by
    simp [hchars]
  have hbefore : ∀ c ∈ key.toList ++ [' '], (c != '=') = true := by
    intro c hc
    rcases List.mem_append.mp hc with hc | hc
    · rw [bne_iff_ne]
      rintro rfl
      exact absurd (hkeys _ hc) (by decide)
    · rw [List.mem_singleton.mp hc]
      decide
  have hblank : isBlankLine (key ++ " = \"" ++ value ++ "\"") = false := by
    unfold isBlankLine
    rw [hline, List.dropWhile_cons_of_neg (by simp [hkb])]
    show (k == '#') = false
    rw [beq_eq_false_iff_ne]
    rintro rfl
    exact absurd hk (by decide)
  have hread : readPair readValue
      ((key.toList ++ [' ']) ++ '=' :: (' ' :: ('"' :: (value.toList ++ ['"'])))) =
        some (key, .str value) := by
    have hkeyRead : readKey (trimBlank (key.toList ++ [' '])) = some key := by
      have hpad : ∀ c ∈ [' '], isBlankChar c = true := by
        intro c hc
        rw [List.mem_singleton.mp hc]
        decide
      rw [trimBlank_pad hpad (fun c hc => not_blank_of_key (hkeys c hc)) hne]
      simp [readKey, readBareKey, hkey]
    have hquoted : readQuoted ('"' :: (value.toList ++ ['"'])) = some value := by
      unfold readQuoted
      rw [between_ends, Option.bind_some, String.ofList_toList]
      exact if_pos hvalue
    have hvalueRead : readValue (trimBlank (' ' :: ('"' :: (value.toList ++ ['"'])))) =
        some (.str value) := by
      have htrim : trimBlank (' ' :: ('"' :: (value.toList ++ ['"']))) =
          '"' :: (value.toList ++ ['"']) := by
        have hends : trimBlank ('"' :: (value.toList ++ ['"'])) = '"' :: (value.toList ++ ['"']) :=
          trimBlank_of_ends _ (by decide) (by decide)
        unfold trimBlank at hends ⊢
        rw [List.dropWhile_cons_of_pos (by decide), hends]
      rw [htrim, readValue, between_of_first (by decide), between_of_first (by decide)]
      simp [readScalar, hquoted]
    unfold readPair
    rw [List.dropWhile_append_of_pos hbefore, List.takeWhile_append_of_pos hbefore,
      List.dropWhile_cons_of_neg (by decide), List.takeWhile_cons_of_neg (by decide), List.append_nil]
    simp only [hkeyRead, hvalueRead]
    rfl
  have hopens : k ≠ '[' := by
    rintro rfl
    exact absurd hk (by decide)
  unfold readStatement
  rw [hblank, hline, trimBlank_of_ends _ hkb (by decide), between_of_first hopens, hpair, hread]
  rfl

/-- All strings in a value are plain. -/
inductive Value.Plain : Value → Prop
  | str {s : String} : isPlain s = true → Value.Plain (.str s)
  | num (n : Int) : Value.Plain (.num n)
  | bool (b : Bool) : Value.Plain (.bool b)
  | arr {xs : List Value} : (∀ x ∈ xs, Value.Plain x) → Value.Plain (.arr xs)
  | table {fields : List (String × Value)} : (∀ entry ∈ fields, Value.Plain entry.2) →
      Value.Plain (.table fields)

def Table.Plain (table : Table) : Prop := ∀ entry ∈ table, entry.2.Plain

theorem plain_of_readQuoted {chars : List Char} {s : String} (h : readQuoted chars = some s) :
    isPlain s = true := by
  obtain ⟨inner, -, h⟩ := Option.bind_eq_some_iff.mp h
  split at h
  · next hinner =>
    obtain rfl := Option.some.inj h
    unfold isPlain
    rw [String.toList_ofList]
    exact hinner
  · cases h

theorem plain_of_readScalar {chars : List Char} {v : Value} (h : readScalar chars = some v) :
    v.Plain := by
  unfold readScalar at h
  split at h
  · obtain rfl := Option.some.inj h
    exact .bool true
  split at h
  · obtain rfl := Option.some.inj h
    exact .bool false
  cases hquoted : readQuoted chars with
  | some s =>
    rw [hquoted] at h
    obtain rfl := Option.some.inj h
    exact .str (plain_of_readQuoted hquoted)
  | none =>
    rw [hquoted] at h
    obtain ⟨n, -, rfl⟩ := Option.map_eq_some_iff.mp h
    exact .num n

theorem plain_of_readPair {value : List Char → Option Value}
    (hvalue : ∀ chars v, value chars = some v → v.Plain) {chars : List Char} {pair : String × Value}
    (h : readPair value chars = some pair) : pair.2.Plain := by
  unfold readPair at h
  split at h
  · cases h
  · obtain ⟨key, -, h⟩ := Option.bind_eq_some_iff.mp h
    obtain ⟨v, hv, h⟩ := Option.bind_eq_some_iff.mp h
    obtain rfl := Option.some.inj h
    exact hvalue _ v hv

/-- What is read part by part comes from the parts. -/
theorem mem_of_mapM {α β : Type} {f : α → Option β} : (parts : List α) → {items : List β} →
    parts.mapM f = some items → ∀ item ∈ items, ∃ part ∈ parts, f part = some item
  | [], items, h, item, hitem => by
    obtain rfl := Option.some.inj h
    cases hitem
  | part :: parts, items, h, item, hitem => by
    rw [List.mapM_cons] at h
    obtain ⟨first, hfirst, h⟩ := Option.bind_eq_some_iff.mp h
    obtain ⟨rest, hrest, h⟩ := Option.bind_eq_some_iff.mp h
    obtain rfl := Option.some.inj h
    rcases List.mem_cons.mp hitem with rfl | hitem
    · exact ⟨part, List.mem_cons_self, hfirst⟩
    · obtain ⟨part', hpart', hread⟩ := mem_of_mapM parts hrest item hitem
      exact ⟨part', List.mem_cons_of_mem _ hpart', hread⟩

theorem mem_of_readItems {α : Type} {item : List Char → Option α} {chars : List Char} {items : List α}
    (h : readItems item chars = some items) : ∀ x ∈ items, ∃ part, item part = some x := by
  unfold readItems at h
  split at h
  · obtain rfl := Option.some.inj h
    simp
  · intro x hx
    obtain ⟨part, -, hread⟩ := mem_of_mapM _ h x hx
    exact ⟨_, hread⟩

theorem plain_of_readValue {chars : List Char} {v : Value} (h : readValue chars = some v) :
    v.Plain := by
  unfold readValue at h
  split at h
  · obtain ⟨items, hitems, rfl⟩ := Option.map_eq_some_iff.mp h
    refine .arr fun x hx => ?_
    obtain ⟨part, hpart⟩ := mem_of_readItems hitems x hx
    exact plain_of_readScalar hpart
  split at h
  · obtain ⟨pairs, hpairs, rfl⟩ := Option.map_eq_some_iff.mp h
    refine .table fun pair hpair => ?_
    obtain ⟨part, hpart⟩ := mem_of_readItems hpairs pair hpair
    exact plain_of_readPair (fun _ _ => plain_of_readScalar) hpart
  · exact plain_of_readScalar h

theorem Table.Plain.append {table : Table} {key : String} {v : Value} (h : table.Plain) (hv : v.Plain) :
    Table.Plain (table ++ [(key, v)]) := by
  intro entry hentry
  rcases List.mem_append.mp hentry with hentry | hentry
  · exact h entry hentry
  · obtain rfl := List.mem_singleton.mp hentry
    exact hv

theorem mem_of_lookup {table : Table} {key : String} {v : Value} (h : table.lookup key = some v) :
    (key, v) ∈ table := by
  obtain ⟨before, after, heq, -⟩ := List.lookup_eq_some_iff.mp h
  rw [heq]
  simp

theorem Table.Plain.insert : (path : List String) → {table table' : Table} → {v : Value} →
    table.Plain → v.Plain → Table.insert path v table = some table' → table'.Plain
  | [], _, _, _, _, _, h => by cases h
  | [key], table, table', v, htable, hv, h => by
    unfold Table.insert at h
    split at h
    · cases h
    · obtain rfl := Option.some.inj h
      exact htable.append hv
  | key :: next :: rest, table, table', v, htable, hv, h => by
    unfold Table.insert at h
    split at h
    · obtain ⟨inner, hinner, rfl⟩ := Option.map_eq_some_iff.mp h
      exact htable.append (.table (Table.Plain.insert (next :: rest) (by simp [Table.Plain]) hv hinner))
    · next fields hfields =>
      obtain ⟨inner, hinner, rfl⟩ := Option.map_eq_some_iff.mp h
      have hplain : Table.Plain fields := by
        cases htable _ (mem_of_lookup hfields) with
        | table hfields => exact hfields
      intro entry hentry
      obtain ⟨old, hold, rfl⟩ := List.mem_map.mp hentry
      split
      · exact .table (Table.Plain.insert (next :: rest) hplain hv hinner)
      · exact htable old hold
    · cases h

theorem Doc.plain_of_read {doc doc' : Doc} {line : String} (hdoc : doc.root.Plain)
    (h : doc.read line = some doc') : doc'.root.Plain := by
  obtain ⟨statement, hstatement, h⟩ := Option.bind_eq_some_iff.mp h
  cases statement with
  | blank =>
    obtain rfl := Option.some.inj h
    exact hdoc
  | header path =>
    simp only [Doc.add] at h
    split at h
    · cases h
    · obtain ⟨root, hroot, rfl⟩ := Option.map_eq_some_iff.mp h
      split at hroot
      · obtain rfl := Option.some.inj hroot
        exact hdoc
      · exact hdoc.insert path (.table (by simp)) hroot
  | entry key v =>
    obtain ⟨root, hroot, rfl⟩ := Option.map_eq_some_iff.mp h
    refine hdoc.insert _ ?_ hroot
    unfold readStatement at hstatement
    split at hstatement
    · cases hstatement
    split at hstatement
    · obtain ⟨keys, -, hkeys⟩ := Option.map_eq_some_iff.mp hstatement
      cases hkeys
    · obtain ⟨pair, hpair, heq⟩ := Option.map_eq_some_iff.mp hstatement
      obtain ⟨rfl, rfl⟩ := Statement.entry.inj heq
      exact plain_of_readPair (fun _ _ => plain_of_readValue) hpair

theorem Doc.plain_of_readAll : (lines : List String) → {doc doc' : Doc} → doc.root.Plain →
    doc.readAll lines = some doc' → doc'.root.Plain
  | [], _, _, hdoc, h => by
    obtain rfl := Option.some.inj h
    exact hdoc
  | line :: lines, _, _, hdoc, h => by
    rw [Doc.readAll_cons] at h
    obtain ⟨next, hnext, hrest⟩ := Option.bind_eq_some_iff.mp h
    exact Doc.plain_of_readAll lines (Doc.plain_of_read hdoc hnext) hrest

/-- **Only plain strings are read.** -/
theorem plain_of_readDocument {text : String} {table : Table} (h : readDocument text = .ok table) :
    table.Plain := by
  unfold readDocument at h
  split at h
  · next doc hdoc =>
    obtain rfl := Except.ok.inj h
    exact Doc.plain_of_readAll _ (by simp [Table.Plain]) hdoc
  · cases h

/-! ## What lines say -/

/-- The lines say these statements, blank lines apart. -/
def Says (lines : List String) (statements : List Statement) : Prop :=
  ∃ all, lines.mapM readStatement = some all ∧ all.filter Statement.says = statements

theorem Says.append {lines lines' : List String} {statements statements' : List Statement}
    (h : Says lines statements) (h' : Says lines' statements') :
    Says (lines ++ lines') (statements ++ statements') := by
  obtain ⟨all, hall, rfl⟩ := h
  obtain ⟨all', hall', rfl⟩ := h'
  refine ⟨all ++ all', ?_, List.filter_append ..⟩
  rw [List.mapM_append, hall, hall']
  rfl

theorem Says.of_entry {line key : String} {value : Value}
    (h : readStatement line = some (.entry key value)) : Says [line] [.entry key value] :=
  ⟨[.entry key value], by rw [List.mapM_cons, h]; rfl, rfl⟩

/-- Where some parts are written and some are not. -/
theorem Says.flatMap {α : Type} {lines : α → List String} {statements : α → List Statement} :
    (parts : List α) → (∀ part ∈ parts, Says (lines part) (statements part)) →
    Says (parts.flatMap lines) (parts.flatMap statements)
  | [], _ => ⟨[], rfl, rfl⟩
  | part :: parts, h => by
    rw [List.flatMap_cons, List.flatMap_cons]
    exact (h part List.mem_cons_self).append
      (Says.flatMap parts fun p hp => h p (List.mem_cons_of_mem _ hp))

/-- **A text whose lines say a document table by table is read as this document.** -/
theorem readDocument_of_says {text : String} (pairs : Table) {sections : List Section}
    (h : Says (splitLines text)
      (pairs.map (fun pair => .entry pair.1 pair.2) ++ sections.flatMap Section.statements))
    (hwell : ∀ s ∈ sections, s.WellFormed)
    (hnodup : (pairs.map Prod.fst ++ sections.map Section.key).Nodup) :
    readDocument text = .ok (pairs ++ sections.map fun s => (s.key, s.value)) := by
  obtain ⟨all, hall, hsays⟩ := h
  have hpairs : Doc.addAll {} (pairs.map fun pair => .entry pair.1 pair.2) = some { root := pairs } :=
    Doc.addAll_pairs id [] (fun fields pair hnew => insert_new hnew pair.2) [] pairs []
      (List.nodup_append.mp hnodup).1
  obtain ⟨doc, hdoc, hroot⟩ := Doc.addAll_sections sections { root := pairs } hwell hnodup (by simp)
  unfold readDocument
  rw [Doc.readAll_of_mapM _ hall, Doc.addAll_says, hsays, Doc.addAll_append, hpairs,
    Option.bind_some, hdoc]
  exact congrArg Except.ok hroot

end Toml
