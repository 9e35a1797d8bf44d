import SchemaDesk.Proofs.Sql.Built
import SchemaDesk.Proofs.Sql.ColumnText
import SchemaDesk.Proofs.Sql.Sentences

/-!
# Tables as text

A table is written as one statement whose body lists its columns and, where the primary key has
several of them, the key.  Reading that statement gives a table of the same name whose columns are
those that were written, in the same order, up to what the text of a column keeps
(`createTable_reads`).
-/

namespace SchemaDesk

/-! ## What is read back -/

/-- What a column keeps of its size, precision, scale and members when it is written. -/
def Column.kept (c : Column) : Sql.TypeArguments :=
  match c.type with
  | .str s =>
      match DataType.ofName? s with
      | some type => type.kept c
      | none => {}
  | _ => {}

/-- A column as it stands in its text: its flags are plain truth values, a key column is not marked
unique too, and a key of several columns is written elsewhere. -/
def Column.written (c : Column) (inlineKey : Bool) (id : Value) : Column :=
  { id, name := c.name, type := c.type, size := c.kept.size, precision := c.kept.precision,
    scale := c.kept.scale, isPrimaryKey := .bool (c.isPrimaryKey.isTruthy && inlineKey),
    isNullable := .bool c.isNullable.isTruthy,
    isUnique := .bool (c.isUnique.isTruthy && !c.isPrimaryKey.isTruthy),
    enumValues := c.kept.enumValues }

/-- A column as it is read back, under a new identifier: all that the text keeps of it, and marks
for the relations that start at it. -/
def Column.ReadBack (c d : Column) : Prop :=
  d = { c.written true d.id with
    isForeignKey := d.isForeignKey
    referencesTableId := d.referencesTableId
    referencesColumnId := d.referencesColumnId }

theorem Column.ReadBack.name {c d : Column} (h : c.ReadBack d) : d.name = c.name := by
  rw [h]
  rfl

/-- A table as it is read back: its name and its columns, in order. -/
structure Table.ReadBack (t u : Table) : Prop where
  name : u.name = t.name
  columns : List.Forall₂ Column.ReadBack t.columns u.columns

theorem Table.ReadBack.columnNames {t u : Table} (h : t.ReadBack u) :
    (t.columns.map fun c => Text.fold c.name.text) =
      u.columns.map fun c => Text.fold c.name.text :=
  Sql.forall₂_map_eq h.columns fun c d hcolumn => by rw [hcolumn.name]

theorem tableNames_readBack {before after : List Table}
    (h : List.Forall₂ Table.ReadBack before after) :
    (before.map fun t => Text.fold t.name.text) = after.map fun t => Text.fold t.name.text :=
  Sql.forall₂_map_eq h fun t u hread => by rw [hread.name]

/-- A table that can be written and read back: its name is neither blank nor surrounded by blanks,
and its columns have names that differ in more than letter case. -/
structure Table.IsWritable (t : Table) : Prop where
  name : ∃ s, t.name = .str s ∧ s.trim = s ∧ s ≠ []
  nonempty : t.columns ≠ []
  columns : ∀ c ∈ t.columns, c.IsWritable
  distinct : (t.columns.map fun c => Text.fold c.name.text).Nodup

namespace Sql

open Minting

/-! ## One column -/

/-- The modifiers that are written for the flags of a column, of which a key may be written with the
column or not. -/
def modifiersFor (key inlineKey nullable unique : Bool) : List Text :=
  (if key && inlineKey then ["PRIMARY", "KEY"] else []) ++
    (if nullable then [] else ["NOT", "NULL"]) ++ (if unique && !key then ["UNIQUE"] else [])

theorem mem_modifiersFor {key inlineKey nullable unique : Bool} :
    ∀ w ∈ modifiersFor key inlineKey nullable unique, w ∈ modifierWords := by
  revert key inlineKey nullable unique
  decide

/-- The phrases among the modifiers are those of the flags. -/
theorem hasPhrase_modifiersFor (key inlineKey nullable unique : Bool) :
    let ws := modifiersFor key inlineKey nullable unique
    hasPhrase ["PRIMARY", "KEY"] ws = (key && inlineKey) ∧
      hasPhrase ["NOT", "NULL"] ws = !nullable ∧ hasPhrase ["UNIQUE"] ws = (unique && !key) ∧
      hasPhrase ["AUTO_INCREMENT"] ws = false ∧ hasPhrase ["AUTOINCREMENT"] ws = false ∧
      hasPhrase ["IDENTITY"] ws = false ∧ hasPhrase ["UNSIGNED"] ws = false := by
  revert key inlineKey nullable unique
  decide

/-- The modifiers of a column. -/
def modifiersOf (c : Column) (inlineKey : Bool) : List Text :=
  modifiersFor c.isPrimaryKey.isTruthy inlineKey c.isNullable.isTruthy c.isUnique.isTruthy

/-- A clause reads as a column: it is declared by that text alone, and building it gives that
column. -/
structure ClauseOf (c : Column) (inlineKey : Bool) (text : Text) (clause : ColumnClause) :
    Prop where
  item : IsItem text
  read : classify text = .column clause
  references : clause.references = none
  built : ∀ ids, (buildColumn clause).Gives ids
    (c.written inlineKey (.str (identifier (ids.drawn + 1)))) ⟨ids.drawn + 1⟩

/-- The modifiers of a column say what they were written for. -/
theorem columnOf_modifiers {c : Column} {inlineKey : Bool} {name keyword : Text}
    {arguments : List Text} (hname : c.name = .str name) (hkeyword : keyword ∈ writtenTypes)
    (htype : c.type = .str (typeOf keyword).name) (id : Text) :
    columnOf { name, rawType := keyword, arguments, modifiers := modifiersOf c inlineKey } c.kept
      id = c.written inlineKey id := by
  have hserial : ∀ k ∈ writtenTypes, serialTypes.contains k = false := by decide
  obtain ⟨hkey, hnull, hunique, hauto, hautoincrement, hidentity, hunsigned⟩ :=
    hasPhrase_modifiersFor c.isPrimaryKey.isTruthy inlineKey c.isNullable.isTruthy
      c.isUnique.isTruthy
  simp only [columnOf, modifiersOf, Column.written, hkey, hnull, hunique, hauto, hautoincrement,
    hidentity, hunsigned, hserial keyword hkeyword, hname, htype, Bool.or_self, Bool.not_not,
    Value.ofText?]

/-- The text of a column is its name, its type and its modifiers. -/
theorem join_column (name type : Text) (key inlineKey nullable unique : Bool) :
    Text.join " " (name :: type ::
      (([(key && inlineKey, "PRIMARY KEY"), (!nullable, "NOT NULL"), (unique && !key, "UNIQUE")] :
          List (Bool × Text)).filter Prod.fst).map Prod.snd) =
      name ++ .char ' ' ::
        (type ++ textOf (wordsOf (modifiersFor key inlineKey nullable unique))) := by
  have hmodifiers : ((([(key && inlineKey, "PRIMARY KEY"), (!nullable, "NOT NULL"),
      (unique && !key, "UNIQUE")] : List (Bool × Text)).filter Prod.fst).map Prod.snd).flatMap
        (Text.ofString " " ++ ·) =
      textOf (wordsOf (modifiersFor key inlineKey nullable unique)) := by
    revert key inlineKey nullable unique
    decide
  rw [Text.join_cons, List.flatMap_cons, hmodifiers]
  simp [Text.ofString, Text.ofChars]

/-- Every engine quotes names in one of two ways. -/
theorem nameQuote_cases (database : Value) :
    nameQuote database = '"' ∨ nameQuote database = '`' := by
  rw [nameQuote]
  split
  · exact .inl rfl
  · exact .inr rfl

/-- A writable column is written as a text that reads as the column. -/
theorem columnDefinition_reads {c : Column} (hc : c.IsWritable) (database : Value)
    (inlineKey : Bool) :
    ∃ text clause, columnDefinition c database inlineKey = .ok text ∧
      ClauseOf c inlineKey text clause := by
  obtain ⟨name, hname⟩ := hc.name
  obtain ⟨type, htype⟩ := hc.type
  obtain ⟨keyword, arguments, hwritten⟩ := knownType_writtenAs hc type
  have hquote := nameQuote_cases database
  have hkept : c.kept = type.kept c := by
    simp only [Column.kept, htype, DataType.ofName?_name]
  have hmodifiers : ∀ w ∈ modifiersOf c inlineKey, w ∈ modifierWords := mem_modifiersFor
  refine ⟨textOf (columnPieces (nameQuote database) name keyword arguments
    (modifiersOf c inlineKey)),
    { name, rawType := keyword, arguments, modifiers := modifiersOf c inlineKey }, ?_, ?_⟩
  · have hcolumnType : columnType c = .ok (textOf (typePieces keyword arguments [])) := by
      rw [columnType, htype]
      simp only [Value.isKey, if_true, DataType.ofName?_name]
      exact hwritten.text
    rw [columnDefinition, hname, hcolumnType]
    show Except.ok (Text.join " " _) = _
    rw [join_column]
    simp [columnPieces, typePieces, modifiersOf, wordsOf, Piece.text]
  · refine ⟨columnPieces_isItem hquote hwritten.known hwritten.items hmodifiers,
      classify_column hquote hwritten.known hwritten.items hmodifiers, rfl, fun ids => ?_⟩
    refine buildColumn_gives.2 ⟨type.kept c, ?_, ?_, rfl⟩
    · show typeArguments (typeOf keyword) arguments = _
      rw [hwritten.told]
      exact hwritten.kept
    · rw [← hkept, columnOf_modifiers hname hwritten.known (by rw [hwritten.told, htype])]

/-! ## The columns of a table -/

/-- The texts of the columns of a table, with the clauses that they are read as. -/
theorem columnDefinitions_read {cs : List Column} (h : ∀ c ∈ cs, c.IsWritable) (database : Value)
    (inlineKey : Bool) :
    ∃ (texts : List Text) (clauses : List ColumnClause),
      cs.mapM (fun c => columnDefinition c database inlineKey) = .ok texts ∧
      (∀ t ∈ texts, IsItem t) ∧ texts.map classify = clauses.map Clause.column ∧
      (∀ k ∈ clauses, k.references = none) ∧
      ∀ ids, ∃ ds ids', (clauses.mapM buildColumn).Gives ids ds ids' ∧
        List.Forall₂ (fun c d => d = c.written inlineKey d.id) cs ds := by
  induction cs with
  | nil =>
      exact ⟨[], [], rfl, by simp, rfl, by simp,
        fun ids => ⟨[], ids, gives_pure.2 ⟨rfl, rfl⟩, .nil⟩⟩
  | cons c cs ih =>
      obtain ⟨text, clause, htext, hclause⟩ :=
        columnDefinition_reads (h c List.mem_cons_self) database inlineKey
      obtain ⟨texts, clauses, htexts, hitems, hread, hreferences, hbuilt⟩ :=
        ih fun d hd => h d (List.mem_cons_of_mem _ hd)
      refine ⟨text :: texts, clause :: clauses, ?_, ?_, ?_, ?_, fun ids => ?_⟩
      · rw [List.mapM_cons, htext, htexts]
        rfl
      · exact List.forall_mem_cons.2 ⟨hclause.item, hitems⟩
      · rw [List.map_cons, List.map_cons, hclause.read, hread]
      · exact List.forall_mem_cons.2 ⟨hclause.references, hreferences⟩
      · obtain ⟨ds, ids', hds, hmatch⟩ := hbuilt ⟨ids.drawn + 1⟩
        refine ⟨c.written inlineKey (.str (identifier (ids.drawn + 1))) :: ds, ids', ?_,
          .cons rfl hmatch⟩
        rw [List.mapM_cons]
        exact gives_bind.2 ⟨_, _, hclause.built ids,
          gives_bind.2 ⟨ds, ids', hds, gives_pure.2 ⟨rfl, rfl⟩⟩⟩

/-! ## The key of a table -/

/-- The names that are listed in parentheses are read as they were written. -/
theorem namesIn_quoted {quote : CodePoint} (hquote : quote = '"' ∨ quote = '`') (ns : List Text) :
    namesIn (some (Text.join ", " (ns.map (quoteName quote)))) = ns := by
  have hitems : ∀ x ∈ ns.map (quoteName quote), IsItem x := by
    intro x hx
    obtain ⟨n, -, rfl⟩ := List.mem_map.1 hx
    exact isItem_quoteName hquote n
  have hsplit := splitItems_join " " rfl hitems
  have hfirst : ∀ n, (tokenize (quoteName quote n)).head?.bind Token.name? = some n := by
    intro n
    have hlegible : Legible none [.name quote n] :=
      ⟨by rcases hquote with rfl | rfl <;> rfl, fun _ h => by simp at h⟩
    have htokens := tokenize_pieces hlegible
    rw [textOf_cons, textOf_nil, List.append_nil] at htokens
    have htext : quoteName quote n = Piece.text (.name quote n) := rfl
    rw [htext, htokens]
    rfl
  show (splitItems (Text.join (.char ',' :: Text.ofString " ")
    (ns.map (quoteName quote)))).filterMap
      (fun item => (tokenize item).head?.bind Token.name?) = ns
  rw [hsplit, List.filterMap_map]
  simp only [Function.comp_def, hfirst, List.filterMap_some]

/-- A primary key as it is written on its own. -/
def keyPieces (quote : CodePoint) (ns : List Text) : List Piece :=
  [.word "PRIMARY", .gap ' ', .word "KEY", .gap ' ',
    .group (Text.join ", " (ns.map (quoteName quote)))]

theorem keyPieces_legible {quote : CodePoint} (hquote : quote = '"' ∨ quote = '`')
    (ns : List Text) : Legible none (keyPieces quote ns) := by
  refine ⟨rfl, fun body hbody => ?_⟩
  have hgroup : body = Text.join ", " (ns.map (quoteName quote)) := by
    simpa [keyPieces] using hbody
  rw [hgroup]
  refine .join (.of_all (by decide)) fun x hx => ?_
  obtain ⟨n, -, rfl⟩ := List.mem_map.1 hx
  exact (isItem_quoteName hquote n).solid.toNeutral

/-- A written key is read as the key of its columns. -/
theorem classify_key {quote : CodePoint} (hquote : quote = '"' ∨ quote = '`') {ns : List Text}
    (hne : ns ≠ []) : classify (textOf (keyPieces quote ns)) = .primaryKey ns := by
  have htokens := tokenize_pieces (keyPieces_legible hquote ns)
  have hnames := namesIn_quoted hquote ns
  generalize textOf (keyPieces quote ns) = text at *
  have hempty : ns.isEmpty = false := List.isEmpty_eq_false_iff.2 hne
  have hkey : classifyKey text none (tokenize text) = some (.primaryKey ns) := by
    rw [htokens, keyPieces]
    show some (if (namesIn (some (Text.join ", " (ns.map (quoteName quote))))).isEmpty then
      Clause.unrecognized text
        else .primaryKey (namesIn (some (Text.join ", " (ns.map (quoteName quote)))))) = _
    rw [hnames, hempty]
    rfl
  have hconstraint : after? ["CONSTRAINT"] (tokenize text) = none := by
    rw [htokens]
    rfl
  rw [classify]
  simp only [hconstraint, hkey]

/-! ## The body of a table -/

/-- Items as the body of a table, one on each line. -/
def bodyOf (items : List Text) : Text :=
  "\n" ++ Text.join ",\n" (items.map fun line : Text => "  " ++ line) ++ "\n"

/-- The body of a table is split into its lines. -/
theorem bodyOf_items {items : List Text} (hne : items ≠ []) (h : ∀ x ∈ items, IsItem x) :
    splitItems (bodyOf items) = items ∧ Neutral (bodyOf items) := by
  have hjoin : bodyOf items =
      "\n  " ++ (Text.join (.char ',' :: Text.ofString "\n  ") items ++ Text.ofString "\n") := by
    cases items with
    | nil => exact absurd rfl hne
    | cons x xs =>
        rw [bodyOf, List.map_cons, Text.join_cons, Text.join_cons, List.flatMap_map]
        simp [Text.ofString, Text.ofChars]
  rw [hjoin]
  refine ⟨splitItems_listed (by decide) (by decide) (by decide) h, ?_⟩
  have hlead : Neutral (Text.ofString "\n  ") := (Solid.of_blank (by decide)).toNeutral
  have htrail : Neutral (Text.ofString "\n") := (Solid.of_blank (by decide)).toNeutral
  have hgap : Neutral (.char ',' :: Text.ofString "\n  ") :=
    (Neutral.char (c := .char ',') rfl).append hlead
  exact hlead.append ((Neutral.join hgap fun x hx => (h x hx).solid.toNeutral).append htrail)

/-- The names of the columns of the primary key. -/
def keyNames (t : Table) : List Text :=
  (keyColumns t).map (·.name.text)

/-- The names of the key name the columns of the key and no others. -/
theorem keyNames_name {t : Table} (ht : t.IsWritable) {c : Column} (hc : c ∈ t.columns) :
    (keyNames t).any (c.name.isNamed ·) = c.isPrimaryKey.isTruthy := by
  obtain ⟨s, hs⟩ := (ht.columns c hc).name
  have hfold : ∀ n, c.name.isNamed n = decide (Text.fold c.name.text = Text.fold n) := by
    intro n
    rw [hs]
    rfl
  rw [Bool.eq_iff_iff, List.any_eq_true]
  constructor
  · -- a name of the key belongs to one column only, so that column is in the key
    rintro ⟨n, hn, hnamed⟩
    obtain ⟨k, hk, rfl⟩ := List.mem_map.1 hn
    obtain ⟨hmem, hkey⟩ := List.mem_filter.1 hk
    rw [hfold, decide_eq_true_eq] at hnamed
    rwa [List.inj_on_of_nodup_map ht.distinct hc hmem hnamed]
  · intro hkey
    refine ⟨c.name.text, List.mem_map_of_mem (List.mem_filter.2 ⟨hc, hkey⟩), ?_⟩
    rw [hfold, decide_eq_true_eq]

/-- The clause for a key of several columns. -/
def keyClauses (t : Table) : List Clause :=
  if 1 < (keyColumns t).length then [.primaryKey (keyNames t)] else []

theorem filterMap_columns {α : Type} {f : Clause → Option α} (hf : ∀ k, f (.column k) = none)
    (clauses : List ColumnClause) : (clauses.map Clause.column).filterMap f = [] := by
  rw [List.filterMap_map, List.filterMap_eq_nil_iff]
  exact fun k _ => hf k

/-- With the key marked on it, a column stands as it was written. -/
theorem keyed_written {t : Table} (ht : t.IsWritable) {c d : Column} (hc : c ∈ t.columns)
    (hd : d = c.written (!decide (1 < (keyColumns t).length)) d.id)
    (clauses : List ColumnClause) :
    keyed (clauses.map Clause.column ++ keyClauses t) d = c.written true d.id := by
  have hprimary : ((clauses.map Clause.column ++ keyClauses t).filterMap Clause.primaryKey?) =
      if 1 < (keyColumns t).length then [keyNames t] else [] := by
    rw [List.filterMap_append, filterMap_columns (fun _ => rfl), List.nil_append, keyClauses]
    split <;> rfl
  have hunique : ((clauses.map Clause.column ++ keyClauses t).filterMap Clause.uniqueColumn?) =
      [] := by
    rw [List.filterMap_append, filterMap_columns (fun _ => rfl), List.nil_append, keyClauses]
    split <;> rfl
  have hname : d.name = c.name := by
    rw [hd]
    rfl
  have hmarked : (if 1 < (keyColumns t).length then [keyNames t] else []).any
      (·.any (c.name.isNamed ·)) =
        (decide (1 < (keyColumns t).length) && c.isPrimaryKey.isTruthy) := by
    split
    · next hcomposite => simp [hcomposite, keyNames_name ht hc]
    · next hcomposite => simp [hcomposite]
  rw [keyed, hprimary, hunique, hname, hmarked]
  generalize d.id = id at *
  rw [hd]
  simp only [List.any_nil, Column.written]
  -- either the key is marked by its clause or it was written with the column
  cases decide (1 < (keyColumns t).length) with
  | true => cases c.isPrimaryKey.isTruthy <;> rfl
  | false => rfl

/-- The lines of a table with the clauses they are read as. -/
theorem tableLines_read {t : Table} (ht : t.IsWritable) (database : Value) :
    ∃ (texts keys : List Text) (clauses : List ColumnClause),
      t.columns.mapM (fun c => columnDefinition c database
        (!decide (1 < (keyColumns t).length))) = .ok texts ∧
      keys = (if 1 < (keyColumns t).length then
        [textOf (keyPieces (nameQuote database) (keyNames t))] else []) ∧
      (∀ x ∈ texts ++ keys, IsItem x) ∧
      (texts ++ keys).map classify = clauses.map Clause.column ++ keyClauses t ∧
      (∀ k ∈ clauses, k.references = none) ∧
      ∀ ids, ∃ ds ids', (clauses.mapM buildColumn).Gives ids ds ids' ∧
        List.Forall₂ (fun c d => d = c.written (!decide (1 < (keyColumns t).length)) d.id)
          t.columns ds := by
  have hquote := nameQuote_cases database
  obtain ⟨texts, clauses, htexts, hitems, hread, hreferences, hbuilt⟩ :=
    columnDefinitions_read ht.columns database (!decide (1 < (keyColumns t).length))
  refine ⟨texts, _, clauses, htexts, rfl, ?_, ?_, hreferences, hbuilt⟩
  · intro x hx
    rcases List.mem_append.1 hx with hx | hx
    · exact hitems x hx
    · split at hx
      · rw [List.mem_singleton.1 hx]
        exact (keyPieces_legible hquote (keyNames t)).isItem rfl rfl rfl
      · cases hx
  · rw [List.map_append, hread, keyClauses]
    split
    · next hcomposite =>
        have hne : keyNames t ≠ [] := by
          rw [keyNames, ne_eq, List.map_eq_nil_iff]
          rintro hnil
          rw [hnil] at hcomposite
          cases hcomposite
        rw [List.map_cons, classify_key hquote hne]
        rfl
    · rfl

/-- The text of a table, put together from its lines. -/
theorem createTable_eq {t : Table} (ht : t.IsWritable) {database : Value} {name : Text}
    (hname : t.name = .str name) {texts keys : List Text}
    (htexts : t.columns.mapM (fun c => columnDefinition c database
      (!decide (1 < (keyColumns t).length))) = .ok texts)
    (hkeys : keys = if 1 < (keyColumns t).length then
      [textOf (keyPieces (nameQuote database) (keyNames t))] else []) :
    createTable t database = .ok (textOf
      ((Sentence.create name (bodyOf (texts ++ keys))).pieces (nameQuote database))) := by
  have hnames : (keyColumns t).mapM (fun c => quoteIdentifier c.name database) =
      .ok ((keyNames t).map (quoteName (nameQuote database))) := by
    rw [keyNames, List.map_map]
    refine mapM_eq_ok fun c hc => ?_
    obtain ⟨s, hs⟩ := (ht.columns c (List.mem_filter.1 hc).1).name
    show quoteIdentifier c.name database = .ok (quoteName (nameQuote database) c.name.text)
    rw [hs]
    rfl
  have htext : ∀ body : Text, "CREATE TABLE " ++ quoteName (nameQuote database) name ++ " (\n" ++
      body ++ "\n);" = textOf ((Sentence.create name ("\n" ++ body ++ "\n")).pieces
        (nameQuote database)) := by
    intro body
    simp [Sentence.pieces, Piece.text, parenthesized, Text.ofString, Text.ofChars]
  rw [createTable, htexts, hname]
  by_cases hcomposite : 1 < (keyColumns t).length
  · have hkey : textOf (keyPieces (nameQuote database) (keyNames t)) =
        "PRIMARY KEY (" ++ Text.join ", " ((keyNames t).map (quoteName (nameQuote database))) ++
          ")" := by
      simp [keyPieces, Piece.text, parenthesized, Text.ofString, Text.ofChars]
    rw [if_pos hcomposite] at hkeys
    rw [hnames, hkeys, bodyOf, ← htext, hkey]
    simp only [hcomposite, decide_true, if_true]
    rfl
  · rw [if_neg hcomposite] at hkeys
    rw [hkeys, bodyOf, ← htext]
    simp only [hcomposite, decide_false, Bool.false_eq_true, if_false]
    rfl

/-- The clauses of a table declare its columns and mark its key, and nothing else. -/
theorem filterMap_tableClauses (t : Table) {clauses : List ColumnClause}
    (h : ∀ k ∈ clauses, k.references = none) :
    let all := clauses.map Clause.column ++ keyClauses t
    all.filterMap Clause.column? = clauses ∧ all.filterMap Clause.foreignKey? = [] ∧
      all.filterMap Clause.skipped? = [] := by
  intro all
  have hkey : ∀ {α : Type} {f : Clause → Option α}, (∀ ns, f (.primaryKey ns) = none) →
      (keyClauses t).filterMap f = [] := by
    intro α f hf
    rw [keyClauses]
    split
    · simp [hf]
    · rfl
  refine ⟨?_, ?_, ?_⟩
  · rw [List.filterMap_append, hkey fun _ => rfl, List.append_nil, List.filterMap_map]
    exact List.filterMap_some
  · rw [List.filterMap_append, hkey fun _ => rfl, List.append_nil, List.filterMap_map,
      List.filterMap_eq_nil_iff]
    exact h
  · rw [List.filterMap_append, hkey fun _ => rfl, List.append_nil, filterMap_columns fun _ => rfl]

/-- A writable table is written as a statement, and reading the statement adds the table to what was
read before. -/
theorem createTable_reads {t : Table} (ht : t.IsWritable) (database : Value) :
    ∃ name body, createTable t database =
        .ok (textOf ((Sentence.create name body).pieces (nameQuote database))) ∧
      (Sentence.create name body).WellFormed ∧
      ∀ (d : Draft) (ids : IdSupply), ∃ u ids', (d.add (.createTable name body {})).Gives ids
        { d with tables := d.tables ++ [u] } ids' ∧ t.ReadBack u := by
  obtain ⟨name, hname, htrim, hne⟩ := ht.name
  obtain ⟨texts, keys, clauses, htexts, hkeys, hitems, hread, hreferences, hbuilt⟩ :=
    tableLines_read ht database
  -- a table without lines would have no columns
  have hlines : texts ++ keys ≠ [] := by
    intro hnil
    rw [hnil, List.map_nil, eq_comm, List.append_eq_nil_iff, List.map_eq_nil_iff] at hread
    obtain ⟨ds, ids', hds, hmatch⟩ := hbuilt {}
    rw [hread.1] at hds
    obtain ⟨rfl, -⟩ := gives_pure.1 hds
    exact ht.nonempty (List.forall₂_nil_right_iff.1 hmatch)
  obtain ⟨hsplit, hneutral⟩ := bodyOf_items hlines hitems
  refine ⟨name, bodyOf (texts ++ keys), createTable_eq ht hname htexts hkeys, ?_,
    fun d ids => ?_⟩
  · refine ⟨htrim, hne, fun _ _ hcreate => ?_, fun _ _ halter => by cases halter⟩
    cases hcreate
    exact hneutral
  · obtain ⟨ds, mid, hds, hmatch⟩ := hbuilt ids
    obtain ⟨hcolumns, hforeign, hskipped⟩ := filterMap_tableClauses t hreferences
    set all := clauses.map Clause.column ++ keyClauses t with hall
    have hbuild : (buildTable d.tables.length name all {}).Gives ids
        (tableOf d.tables.length name all {} ds (identifier (mid.drawn + 1))) ⟨mid.drawn + 1⟩ := by
      refine buildTable_gives.2 ⟨ds, mid, ?_, rfl, rfl⟩
      rwa [hcolumns]
    have hnonempty : (ds.map (keyed all)).isEmpty = false := by
      rw [List.isEmpty_eq_false_iff, ne_eq, List.map_eq_nil_iff]
      rintro rfl
      exact ht.nonempty (List.forall₂_nil_right_iff.1 hmatch)
    refine ⟨tableOf d.tables.length name all {} ds (identifier (mid.drawn + 1)),
      ⟨mid.drawn + 1⟩, ?_, hname.symm, ?_⟩
    · rw [Draft.add_createTable_gives]
      refine ⟨_, by rw [hsplit, hread]; exact hbuild, ?_⟩
      rw [hsplit, hread, Draft.with, hforeign, hskipped]
      simp only [tableOf, hnonempty, Bool.false_eq_true, if_false, List.append_nil, List.map_nil]
    · show List.Forall₂ Column.ReadBack t.columns (ds.map (keyed all))
      rw [List.forall₂_map_right_iff]
      refine ((List.forall₂_and_left _ _).2 ⟨fun c hc => hc, hmatch⟩).imp ?_
      rintro c d ⟨hc, hd⟩
      have hkeyed := keyed_written ht hc hd clauses
      rw [Column.ReadBack, hkeyed]
      rfl

end Sql

end SchemaDesk
