import Mathlib.Data.List.Infix
import SchemaDesk.Proofs.Sql.RespacedClauses

/-!
# Layout and comments

A text may be laid out anew: wherever it has a gap, of blanks and comments, there may be another
one.  The two texts declare the same (`parse_relaid`).  Only a default with a group in its literal
keeps the blanks inside the group, since its value is a piece of the text.

Removing the comments of such texts leaves texts that are respaced (`Relaid.respaced`), so that the
scanners, the tokens, the clauses and the statements compare as those of respaced texts do.
-/

namespace SchemaDesk

/-- A column without its default value. -/
def Column.withoutDefault (c : Column) : Column :=
  { c with defaultValue := .null }

/-- A table whose columns are without default values. -/
def Table.withoutDefaults (t : Table) : Table :=
  { t with columns := t.columns.map Column.withoutDefault }

/-- What a text declares, without the default values of columns. -/
def Parsed.withoutDefaults (p : Parsed) : Parsed :=
  { p with tables := p.tables.map Table.withoutDefaults }

namespace Sql

/-! ## Gaps -/

/-- Blanks and comments that end: a line comment with its line, a block comment at the first `*/`. -/
inductive IsFiller : Text → Prop where
  | nil : IsFiller []
  | blank {c : CodePoint} {f : Text} : c.is Text.isBlank = true → IsFiller f → IsFiller (c :: f)
  | line {body f : Text} : .char '\n' ∉ body → IsFiller f →
      IsFiller (.char '-' :: .char '-' :: (body ++ .char '\n' :: f))
  | block {body f : Text} : ¬[.char '*', .char '/'] <:+: body → IsFiller f →
      IsFiller (.char '/' :: .char '*' :: (body ++ .char '*' :: .char '/' :: f))

/-- A gap: a blank, and then any blanks and comments. -/
inductive IsGap : Text → Prop where
  | blank {c : CodePoint} {f : Text} : c.is Text.isBlank = true → IsFiller f → IsGap (c :: f)

/-- A character that stands outside quotes and is no blank and no opening bracket. -/
def isBareChar (c : CodePoint) : Bool :=
  isVisible c && !isQuote c

/-- Characters that stand together outside quotes and open no comment. -/
structure IsBareRun (w : Text) : Prop where
  ne_nil : w ≠ []
  chars : w.all isBareChar = true
  line : ¬[.char '-', .char '-'] <:+: w
  block : ¬[.char '/', .char '*'] <:+: w

instance (w : Text) : Decidable (IsBareRun w) :=
  decidable_of_iff (_ ∧ _ ∧ _ ∧ _)
    ⟨fun h => ⟨h.1, h.2.1, h.2.2.1, h.2.2.2⟩, fun h => ⟨h.ne_nil, h.chars, h.line, h.block⟩⟩

/-- Texts made of the same quoted runs and the same runs of other characters, with gaps in the same
places. -/
inductive Relaid : Text → Text → Prop where
  | nil : Relaid [] []
  | quoted {r t t' : Text} : IsRun r → Relaid t t' → Relaid (r ++ t) (r ++ t')
  | bare {w t t' : Text} : IsBareRun w → t.head?.any isBareChar = false → Relaid t t' →
      Relaid (w ++ t) (w ++ t')
  | gap {g g' t t' : Text} : IsGap g → IsGap g' → Relaid t t' → Relaid (g ++ t) (g' ++ t')

section Gaps

variable {c : CodePoint} {t t' f g w : Text}

/-- A block comment leaves one space. -/
theorem stripFrom_block {body : Text} (h : ¬[.char '*', .char '/'] <:+: body) (t : Text) :
    stripFrom .block (body ++ .char '*' :: .char '/' :: t) = stripFrom (.code .bare) t := by
  induction body with
  | nil => simp [stripFrom]
  | cons c body ih =>
      have hrest := ih fun hpart => h (hpart.trans (List.infix_cons (List.infix_refl _)))
      cases body with
      | nil =>
          rw [List.singleton_append, stripFrom, if_neg (by simp)]
          exact hrest
      | cons d body =>
          have hclose : ¬(c = .char '*' ∧ d = .char '/') := by
            rintro ⟨rfl, rfl⟩
            exact h ⟨[], body, rfl⟩
          rw [List.cons_append, List.cons_append, stripFrom, if_neg hclose]
          exact hrest

theorem stripFrom_blank (hc : c.is Text.isBlank = true) (t : Text) :
    stripFrom (.code .bare) (c :: t) = c :: stripFrom (.code .bare) t := by
  have hsolid := isSolidChar_of_blank hc
  rw [isSolidChar, Bool.and_eq_true] at hsolid
  exact (Neutral.char hsolid.1).kept t

theorem isBlankText_cons (hc : c.is Text.isBlank = true) (ht : Text.isBlankText t = true) :
    Text.isBlankText (c :: t) = true := by
  rw [Text.isBlankText, List.all_cons, Bool.and_eq_true]
  exact ⟨hc, ht⟩

/-- Of blanks and comments only blanks are left. -/
theorem IsFiller.stripped (h : IsFiller f) (t : Text) :
    ∃ blanks, Text.isBlankText blanks = true ∧
      stripFrom (.code .bare) (f ++ t) = blanks ++ stripFrom (.code .bare) t := by
  induction h with
  | nil => exact ⟨[], rfl, rfl⟩
  | @blank c f hc _ ih =>
      obtain ⟨blanks, hblanks, hrest⟩ := ih
      refine ⟨c :: blanks, isBlankText_cons hc hblanks, ?_⟩
      rw [List.cons_append, stripFrom_blank hc, hrest]
      rfl
  | @line body f hbody _ ih =>
      obtain ⟨blanks, hblanks, hrest⟩ := ih
      refine ⟨.char '\n' :: blanks, isBlankText_cons rfl hblanks, ?_⟩
      have hopen : stripFrom (.code .bare)
          (.char '-' :: .char '-' :: (body ++ .char '\n' :: (f ++ t))) =
            stripFrom .line (body ++ .char '\n' :: (f ++ t)) := by
        simp [stripFrom]
      simp only [List.cons_append, List.append_assoc]
      rw [hopen, stripFrom_line hbody, stripFrom, if_pos rfl, hrest]
  | @block body f hbody _ ih =>
      obtain ⟨blanks, hblanks, hrest⟩ := ih
      refine ⟨.char ' ' :: blanks, isBlankText_cons rfl hblanks, ?_⟩
      have hopen : stripFrom (.code .bare)
          (.char '/' :: .char '*' :: (body ++ .char '*' :: .char '/' :: (f ++ t))) =
            .char ' ' :: stripFrom .block (body ++ .char '*' :: .char '/' :: (f ++ t)) := by
        simp [stripFrom]
      simp only [List.cons_append, List.append_assoc]
      rw [hopen, stripFrom_block hbody, hrest]

/-- Of a gap some blanks are left. -/
theorem IsGap.stripped (h : IsGap g) (t : Text) :
    ∃ blanks, IsBlanks blanks ∧
      stripFrom (.code .bare) (g ++ t) = blanks ++ stripFrom (.code .bare) t := by
  obtain ⟨hc, hf⟩ := h
  obtain ⟨blanks, hblanks, hrest⟩ := hf.stripped t
  refine ⟨_ :: blanks, ⟨List.cons_ne_nil _ _, isBlankText_cons hc hblanks⟩, ?_⟩
  rw [List.cons_append, stripFrom_blank hc, hrest]
  rfl

theorem isBareChar_iff : isBareChar c = true ↔ isVisible c = true ∧ isQuote c = false := by
  rw [isBareChar, Bool.and_eq_true, Bool.not_eq_true']

/-- A run outside quotes is kept, before anything that cannot go on with it. -/
theorem IsBareRun.stripped (h : IsBareRun w) (ht : t.head?.any isBareChar = false) :
    stripFrom (.code .bare) (w ++ t) = w ++ stripFrom (.code .bare) t := by
  obtain ⟨-, hchars, hline, hblock⟩ := h
  induction w with
  | nil => rfl
  | cons c w ih =>
      rw [List.all_cons, Bool.and_eq_true, isBareChar_iff] at hchars
      have hsuffix : w <:+: c :: w := List.infix_cons (List.infix_refl w)
      have hrest := ih hchars.2 (fun h => hline (h.trans hsuffix)) fun h => hblock (h.trans hsuffix)
      have hnext := Quoting.next_of_not_isQuote hchars.1.2
      rw [List.cons_append]
      cases hu : w ++ t with
      | nil =>
          obtain ⟨rfl, rfl⟩ := List.append_eq_nil_iff.1 hu
          rfl
      | cons d u =>
          -- what comes next is in the run or cannot go on with it
          have hopen : ∀ {a b : CodePoint}, ¬[a, b] <:+: c :: w → isBareChar b = true →
              ¬(Quoting.bare = .bare ∧ c = a ∧ d = b) := by
            rintro a b hpart hb ⟨-, rfl, rfl⟩
            cases w with
            | nil =>
                obtain rfl : t = d :: u := hu
                exact absurd hb (by simpa using ht)
            | cons e w =>
                obtain ⟨rfl, -⟩ := List.cons.inj hu
                exact hpart ⟨[], w, rfl⟩
          rw [stripFrom, if_neg (hopen hline (by decide)), if_neg (hopen hblock (by decide)), hnext,
            ← hu, hrest]
          rfl

end Gaps

/-! ## Texts laid out anew -/

namespace Relaid

variable {t t' : Text}

theorem not_bareChar_blank {c : CodePoint} (hc : c.is Text.isBlank = true) :
    isBareChar c = false := by
  rw [isBareChar, isVisible, hc]
  rfl

/-- Where nothing in one text goes on with a run, nothing does in the other one. -/
theorem head_bare (h : Relaid t t') (ht : t.head?.any isBareChar = false) :
    t'.head?.any isBareChar = false := by
  induction h with
  | nil => exact ht
  | @quoted r t t' hr _ ih =>
      cases r with
      | nil => exact ih ht
      | cons => exact ht
  | @bare w t t' hw _ _ _ =>
      obtain ⟨c, rest, rfl⟩ := List.exists_cons_of_ne_nil hw.ne_nil
      exact ht
  | gap _ hg' _ _ =>
      obtain ⟨hc, -⟩ := hg'
      exact not_bareChar_blank hc

theorem symm (h : Relaid t t') : Relaid t' t := by
  induction h with
  | nil => exact .nil
  | quoted hr _ ih => exact .quoted hr ih
  | bare hw ht h ih => exact .bare hw (h.head_bare ht) ih
  | gap hg hg' _ ih => exact .gap hg' hg ih

/-- Without their comments such texts are respaced. -/
theorem respaced (h : Relaid t t') : Respaced .bare (stripComments t) (stripComments t') := by
  induction h with
  | nil => exact .nil
  | @quoted r t t' hr _ ih =>
      have hkept := (Solid.of_run hr).kept
      rw [stripComments, stripComments, hkept, hkept]
      exact (Respaced.of_stays hr.stays hr.closed).append ih
  | @bare w t t' hw ht h ih =>
      rw [stripComments, stripComments, hw.stripped ht, hw.stripped (h.head_bare ht)]
      refine (Respaced.of_bare fun c hc => ?_).append ih
      exact isBareChar_iff.1 (List.all_eq_true.1 hw.chars c hc)
  | @gap g g' t t' hg hg' _ ih =>
      obtain ⟨blanks, hblanks, hrest⟩ := hg.stripped t
      obtain ⟨blanks', hblanks', hrest'⟩ := hg'.stripped t'
      rw [stripComments, stripComments, hrest, hrest']
      exact .gap hblanks hblanks' ih

/-- A run and a gap after it. -/
theorem word {w g g' : Text} (hw : IsBareRun w) (hg : IsGap g) (hg' : IsGap g') (h : Relaid t t') :
    Relaid (w ++ (g ++ t)) (w ++ (g' ++ t')) := by
  refine .bare hw ?_ (.gap hg hg' h)
  obtain ⟨hc, -⟩ := hg
  exact not_bareChar_blank hc

end Relaid

/-! ## What they declare -/

/-- Texts laid out anew have the same statements, respaced. -/
theorem statements_relaid {sql sql' : Text} (h : Relaid sql sql') :
    List.Forall₂ Statement.Respaced (statements sql) (statements sql') := by
  have hfound := statements_abreast (pairing_inStep _ _) (comparison_respaced _ _) h.respaced.inStep
  have hsame := (turns_withTaken (statementTurn (stripComments sql))
    (tokenize (stripComments sql))).1
  rw [statements, ← hsame]
  exact List.forall₂_map_left_iff.2 hfound

/-- Columns of one outline that say the same of everything but a default with a group. -/
structure SameColumn (item : Text) (c d : Column) : Prop where
  outline : d.outline = c.outline
  comment : c.comment = d.comment
  enumValues : c.enumValues = d.enumValues
  defaultValue : hasGroupedDefault item = false → c.defaultValue = d.defaultValue

namespace SameColumn

variable {item : Text} {c d : Column}

theorem withoutDefault (h : SameColumn item c d) : d.withoutDefault = c.withoutDefault := by
  obtain ⟨houtline, hcomment, hvalues, -⟩ := h
  cases c
  cases d
  simp_all [Column.outline, Column.withoutDefault]

theorem eq (h : SameColumn item c d) (hitem : hasGroupedDefault item = false) : c = d := by
  obtain ⟨houtline, hcomment, hvalues, hdefault⟩ := h
  have hdefault := hdefault hitem
  cases c
  cases d
  simp_all [Column.outline]

end SameColumn

/-- Columns that are declared by respaced items, and that are of one outline. -/
theorem sameColumn_of_respaced {x y : Text} {c d : Column} (hxy : Respaced .bare x y)
    (hc : DeclaredBy x c) (hd : DeclaredBy y d) (houtline : d.outline = c.outline) :
    SameColumn x c d := by
  obtain ⟨k, hx, hdefault, hcomment, hvalues⟩ := hc
  obtain ⟨k', hy, hdefault', hcomment', hvalues'⟩ := hd
  have hclause := classify_respaced hxy
  rw [hx, hy] at hclause
  cases hclause with
  | column hcolumn =>
      refine ⟨houtline, ?_, ?_, fun hplain => ?_⟩
      · rw [hcomment, hcomment', hcolumn.comment]
      · rw [hvalues, hvalues', hcolumn.memberValues]
      · rw [hdefault, hdefault', hcolumn.defaultValue hplain]
  | key hkey => cases hkey

theorem forall₂_zip {α β γ : Type} {R : α → β → Prop} {S : α → γ → Prop} {T : β → γ → Prop}
    {Q : α → β × γ → Prop} {xs : List α} {ys : List β} {zs : List γ} (h : List.Forall₂ R xs ys)
    (h' : List.Forall₂ S xs zs) (h'' : List.Forall₂ T ys zs)
    (hQ : ∀ {x y z}, R x y → S x z → T y z → Q x (y, z)) : List.Forall₂ Q xs (ys.zip zs) := by
  induction h generalizing zs with
  | nil =>
      cases h'
      exact .nil
  | cons hr _ ih =>
      cases h' with
      | cons hs hs' =>
          cases h'' with
          | cons ht ht' => exact .cons (hQ hr hs ht) (ih hs' ht')

/-- Tables of one outline are the same without default values if all their columns are. -/
theorem map_withoutDefaults {ts ts' : List Table}
    (houtline : ts'.map Table.outline = ts.map Table.outline)
    (hcolumns : (ts'.flatMap Table.columns).map Column.withoutDefault =
      (ts.flatMap Table.columns).map Column.withoutDefault) :
    ts'.map Table.withoutDefaults = ts.map Table.withoutDefaults := by
  induction ts generalizing ts' with
  | nil =>
      rw [List.map_nil, List.map_eq_nil_iff] at houtline
      rw [houtline]
  | cons t ts ih =>
      cases ts' with
      | nil => cases houtline
      | cons t' ts' =>
          obtain ⟨htable, htables⟩ := List.cons.inj houtline
          have hlength : (t'.columns.map Column.withoutDefault).length =
              (t.columns.map Column.withoutDefault).length := by
            have hmaps := congrArg (fun t : Table => t.columns.length) htable
            simpa [Table.outline] using hmaps
          rw [List.flatMap_cons, List.flatMap_cons, List.map_append, List.map_append] at hcolumns
          obtain ⟨hfirst, hrest⟩ := List.append_inj hcolumns hlength
          have hsame : t'.withoutDefaults = t.withoutDefaults := by
            cases t
            cases t'
            simp_all [Table.outline, Table.withoutDefaults]
          rw [List.map_cons, List.map_cons, hsame, ih htables hrest]

/-- Layout and comments make no difference: if one of two texts that are laid out differently can be
read then so can the other one, the same identifiers are drawn, and both declare the same, clauses
that are skipped and tables without columns included.  A default value may differ only if the item
of its column has a group in the literal. -/
theorem parse_relaid {sql sql' : Text} {parsed : Parsed} {ids ids' : IdSupply}
    (h : Relaid sql sql') (hparsed : (parse sql).Gives ids parsed ids') :
    ∃ parsed', (parse sql').Gives ids parsed' ids' ∧
      parsed'.withoutDefaults = parsed.withoutDefaults ∧
      List.Forall₂ (fun item pair => hasGroupedDefault item = false → pair.1 = pair.2)
        (columnItems sql) (parsed.columns.zip parsed'.columns) := by
  have hstatements := statements_relaid h
  obtain ⟨parsed', hparsed', houtline⟩ :=
    parse_alike (hstatements.imp fun _ _ hs => hs.alike) hparsed
  have hitems : List.Forall₂ (Respaced .bare) (columnItems sql) (columnItems sql') :=
    List.rel_flatMap hstatements fun _ _ hs => hs.columnItems
  have houtlines : List.Forall₂ (fun c d : Column => d.outline = c.outline) parsed.columns
      parsed'.columns := by
    have hcolumns := congrArg Parsed.columns houtline
    rw [Parsed.columns_outline, Parsed.columns_outline] at hcolumns
    rw [← List.forall₂_eq_eq_eq, List.forall₂_map_left_iff, List.forall₂_map_right_iff] at hcolumns
    exact hcolumns.flip
  have hsame := forall₂_zip (Q := fun item pair => SameColumn item pair.1 pair.2)
    (parse_columns hparsed) (forall₂_comp hitems (parse_columns hparsed')
      fun {x y d} hxy hd => (⟨y, hxy, hd⟩ : ∃ y, Respaced .bare x y ∧ DeclaredBy y d)) houtlines
    fun hc ⟨y, hxy, hd⟩ houtline => sameColumn_of_respaced hxy hc hd houtline
  refine ⟨parsed', hparsed', ?_, hsame.imp fun _ _ => SameColumn.eq⟩
  have hcolumns : parsed'.columns.map Column.withoutDefault =
      parsed.columns.map Column.withoutDefault := by
    have hpairs : List.Forall₂ (fun c d : Column => d.withoutDefault = c.withoutDefault)
        parsed.columns parsed'.columns := by
      refine List.forall₂_iff_zip.2 ⟨houtlines.length_eq, fun hmem => ?_⟩
      obtain ⟨item, -, hitem⟩ := forall₂_mem_right hsame hmem
      exact hitem.withoutDefault
    exact forall₂_map_eq hpairs.flip fun _ _ h => h
  simp only [Parsed.outline, Parsed.mk.injEq] at houtline
  obtain ⟨htables, hrelations, hempty, hskipped⟩ := houtline
  rw [Parsed.withoutDefaults, Parsed.withoutDefaults, map_withoutDefaults htables hcolumns,
    hrelations, hempty, hskipped]

/-- A table with a comment in quotes and with a default that is a call, in words with gaps between
them. -/
def gappedText (gaps : Nat → Text) : Text :=
  List.flatten ["CREATE", gaps 0, "TABLE", gaps 1, "t(a", gaps 2, "INT", gaps 3, "COMMENT", gaps 4,
    "'-- ('", ",b", gaps 5, "INT", gaps 6, "DEFAULT", gaps 7, "f(", gaps 8, "1))"]

theorem relaid_gapped {gaps gaps' : Nat → Text} (h : ∀ i, IsGap (gaps i))
    (h' : ∀ i, IsGap (gaps' i)) : Relaid (gappedText gaps) (gappedText gaps') := by
  simp only [gappedText, List.flatten_cons, List.flatten_nil]
  refine .word (by decide +kernel) (h 0) (h' 0) (.word (by decide +kernel) (h 1) (h' 1) ?_)
  refine .word (by decide +kernel) (h 2) (h' 2) (.word (by decide +kernel) (h 3) (h' 3) ?_)
  refine .word (by decide +kernel) (h 4) (h' 4) (.quoted ⟨by decide +kernel, by decide +kernel⟩ ?_)
  refine .word (by decide +kernel) (h 5) (h' 5) (.word (by decide +kernel) (h 6) (h' 6) ?_)
  refine .word (by decide +kernel) (h 7) (h' 7) (.word (by decide +kernel) (h 8) (h' 8) ?_)
  exact .bare (by decide +kernel) rfl .nil

/-- Some gaps with comments, of which one has an open quote and one a comma. -/
def commentedGaps : Nat → Text
  | 0 => "\t"
  | 1 => " -- it's\n"
  | 3 => "\n/* b, */ "
  | _ => " \n"

theorem isGap_commentedGaps (i : Nat) : IsGap (commentedGaps i) := by
  have hbreak : IsFiller "\n" := .blank (c := '\n') rfl .nil
  match i with
  | 0 => exact .blank (c := '\t') rfl .nil
  | 1 =>
      have hline : .char '\n' ∉ (" it's" : Text) := by decide +kernel
      exact .blank (c := ' ') rfl (.line hline .nil)
  | 2 => exact .blank (c := ' ') rfl hbreak
  | 3 =>
      have hblock : ¬[.char '*', .char '/'] <:+: (" b, " : Text) := by decide +kernel
      exact .blank (c := '\n') rfl (.block hblock (.blank (c := ' ') rfl .nil))
  | _ + 4 => exact .blank (c := ' ') rfl hbreak

/-- With comments in its gaps the table can be read as without, and only the default that is a call
may be spaced as the text is. -/
theorem parse_relaid_commented :
    ∃ parsed parsed' ids', (parse (gappedText fun _ => " ")).Gives {} parsed ids' ∧
      (parse (gappedText commentedGaps)).Gives {} parsed' ids' ∧
      parsed'.withoutDefaults = parsed.withoutDefaults ∧
      (columnItems (gappedText fun _ => " ")).map hasGroupedDefault = [false, true] ∧
      List.Forall₂ (fun item pair => hasGroupedDefault item = false → pair.1 = pair.2)
        (columnItems (gappedText fun _ => " ")) (parsed.columns.zip parsed'.columns) := by
  have hcheck : ((parse (gappedText fun _ => " ")).runFrom {}).1.toOption.any (fun parsed =>
      decide (parsed.tables.length = 1)) = true ∧
        ((parse (gappedText fun _ => " ")).runFrom {}).2 = ⟨3⟩ := by
    decide +kernel
  obtain ⟨parsed, hparsed, -⟩ := Minting.gives_of_any hcheck.1 hcheck.2
  obtain ⟨parsed', hparsed', hsame, hcolumns⟩ := parse_relaid
    (relaid_gapped (fun _ => .blank (c := ' ') rfl .nil) isGap_commentedGaps) hparsed
  exact ⟨parsed, parsed', _, hparsed, hparsed', hsame, by decide +kernel, hcolumns⟩

end Sql

end SchemaDesk
