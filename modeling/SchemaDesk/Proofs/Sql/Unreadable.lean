import SchemaDesk.Proofs.Minting
import SchemaDesk.Proofs.Number.Scripts
import SchemaDesk.Sql.Parsed

/-!
# Texts that cannot be read

Whatever a text is, one thing only keeps it from being read: where the type of a declared column
takes a number, there are digits that write none.  Either one of them has no decimal value, or there
are more of them than a numeral may have.  Reading then fails with the first such argument
(`parse_failsWith`); every other text is read, under whatever identifiers.
-/

namespace SchemaDesk.Sql

open Minting

/-! ## Arguments -/

/-- Whether an argument can be read where a number may stand: it does not consist of digits, or its
digits have decimal values and there are not too many of them. -/
def IsReadable (argument : Text) : Prop :=
  (∀ c ∈ argument.trim, c.is Text.isDigit = true) →
    (∀ c ∈ argument.trim, c.is (fun d => (Text.digitValue? d).isSome) = true) ∧
      argument.trim.length ≤ Numeral.maxDigits

instance : DecidablePred IsReadable := fun argument =>
  inferInstanceAs (Decidable ((∀ c ∈ argument.trim, c.is Text.isDigit = true) → _))

/-- The failure of an argument that cannot be read. -/
def unreadable? (argument : Text) : Option Failure :=
  if IsReadable argument then none else some (.notInteger argument.trim)

/-- Code points that all have a property are characters with this property. -/
theorem exists_ofChars {property : Char → Bool} {t : Text} (h : ∀ c ∈ t, c.is property = true) :
    ∃ cs, t = Text.ofChars cs ∧ ∀ c ∈ cs, property c = true := by
  induction t with
  | nil => exact ⟨[], rfl, fun c hc => absurd hc List.not_mem_nil⟩
  | cons c t ih =>
      rw [List.forall_mem_cons] at h
      obtain ⟨cs, rfl, hcs⟩ := ih h.2
      cases c with
      | char c => exact ⟨c :: cs, rfl, List.forall_mem_cons.2 ⟨h.1, hcs⟩⟩
      | surrogate i => exact absurd h.1 Bool.false_ne_true

/-- An argument of digits can be read exactly when a number can be read from it. -/
theorem isReadable_iff {argument : Text} {cs : List Char} (hcs : argument.trim = Text.ofChars cs)
    (hdigits : ∀ c ∈ cs, Text.isDigit c = true) (hne : cs ≠ []) :
    IsReadable argument ↔ (Numeral.toInt? argument.trim).isSome = true := by
  rw [IsReadable, hcs, Numeral.toInt?_isSome_iff hdigits hne, Text.ofChars, List.forall_mem_map,
    List.forall_mem_map, List.length_map]
  exact forall_prop_of_true hdigits

theorem numberArgument_failure (argument : Text) :
    Failure.of? (numberArgument argument) = unreadable? argument := by
  rw [numberArgument, unreadable?]
  by_cases hdigits : ∀ c ∈ argument.trim, c.is Text.isDigit = true
  · obtain ⟨cs, hcs, hall⟩ := exists_ofChars hdigits
    by_cases hne : cs = []
    · have hempty : argument.trim = [] := by rw [hcs, hne, Text.ofChars, List.map_nil]
      have hreadable : IsReadable argument := fun _ => by simp [hempty]
      rw [if_pos hreadable, if_neg fun h => h.1 hempty]
      rfl
    · have hnonempty : argument.trim ≠ [] := by
        rw [hcs, Text.ofChars]
        exact fun h => hne (List.map_eq_nil_iff.1 h)
      rw [if_pos ⟨hnonempty, List.all_eq_true.2 hdigits⟩]
      simp only [isReadable_iff hcs hall hne, Value.toInteger]
      cases Numeral.toInt? argument.trim <;> rfl
  · have hreadable : IsReadable argument := fun h => absurd h hdigits
    rw [if_neg fun h => hdigits (List.all_eq_true.1 h.2), if_pos hreadable]
    rfl

theorem numberArgumentAt_failure (arguments : List Text) (position : Nat) :
    Failure.of? (numberArgumentAt arguments position) = arguments[position]?.bind unreadable? := by
  rw [numberArgumentAt]
  cases arguments[position]? with
  | none => rfl
  | some argument => exact numberArgument_failure argument

/-- The arguments that a type takes for numbers. -/
def numericArguments (type : DataType) (arguments : List Text) : List Text :=
  match type with
  | .varchar | .char | .binary => arguments.take 1
  | .decimal | .float => arguments.take 2
  | _ => []

/-- Of the arguments that a type takes for numbers the first counts that cannot be read. -/
theorem typeArguments_failure (type : DataType) (arguments : List Text) :
    Failure.of? (typeArguments type arguments) =
      (numericArguments type arguments).findSome? unreadable? := by
  have hsize : ∀ build : Value → TypeArguments,
      Failure.of? (numberArgumentAt arguments 0 >>= fun size => .ok (build size)) =
        (arguments.take 1).findSome? unreadable? := by
    intro build
    rw [Failure.of?_bind_ok, numberArgumentAt_failure]
    cases arguments with
    | nil => rfl
    | cons a arguments => cases h : unreadable? a <;> simp [h]
  have hscale : ∀ build : Value → Value → TypeArguments,
      Failure.of? (numberArgumentAt arguments 0 >>= fun precision =>
          numberArgumentAt arguments 1 >>= fun scale => .ok (build precision scale)) =
        (arguments.take 2).findSome? unreadable? := by
    intro build
    have hsecond : ∀ precision, Failure.of? (numberArgumentAt arguments 1 >>= fun scale =>
        .ok (build precision scale)) = arguments[1]?.bind unreadable? := by
      intro precision
      rw [Failure.of?_bind_ok, numberArgumentAt_failure]
    rw [Failure.of?_bind hsecond, numberArgumentAt_failure]
    rcases arguments with _ | ⟨a, _ | ⟨b, arguments⟩⟩
    · rfl
    · cases h : unreadable? a <;> simp [h]
    · cases h : unreadable? a <;> cases h' : unreadable? b <;> simp [h, h']
  cases type <;> first
    | exact hsize _
    | exact hscale _
    | rfl

/-! ## Texts -/

/-- The arguments that the type of a declared column takes for numbers. -/
def ColumnClause.numerals (c : ColumnClause) : List Text :=
  numericArguments (typeOf c.rawType) c.arguments

/-- The arguments that are taken for numbers in a statement, in order. -/
def Statement.numerals : Statement → List Text
  | .createTable _ body _ =>
      (((splitItems body).map classify).filterMap Clause.column?).flatMap ColumnClause.numerals
  | .alterTable .. => []

/-- The arguments that are taken for numbers in a text, in order. -/
def numerals (sql : Text) : List Text :=
  (statements sql).flatMap Statement.numerals

/-- Searching lists put together is searching them one after the other. -/
theorem findSome?_flatMap {α β γ : Type} (f : α → List β) (g : β → Option γ) (xs : List α) :
    (xs.flatMap f).findSome? g = xs.findSome? fun x => (f x).findSome? g := by
  induction xs with
  | nil => rfl
  | cons x xs ih =>
      rw [List.flatMap_cons, List.findSome?_append, ih, List.findSome?_cons]
      cases (f x).findSome? g <;> rfl

theorem buildColumn_failsWith (c : ColumnClause) :
    (buildColumn c).FailsWith (c.numerals.findSome? unreadable?) := by
  rw [ColumnClause.numerals, ← typeArguments_failure]
  exact (FailsWith.of_except _).bind_safe fun _ => FailsWith.of_mint.bind_safe fun _ => .of_pure _

theorem buildTable_failsWith (index : Nat) (name : Text) (clauses : List Clause)
    (options : TableOptions) :
    (buildTable index name clauses options).FailsWith
      (((clauses.filterMap Clause.column?).flatMap ColumnClause.numerals).findSome?
        unreadable?) := by
  rw [findSome?_flatMap]
  exact (FailsWith.mapM buildColumn_failsWith _).bind_safe fun _ =>
    FailsWith.of_mint.bind_safe fun _ => .of_pure _

theorem add_failsWith (d : Draft) (s : Statement) :
    (d.add s).FailsWith (s.numerals.findSome? unreadable?) := by
  cases s with
  | alterTable name actions => exact .of_pure d
  | createTable name body options =>
      refine (buildTable_failsWith _ _ _ _).bind_safe fun table => ?_
      simp only
      split <;> exact .of_pure _

/-- Resolving foreign keys never fails; a key that does not resolve is dropped. -/
theorem resolve_failsWith (state : Linking) (key : Value × ForeignKey) :
    (state.resolve key).FailsWith none := by
  have hlink : ∀ (source target : Table) (state : Linking) (names : Text × Text),
      (Linking.link key.2 source target state names).FailsWith none := by
    intro source target state names
    rw [Linking.link]
    split
    · exact FailsWith.of_mint.bind_safe fun _ => .of_pure _
    · exact .of_pure _
  rw [Linking.resolve]
  split
  · exact .foldlM_safe (hlink _ _) _ _
  · exact .of_pure _

/-- Reading a text fails with the first argument taken for a number that cannot be read, and if
there is none it succeeds. -/
theorem parse_failsWith (sql : Text) :
    (parse sql).FailsWith ((numerals sql).findSome? unreadable?) := by
  rw [numerals, findSome?_flatMap]
  refine (FailsWith.foldlM add_failsWith _ _).bind_safe fun draft => ?_
  exact (FailsWith.foldlM_safe resolve_failsWith _ _).bind_safe fun _ => .of_pure _

end SchemaDesk.Sql
