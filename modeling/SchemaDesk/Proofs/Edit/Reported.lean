import SchemaDesk.Proofs.Edit.Merged
import SchemaDesk.Proofs.Edit.Typed
import SchemaDesk.Proofs.Problem.Report
import SchemaDesk.Store

/-!
# What the reports of edits quote

An edit that fails with a report reports a problem of the schema.  The report quotes names,
identifiers and values, and it is recognised as one that a user can act on exactly if there is no
line feed in what it quotes.  A line feed is there only if the command or the project brought it
along.

Main statement: `execute_reports`.
-/

namespace SchemaDesk

open Minting

/-! ## Reports and where their texts come from -/

/-- A problem of the schema whose texts with a line feed are among some texts. -/
structure Problem.IsReportOf (texts : List Text) (p : Problem) : Prop where
  schema : p.IsOfSchema
  given : ∀ t ∈ p.mentioned, CodePoint.char '\n' ∈ t → t ∈ texts

/-- A failure without a report, or one whose texts with a line feed are among some texts. -/
def Failure.Reports (texts : List Text) (failure : Failure) : Prop :=
  ∀ p, failure = .problem p → p.IsReportOf texts

/-- A check that fails without a report or with one whose texts with a line feed are among some
texts. -/
def ReportsOnly (texts : List Text) {α : Type} (check : Except Failure α) : Prop :=
  ∀ failure, check = .error failure → failure.Reports texts

namespace ReportsOnly

variable {texts : List Text} {α β : Type}

theorem of_ok (a : α) : ReportsOnly texts (Except.ok a) := fun _ h => nomatch h

theorem of_problem {p : Problem} (h : p.IsReportOf texts) :
    ReportsOnly texts (Except.error (.problem p) : Except Failure α) := by
  rintro _ ⟨⟩ _ ⟨⟩
  exact h

/-- Two checks fail only as one of them does, the second one on what the first one gave. -/
theorem bind {check : Except Failure α} {f : α → Except Failure β} (h : ReportsOnly texts check)
    (hf : ∀ a, check = .ok a → ReportsOnly texts (f a)) : ReportsOnly texts (check >>= f) := by
  intro failure hfailure
  rcases Except.bind_eq_error.1 hfailure with herror | ⟨a, ha, herror⟩
  · exact h failure herror
  · exact hf a ha failure herror

theorem map {check : Except Failure α} (f : α → β) (h : ReportsOnly texts check) :
    ReportsOnly texts (check.map f) := by
  cases check with
  | ok a => exact of_ok _
  | error e =>
      rintro _ ⟨⟩
      exact h e rfl

/-- A check of every item fails as the check of one of them does. -/
theorem forM {f : α → Except Failure Unit} {xs : List α} (h : ∀ x ∈ xs, ReportsOnly texts (f x)) :
    ReportsOnly texts (xs.forM f) := by
  intro failure hfailure
  obtain ⟨x, hx, herror⟩ := exists_of_forM_error hfailure
  exact h x hx failure herror

theorem mapM {f : α → Except Failure β} {xs : List α} (h : ∀ x ∈ xs, ReportsOnly texts (f x)) :
    ReportsOnly texts (xs.mapM f) := by
  induction xs with
  | nil => exact of_ok []
  | cons x xs ih =>
      rw [List.mapM_cons]
      refine (h x List.mem_cons_self).bind fun y _ => ?_
      exact (ih fun z hz => h z (List.mem_cons_of_mem _ hz)).bind fun ys _ => of_ok _

/-- A check as a step of a computation that draws identifiers. -/
theorem step {check : Except Failure α} {f : α → Minting β} (h : ReportsOnly texts check)
    (hf : ∀ a, check = .ok a → FailsOnly (f a) (Failure.Reports texts)) :
    FailsOnly (ofExcept check >>= f) (Failure.Reports texts) :=
  (FailsOnly.of_except h).bind fun a _ _ ha => hf a (gives_ofExcept.1 ha).1

end ReportsOnly

/-- The texts of a patch that a report can mention: its keys, and the types that it gives. -/
def Patch.texts (patch : Patch) : List Text :=
  patch.flatMap fun (key, v) => if key = "type" then [key, v.text] else [key]

/-- The texts of relations that a report can mention. -/
def relationTexts (relations : List Relation) : List Text :=
  relations.flatMap fun r => (r.id :: r.endIds).map Value.text

theorem mem_relationTexts {relations : List Relation} {r : Relation} {t : Text}
    (hr : r ∈ relations) (ht : t ∈ relationTexts [r]) : t ∈ relationTexts relations := by
  rw [relationTexts, List.flatMap_cons, List.flatMap_nil, List.append_nil] at ht
  exact List.mem_flatMap.2 ⟨r, hr, ht⟩

/-- The texts of a command that a report can mention. -/
def Command.texts : Command → List Text
  | .setEngine database => [database.text]
  | .addTable _ patch | .addNote patch | .addLabel patch => Patch.texts patch
  | .updateTable id patch | .updateNote id patch | .updateLabel id patch =>
      id.text :: Patch.texts patch
  | .moveTable id _ _ | .deleteTable id => [id.text]
  | .addColumn tableId _ type patch => tableId.text :: type.text :: Patch.texts patch
  | .updateColumn tableId columnId patch => tableId.text :: columnId.text :: Patch.texts patch
  | .deleteColumn tableId columnId => [tableId.text, columnId.text]
  | .addRelation ends options patch =>
      [ends.sourceTableId.text, ends.sourceColumnId.text, ends.targetTableId.text,
        ends.targetColumnId.text, options.type.text, options.onDelete.text,
        options.onUpdate.text] ++ Patch.texts patch
  | .load project => relationTexts project.relations
  | .append _ relations => relationTexts relations
  | _ => []

/-- The texts of a project that a report can mention. -/
def Project.texts (p : Project) : List Text :=
  p.tables.map (·.name.text) ++ relationTexts p.relations

/-! ## Checks -/

namespace Edit

variable {texts : List Text} {patch : Patch} {place : Place} {p : Project}

theorem require_reports {condition : Bool} {problem : Problem} (h : problem.IsReportOf texts) :
    ReportsOnly texts (require condition problem) := by
  rw [require]
  split
  · exact .of_ok ()
  · exact .of_problem h

theorem requireKeys_reports (vs : List Value) : ReportsOnly texts (requireKeys vs) := by
  rw [requireKeys]
  split
  · exact .of_ok ()
  · rintro _ ⟨⟩ _ ⟨⟩

theorem refuseArguments_reports (arguments : List Text) :
    ReportsOnly texts (refuseArguments arguments patch) := by
  rw [refuseArguments]
  split
  · rintro _ ⟨⟩ _ ⟨⟩
  · exact .of_ok ()

theorem name_reports (v : Value) : ReportsOnly texts (name v place) := by
  have hrequired : (Problem.nameRequired place).IsReportOf texts :=
    ⟨⟨rfl, by cases place <;> decide⟩, fun _ h => nomatch h⟩
  cases v with
  | str s =>
      simp only [name]
      split
      · exact .of_problem hrequired
      · exact .of_ok _
  | _ => exact .of_problem hrequired

theorem withName_reports : ReportsOnly texts (withName patch place) := by
  refine ReportsOnly.mapM fun (key, v) _ => ?_
  simp only
  split
  · exact (name_reports v).map _
  · exact .of_ok _

/-- The fields that an edit allows have no line feeds in their names. -/
def ArePlain (allowed : List Text) : Prop :=
  ∀ name ∈ allowed, CodePoint.char '\n' ∉ name

instance (allowed : List Text) : Decidable (ArePlain allowed) :=
  inferInstanceAs (Decidable (∀ name ∈ allowed, _))

theorem checkFields_reports {allowed : List Text} (hallowed : ArePlain allowed)
    (h : ∀ t ∈ Patch.texts patch, CodePoint.char '\n' ∈ t → t ∈ texts) :
    ReportsOnly texts (checkFields patch allowed place) := by
  refine require_reports ⟨⟨rfl, fun hline => ?_⟩, fun key hkey => h key ?_⟩
  · rcases List.mem_append.1 hline with hline | hline
    · exact absurd hline (by decide)
    · obtain ⟨name, hname, hline⟩ := (Problem.mem_listedSorted (by decide)).1 hline
      exact hallowed name hname hline
  · obtain ⟨entry, hentry, rfl⟩ := List.mem_map.1 (List.mem_filter.1 hkey).1
    refine List.mem_flatMap.2 ⟨entry, hentry, ?_⟩
    dsimp only
    split <;> exact List.mem_cons_self

theorem checkChoice_reports {v : Value} {choice : Choice}
    (h : CodePoint.char '\n' ∈ v.text → v.text ∈ texts) :
    ReportsOnly texts (checkChoice v choice place) := by
  refine require_reports ⟨⟨rfl, ?_⟩, ?_⟩
  · show CodePoint.char '\n' ∉ "choose one of: " ++ Problem.listed choice.names
    cases choice <;> decide
  · rintro _ (_ | ⟨_, ⟨⟩⟩)
    exact h

theorem requireTable_reports {id : Value} (h : id.text ∈ texts) :
    ReportsOnly texts (requireTable p id place) := by
  have hhint : CodePoint.char '\n' ∉ ("choose an existing table" : Text) := by decide
  rw [requireTable]
  split
  · exact .of_ok _
  · refine .of_problem ⟨⟨rfl, hhint⟩, ?_⟩
    rintro _ (_ | ⟨_, ⟨⟩⟩) _
    exact h

theorem requireColumn_reports {t : Table} {id : Value} (h : id.text ∈ texts)
    (ht : t.name.text ∈ texts) : ReportsOnly texts (requireColumn t id place) := by
  have hhint : CodePoint.char '\n' ∉ ("choose an existing column" : Text) := by decide
  rw [requireColumn]
  split
  · exact .of_ok _
  · refine .of_problem ⟨⟨rfl, hhint⟩, ?_⟩
    rintro _ (_ | ⟨_, _ | ⟨_, ⟨⟩⟩⟩) _
    · exact h
    · exact ht

theorem checkRelease_reports (removed remaining : List Relation) (tables : List Table) :
    ReportsOnly texts (checkRelease removed remaining tables) :=
  (requireKeys_reports _).bind fun _ _ => requireKeys_reports _

theorem checkColumnPatch_reports
    (h : ∀ t ∈ Patch.texts patch, CodePoint.char '\n' ∈ t → t ∈ texts) :
    ReportsOnly texts (checkColumnPatch patch place) := by
  have hplain : ArePlain (fieldsWithout Column.fields ["id"]) := by decide
  refine (checkFields_reports hplain h).bind fun _ _ => ?_
  refine withName_reports.bind fun named hnamed => ?_
  cases htype : Value.get? "type" named with
  | none => exact .of_ok _
  | some type =>
      have hname : ("type" : Text) ≠ "name" := by decide
      have hmem := ((withName_cases hnamed (Value.mem_of_get? htype)).resolve_left
        fun h => hname h.1).2
      have htypes : type.text ∈ Patch.texts patch :=
        List.mem_flatMap.2 ⟨_, hmem, List.mem_cons_of_mem _ List.mem_cons_self⟩
      exact ReportsOnly.bind (checkChoice_reports (h _ htypes)) fun _ _ => .of_ok _

theorem toBinary64_reports (v : Value) : ReportsOnly texts v.toBinary64 := by
  have hint : ∀ i : Int, ReportsOnly texts (Value.floatOfInt i) := by
    intro i
    rw [Value.floatOfInt]
    split <;> rintro _ ⟨⟩ _ ⟨⟩
  cases v with
  | bool b => exact hint _
  | int i => exact hint i
  | float x => exact .of_ok x
  | str s =>
      rw [Value.toBinary64]
      split <;> rintro _ ⟨⟩ _ ⟨⟩
  | _ => rintro _ ⟨⟩ _ ⟨⟩

theorem numberAt_reports (v : Value) (position : Nat) :
    ReportsOnly texts (numberAt v position) := by
  have hpart : ReportsOnly texts (partAt v position) := by
    unfold partAt
    split
    · rintro _ ⟨⟩ _ ⟨⟩
    · split
      · rintro _ ⟨⟩ _ ⟨⟩
      · split
        · exact .of_ok _
        · rintro _ ⟨⟩ _ ⟨⟩
  exact hpart.bind fun part _ => (toBinary64_reports part).bind fun _ _ => .of_ok _

theorem checkEnd_reports {r : Relation} {side : Side} (h : relationTexts [r] ⊆ texts) :
    ReportsOnly texts (p.checkEnd r side) := by
  have hid : r.id.text ∈ texts := h (by simp [relationTexts])
  have htable : (r.tableId side).text ∈ texts := h (by
    cases side <;> simp [relationTexts, Relation.endIds, Relation.tableId])
  have hcolumn : (r.columnId side).text ∈ texts := h (by
    cases side <;> simp [relationTexts, Relation.endIds, Relation.columnId])
  have htables : CodePoint.char '\n' ∉
      Text.ofString "delete relations together with their tables" := by
    decide
  have hcolumns : CodePoint.char '\n' ∉
      Text.ofString "delete relations together with their columns" := by
    decide
  refine (requireKeys_reports _).bind fun _ _ => ?_
  split
  · refine .of_problem ⟨⟨rfl, htables⟩, ?_⟩
    rintro _ (_ | ⟨_, _ | ⟨_, ⟨⟩⟩⟩) _
    · exact hid
    · exact htable
  · refine (requireKeys_reports _).bind fun _ _ => require_reports ⟨⟨rfl, hcolumns⟩, ?_⟩
    rintro _ (_ | ⟨_, _ | ⟨_, ⟨⟩⟩⟩) _
    · exact hid
    · exact hcolumn

/-- Of a project that is checked only relations are quoted that have an end that is not there. -/
theorem checkIntegrity_reports
    (h : ∀ r ∈ p.relations,
      (∀ side, HasColumn p.tables (r.tableId side) (r.columnId side)) ∨
        relationTexts [r] ⊆ texts) :
    ReportsOnly texts p.checkIntegrity := by
  have hentity : Problem.duplicateEntityId.IsReportOf texts := ⟨⟨rfl, by decide⟩, nofun⟩
  have hcolumn : Problem.duplicateColumnId.IsReportOf texts := ⟨⟨rfl, by decide⟩, nofun⟩
  refine (requireKeys_reports _).bind fun _ hkeys => ?_
  refine (require_reports hentity).bind fun _ hentities => ?_
  refine (require_reports hcolumn).bind fun _ _ => ReportsOnly.forM fun r hr => ?_
  obtain hends | hsub := h r hr
  · have hkeys := requireKeys_eq_ok.1 hkeys
    have hids : (p.tables.map (·.id.canon)).Nodup := by
      have hdistinct := Value.allDistinct_iff.1 (require_eq_ok.1 hentities)
      rw [Project.entityIds, List.map_append, List.map_map] at hdistinct
      exact (List.nodup_append.1 hdistinct).1
    have hend : ∀ side, p.checkEnd r side = .ok () := fun side =>
      (checkEnd_eq_ok_iff hids (fun t ht => hkeys _ (List.mem_append_left _
        (List.mem_append_left _ (List.mem_map_of_mem ht)))) fun t ht id hid => hkeys _
        (List.mem_append_left _ (List.mem_append_right _ (List.mem_flatMap.2 ⟨t, ht, hid⟩)))).2
          (hends side)
    rw [Project.checkRelation, hend, hend]
    exact .of_ok ()
  · exact (checkEnd_reports hsub).bind fun _ _ => checkEnd_reports hsub

theorem mergeCheck_reports (declared : List Table) (relations : List Relation) :
    ReportsOnly texts (Merge.check p declared relations) := by
  have htext : ∀ names, ReportsOnly texts (Merge.requireText names) := by
    intro names
    rw [Merge.requireText]
    split
    · exact .of_ok ()
    · rintro _ ⟨⟩ _ ⟨⟩
  have hjoin : ∀ d, ReportsOnly texts (Merge.checkJoin p.tables d) := by
    intro d
    rw [Merge.checkJoin]
    split
    · exact .of_ok ()
    · refine (htext _).bind fun _ _ => ReportsOnly.bind (ReportsOnly.forM fun _ _ => ?_)
        fun _ _ => requireKeys_reports _
      exact (htext _).bind fun _ _ => requireKeys_reports _
  have hends : ∀ tables r, ReportsOnly texts (Merge.checkEnds tables r) := by
    intro tables r
    refine (requireKeys_reports _).bind fun _ _ => ?_
    split
    · exact (requireKeys_reports _).bind fun _ _ => requireKeys_reports _
    · exact .of_ok ()
  refine (htext _).bind fun _ _ => (ReportsOnly.forM fun d _ => hjoin d).bind fun _ _ => ?_
  exact (requireKeys_reports _).bind fun _ _ =>
    (ReportsOnly.forM fun r _ => hends _ r).bind fun _ _ => requireKeys_reports _

/-! ## Edits -/

theorem setProjectName_reports (v : Value) :
    FailsOnly (setProjectName v p) (Failure.Reports texts) :=
  (name_reports v).step fun _ _ => FailsOnly.of_pure _

theorem setEngine_reports {v : Value} (h : v.text ∈ texts) :
    FailsOnly (setEngine v p) (Failure.Reports texts) :=
  (checkChoice_reports fun _ => h).step fun _ _ => FailsOnly.of_pure _

theorem setViewport_reports (zoom pan : Value) :
    FailsOnly (setViewport zoom pan p) (Failure.Reports texts) := by
  have hsign : ReportsOnly texts zoom.isNotPositive := by
    cases zoom <;> first | exact .of_ok _ | rintro _ ⟨⟩ _ ⟨⟩
  have hzoom : Problem.zoomNotPositive.IsReportOf texts := ⟨⟨rfl, by decide⟩, nofun⟩
  refine hsign.step fun _ _ => (require_reports hzoom).step fun _ _ => ?_
  refine (toBinary64_reports zoom).step fun _ _ => (numberAt_reports pan 0).step fun _ _ => ?_
  exact (numberAt_reports pan 1).step fun _ _ => FailsOnly.of_pure _

theorem addTable_reports {v : Value} (h : Patch.texts patch ⊆ texts) :
    FailsOnly (addTable v patch p) (Failure.Reports texts) := by
  have hplain : ArePlain (fieldsWithout Table.fields ["id", "name"]) := by decide
  refine (refuseArguments_reports _).step fun _ _ => (name_reports v).step fun _ _ => ?_
  refine (checkFields_reports hplain fun _ ht _ => h ht).step fun _ _ => ?_
  refine FailsOnly.of_mint.bind fun _ _ _ _ => ?_
  exact FailsOnly.of_mint.bind fun _ _ _ _ => FailsOnly.of_pure _

theorem updateTable_reports {id : Value} (hid : id.text ∈ texts) (h : Patch.texts patch ⊆ texts) :
    FailsOnly (updateTable id patch p) (Failure.Reports texts) := by
  have hplain : ArePlain (fieldsWithout Table.fields ["id"]) := by decide
  refine (requireTable_reports hid).step fun _ _ => ?_
  refine (checkFields_reports hplain fun _ ht _ => h ht).step fun _ _ => ?_
  exact withName_reports.step fun _ _ => FailsOnly.of_pure _

/-- A move names no field that it may not name. -/
theorem moveTable_reports {id x y : Value} (hid : id.text ∈ texts) :
    FailsOnly (moveTable id x y p) (Failure.Reports texts) := by
  have hfields : ∀ place, checkFields [("x", x), ("y", y)] (fieldsWithout Table.fields ["id"])
      place = .ok () := fun _ => rfl
  refine (requireTable_reports hid).step fun _ _ => ?_
  rw [hfields]
  exact (ReportsOnly.of_ok ()).step fun _ _ => withName_reports.step fun _ _ => FailsOnly.of_pure _

theorem deleteTable_reports {id : Value} (hid : id.text ∈ texts) :
    FailsOnly (deleteTable id p) (Failure.Reports texts) :=
  (requireTable_reports hid).step fun _ _ =>
    (checkRelease_reports _ _ _).step fun _ _ => FailsOnly.of_pure _

theorem addColumn_reports {tableId v type : Value} (hid : tableId.text ∈ texts)
    (htype : type.text ∈ texts) (h : Patch.texts patch ⊆ texts) :
    FailsOnly (addColumn tableId v type patch p) (Failure.Reports texts) := by
  have hgiven : ∀ t ∈ Patch.texts (("name", v) :: ("type", type) :: patch),
      CodePoint.char '\n' ∈ t → t ∈ texts := by
    intro t ht hline
    have hname : CodePoint.char '\n' ∉ ("name" : Text) := by decide
    have hkey : CodePoint.char '\n' ∉ ("type" : Text) := by decide
    have htexts : Patch.texts (("name", v) :: ("type", type) :: patch) =
        (["name", "type", type.text] : List Text) ++ Patch.texts patch := rfl
    rw [htexts] at ht
    simp only [List.cons_append, List.nil_append, List.mem_cons] at ht
    obtain rfl | rfl | rfl | ht := ht
    · exact absurd hline hname
    · exact absurd hline hkey
    · exact htype
    · exact h ht
  refine (refuseArguments_reports _).step fun _ _ => (requireTable_reports hid).step fun _ _ => ?_
  refine (checkColumnPatch_reports hgiven).step fun _ _ => FailsOnly.of_mint.bind fun _ _ _ _ => ?_
  exact FailsOnly.of_pure _

theorem updateColumn_reports {tableId columnId : Value} (htable : tableId.text ∈ texts)
    (hcolumn : columnId.text ∈ texts) (hnames : ∀ t ∈ p.tables, t.name.text ∈ texts)
    (h : Patch.texts patch ⊆ texts) :
    FailsOnly (updateColumn tableId columnId patch p) (Failure.Reports texts) := by
  refine (requireTable_reports htable).step fun t ht => ?_
  have hname := hnames t (Project.table?_eq_some (requireTable_eq_ok.1 ht)).1
  refine (requireColumn_reports hcolumn hname).step fun _ _ => ?_
  exact (checkColumnPatch_reports fun _ ht _ => h ht).step fun _ _ => FailsOnly.of_pure _

theorem deleteColumn_reports {tableId columnId : Value} (htable : tableId.text ∈ texts)
    (hcolumn : columnId.text ∈ texts) (hnames : ∀ t ∈ p.tables, t.name.text ∈ texts) :
    FailsOnly (deleteColumn tableId columnId p) (Failure.Reports texts) := by
  have hhint : CodePoint.char '\n' ∉ ("add another column first or delete the table" : Text) := by
    decide
  refine (requireTable_reports htable).step fun t ht => ?_
  have hname := hnames t (Project.table?_eq_some (requireTable_eq_ok.1 ht)).1
  have honly : (Problem.onlyColumn t.name).IsReportOf texts := by
    refine ⟨⟨rfl, hhint⟩, ?_⟩
    rintro _ (_ | ⟨_, ⟨⟩⟩) _
    exact hname
  refine (requireColumn_reports hcolumn hname).step fun _ _ => (require_reports honly).step
    fun _ _ => ?_
  exact (checkRelease_reports _ _ _).step fun _ _ => FailsOnly.of_pure _

theorem addRelation_reports {ends : Ends} {options : RelationOptions}
    (hends : ∀ v ∈ [ends.sourceTableId, ends.sourceColumnId, ends.targetTableId,
      ends.targetColumnId], v.text ∈ texts)
    (hoptions : ∀ v ∈ [options.type, options.onDelete, options.onUpdate], v.text ∈ texts)
    (hnames : ∀ t ∈ p.tables, t.name.text ∈ texts) (h : Patch.texts patch ⊆ texts) :
    FailsOnly (addRelation ends options patch p) (Failure.Reports texts) := by
  have hplain :
      ArePlain (fieldsWithout Relation.fields ["id", "type", "on_delete", "on_update"]) := by
    decide
  refine (refuseArguments_reports _).step fun _ _ => ?_
  refine (requireTable_reports (hends _ (by simp))).step fun source hsource => ?_
  have hsource := hnames source (Project.table?_eq_some (requireTable_eq_ok.1 hsource)).1
  refine (requireColumn_reports (hends _ (by simp)) hsource).step fun _ _ => ?_
  refine (requireTable_reports (hends _ (by simp))).step fun target htarget => ?_
  have htarget := hnames target (Project.table?_eq_some (requireTable_eq_ok.1 htarget)).1
  refine (requireColumn_reports (hends _ (by simp)) htarget).step fun _ _ => ?_
  refine (checkChoice_reports fun _ => hoptions _ (by simp)).step fun _ _ => ?_
  refine (checkChoice_reports fun _ => hoptions _ (by simp)).step fun _ _ => ?_
  refine (checkChoice_reports fun _ => hoptions _ (by simp)).step fun _ _ => ?_
  refine (checkFields_reports hplain fun _ ht _ => h ht).step fun _ _ => ?_
  refine FailsOnly.of_mint.bind fun _ _ _ _ => ?_
  exact (requireKeys_reports _).step fun _ _ => FailsOnly.of_pure _

theorem deleteRelation_reports (id : Value) :
    FailsOnly (deleteRelation id p) (Failure.Reports texts) := by
  rw [deleteRelation]
  split
  · exact FailsOnly.of_pure _
  · exact (checkRelease_reports _ _ _).step fun _ _ => FailsOnly.of_pure _

theorem addNote_reports (h : Patch.texts patch ⊆ texts) :
    FailsOnly (addNote patch p) (Failure.Reports texts) := by
  have hplain : ArePlain (fieldsWithout Note.fields ["id"]) := by decide
  exact (checkFields_reports hplain fun _ ht _ => h ht).step fun _ _ =>
    FailsOnly.of_mint.bind fun _ _ _ _ => FailsOnly.of_pure _

theorem updateNote_reports {id : Value} (hid : id.text ∈ texts) (h : Patch.texts patch ⊆ texts) :
    FailsOnly (updateNote id patch p) (Failure.Reports texts) := by
  have hplain : ArePlain (fieldsWithout Note.fields ["id"]) := by decide
  have hhint : CodePoint.char '\n' ∉ ("choose an existing note" : Text) := by decide
  refine (checkFields_reports hplain fun _ ht _ => h ht).step fun _ _ => ?_
  split
  · refine FailsOnly.of_report ?_
    rintro _ ⟨⟩
    refine ⟨⟨rfl, hhint⟩, ?_⟩
    rintro _ (_ | ⟨_, ⟨⟩⟩) _
    exact hid
  · exact FailsOnly.of_pure _

theorem addLabel_reports (h : Patch.texts patch ⊆ texts) :
    FailsOnly (addLabel patch p) (Failure.Reports texts) := by
  have hplain : ArePlain (fieldsWithout Label.fields ["id"]) := by decide
  exact (checkFields_reports hplain fun _ ht _ => h ht).step fun _ _ =>
    FailsOnly.of_mint.bind fun _ _ _ _ => FailsOnly.of_pure _

theorem updateLabel_reports {id : Value} (hid : id.text ∈ texts)
    (h : Patch.texts patch ⊆ texts) :
    FailsOnly (updateLabel id patch p) (Failure.Reports texts) := by
  have hplain : ArePlain (fieldsWithout Label.fields ["id"]) := by decide
  have hhint : CodePoint.char '\n' ∉ ("choose an existing text element" : Text) := by decide
  refine (checkFields_reports hplain fun _ ht _ => h ht).step fun _ _ => ?_
  split
  · refine FailsOnly.of_report ?_
    rintro _ ⟨⟩
    refine ⟨⟨rfl, hhint⟩, ?_⟩
    rintro _ (_ | ⟨_, ⟨⟩⟩) _
    exact hid
  · exact FailsOnly.of_pure _

theorem load_reports {q : Project} (h : relationTexts q.relations ⊆ texts) :
    FailsOnly (load q p) (Failure.Reports texts) := by
  refine (checkIntegrity_reports fun r hr => .inr fun t ht => h ?_).step fun _ _ =>
    FailsOnly.of_pure _
  exact mem_relationTexts hr ht

theorem append_reports {tables : List Table} {relations : List Relation}
    (hown : relationTexts p.relations ⊆ texts) (h : relationTexts relations ⊆ texts) :
    FailsOnly (append tables relations p) (Failure.Reports texts) := by
  refine (checkIntegrity_reports fun r hr => .inr fun t ht => ?_).step fun _ _ =>
    FailsOnly.of_pure _
  rcases List.mem_append.1 hr with hr | hr
  · exact hown (mem_relationTexts hr ht)
  · exact h (mem_relationTexts hr ht)

/-- After a merge every relation has its ends, so a merge quotes nothing. -/
theorem merge_reports (tables : List Table) (relations : List Relation) :
    FailsOnly (merge tables relations p) (Failure.Reports texts) := by
  refine (mergeCheck_reports tables relations).step fun _ _ => ?_
  refine (checkIntegrity_reports fun r hr => .inl fun side => ?_).step fun _ _ =>
    FailsOnly.of_pure _
  rw [hasColumn_iff_shape, Merge.merged_shape, ← hasColumn_iff_shape]
  exact (Merge.merged_relations p tables relations).2 r hr side

end Edit

/-! ## Every command -/

open Edit

/-- The reports of a command are of the schema, and line feeds in them come from the command or from
the project. -/
theorem Command.edit_reports (name database : Value) (command : Command) (p : Project) :
    FailsOnly (command.edit name database p) (Failure.Reports (command.texts ++ p.texts)) := by
  have hreplying : ∀ {α : Type} (reply : α → Reply) (edit : Edit α),
      FailsOnly (edit p) (Failure.Reports (command.texts ++ p.texts)) →
        FailsOnly (Edit.replying reply edit p) (Failure.Reports (command.texts ++ p.texts)) :=
    fun reply edit h => h.bind fun _ _ _ _ => FailsOnly.of_pure _
  have hnames : ∀ t ∈ p.tables, t.name.text ∈ command.texts ++ p.texts := fun t ht =>
    List.mem_append_right _ (List.mem_append_left _ (List.mem_map.2 ⟨t, ht, rfl⟩))
  have hown : relationTexts p.relations ⊆ command.texts ++ p.texts := fun t ht =>
    List.mem_append_right _ (List.mem_append_right _ ht)
  have hgiven : ∀ {ts : List Text}, ts ⊆ command.texts → ts ⊆ command.texts ++ p.texts :=
    fun hsub _ ht => List.mem_append_left _ (hsub ht)
  cases command <;> rw [Command.edit] <;> refine hreplying _ _ ?_
  case setProjectName => exact setProjectName_reports _
  case setEngine => exact setEngine_reports (by simp [Command.texts])
  case setViewport => exact setViewport_reports _ _
  case reset => exact FailsOnly.of_mint.bind fun _ _ _ _ => FailsOnly.of_pure _
  case addTable => exact addTable_reports (by simp [Command.texts])
  case updateTable => exact updateTable_reports (by simp [Command.texts]) (by simp [Command.texts])
  case moveTable => exact moveTable_reports (by simp [Command.texts])
  case deleteTable => exact deleteTable_reports (by simp [Command.texts])
  case addColumn =>
    exact addColumn_reports (by simp [Command.texts]) (by simp [Command.texts])
      (hgiven fun _ ht => by simp [Command.texts, ht])
  case updateColumn =>
    exact updateColumn_reports (by simp [Command.texts]) (by simp [Command.texts]) hnames
      (hgiven fun _ ht => by simp [Command.texts, ht])
  case deleteColumn =>
    exact deleteColumn_reports (by simp [Command.texts]) (by simp [Command.texts]) hnames
  case addRelation =>
    exact addRelation_reports (by simp [Command.texts]) (by simp [Command.texts]) hnames
      (hgiven fun _ ht => by simp [Command.texts, ht])
  case deleteRelation => exact deleteRelation_reports _
  case addNote => exact addNote_reports (by simp [Command.texts])
  case updateNote => exact updateNote_reports (by simp [Command.texts]) (by simp [Command.texts])
  case deleteNote => exact FailsOnly.of_pure _
  case addLabel => exact addLabel_reports (by simp [Command.texts])
  case updateLabel => exact updateLabel_reports (by simp [Command.texts]) (by simp [Command.texts])
  case deleteLabel => exact FailsOnly.of_pure _
  case restore => exact FailsOnly.of_pure _
  case load => exact load_reports (hgiven fun _ h => h)
  case append => exact append_reports hown (hgiven fun _ h => h)
  case merge => exact merge_reports _ _

/-- What a command reports is a problem of the schema.  Its message is one that a user can act on
exactly if nothing that it quotes has a line feed.  If it is not, a line feed is in what the command
was given to refer to, or in a name or identifier of the project. -/
theorem execute_reports (s : Store) (command : Command) (problem : Problem)
    (h : (s.execute command).result = .error (.problem problem)) :
    problem.report.context = Text.ofString "Schema" ∧
      (Report.isActionable problem.message = true ↔
        ∀ t ∈ problem.quoted, CodePoint.char '\n' ∉ t) ∧
      (Report.isActionable problem.message = false →
        ∃ t ∈ command.texts ++ s.project.texts, CodePoint.char '\n' ∈ t) := by
  have hrun : ((command.edit s.defaultName s.defaultDatabase s.project).runFrom s.ids).1 =
      .error (.problem problem) := by
    rw [Store.execute, Store.perform] at h
    rcases hresult : (command.edit s.defaultName s.defaultDatabase s.project).runFrom s.ids with
      ⟨failure | ⟨reply, next⟩, ids⟩
    · rw [hresult] at h
      cases h
      rfl
    · rw [hresult] at h
      cases next <;> cases h
  have hreport := command.edit_reports s.defaultName s.defaultDatabase s.project s.ids _ hrun
    problem rfl
  refine ⟨hreport.schema.context, hreport.schema.isActionable_iff, fun hfalse => ?_⟩
  rw [← Bool.not_eq_true, hreport.schema.isActionable_iff] at hfalse
  simp only [not_forall, not_not] at hfalse
  obtain ⟨t, ht, hline⟩ := hfalse
  obtain ⟨u, hu, hline⟩ := Problem.exists_mentioned ht hline
  exact ⟨u, hreport.given u hu hline, hline⟩

/-- Colons and periods in what is quoted do no harm. -/
theorem execute_reports_marked :
    let s := Store.empty "new" "MySQL" {}
    let problem := Problem.tableNotFound .deleteTable ": a. Fix: b."
    (s.execute (.deleteTable ": a. Fix: b.")).result = .error (.problem problem) ∧
      Report.isActionable problem.message = true := by
  intro s problem
  have h : (s.execute (.deleteTable ": a. Fix: b.")).result = .error (.problem problem) := by
    decide +kernel
  obtain ⟨-, hactionable, -⟩ := execute_reports s _ problem h
  exact ⟨h, hactionable.2 (by decide +kernel)⟩

/-- A table whose identifier has a line feed is reported as missing, in a message that does not
count as one that a user can act on. -/
theorem execute_report_broken :
    let s := Store.empty "new" "MySQL" {}
    let problem := Problem.tableNotFound .deleteTable "a\nb"
    (s.execute (.deleteTable "a\nb")).result = .error (.problem problem) ∧
      problem.message =
        "Schema / Delete table: table 'a\nb' was not found. Fix: choose an existing table." ∧
      Report.isActionable problem.message = false := by
  decide +kernel

end SchemaDesk
