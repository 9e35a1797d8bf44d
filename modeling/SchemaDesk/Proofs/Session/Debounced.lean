import SchemaDesk.Proofs.Session.Run

/-!
# The debounced editor

However an editor is typed into, cancelled, flushed and left to its timers, its handle and the timers
of its service belong together (`Editor.Attuned`): the timer that the handle names is the only one
alive, and without a handle there is none.  From this it follows that a text is passed on at most
once, and never after another one was typed or the editor was cancelled.

A timer service numbers its timers, which stands for any way of handing out handles that are
distinct.

What is typed into a designer without a timer firing in between leaves no trace but the last text
(`Designer.fire_typed`).
-/

namespace SchemaDesk

namespace Editor

variable {e : Editor} {last : Option Value}

/-! ## Strokes -/

/-- What can happen to an editor. -/
inductive Stroke where
  | type (text : Value)
  | cancel
  | flush
  | fire

/-- Whether a stroke is an edit. -/
def Stroke.isEdit : Stroke → Bool
  | .type _ => true
  | _ => false

/-- The text typed last, after a stroke. -/
def Stroke.latest (last : Option Value) : Stroke → Option Value
  | .type text => some text
  | _ => last

/-- What a stroke passes on, and the editor after it. -/
def stroke (e : Editor) : Stroke → Except Failure (List Text) × Editor
  | .type text => (.ok [], e.type text)
  | .cancel => (.ok [], e.cancel)
  | .flush => e.flush
  | .fire => e.fire

/-- The texts passed on, of which there are none if passing on failed. -/
def passedOn : Except Failure (List Text) → List Text
  | .ok texts => texts
  | .error _ => []

/-- The texts that several strokes pass on, and the editor after them. -/
def run (e : Editor) : List Stroke → List Text × Editor
  | [] => ([], e)
  | s :: rest =>
      let later := run (e.stroke s).2 rest
      (passedOn (e.stroke s).1 ++ later.1, later.2)

/-- The text that was typed last in several strokes. -/
def lastTyped (strokes : List Stroke) : Option Value :=
  strokes.foldl Stroke.latest none

/-! ## Handles and timers -/

/-- The handle of an editor names the only timer that is alive. -/
structure Attuned (e : Editor) : Prop where
  handsOut : e.handsOut = true
  alive : e.timers.alive.map (·.1) = e.pending?.toList

theorem isPending_eq_false_iff : e.isPending = false ↔ e.pending? = none := by
  rw [isPending, Option.isSome_eq_false_iff, Option.isNone_iff_eq_none]

theorem pending_cancel (e : Editor) : e.cancel.pending? = none := by
  rw [cancel]
  split
  · rfl
  · assumption

theorem text_cancel (e : Editor) : e.cancel.text = e.text := by
  rw [cancel]
  split <;> rfl

theorem text_type (e : Editor) (text : Value) : (e.type text).text = text :=
  text_cancel { e with text }

theorem handsOut_cancel (e : Editor) : e.cancel.handsOut = e.handsOut := by
  rw [cancel]
  split <;> rfl

namespace Attuned

/-- As many timers are alive as the editor has handles, which is one or none. -/
theorem length_alive (h : e.Attuned) : e.timers.alive.length = e.pending?.toList.length := by
  rw [← h.alive, List.length_map]

theorem isPending_iff (h : e.Attuned) : e.isPending = true ↔ e.timers.alive ≠ [] := by
  rw [← List.length_pos_iff, h.length_alive, isPending]
  cases e.pending? <;> simp

/-- Cancelling leaves no timer alive. -/
theorem alive_cancel (h : e.Attuned) : e.cancel.timers.alive = [] := by
  have halive := h.alive
  rw [Editor.cancel]
  cases hpending : e.pending? with
  | none =>
      rw [hpending] at halive
      exact List.map_eq_nil_iff.1 halive
  | some handle =>
      rw [hpending] at halive
      refine List.filter_eq_nil_iff.2 fun timer htimer => ?_
      have hhandle : timer.1 ∈ e.timers.alive.map (·.1) := List.mem_map_of_mem htimer
      rw [halive, Option.toList_some, List.mem_singleton] at hhandle
      simpa using hhandle

theorem cancel (h : e.Attuned) : e.cancel.Attuned where
  handsOut := (handsOut_cancel e).trans h.handsOut
  alive := by
    rw [h.alive_cancel, pending_cancel]
    rfl

/-- Typing cancels the timer that was alive and sets the only one. -/
theorem type (h : e.Attuned) (text : Value) : (e.type text).Attuned := by
  have hcancelled : ({ e with text } : Editor).Attuned := ⟨h.handsOut, h.alive⟩
  refine ⟨hcancelled.cancel.handsOut, ?_⟩
  simp only [Editor.type, Timers.set, hcancelled.alive_cancel, hcancelled.cancel.handsOut,
    List.nil_append, List.map_cons, List.map_nil, if_true, Option.toList_some]

theorem typeAll (h : e.Attuned) (texts : List Value) : (texts.foldl Editor.type e).Attuned := by
  induction texts generalizing e with
  | nil => exact h
  | cons text rest ih => exact ih (h.type text)

end Attuned

/-! ## What is passed on -/

/-- Firing passes the text on if a timer is alive, and only once. -/
theorem Attuned.fire_eq (h : e.Attuned) :
    e.fire = (if e.isPending then e.emit.1 else .ok [],
      { e with timers := { e.timers with alive := [] }, pending? := none }) := by
  obtain ⟨delay, handsOut, text, pending, ⟨issued, alive, cancelled⟩⟩ := e
  have halive := h.alive
  cases pending with
  | none =>
      cases List.map_eq_nil_iff.1 halive
      rfl
  | some handle =>
      obtain ⟨timer, rfl, -⟩ := List.map_eq_singleton_iff.1 halive
      cases text with
      | str t => simp [fire, Timers.takeAll, emitFor, emit, isPending, Except.map]
      | _ => rfl

/-- Flushing passes the text on if a timer is pending, which it cancels. -/
theorem flush_eq (e : Editor) :
    e.flush = (if e.isPending then e.emit.1 else .ok [], e.cancel) := by
  rw [flush]
  cases hpending : e.isPending with
  | false => rw [cancel, isPending_eq_false_iff.1 hpending]; rfl
  | true =>
      rw [if_pos rfl, if_pos rfl, emit, emit, text_cancel, ← pending_cancel e, ← text_cancel e]

/-- Only a text that is not blank is passed on. -/
theorem mem_passedOn_emit {t : Text} :
    t ∈ passedOn e.emit.1 ↔ e.text = .str t ∧ t.isBlankText = false := by
  rw [emit]
  cases e.text with
  | str s =>
      simp only [passedOn, Value.str.injEq]
      cases hs : s.isBlankText with
      | true =>
          simp only [if_true, List.not_mem_nil, false_iff]
          rintro ⟨rfl, ht⟩
          rw [hs] at ht
          cases ht
      | false =>
          simp only [Bool.false_eq_true, if_false, List.mem_singleton]
          exact ⟨fun ht => ⟨ht.symm, ht ▸ hs⟩, fun ht => ht.1.symm⟩
  | _ => simp [passedOn]

theorem length_passedOn_emit_le (e : Editor) : (passedOn e.emit.1).length ≤ 1 := by
  rw [emit]
  cases e.text with
  | str s =>
      simp only [passedOn]
      cases s.isBlankText <;> simp
  | _ => exact Nat.zero_le 1

/-- A stroke passes on what an editor with a pending timer holds, or nothing. -/
theorem Attuned.passedOn_stroke (h : e.Attuned) (s : Stroke) :
    passedOn (e.stroke s).1 = [] ∨
      e.isPending = true ∧ passedOn (e.stroke s).1 = passedOn e.emit.1 := by
  cases hpending : e.isPending with
  | false =>
      cases s with
      | type text => exact .inl rfl
      | cancel => exact .inl rfl
      | flush =>
          rw [stroke, flush_eq, hpending]
          exact .inl rfl
      | fire =>
          rw [stroke, h.fire_eq, hpending]
          exact .inl rfl
  | true =>
      cases s with
      | type text => exact .inl rfl
      | cancel => exact .inl rfl
      | flush =>
          rw [stroke, flush_eq, hpending]
          exact .inr ⟨rfl, rfl⟩
      | fire =>
          rw [stroke, h.fire_eq, hpending]
          exact .inr ⟨rfl, rfl⟩

/-- Every stroke keeps the handle and the timers together. -/
theorem Attuned.stroke (h : e.Attuned) (s : Stroke) : (e.stroke s).2.Attuned := by
  cases s with
  | type text => exact h.type text
  | cancel => exact h.cancel
  | flush =>
      rw [Editor.stroke, flush_eq]
      exact h.cancel
  | fire =>
      rw [Editor.stroke, h.fire_eq]
      exact ⟨h.handsOut, rfl⟩

/-- After a stroke that is no edit nothing is pending. -/
theorem Attuned.isPending_stroke (h : e.Attuned) {s : Stroke} (hs : s.isEdit = false) :
    (e.stroke s).2.isPending = false := by
  rw [isPending_eq_false_iff]
  cases s with
  | type text => cases hs
  | cancel => exact pending_cancel e
  | flush =>
      rw [Editor.stroke, flush_eq]
      exact pending_cancel e
  | fire => rw [Editor.stroke, h.fire_eq]

/-! ## Runs -/

/-- Without an edit an editor that has nothing pending passes nothing on. -/
theorem Attuned.run_of_not_isPending (h : e.Attuned) (hpending : e.isPending = false)
    {strokes : List Stroke} (hstrokes : ∀ s ∈ strokes, s.isEdit = false) :
    (e.run strokes).1 = [] := by
  induction strokes generalizing e with
  | nil => rfl
  | cons s rest ih =>
      obtain ⟨hs, hrest⟩ := List.forall_mem_cons.1 hstrokes
      have hfirst : passedOn (e.stroke s).1 = [] := by
        rcases h.passedOn_stroke s with hnone | ⟨htrue, -⟩
        · exact hnone
        · rw [hpending] at htrue
          cases htrue
      rw [run, hfirst, ih (h.stroke s) (h.isPending_stroke hs) hrest, List.nil_append]

/-- Without an edit an editor passes on at most once. -/
theorem Attuned.length_run_le (h : e.Attuned) {strokes : List Stroke}
    (hstrokes : ∀ s ∈ strokes, s.isEdit = false) : (e.run strokes).1.length ≤ 1 := by
  cases strokes with
  | nil => exact Nat.zero_le 1
  | cons s rest =>
      obtain ⟨hs, hrest⟩ := List.forall_mem_cons.1 hstrokes
      rw [run, (h.stroke s).run_of_not_isPending (h.isPending_stroke hs) hrest, List.append_nil]
      rcases h.passedOn_stroke s with hnone | ⟨-, hemit⟩
      · rw [hnone]
        exact Nat.zero_le 1
      · rw [hemit]
        exact length_passedOn_emit_le e

/-- The editor is attuned, and what it has pending is the text that was typed last. -/
structure Recalls (last : Option Value) (e : Editor) : Prop where
  attuned : e.Attuned
  pending : e.isPending = true → last = some e.text

theorem Recalls.stroke (h : Recalls last e) (s : Stroke) :
    Recalls (s.latest last) (e.stroke s).2 := by
  refine ⟨h.attuned.stroke s, fun hpending => ?_⟩
  cases hs : s.isEdit with
  | false =>
      rw [h.attuned.isPending_stroke hs] at hpending
      cases hpending
  | true =>
      cases s with
      | type text => exact congrArg some (text_type e text).symm
      | _ => cases hs

theorem Recalls.run (h : Recalls last e) (strokes : List Stroke) :
    Recalls (strokes.foldl Stroke.latest last) (e.run strokes).2 := by
  induction strokes generalizing last e with
  | nil => exact h
  | cons s rest ih => exact ih (h.stroke s)

/-- A new editor has nothing pending. -/
theorem Recalls.ofDelay {delay : Value} (created : ofDelay delay true = .ok e) :
    Recalls none e := by
  obtain ⟨n, -, created⟩ := Except.bind_eq_ok.1 created
  cases created
  exact ⟨⟨rfl, rfl⟩, nofun⟩

/-- A text that was just typed is passed on as it is, unless it is blank, as soon as the timer fires
or the editor is flushed. -/
theorem Attuned.fire_type (h : e.Attuned) (t : Text) :
    (e.type (.str t)).fire.1 = .ok (if t.isBlankText then [] else [t]) ∧
      (e.type (.str t)).flush.1 = .ok (if t.isBlankText then [] else [t]) := by
  have hpending : (e.type (.str t)).isPending = true := by
    have hhandsOut : ({ e with text := .str t } : Editor).cancel.handsOut = true :=
      (handsOut_cancel _).trans h.handsOut
    simp only [isPending, Editor.type, hhandsOut, if_true, Option.isSome_some]
  rw [(h.type (.str t)).fire_eq, flush_eq, hpending, if_pos rfl, emit, text_type]
  exact ⟨rfl, rfl⟩

end Editor

/-! ## The editor of a designer -/

namespace Designer

variable {d : Designer}

/-- What a designer can be used for: the actions of a session, and strokes in the editor. -/
inductive Use where
  | act (action : Action)
  | stroke (s : Editor.Stroke)

/-- The designer after it was used. -/
def used (d : Designer) : Use → Designer
  | .act action => d.after action
  | .stroke (.type text) => (d.type text).designer
  | .stroke .cancel => d.cancel.designer
  | .stroke .flush => d.flush.designer
  | .stroke .fire => d.fire.designer

/-- The designer after it was used several times. -/
def usedAll (d : Designer) (uses : List Use) : Designer :=
  uses.foldl used d

/-- The designer after several texts were typed, with nothing in between. -/
def typedAll (d : Designer) (texts : List Value) : Designer :=
  texts.foldl (fun d text => (d.type text).designer) d

/-- Merging texts does not touch the editor. -/
theorem editor_applyAll (d : Designer) (texts : List Text) :
    (d.applyAll texts).designer.editor = d.editor := by
  induction texts generalizing d with
  | nil => rfl
  | cons sql rest ih =>
      rw [applyAll]
      cases (d.applySql sql).result with
      | error failure => rfl
      | ok parsed => exact ih _

theorem editor_applyEmitted (d : Designer) (emission : Except Failure (List Text) × Editor) :
    (d.applyEmitted emission).designer.editor = emission.2 := by
  rcases emission with ⟨failure | texts, e⟩
  · rfl
  · exact editor_applyAll _ texts

/-- No action touches the editor. -/
theorem editor_after (d : Designer) (action : Action) : (d.after action).editor = d.editor := by
  cases action with
  | execute command => rfl
  | importSql sql => rfl
  | applySql sql => rfl
  | undo =>
      rw [after_undo]
      rcases d.history.undo with ⟨_ | s, h⟩ <;> rfl
  | redo =>
      rw [after_redo]
      rcases d.history.redo with ⟨_ | s, h⟩ <;> rfl
  | load disk path =>
      rw [after, load]
      cases (d.perform (loadEdit (Files.readDocument disk path))).result <;> rfl

theorem attuned_ofConfig {config : Config} {ids : IdSupply} (begun : ofConfig config ids = .ok d) :
    d.editor.Attuned := by
  obtain ⟨h, -, begun⟩ := Except.bind_eq_ok.1 begun
  obtain ⟨e, created, begun⟩ := Except.bind_eq_ok.1 begun
  cases begun
  exact (Editor.Recalls.ofDelay created).attuned

/-- However a designer is used, its editor stays attuned. -/
theorem attuned_usedAll (hd : d.editor.Attuned) (uses : List Use) :
    (d.usedAll uses).editor.Attuned := by
  induction uses generalizing d with
  | nil => exact hd
  | cons use rest ih =>
      refine ih ?_
      cases use with
      | act action =>
          rw [used, editor_after]
          exact hd
      | stroke s =>
          cases s with
          | type text => exact hd.type text
          | cancel => exact hd.cancel
          | flush =>
              rw [used, flush, editor_applyEmitted]
              exact hd.stroke .flush
          | fire =>
              rw [used, fire, editor_applyEmitted]
              exact hd.stroke .fire

/-- Typing changes only the editor. -/
theorem typedAll_eq (d : Designer) (texts : List Value) :
    d.typedAll texts = { d with editor := texts.foldl Editor.type d.editor } := by
  induction texts generalizing d with
  | nil => rfl
  | cons text rest ih => exact ih _

/-- Applying a text does not look at the editor. -/
theorem applySql_editor (d : Designer) (e : Editor) (sql : Text) :
    ({ d with editor := e } : Designer).applySql sql =
      { d.applySql sql with designer := { (d.applySql sql).designer with editor := e } } :=
  rfl

/-- When the timer fires after several texts were typed, the last one is applied, unless it is blank,
and nothing is left of the others. -/
theorem fire_typedAll (hd : d.editor.Attuned) (earlier : List Value) (t : Text) :
    ∃ e, (d.typedAll (earlier ++ [.str t])).fire =
      if t.isBlankText then ⟨.ok (), { d with editor := e }, []⟩
      else ⟨(d.applySql t).result.map fun _ => (),
        { (d.applySql t).designer with editor := e }, (d.applySql t).announced⟩ := by
  have hearlier := hd.typeAll earlier
  refine ⟨((earlier ++ [Value.str t]).foldl Editor.type d.editor).fire.2, ?_⟩
  rw [typedAll_eq, fire, applyEmitted, List.foldl_concat, (hearlier.fire_type t).1]
  cases t.isBlankText with
  | true => rfl
  | false =>
      simp only [Bool.false_eq_true, if_false, applyAll, applySql_editor]
      cases (d.applySql t).result with
      | error failure => rfl
      | ok parsed => simp only [List.append_nil, Except.map]

/-- An editor passes on only the latest text, at most once for each edit.  After any strokes at most
one timer is alive, and one is exactly if the editor has one pending; what a further stroke passes on
is not blank and was typed last; without a further edit there is at most one passing on after an
edit, and none after the editor was cancelled.  When the timer of a designer fires after several
texts were typed, its project, its history and what is announced depend on no other text than the
last. -/
theorem editor_passes_on_latest_text_once {delay : Value} {e₀ : Editor}
    (created : Editor.ofDelay delay true = .ok e₀) {config : Config} {ids : IdSupply}
    {d₀ : Designer} (begun : ofConfig config ids = .ok d₀) :
    (∀ strokes e, e = (e₀.run strokes).2 →
      (e.timers.alive.length ≤ 1 ∧ (e.isPending = true ↔ e.timers.alive ≠ [])) ∧
      (∀ s, ∀ t ∈ Editor.passedOn (e.stroke s).1,
        t.isBlankText = false ∧ Editor.lastTyped strokes = some (.str t)) ∧
      (∀ rest, (∀ s ∈ rest, s.isEdit = false) →
        (∀ text, ((e.type text).run rest).1.length ≤ 1) ∧ (e.cancel.run rest).1 = []) ∧
      ∀ t, (e.type (.str t)).fire.1 = .ok (if t.isBlankText then [] else [t]) ∧
        (e.type (.str t)).flush.1 = .ok (if t.isBlankText then [] else [t])) ∧
    ∀ uses d, d = d₀.usedAll uses → ∀ earlier t fired,
      fired = (d.typedAll (earlier ++ [.str t])).fire →
      (t.isBlankText = true →
        fired.result = .ok () ∧ fired.announced = [] ∧
          fired.designer.store = d.store ∧ fired.designer.history = d.history) ∧
      (t.isBlankText = false →
        fired.result = (d.applySql t).result.map (fun _ => ()) ∧
          fired.announced = (d.applySql t).announced ∧
          fired.designer.store = (d.applySql t).designer.store ∧
          fired.designer.history = (d.applySql t).designer.history) := by
  refine ⟨fun strokes e he => ?_, fun uses d hd earlier t fired hfired => ?_⟩
  -- For one editor the run keeps which text was typed last and that its timers are in tune.
  · have hrecalls : Editor.Recalls (Editor.lastTyped strokes) e := by
      rw [he]
      exact (Editor.Recalls.ofDelay created).run strokes
    have hattuned := hrecalls.attuned
    refine ⟨⟨?_, hattuned.isPending_iff⟩, fun s t ht => ?_, fun rest hrest => ⟨fun text => ?_, ?_⟩,
      hattuned.fire_type⟩
    · rw [hattuned.length_alive]
      exact Option.length_toList_le
    · rcases hattuned.passedOn_stroke s with hnone | ⟨hpending, hemit⟩
      · rw [hnone] at ht
        exact absurd ht List.not_mem_nil
      · rw [hemit] at ht
        obtain ⟨htext, hblank⟩ := Editor.mem_passedOn_emit.1 ht
        exact ⟨hblank, htext ▸ hrecalls.pending hpending⟩
    · exact (hattuned.type text).length_run_le hrest
    · exact hattuned.cancel.run_of_not_isPending
        (Editor.isPending_eq_false_iff.2 (Editor.pending_cancel e)) hrest
  -- In a designer the firing timer applies the text typed last, whatever was typed before it.
  · have hattuned : d.editor.Attuned := by
      rw [hd]
      exact attuned_usedAll (attuned_ofConfig begun) uses
    obtain ⟨e, heq⟩ := fire_typedAll hattuned earlier t
    rw [hfired, heq]
    refine ⟨fun ht => ?_, fun ht => ?_⟩
    · rw [if_pos ht]
      exact ⟨rfl, rfl, rfl, rfl⟩
    · rw [if_neg (by rw [ht]; exact Bool.false_ne_true)]
      exact ⟨rfl, rfl, rfl, rfl⟩

/-- Of two texts typed one after the other, only the second declares a table in the end. -/
theorem editor_passes_on_second_text : ∃ e₀ d₀ fired,
    Editor.ofDelay (.int 800) true = .ok e₀ ∧ ofConfig {} {} = .ok d₀ ∧
    ((e₀.run [.type "a", .cancel]).2.type "b").fire.1 = .ok ["b"] ∧
    fired = (d₀.typedAll ["CREATE TABLE a (x INT)", "CREATE TABLE b (x INT)"]).fire ∧
    fired.result = .ok () ∧ fired.designer.store.project.tables.map Table.name = [.str "b"] := by
  obtain ⟨heditor, hdesigner⟩ :=
    @editor_passes_on_latest_text_once (.int 800) _ rfl {} {} _ rfl
  obtain ⟨-, hsecond⟩ :=
    hdesigner [] _ rfl [.str "CREATE TABLE a (x INT)"] "CREATE TABLE b (x INT)" _ rfl
  obtain ⟨hresult, -, hstore, -⟩ := hsecond (by decide +kernel)
  refine ⟨_, _, _, rfl, rfl, ((heditor [.type "a", .cancel] _ rfl).2.2.2 "b").1, rfl, ?_, ?_⟩
  · exact hresult.trans (by decide +kernel)
  · have hnames := congrArg (·.project.tables.map Table.name) hstore
    exact hnames.trans (show _ = [Value.str "b"] by decide +kernel)

end Designer

end SchemaDesk
