import SchemaDesk.Proofs.Sql.Abreast
import SchemaDesk.Sql.Statement

/-!
# Looking for statements abreast

Token lists that are paired hold the same statements, with bodies and actions from the same places
(`statementTurn_abreast`).  With a statement that is found the loop over the first list tells which
tokens it takes: the body of a `CREATE TABLE` stands in the first group among them, and the actions
of an `ALTER TABLE` are among them.
-/

namespace SchemaDesk.Sql

/-! ## Options -/

section Statements

variable {R : Token → Token → Prop} {P S : List Token → List Token → Prop} {extra : Nat}
variable {ts us : List Token} (hP : Pairing R P extra)
variable (hoption : ∀ {t u}, R t u → optionText? t = optionText? u)

include hP

theorem inActions_eq {t u : Token} (ht : R t u) : inActions t = inActions u := by
  rw [inActions, inActions, (hP.kin ht).isMark, (hP.kin ht).isKeyword]

omit hP in
theorem inActions_of_semicolon {s : Token} (hs : s.isMark ';' = true) : inActions s = false := by
  rw [inActions, hs]
  rfl

include hoption

theorem optionTurn_abreast (key : OptionKey) (h : P ts us) :
    Turn.Rel Eq P S (optionTurn key ts) (optionTurn key us) := by
  have hequals : P (skipMark '=' ts) (skipMark '=' us) := skipMark_abreast hP h (by decide)
  rw [optionTurn, optionTurn]
  cases hts : skipMark '=' ts with
  | nil =>
      rw [hts] at hequals
      obtain hus | ⟨s, rest, hus, hs⟩ := hP.ends hequals
      · rw [hus] at hequals ⊢
        exact .next .none hequals
      · have hvalue : optionText? s = none := by rw [optionText?, of_decide_eq_true hs]
        rw [hus] at hequals ⊢
        simp only [hvalue]
        exact .next .none hequals
  | cons t rest =>
      rw [hts] at hequals
      obtain ⟨u, rest', hus, ht, hrest⟩ := hP.cons hequals
      rw [hus] at hequals ⊢
      simp only [hoption ht]
      cases optionText? u with
      | none => exact .next .none hequals
      | some value => exact .next (.some rfl) hrest

theorem optionsTurn_abreast {t u : Token} (ht : R t u) (h : P (t :: ts) (u :: us))
    (hrest : P ts us) : Turn.Rel Eq P (Past P) (optionsTurn t ts) (optionsTurn u us) := by
  have hset := nextIs_abreast hP hrest ["SET"]
  have hoptions : ∀ key {ts us}, P ts us →
      Turn.Rel Eq P (Past P) (optionTurn key ts) (optionTurn key us) :=
    fun key _ _ h => optionTurn_abreast hP hoption key h
  simp only [optionsTurn, (hP.kin ht).isMark, (hP.kin ht).isKeyword, hset]
  split
  · exact .stop (.inl hrest)
  split
  · exact .stop (.inl h)
  split
  · exact hoptions _ hrest
  split
  · exact hoptions _ hrest
  split
  · exact hoptions _ (skip_abreast hP hrest _)
  split
  · exact hoptions _ hrest
  split
  · exact hoptions _ hrest
  · exact .next .none hrest

/-- Options end with their list, or with the semicolon that the second list goes on with. -/
theorem readOptions_abreast (h : P ts us) :
    (readOptions ts).1 = (readOptions us).1 ∧ Past P (readOptions ts).2 (readOptions us).2 := by
  have hend : ∀ {us}, P [] us →
      (turns optionsTurn us).1 = [] ∧ Past P [] (turns optionsTurn us).2 := by
    intro us h
    obtain rfl | ⟨s, rest, rfl, hs⟩ := hP.ends h
    · exact ⟨rfl, .inl h⟩
    · have hstop : optionsTurn s rest = .stop rest := by rw [optionsTurn, if_pos hs]
      rw [turns_stop hstop]
      exact ⟨rfl, .inr ⟨rfl, s, hs, h⟩⟩
  obtain ⟨hfound, hleft⟩ := turns_abreast hP
    (fun _ _ _ _ => optionsTurn_abreast hP hoption) hend h
  rw [List.forall₂_eq_eq_eq] at hfound
  simp only [readOptions, hfound]
  exact ⟨trivial, hleft⟩

end Statements

/-! ## What a statement takes -/

/-- Tokens that end with others, with no group among those before. -/
def Skims (ts left : List Token) : Prop :=
  ∃ skimmed, ts = skimmed ++ left ∧ ∀ t ∈ skimmed, t.isGroup = false

namespace Skims

variable {ts us left : List Token} {t : Token}

theorem refl (ts : List Token) : Skims ts ts :=
  ⟨[], rfl, fun _ h => absurd h List.not_mem_nil⟩

theorem cons (ht : t.isGroup = false) (h : Skims ts left) : Skims (t :: ts) left := by
  obtain ⟨skimmed, rfl, hskimmed⟩ := h
  exact ⟨t :: skimmed, rfl, List.forall_mem_cons.2 ⟨ht, hskimmed⟩⟩

theorem trans (h : Skims ts us) (h' : Skims us left) : Skims ts left := by
  obtain ⟨skimmed, rfl, hskimmed⟩ := h
  obtain ⟨skimmed', rfl, hskimmed'⟩ := h'
  refine ⟨skimmed ++ skimmed', by rw [List.append_assoc], fun t ht => ?_⟩
  rcases List.mem_append.1 ht with ht | ht
  · exact hskimmed t ht
  · exact hskimmed' t ht

theorem isGroup_of_isKeyword {keywords : List Text} (h : t.isKeyword keywords = true) :
    t.isGroup = false := by
  obtain ⟨l, _, _⟩ := t
  cases l with
  | group b => cases h
  | _ => rfl

theorem isGroup_of_isMark {symbol : CodePoint} (h : t.isMark symbol = true) :
    t.isGroup = false := by
  rw [Token.isGroup, of_decide_eq_true h]

theorem isGroup_of_name? {n : Text} (h : t.name? = some n) : t.isGroup = false := by
  obtain ⟨l, _, _⟩ := t
  cases l with
  | group b => cases h
  | _ => rfl

theorem of_after? {keywords : List Text} (h : after? keywords ts = some left) :
    Skims ts left := by
  cases ts with
  | nil => cases h
  | cons t ts =>
      rw [after?] at h
      split at h
      · next ht =>
          cases h
          exact .cons (isGroup_of_isKeyword ht) (.refl _)
      · cases h

theorem of_afterPhrase? {phrase : List Text} (h : afterPhrase? phrase ts = some left) :
    Skims ts left := by
  induction phrase generalizing ts with
  | nil =>
      cases h
      exact .refl _
  | cons keyword phrase ih =>
      cases ts with
      | nil => cases h
      | cons t ts =>
          rw [afterPhrase?] at h
          split at h
          · next ht => exact .cons (isGroup_of_isKeyword ht) (ih h)
          · cases h

theorem skip (keywords : List Text) (ts : List Token) : Skims ts (skip keywords ts) := by
  rw [Sql.skip]
  cases h : after? keywords ts with
  | none => exact .refl _
  | some left => exact .of_after? h

theorem skipPhrase (phrase : List Text) (ts : List Token) : Skims ts (skipPhrase phrase ts) := by
  rw [Sql.skipPhrase]
  cases h : afterPhrase? phrase ts with
  | none => exact .refl _
  | some left => exact .of_afterPhrase? h

theorem dropWhile (keywords : List Text) (ts : List Token) :
    Skims ts (ts.dropWhile (Token.isKeyword keywords)) := by
  refine ⟨_, (List.takeWhile_append_dropWhile).symm, fun t ht => ?_⟩
  exact isGroup_of_isKeyword (List.mem_takeWhile_imp ht)

theorem qualifiedRest (name : Text) (ts : List Token) :
    Skims ts (qualifiedRest name ts).2 := by
  fun_induction Sql.qualifiedRest name ts with
  | case1 name dot next rest hdot part hpart ih =>
      exact .cons (isGroup_of_isMark hdot) (.cons (isGroup_of_name? hpart) ih)
  | _ => exact .refl _

theorem readName (ts : List Token) : Skims ts (readName ts).2 := by
  cases ts with
  | nil => exact .refl _
  | cons t ts =>
      rw [Sql.readName]
      cases hname : t.name? with
      | none => exact .refl _
      | some first => exact .cons (isGroup_of_name? hname) (qualifiedRest first ts)

end Skims

/-- A group is the first one of the tokens taken, if what stands before it was skimmed. -/
theorem find?_taken {ts rest left : List Token} {g : Token} (h : Skims ts (g :: rest))
    (hg : g.isGroup = true) (hleft : left.length ≤ rest.length) :
    (ts.take (ts.length - left.length)).find? Token.isGroup = some g := by
  obtain ⟨skimmed, rfl, hskimmed⟩ := h
  have htake : (skimmed ++ g :: rest).take ((skimmed ++ g :: rest).length - left.length) =
      skimmed ++ g :: rest.take (rest.length - left.length) := by
    have hlength : (skimmed ++ g :: rest).length - left.length =
        skimmed.length + ((rest.length - left.length) + 1) := by
      rw [List.length_append, List.length_cons]
      omega
    rw [hlength, List.take_length_add_append, List.take_succ_cons]
  have hnone : skimmed.find? Token.isGroup = none :=
    List.find?_eq_none.2 fun t ht => by rw [hskimmed t ht]; exact Bool.false_ne_true
  rw [htake, List.find?_append, hnone, Option.none_or, List.find?_cons, hg]

/-- Tokens at the end of which a reader stops are among those taken. -/
theorem span_subset_taken {ts rest left : List Token} {p : Token → Bool} (h : Skims ts rest)
    (hleft : left.length ≤ (rest.dropWhile p).length) :
    rest.takeWhile p ⊆ ts.take (ts.length - left.length) := by
  obtain ⟨skimmed, rfl, -⟩ := h
  have hsplit := List.takeWhile_append_dropWhile (p := p) (l := rest)
  generalize rest.takeWhile p = span at hsplit ⊢
  generalize rest.dropWhile p = after at hsplit hleft
  subst hsplit
  intro t ht
  have hlength : (skimmed ++ (span ++ after)).length - left.length =
      (skimmed ++ span).length + (after.length - left.length) := by
    simp only [List.length_append]
    omega
  rw [hlength, ← List.append_assoc, List.take_length_add_append]
  exact List.mem_append_left _ (List.mem_append_right _ ht)

theorem skipMark_length_le (symbol : CodePoint) (tokens : List Token) :
    (skipMark symbol tokens).length ≤ tokens.length := by
  cases tokens with
  | nil => exact Nat.le_refl _
  | cons t rest =>
      rw [skipMark]
      split
      · exact Nat.le_succ _
      · exact Nat.le_refl _

/-- A loop leaves no more than it was given, if its last turn does. -/
theorem turns_length_le {α : Type} {turn : Token → List Token → Turn α}
    (h : ∀ t rest left, turn t rest = .stop left → left.length ≤ rest.length + 1)
    (tokens : List Token) : (turns turn tokens).2.length ≤ tokens.length := by
  induction tokens using turns_induction with
  | nil => exact Nat.le_refl _
  | cons t rest ih =>
      rw [turns_cons]
      cases hturn : turn t rest with
      | stop left => exact h t rest left hturn
      | next found left =>
          refine Nat.le_trans (ih (rest.length - left.length)) ?_
          rw [List.length_drop, List.length_cons]
          omega

theorem optionTurn_ne_stop {key : OptionKey} {tokens left : List Token} :
    optionTurn key tokens ≠ .stop left := by
  rw [optionTurn]
  split
  · simp
  · split <;> simp

theorem readOptions_length_le (tokens : List Token) :
    (readOptions tokens).2.length ≤ tokens.length := by
  refine turns_length_le (fun t rest left h => ?_) tokens
  rw [optionsTurn] at h
  split at h
  · cases h
    exact Nat.le_succ _
  split at h
  · cases h
    exact Nat.le_refl _
  · repeat' split at h
    all_goals first
      | exact absurd h optionTurn_ne_stop
      | cases h

/-! ## Statements abreast -/

/-- Spans of the two lists that are paired, each with its first token and its last one. -/
structure Spans (R : Token → Token → Prop) (P : List Token → List Token → Prop)
    (span span' : List Token) (first first' last last' : Token) : Prop where
  lists : ∃ rest rest', P (span ++ rest) (span' ++ rest')
  tokens : List.Forall₂ R span span'
  first : span.head? = some first ∧ span'.head? = some first' ∧ R first first'
  last : span.getLast? = some last ∧ span'.getLast? = some last' ∧ R last last'

/-- How statements compare that are found in paired lists of tokens of two texts.  A statement of the
first list comes with the tokens that it takes. -/
structure Comparison (R : Token → Token → Prop) (P : List Token → List Token → Prop)
    (text text' : Text) (F : Statement × List Token → Statement → Prop) : Prop where
  option : ∀ {t u}, R t u → optionText? t = optionText? u
  create : ∀ {t u b c used} name options, R t u → t.lexeme = .group b → u.lexeme = .group c →
    used.find? Token.isGroup = some t →
    F (.createTable name b options, used) (.createTable name c options)
  alter : ∀ {span span' first first' last last' used} name,
    Spans R P span span' first first' last last' → span ⊆ used →
    F (.alterTable name (slice text first.start last.stop), used)
      (.alterTable name (slice text' first'.start last'.stop))

section Statements

variable {R : Token → Token → Prop} {P S : List Token → List Token → Prop} {extra : Nat}
variable {ts us : List Token} {text text' : Text} {F : Statement × List Token → Statement → Prop}

/-- A `CREATE TABLE` has the same name and options on both sides, and its body stands in the first
group that it takes. -/
theorem createTurn_abreast (hP : Pairing R P extra) (hF : Comparison R P text text' F)
    (h : P ts us) :
    Turn.Rel F (Past P) S ((createTurn ts).taking ts) (createTurn us) := by
  have hdrop := dropWhile_abreast hP (p := Token.isKeyword
    ["TEMPORARY", "TEMP", "UNLOGGED", "GLOBAL", "LOCAL"])
    (fun ht => (hP.kin ht).isKeyword _) (fun s hs => Token.isKeyword_of_isMark hs _) h
  have hskims := Skims.dropWhile ["TEMPORARY", "TEMP", "UNLOGGED", "GLOBAL", "LOCAL"] ts
  rw [createTurn, createTurn]
  generalize ts.dropWhile _ = ts₁ at hdrop hskims ⊢
  generalize us.dropWhile _ = us₁ at hdrop ⊢
  obtain ⟨hts, hus⟩ | ⟨ts₂, us₂, hts, hus, hrest⟩ := rel_cases (after?_abreast hP hdrop ["TABLE"])
  · simp only [hts, hus]
    exact .next .none (.inl hdrop)
  obtain ⟨hname, hrest⟩ := readName_abreast hP
    (skipPhrase_abreast hP hrest ["IF", "NOT", "EXISTS"])
  have hskims := ((hskims.trans (.of_after? hts)).trans
    (.skipPhrase ["IF", "NOT", "EXISTS"] _)).trans (.readName _)
  simp only [hts, hus, hname]
  generalize (readName (skipPhrase _ ts₂)).2 = ts₃ at hrest hskims ⊢
  generalize readName (skipPhrase _ us₂) = named at hrest ⊢
  obtain ⟨hbody, hleft⟩ := readGroup_abreast hP hrest
  cases named.1 with
  | none => exact .next .none (.inl hleft)
  | some name =>
      obtain ⟨hb, hc⟩ | ⟨b, c, hb, hc, t, u, ht, htb, huc, hnext⟩ := rel_cases hbody
      · simp only [hb, hc]
        exact .next .none (.inl hleft)
      · -- the body stands in the group that comes next
        obtain ⟨hoptions, hpast⟩ := readOptions_abreast hP hF.option hleft
        simp only [hb, hc, hoptions]
        refine .next (.some (hF.create name _ ht htb huc ?_)) hpast
        rw [hnext] at hskims
        exact find?_taken hskims (by rw [Token.isGroup, htb]) (readOptions_length_le _)

/-- An `ALTER TABLE` has the same name on both sides, and its actions are cut out from the first to
the last of as many tokens. -/
theorem alterTurn_abreast (hP : Pairing R P extra) (hF : Comparison R P text text' F)
    (h : P ts us) :
    Turn.Rel F (Past P) S ((alterTurn text ts).taking ts) (alterTurn text' us) := by
  rw [alterTurn, alterTurn]
  obtain ⟨hts, hus⟩ | ⟨ts₁, us₁, hts, hus, hrest⟩ := rel_cases (after?_abreast hP h ["TABLE"])
  · simp only [hts, hus]
    exact .next .none (.inl h)
  obtain ⟨hname, hrest⟩ := readName_abreast hP
    (skipPhrase_abreast hP (skip_abreast hP hrest ["ONLY"]) ["IF", "EXISTS"])
  have hskims := (((Skims.of_after? hts).trans (.skip ["ONLY"] _)).trans
    (.skipPhrase ["IF", "EXISTS"] _)).trans (.readName _)
  simp only [hts, hus, hname]
  generalize (readName (skipPhrase _ (skip _ ts₁))).2 = ts₂ at hrest hskims ⊢
  generalize readName (skipPhrase _ (skip _ us₁)) = named at hrest ⊢
  have hspan := takeWhile_abreast hP (inActions_eq hP) (fun _ => inActions_of_semicolon) hrest
  have hleft := skipSemicolon_abreast hP
    (dropWhile_abreast hP (inActions_eq hP) (fun _ => inActions_of_semicolon) hrest)
  have htaken := span_subset_taken (p := inActions) hskims
    (skipMark_length_le ';' (ts₂.dropWhile inActions))
  have hlists := hrest
  rw [← List.takeWhile_append_dropWhile (p := inActions) (l := ts₂),
    ← List.takeWhile_append_dropWhile (p := inActions) (l := named.2)] at hlists
  cases named.1 with
  | none => exact .next .none hleft
  | some name =>
      obtain ⟨hf, hf'⟩ | ⟨first, first', hf, hf', hfirst⟩ := rel_cases (forall₂_head? hspan)
      · simp only [hf, hf']
        exact .next .none hleft
      obtain ⟨hl, hl'⟩ | ⟨last, last', hl, hl', hlast⟩ := rel_cases (forall₂_getLast? hspan)
      · simp only [hf, hf', hl, hl']
        exact .next .none hleft
      · simp only [hf, hf', hl, hl']
        exact .next (.some (hF.alter name
          ⟨⟨_, _, hlists⟩, hspan, ⟨hf, hf', hfirst⟩, ⟨hl, hl', hlast⟩⟩ htaken)) hleft

/-- Statements are looked for in both lists alike. -/
theorem statementTurn_abreast (hP : Pairing R P extra) (hF : Comparison R P text text' F)
    {t u : Token} (ht : R t u) (h : P ts us) :
    Turn.Rel F (Past P) S (withTaken (statementTurn text) t ts) (statementTurn text' u us) := by
  rw [withTaken, statementTurn, statementTurn, (hP.kin ht).isKeyword, (hP.kin ht).isKeyword]
  split
  · exact createTurn_abreast hP hF h
  split
  · exact alterTurn_abreast hP hF h
  · exact .next .none (.inl h)

/-- Lists of one length hold as many statements, which compare one by one. -/
theorem statements_abreast (hP : Pairing R P 0) (hF : Comparison R P text text' F) (h : P ts us) :
    List.Forall₂ F (turns (withTaken (statementTurn text)) ts).1
      (turns (statementTurn text') us).1 := by
  refine (turns_abreast_whole hP (fun t u ts us ht _ hrest => ?_) h).1
  exact (statementTurn_abreast hP hF ht hrest).imp id (hP.of_past rfl) id

end Statements

end SchemaDesk.Sql
