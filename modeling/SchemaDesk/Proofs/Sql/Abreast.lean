import Mathlib.Data.List.Forall2
import Mathlib.Data.Option.Basic
import SchemaDesk.Proofs.Sql.Turns
import SchemaDesk.Sql.Clause
import SchemaDesk.Sql.Statement

/-!
# Reading two token lists abreast

The grammar looks at keywords, marks and names, and at nothing else of a token.  So two lists whose
tokens are of one kind, one by one, are read alike: every reader goes the same way on both and takes
as many tokens from each (`Pairing`).  What the tokens differ in shows only where their contents are
taken, and there each reader says how what it gives from one list compares with what it gives from
the other.

The second list may go on after the first one has ended, if it goes on with a semicolon: no reader
looks past that.
-/

namespace SchemaDesk.Sql

/-! ## Tokens of one kind -/

/-- Lexemes that the grammar takes for the same: what stands in literals and in groups may differ. -/
inductive Lexeme.Kin : Lexeme → Lexeme → Prop where
  | word (w : Text) : Kin (.word w) (.word w)
  | quoted (n : Text) : Kin (.quoted n) (.quoted n)
  | literal (v w : Text) : Kin (.literal v) (.literal w)
  | group (b c : Text) : Kin (.group b) (.group c)
  | mark (c : CodePoint) : Kin (.mark c) (.mark c)

theorem Lexeme.Kin.refl (l : Lexeme) : l.Kin l := by
  cases l <;> constructor

namespace Token

/-- Tokens whose lexemes the grammar takes for the same. -/
def Kin (t u : Token) : Prop :=
  t.lexeme.Kin u.lexeme

variable {t u : Token}

theorem Kin.isKeyword (h : t.Kin u) (keywords : List Text) :
    t.isKeyword keywords = u.isKeyword keywords := by
  obtain ⟨l, _, _⟩ := t
  obtain ⟨m, _, _⟩ := u
  cases h <;> rfl

theorem Kin.isMark (h : t.Kin u) (symbol : CodePoint) : t.isMark symbol = u.isMark symbol := by
  obtain ⟨l, _, _⟩ := t
  obtain ⟨m, _, _⟩ := u
  cases h <;> simp [Token.isMark]

theorem Kin.isGroup (h : t.Kin u) : t.isGroup = u.isGroup := by
  obtain ⟨l, _, _⟩ := t
  obtain ⟨m, _, _⟩ := u
  cases h <;> rfl

theorem Kin.name? (h : t.Kin u) : t.name? = u.name? := by
  obtain ⟨l, _, _⟩ := t
  obtain ⟨m, _, _⟩ := u
  cases h <;> rfl

theorem Kin.modifier (h : t.Kin u) : modifier t = modifier u := by
  obtain ⟨l, _, _⟩ := t
  obtain ⟨m, _, _⟩ := u
  cases h <;> rfl

/-- A semicolon is none of the things that a reader looks for. -/
theorem isKeyword_of_isMark {symbol : CodePoint} (h : t.isMark symbol = true)
    (keywords : List Text) : t.isKeyword keywords = false := by
  rw [isKeyword, of_decide_eq_true h]

theorem name?_of_isMark {symbol : CodePoint} (h : t.isMark symbol = true) : t.name? = none := by
  rw [name?, of_decide_eq_true h]

theorem isMark_of_isMark {symbol : CodePoint} (h : t.isMark symbol = true) (c : CodePoint) :
    t.isMark c = decide (symbol = c) := by
  simp [isMark, of_decide_eq_true h]

end Token

/-! ## Pairings -/

/-- A way of pairing off the tokens of two lists, of which the second one is longer by some number of
tokens: by a semicolon and what comes after it. -/
structure Pairing (R : Token → Token → Prop) (P : List Token → List Token → Prop) (extra : Nat) :
    Prop where
  kin : ∀ {t u}, R t u → t.Kin u
  nil : ∀ {us}, P [] us → us.head?.all (Token.isMark ';') = true
  cons : ∀ {t ts us}, P (t :: ts) us → ∃ u us', us = u :: us' ∧ R t u ∧ P ts us'
  length : ∀ {ts us}, P ts us → us.length = ts.length + extra

/-- What two readers give, compared by one relation, and what they leave, by another. -/
inductive Turn.Rel {α β : Type} (F : α → β → Prop) (N S : List Token → List Token → Prop) :
    Turn α → Turn β → Prop where
  | stop {ts us : List Token} : S ts us → Rel F N S (.stop ts) (.stop us)
  | next {found : Option α} {found' : Option β} {ts us : List Token} :
      Option.Rel F found found' → N ts us → Rel F N S (.next found ts) (.next found' us)

theorem Turn.Rel.imp {α β : Type} {F F' : α → β → Prop} {N N' S S' : List Token → List Token → Prop}
    {x : Turn α} {y : Turn β} (h : Turn.Rel F N S x y) (hF : ∀ {a b}, F a b → F' a b)
    (hN : ∀ {ts us}, N ts us → N' ts us) (hS : ∀ {ts us}, S ts us → S' ts us) :
    Turn.Rel F' N' S' x y := by
  cases h with
  | stop h => exact .stop (hS h)
  | next hfound h =>
      refine .next ?_ (hN h)
      cases hfound with
      | none => exact .none
      | some hfound => exact .some (hF hfound)

/-- Lists that are paired, or the end of the first list and what comes after the semicolon in the
second one. -/
def Past (P : List Token → List Token → Prop) (ts us : List Token) : Prop :=
  P ts us ∨ ts = [] ∧ ∃ s, s.isMark ';' = true ∧ P [] (s :: us)

theorem rel_getD {α β : Type} {r : α → β → Prop} {o : Option α} {o' : Option β} {a : α}
    {b : β} (h : Option.Rel r o o') (hab : r a b) : r (o.getD a) (o'.getD b) := by
  cases h with
  | none => exact hab
  | some h => exact h

theorem rel_cases {α β : Type} {r : α → β → Prop} {o : Option α} {o' : Option β}
    (h : Option.Rel r o o') :
    o = none ∧ o' = none ∨ ∃ a b, o = some a ∧ o' = some b ∧ r a b := by
  cases h with
  | none => exact .inl ⟨rfl, rfl⟩
  | some h => exact .inr ⟨_, _, rfl, rfl, h⟩

section Lists

variable {α β : Type} {r : α → β → Prop} {xs : List α} {ys : List β}

theorem forall₂_head? (h : List.Forall₂ r xs ys) : Option.Rel r xs.head? ys.head? := by
  cases h with
  | nil => exact .none
  | cons hr _ => exact .some hr

theorem forall₂_getLast? (h : List.Forall₂ r xs ys) : Option.Rel r xs.getLast? ys.getLast? := by
  rw [List.getLast?_eq_head?_reverse, List.getLast?_eq_head?_reverse]
  exact forall₂_head? (List.forall₂_reverse_iff.2 h)

end Lists

section Readers

variable {R : Token → Token → Prop} {P : List Token → List Token → Prop} {extra : Nat}
variable {ts us : List Token} (hP : Pairing R P extra)

include hP

/-- At the end of the first list the second one has ended too, or goes on with a semicolon. -/
theorem Pairing.ends (h : P [] us) : us = [] ∨ ∃ s rest, us = s :: rest ∧ s.isMark ';' = true := by
  cases us with
  | nil => exact .inl rfl
  | cons s rest => exact .inr ⟨s, rest, rfl, hP.nil h⟩

omit hP in
theorem Pairing.eq_nil (hP : Pairing R P 0) (h : P [] us) : us = [] :=
  List.eq_nil_of_length_eq_zero (hP.length h)

/-- Lists of one length end together. -/
theorem Pairing.of_past (hextra : extra = 0) (h : Past P ts us) : P ts us := by
  obtain h | ⟨-, s, -, h⟩ := h
  · exact h
  · have hlength := hP.length h
    rw [hextra] at hlength
    cases hlength

theorem Pairing.drop (h : P ts us) {k : Nat} (hk : k ≤ ts.length) : P (ts.drop k) (us.drop k) := by
  induction k generalizing ts us with
  | zero => exact h
  | succ k ih =>
      cases ts with
      | nil => exact absurd hk (Nat.not_succ_le_zero k)
      | cons t ts =>
          obtain ⟨u, us', rfl, -, hrest⟩ := hP.cons h
          exact ih hrest (Nat.le_of_succ_le_succ hk)

theorem nextIs_abreast (h : P ts us) (keywords : List Text) :
    nextIs keywords ts = nextIs keywords us := by
  cases ts with
  | nil =>
      obtain rfl | ⟨s, rest, rfl, hs⟩ := hP.ends h
      · rfl
      · exact (Token.isKeyword_of_isMark hs keywords).symm
  | cons t ts =>
      obtain ⟨u, us', rfl, ht, -⟩ := hP.cons h
      exact (hP.kin ht).isKeyword keywords

theorem after?_abreast (h : P ts us) (keywords : List Text) :
    Option.Rel P (after? keywords ts) (after? keywords us) := by
  cases ts with
  | nil =>
      obtain rfl | ⟨s, rest, rfl, hs⟩ := hP.ends h
      · exact .none
      · rw [after?, after?, Token.isKeyword_of_isMark hs, if_neg Bool.false_ne_true]
        exact .none
  | cons t ts =>
      obtain ⟨u, us', rfl, ht, hrest⟩ := hP.cons h
      rw [after?, after?, (hP.kin ht).isKeyword]
      split
      · exact .some hrest
      · exact .none

theorem afterPhrase?_abreast (h : P ts us) (phrase : List Text) :
    Option.Rel P (afterPhrase? phrase ts) (afterPhrase? phrase us) := by
  induction phrase generalizing ts us with
  | nil => exact .some h
  | cons keyword phrase ih =>
      cases ts with
      | nil =>
          obtain rfl | ⟨s, rest, rfl, hs⟩ := hP.ends h
          · exact .none
          · rw [afterPhrase?, afterPhrase?, Token.isKeyword_of_isMark hs, if_neg Bool.false_ne_true]
            exact .none
      | cons t ts =>
          obtain ⟨u, us', rfl, ht, hrest⟩ := hP.cons h
          rw [afterPhrase?, afterPhrase?, (hP.kin ht).isKeyword]
          split
          · exact ih hrest
          · exact .none

theorem skip_abreast (h : P ts us) (keywords : List Text) :
    P (skip keywords ts) (skip keywords us) :=
  rel_getD (after?_abreast hP h keywords) h

theorem skipPhrase_abreast (h : P ts us) (phrase : List Text) :
    P (skipPhrase phrase ts) (skipPhrase phrase us) :=
  rel_getD (afterPhrase?_abreast hP h phrase) h

/-- Any mark but a semicolon can be passed over. -/
theorem skipMark_abreast (h : P ts us) {symbol : CodePoint} (hsymbol : symbol ≠ ';') :
    P (skipMark symbol ts) (skipMark symbol us) := by
  cases ts with
  | nil =>
      obtain rfl | ⟨s, rest, rfl, hs⟩ := hP.ends h
      · exact h
      · rw [skipMark, skipMark, Token.isMark_of_isMark hs, if_neg (by simp [hsymbol.symm])]
        exact h
  | cons t ts =>
      obtain ⟨u, us', rfl, ht, hrest⟩ := hP.cons h
      rw [skipMark, skipMark, (hP.kin ht).isMark]
      split
      · exact hrest
      · exact h

/-- A semicolon that ends the first list may still be in the second one. -/
theorem skipSemicolon_abreast (h : P ts us) : Past P (skipMark ';' ts) (skipMark ';' us) := by
  cases ts with
  | nil =>
      obtain rfl | ⟨s, rest, rfl, hs⟩ := hP.ends h
      · exact .inl h
      · rw [skipMark, skipMark, if_pos hs]
        exact .inr ⟨rfl, s, hs, h⟩
  | cons t ts =>
      obtain ⟨u, us', rfl, ht, hrest⟩ := hP.cons h
      rw [skipMark, skipMark, (hP.kin ht).isMark]
      split
      · exact .inl hrest
      · exact .inl h

theorem dropWhile_abreast {p : Token → Bool} (hp : ∀ {t u}, R t u → p t = p u)
    (hend : ∀ s, s.isMark ';' = true → p s = false) (h : P ts us) :
    P (ts.dropWhile p) (us.dropWhile p) := by
  induction ts generalizing us with
  | nil =>
      obtain rfl | ⟨s, rest, rfl, hs⟩ := hP.ends h
      · exact h
      · rw [List.dropWhile_cons, hend s hs, if_neg Bool.false_ne_true]
        exact h
  | cons t ts ih =>
      obtain ⟨u, us', rfl, ht, hrest⟩ := hP.cons h
      rw [List.dropWhile_cons, List.dropWhile_cons, hp ht]
      split
      · exact ih hrest
      · exact h

theorem takeWhile_abreast {p : Token → Bool} (hp : ∀ {t u}, R t u → p t = p u)
    (hend : ∀ s, s.isMark ';' = true → p s = false) (h : P ts us) :
    List.Forall₂ R (ts.takeWhile p) (us.takeWhile p) := by
  induction ts generalizing us with
  | nil =>
      obtain rfl | ⟨s, rest, rfl, hs⟩ := hP.ends h
      · exact .nil
      · rw [List.takeWhile_cons, hend s hs, if_neg Bool.false_ne_true]
        exact .nil
  | cons t ts ih =>
      obtain ⟨u, us', rfl, ht, hrest⟩ := hP.cons h
      rw [List.takeWhile_cons, List.takeWhile_cons, hp ht]
      split
      · exact .cons ht (ih hrest)
      · exact .nil

/-! ## Names and groups -/

theorem qualifiedRest_abreast (name : Text) (h : P ts us) :
    (qualifiedRest name ts).1 = (qualifiedRest name us).1 ∧
      P (qualifiedRest name ts).2 (qualifiedRest name us).2 := by
  induction hlength : ts.length using Nat.strongRecOn generalizing name ts us with
  | ind n ih =>
      match ts with
      | [] =>
          obtain rfl | ⟨s, rest, rfl, hs⟩ := hP.ends h
          · exact ⟨rfl, h⟩
          · have hpoint : s.isMark '.' = false := Token.isMark_of_isMark hs '.'
            cases rest with
            | nil => exact ⟨rfl, h⟩
            | cons next rest =>
                rw [qualifiedRest, qualifiedRest, hpoint, if_neg Bool.false_ne_true]
                · exact ⟨rfl, h⟩
                · intro _ _ _ hcons
                  cases hcons
      | [t] =>
          obtain ⟨u, us', rfl, ht, hrest⟩ := hP.cons h
          obtain rfl | ⟨s, rest, rfl, hs⟩ := hP.ends hrest
          · exact ⟨rfl, h⟩
          · rw [qualifiedRest.eq_1, Token.name?_of_isMark hs]
            split <;> exact ⟨rfl, h⟩
      | dot :: next :: rest =>
          obtain ⟨dot', us', rfl, hdot, h'⟩ := hP.cons h
          obtain ⟨next', us'', rfl, hnext, hrest⟩ := hP.cons h'
          rw [qualifiedRest, qualifiedRest, (hP.kin hdot).isMark, (hP.kin hnext).name?]
          split
          · split
            · exact ih rest.length (by simp at hlength; omega) _ hrest rfl
            · exact ⟨rfl, h⟩
          · exact ⟨rfl, h⟩

theorem readName_abreast (h : P ts us) :
    (readName ts).1 = (readName us).1 ∧ P (readName ts).2 (readName us).2 := by
  cases ts with
  | nil =>
      obtain rfl | ⟨s, rest, rfl, hs⟩ := hP.ends h
      · exact ⟨rfl, h⟩
      · rw [readName, readName, Token.name?_of_isMark hs]
        exact ⟨rfl, h⟩
  | cons t ts =>
      obtain ⟨u, us', rfl, ht, hrest⟩ := hP.cons h
      rw [readName, readName, (hP.kin ht).name?]
      cases u.name? with
      | none => exact ⟨rfl, h⟩
      | some first =>
          obtain ⟨hname, hrest⟩ := qualifiedRest_abreast hP first hrest
          simp only [hname]
          exact ⟨trivial, hrest⟩

/-- Groups are read abreast, and their bodies are those of the tokens that come next. -/
theorem readGroup_abreast (h : P ts us) :
    Option.Rel (fun b c => ∃ t u, R t u ∧ t.lexeme = .group b ∧ u.lexeme = .group c ∧
        ts = t :: (readGroup ts).2)
      (readGroup ts).1 (readGroup us).1 ∧
      P (readGroup ts).2 (readGroup us).2 := by
  cases ts with
  | nil =>
      obtain rfl | ⟨s, rest, rfl, hs⟩ := hP.ends h
      · exact ⟨.none, h⟩
      · rw [readGroup, readGroup, of_decide_eq_true hs]
        exact ⟨.none, h⟩
  | cons t ts =>
      obtain ⟨u, us', rfl, ht, hrest⟩ := hP.cons h
      have hkin : t.lexeme.Kin u.lexeme := hP.kin ht
      simp only [readGroup]
      cases htl : t.lexeme with
      | group b =>
          rw [htl] at hkin
          cases hul : u.lexeme with
          | group c => exact ⟨.some ⟨t, u, ht, htl, hul, rfl⟩, hrest⟩
          | _ => rw [hul] at hkin; cases hkin
      | _ =>
          rw [htl] at hkin
          cases hul : u.lexeme with
          | group c => rw [hul] at hkin; cases hkin
          | _ => exact ⟨.none, h⟩

end Readers

/-! ## Loops -/

section Taken

variable {α : Type} (turn : Token → List Token → Turn α)

/-- A turn over some tokens that tells, with what it finds, which of them it takes. -/
def Turn.taking {α : Type} (rest : List Token) : Turn α → Turn (α × List Token)
  | .stop left => .stop left
  | .next found left => .next (found.map (·, rest.take (rest.length - left.length))) left

/-- Turns that tell which of the tokens after the first one they take. -/
def withTaken (t : Token) (rest : List Token) : Turn (α × List Token) :=
  (turn t rest).taking rest

/-- A loop goes on with the tokens that its first turn does not take. -/
theorem turns_cons (t : Token) (rest : List Token) :
    turns turn (t :: rest) =
      match turn t rest with
      | .stop left => ([], left)
      | .next found left =>
          (found.toList ++ (turns turn (rest.drop (rest.length - left.length))).1,
            (turns turn (rest.drop (rest.length - left.length))).2) := by
  show turnsFrom turn 0 (t :: rest) = _
  rw [turnsFrom]
  cases turn t rest with
  | stop left => rfl
  | next found left =>
      simp only [turnsFrom_eq_drop turn (rest.length - left.length)]
      rfl

/-- What is true of no tokens, and of some tokens whenever it is true of all shorter ends of them. -/
theorem turns_induction {motive : List Token → Prop} (nil : motive [])
    (cons : ∀ t rest, (∀ k, motive (rest.drop k)) → motive (t :: rest)) (tokens : List Token) :
    motive tokens := by
  induction hlength : tokens.length using Nat.strongRecOn generalizing tokens with
  | ind n ih =>
      cases tokens with
      | nil => exact nil
      | cons t rest =>
          refine cons t rest fun k => ih _ ?_ _ rfl
          rw [List.length_cons] at hlength
          rw [List.length_drop]
          omega

/-- Telling what is taken changes nothing else. -/
theorem turns_withTaken (tokens : List Token) :
    (turns (withTaken turn) tokens).1.map Prod.fst = (turns turn tokens).1 ∧
      (turns (withTaken turn) tokens).2 = (turns turn tokens).2 := by
  induction tokens using turns_induction with
  | nil => exact ⟨rfl, rfl⟩
  | cons t rest ih =>
      rw [turns_cons, turns_cons, withTaken]
      cases turn t rest with
      | stop left => exact ⟨rfl, rfl⟩
      | next found left =>
          obtain ⟨hfound, hleft⟩ := ih (rest.length - left.length)
          simp only [Turn.taking]
          refine ⟨?_, hleft⟩
          rw [List.map_append, hfound]
          cases found <;> rfl

/-- No token is taken twice, and they are taken in order. -/
theorem taken_sublist (tokens : List Token) :
    ((turns (withTaken turn) tokens).1.flatMap Prod.snd).Sublist tokens := by
  induction tokens using turns_induction with
  | nil => exact List.Sublist.refl _
  | cons t rest ih =>
      rw [turns_cons, withTaken]
      cases turn t rest with
      | stop left => exact List.nil_sublist _
      | next found left =>
          have hlater := ih (rest.length - left.length)
          refine List.Sublist.cons _ ?_
          simp only [Turn.taking]
          rw [List.flatMap_append]
          conv_rhs => rw [← List.take_append_drop (rest.length - left.length) rest]
          refine List.Sublist.append ?_ hlater
          cases found with
          | none => exact List.nil_sublist _
          | some a => simp

end Taken

section Loop

variable {R : Token → Token → Prop} {P S : List Token → List Token → Prop} {extra : Nat}
variable {ts us : List Token} {α β : Type} {F : α → β → Prop}
variable {turn : Token → List Token → Turn α} {turn' : Token → List Token → Turn β}

/-- Loops whose turns go the same way find the same number of things, which compare one by one. -/
theorem turns_abreast (hP : Pairing R P extra)
    (hturn : ∀ t u ts us, R t u → P (t :: ts) (u :: us) → P ts us →
      Turn.Rel F P S (turn t ts) (turn' u us))
    (hend : ∀ {us}, P [] us → (turns turn' us).1 = [] ∧ S [] (turns turn' us).2) (h : P ts us) :
    List.Forall₂ F (turns turn ts).1 (turns turn' us).1 ∧
      S (turns turn ts).2 (turns turn' us).2 := by
  induction ts using turns_induction generalizing us with
  | nil =>
      rw [(hend h).1]
      exact ⟨.nil, (hend h).2⟩
  | cons t rest ih =>
      obtain ⟨u, rest', rfl, ht, hrest⟩ := hP.cons h
      have hrel := hturn t u rest rest' ht h hrest
      rw [turns_cons, turns_cons]
      generalize turn t rest = first at hrel ⊢
      generalize turn' u rest' = second at hrel ⊢
      cases hrel with
      | stop hstop => exact ⟨.nil, hstop⟩
      | @next found found' left left' hfound hnext =>
          -- both turns take the same number of tokens
          have hk : rest'.length - left'.length = rest.length - left.length := by
            rw [hP.length hrest, hP.length hnext]
            omega
          obtain ⟨hfounds, hend⟩ := ih (rest.length - left.length)
            (hP.drop hrest (Nat.sub_le _ _))
          simp only [hk]
          refine ⟨?_, hend⟩
          cases hfound with
          | none => exact hfounds
          | some hfound => exact .cons hfound hfounds

/-- Loops over lists of one length end together. -/
theorem turns_abreast_whole (hP : Pairing R P 0)
    (hturn : ∀ t u ts us, R t u → P (t :: ts) (u :: us) → P ts us →
      Turn.Rel F P P (turn t ts) (turn' u us)) (h : P ts us) :
    List.Forall₂ F (turns turn ts).1 (turns turn' us).1 ∧
      P (turns turn ts).2 (turns turn' us).2 := by
  refine turns_abreast hP hturn (fun {us} h => ?_) h
  obtain rfl := hP.eq_nil h
  exact ⟨rfl, h⟩

end Loop

end SchemaDesk.Sql
