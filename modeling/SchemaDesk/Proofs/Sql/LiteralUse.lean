import SchemaDesk.Proofs.Sql.Alike
import SchemaDesk.Proofs.Sql.Apart
import SchemaDesk.Proofs.Sql.Spans

/-!
# What a literal is read as

A string literal in a column may be its default, its comment or one of its members.  `literalStart?`
tells where in an item the literal stands that is read so.  It stands in one token of the item
(`exists_token`), and no two attributes take one token (`not_mem_others`).
-/

namespace SchemaDesk

/-- What a string literal is read as in a column. -/
inductive LiteralUse where
  | default
  | comment
  | member (index : Nat)

namespace LiteralUse

/-- What a column says at the place of a use. -/
def read (use : LiteralUse) (c : Column) : Option Value :=
  match use, c.enumValues with
  | .default, _ => some c.defaultValue
  | .comment, _ => some c.comment
  | .member i, .list vs => vs[i]?
  | .member _, _ => none

/-- A column with another text at the place of a use. -/
def write (use : LiteralUse) (v : Text) (c : Column) : Column :=
  match use, c.enumValues with
  | .default, _ => { c with defaultValue := .str v }
  | .comment, _ => { c with comment := .str v }
  | .member i, .list vs => { c with enumValues := .list (vs.set i (.str v)) }
  | .member _, _ => c

end LiteralUse

namespace Sql

/-! ## Where literals stand -/

/-- Where a string literal stands that is the only one of some tokens. -/
def loneLiteral? : List Token → Option Nat
  | [t] =>
      match t.lexeme with
      | .literal _ => some t.start
      | _ => none
  | _ => none

/-- The member of an enumeration that an argument is, if it is a string literal. -/
def member? (argument : Text) : Option Text :=
  match (tokenize argument).head?.map Token.lexeme with
  | some (.literal value) => some value
  | _ => none

/-- The arguments in a group that are members, each with the position where it begins. -/
def placedMembers (body : Text) : List (Nat × Text) :=
  (placedItems body).filter fun i => (member? i.2).isSome

/-- Where the members of a column begin. -/
def memberStarts (item : Text) : List Nat :=
  match columnHead? (tokenize item) with
  | some (_, rawType, g :: _) =>
      match g.lexeme with
      | .group body =>
          if typeOf rawType = .enum ∨ typeOf rawType = .set then
            (placedMembers body).map (g.start + 1 + ·.1)
          else []
      | _ => []
  | _ => []

/-- Where the literal of a column begins that has a use. -/
def literalStart? (use : LiteralUse) (item : Text) : Option Nat :=
  match use with
  | .default => (defaultsOf item).getLast?.bind fun found => loneLiteral? found.2
  | .comment => (commentsOf item).getLast?.bind fun found => loneLiteral? found.2
  | .member i => (memberStarts item)[i]?

theorem members_eq (arguments : List Text) :
    members arguments = (arguments.filterMap member?).map .str := by
  rw [members, List.map_filterMap]
  refine List.filterMap_congr fun argument _ => ?_
  rw [member?]
  cases (tokenize argument).head?.map Token.lexeme with
  | none => rfl
  | some lexeme => cases lexeme <;> rfl

theorem loneLiteral?_eq_some {used : List Token} {k : Nat} (h : loneLiteral? used = some k) :
    ∃ t w, used = [t] ∧ t.lexeme = .literal w ∧ t.start = k := by
  match used with
  | [] => cases h
  | _ :: _ :: _ => cases h
  | [t] =>
      rw [loneLiteral?] at h
      cases hlexeme : t.lexeme with
      | literal w =>
          rw [hlexeme] at h
          exact ⟨t, w, rfl, hlexeme, Option.some.inj h⟩
      | _ =>
          rw [hlexeme] at h
          cases h

/-! ## Tokens of an item -/

section Suffixes

variable {ts left : List Token} {name rawType : Text}

theorem Skims.suffix (h : Skims ts left) : left <:+ ts := by
  obtain ⟨skimmed, rfl, -⟩ := h
  exact List.suffix_append _ _

theorem readGroup_suffix (ts : List Token) : (readGroup ts).2 <:+ ts := by
  cases ts with
  | nil => exact List.suffix_refl _
  | cons t ts =>
      rw [readGroup]
      split
      · exact List.suffix_cons _ _
      · exact List.suffix_refl _

theorem attributeTokens_suffix (rawType : Text) (ts : List Token) :
    attributeTokens rawType ts <:+ (readGroup ts).2 := by
  rw [attributeTokens, skipTimeZone]
  split
  · split
    · next rest hrest => exact (Skims.of_afterPhrase? hrest).suffix
    · exact (Skims.skipPhrase _ _).suffix
  · exact List.suffix_refl _

theorem columnHead?_suffix (h : columnHead? ts = some (name, rawType, left)) : left <:+ ts := by
  match ts with
  | [] => cases h
  | [_] => cases h
  | n :: t :: rest =>
      simp only [columnHead?] at h
      split at h
      · next type _ _ =>
          cases h
          have htype : (readType type.upper rest).2 <:+ rest := by
            rw [readType]
            split
            · exact List.suffix_refl _
            · split
              · next rest' hrest => exact (Skims.of_after? hrest).suffix
              · exact List.suffix_refl _
          exact htype.trans ((List.suffix_cons _ _).trans (List.suffix_cons _ _))
      · cases h

/-- The attributes of a column take some of the tokens after its type and the arguments of that. -/
theorem attributesOf_sublist {item : Text}
    (h : columnHead? (tokenize item) = some (name, rawType, left)) :
    ((attributesOf item).flatMap Prod.snd).Sublist (readGroup left).2 := by
  rw [attributesOf, h]
  exact (taken_sublist _ _).trans (attributeTokens_suffix rawType left).sublist

/-- A column is read from its head and its attributes. -/
theorem exists_columnHead? {item : Text} {c : ColumnClause} (h : classify item = .column c) :
    ∃ name rawType rest, columnHead? (tokenize item) = some (name, rawType, rest) ∧
      c.rawType = rawType ∧ c.arguments = splitItems ((readGroup rest).1.getD []) := by
  have hcolumn := classifyColumn_of_classify h
  rw [classifyColumn_eq] at hcolumn
  split at hcolumn
  · next name rawType rest hhead =>
      cases hcolumn
      exact ⟨name, rawType, rest, hhead, by rw [foldl_with]; rfl, by rw [foldl_with]; rfl⟩
  · cases hcolumn

end Suffixes

theorem attributesOf_subset {item : Text} {found : Attribute × List Token} {t : Token}
    (hfound : found ∈ attributesOf item) (ht : t ∈ found.2) : t ∈ tokenize item := by
  cases hhead : columnHead? (tokenize item) with
  | none =>
      rw [attributesOf, hhead] at hfound
      cases hfound
  | some head =>
      obtain ⟨name, rawType, left⟩ := head
      have hmem := (attributesOf_sublist hhead).subset (List.mem_flatMap.2 ⟨found, hfound, ht⟩)
      exact (columnHead?_suffix hhead).mem ((readGroup_suffix left).mem hmem)

/-- No token stands in a text twice. -/
theorem tokenize_nodup (t : Text) : (tokenize t).Nodup := by
  obtain ⟨hbounds, hsorted⟩ := tokensFrom_sorted 0 0 t
  refine hsorted.imp_of_mem fun {x y} hx _ hxy => ?_
  rintro rfl
  have := hbounds x hx
  omega

theorem Surrounds.eq_holder {n : Nat} {ts us : List Token} {x : Text → Token} {l : Text} {t : Token}
    (h : Surrounds n ts x us) (hl : l ≠ [])
    (hmem : t ∈ ts ++ x l :: us.map (Token.shift l.length)) (hstart : t.start ≤ n)
    (hstop : n < t.stop) : t = x l := by
  have hlength := List.length_pos_iff.2 hl
  rcases List.mem_append.1 hmem with hmem | hmem
  · have hle := h.before t hmem
    omega
  rcases List.mem_cons.1 hmem with rfl | hmem
  · rfl
  · obtain ⟨u, hu, rfl⟩ := List.mem_map.1 hmem
    have hle := h.after u hu
    rw [Token.shift] at hstart
    dsimp only at hstart
    omega

/-! ## Lists with one thing changed -/

section Lists

variable {α β : Type} {xs ys : List (α × List Token)} {e : α × List Token} {y : Token}

/-- Of things that take different tokens only one takes a given token. -/
theorem not_mem_others (h : ((xs ++ e :: ys).flatMap Prod.snd).Nodup) (hy : y ∈ e.2) :
    ∀ f ∈ xs ++ ys, y ∉ f.2 := by
  rw [List.flatMap_append, List.flatMap_cons, List.nodup_append, List.nodup_append] at h
  obtain ⟨-, ⟨-, -, hlater⟩, hearlier⟩ := h
  intro f hf hyf
  rcases List.mem_append.1 hf with hf | hf
  · exact hearlier y (List.mem_flatMap.2 ⟨f, hf, hyf⟩) y (List.mem_append_left _ hy) rfl
  · exact hlater y hy y (List.mem_flatMap.2 ⟨f, hf, hyf⟩) rfl

theorem forall₂_map_of {F : α × List Token → α → Prop} {zs : List α} (h : List.Forall₂ F xs zs)
    (hsame : ∀ f ∈ xs, ∀ z, F f z → z = f.1) : zs = xs.map Prod.fst := by
  induction h with
  | nil => rfl
  | cons hr _ ih =>
      rw [List.forall_mem_cons] at hsame
      rw [List.map_cons, ← hsame.1 _ hr, ← ih hsame.2]

/-- Lists that compare one by one are the same but for one thing, if all others are the same. -/
theorem forall₂_around {F : α × List Token → α → Prop} {zs : List α}
    (h : List.Forall₂ F (xs ++ e :: ys) zs) (hsame : ∀ f ∈ xs ++ ys, ∀ z, F f z → z = f.1) :
    ∃ z, zs = xs.map Prod.fst ++ z :: ys.map Prod.fst ∧ F e z := by
  induction xs generalizing zs with
  | nil =>
      cases h with
      | @cons _ z _ zs hr hrest =>
          exact ⟨z, congrArg (z :: ·) (forall₂_map_of hrest hsame), hr⟩
  | cons f xs ih =>
      cases h with
      | @cons _ z _ zs hr hrest =>
          rw [List.cons_append, List.forall_mem_cons] at hsame
          obtain ⟨z', rfl, hz'⟩ := ih hrest hsame.2
          obtain rfl := hsame.1 z hr
          exact ⟨z', rfl, hz'⟩

theorem exists_of_getLast?_filterMap {f : α → Option β} {as : List α} {b : β}
    (h : (as.filterMap f).getLast? = some b) :
    ∃ xs a ys, as = xs ++ a :: ys ∧ f a = some b ∧ ∀ a' ∈ ys, f a' = none := by
  induction as with
  | nil => cases h
  | cons a as ih =>
      by_cases hrest : (as.filterMap f) = []
      · rw [List.filterMap_cons, hrest] at h
        cases ha : f a with
        | none => rw [ha] at h; cases h
        | some b' =>
            rw [ha] at h
            cases h
            exact ⟨[], a, as, rfl, ha, List.filterMap_eq_nil_iff.1 hrest⟩
      · have hlast : (as.filterMap f).getLast? = some b := by
          rw [List.filterMap_cons] at h
          split at h
          · exact h
          · rwa [List.getLast?_cons_of_ne_nil hrest] at h
        obtain ⟨xs, a', ys, rfl, ha', hys⟩ := ih hlast
        exact ⟨a :: xs, a', ys, rfl, ha', hys⟩

end Lists

/-! ## Uses and tokens -/

/-- The last attribute of a kind, if it takes a string literal and no other token. -/
theorem exists_attribute {β : Type} {f : Attribute → Option β} {item : Text} {k : Nat}
    (h : (((attributesOf item).filterMap fun found => (f found.1).map (·, found.2)).getLast?.bind
      fun found => loneLiteral? found.2) = some k) :
    ∃ xs e ys t w v, attributesOf item = xs ++ (e, [t]) :: ys ∧ f e = some v ∧
      (∀ found ∈ ys, f found.1 = none) ∧ t.lexeme = .literal w ∧ t.start = k := by
  obtain ⟨⟨v, used⟩, hlast, hlone⟩ := Option.bind_eq_some_iff.1 h
  obtain ⟨t, w, rfl, ht, hstart⟩ := loneLiteral?_eq_some hlone
  obtain ⟨xs, ⟨e, used⟩, ys, hfound, he, hys⟩ := exists_of_getLast?_filterMap hlast
  obtain ⟨v', hv', hsame⟩ := Option.map_eq_some_iff.1 he
  cases hsame
  exact ⟨xs, e, ys, t, w, v, hfound, hv',
    fun found hmem => Option.map_eq_none_iff.1 (hys found hmem), ht, hstart⟩

/-- A member stands in the group after the type of its column. -/
theorem exists_member {item : Text} {i k : Nat} (h : (memberStarts item)[i]? = some k) :
    ∃ name rawType g rest body p, columnHead? (tokenize item) = some (name, rawType, g :: rest) ∧
      (typeOf rawType = .enum ∨ typeOf rawType = .set) ∧ g.lexeme = .group body ∧
      (placedMembers body)[i]? = some p ∧ g.start + 1 + p.1 = k := by
  rw [memberStarts] at h
  split at h
  · next name rawType g rest hhead =>
      split at h
      · next body hbody =>
          split at h
          · next htype =>
              rw [List.getElem?_map, Option.map_eq_some_iff] at h
              obtain ⟨p, hp, hstart⟩ := h
              exact ⟨name, rawType, g, rest, body, p, hhead, htype, hbody, hp, hstart⟩
          · cases h
      · cases h
  · cases h

/-- The literal of a use stands in one of the tokens of its item. -/
theorem exists_token {use : LiteralUse} {item : Text} {k : Nat}
    (h : literalStart? use item = some k) :
    ∃ t ∈ tokenize item, t.start ≤ k ∧ k < t.stop := by
  have hlone : ∀ {xs ys : List (Attribute × List Token)} {e : Attribute} {t : Token},
      attributesOf item = xs ++ (e, [t]) :: ys → t.start = k →
      ∃ t ∈ tokenize item, t.start ≤ k ∧ k < t.stop := by
    rintro xs ys e t hfound rfl
    have hentry : (e, [t]) ∈ attributesOf item :=
      hfound ▸ List.mem_append_right _ List.mem_cons_self
    have hmem : t ∈ tokenize item := attributesOf_subset hentry List.mem_cons_self
    exact ⟨t, hmem, Nat.le_refl _, ((tokensFrom_sorted 0 0 item).1 t hmem).2.1⟩
  cases use with
  | default =>
      obtain ⟨xs, e, ys, t, w, v, hfound, -, -, -, hstart⟩ := exists_attribute h
      exact hlone hfound hstart
  | comment =>
      obtain ⟨xs, e, ys, t, w, v, hfound, -, -, -, hstart⟩ := exists_attribute h
      exact hlone hfound hstart
  | member i =>
      obtain ⟨name, rawType, g, rest, body, p, hhead, -, hg, hp, rfl⟩ := exists_member h
      have hmem : g ∈ tokenize item := (columnHead?_suffix hhead).mem List.mem_cons_self
      have hstop := group_stop hmem hg
      have hbounds := placedItems_bounds (List.mem_of_mem_filter (List.mem_of_getElem? hp))
      exact ⟨g, hmem, by omega, by omega⟩

/-- The literal of a use stands in its item. -/
theorem literalStart?_lt {use : LiteralUse} {item : Text} {k : Nat}
    (h : literalStart? use item = some k) : k < item.length := by
  obtain ⟨t, hmem, -, hstop⟩ := exists_token h
  have hbounds := (tokensFrom_sorted 0 0 item).1 t hmem
  omega

end Sql

end SchemaDesk
