import SchemaDesk.Sql.Items
import SchemaDesk.Sql.Token
import SchemaDesk.Text.Upper

/-!
# Reading token lists

The grammar of statements and clauses is read off a list of tokens: each reader takes what it
recognises from the front and returns the rest.  Keywords are recognised in any letter case.

`turns` is the one loop of the grammar.  A turn looks at the tokens that are left, and either stops
or goes on with fewer; what it finds on the way is collected in order.
-/

namespace SchemaDesk.Sql

namespace Token

/-- Whether a token is one of some keywords, which are given in upper case. -/
def isKeyword (keywords : List Text) (t : Token) : Bool :=
  match t.lexeme with
  | .word w => keywords.contains (Text.upper w)
  | _ => false

/-- Whether a token is a given mark. -/
def isMark (symbol : CodePoint) (t : Token) : Bool :=
  t.lexeme = .mark symbol

/-- Whether a token is a parenthesised group. -/
def isGroup (t : Token) : Bool :=
  match t.lexeme with
  | .group _ => true
  | _ => false

/-- The name that a token writes: a bare word or a quoted name. -/
def name? (t : Token) : Option Text :=
  match t.lexeme with
  | .word w => some w
  | .quoted n => some n
  | _ => none

end Token

/-- Whether the next token is one of some keywords. -/
def nextIs (keywords : List Text) (tokens : List Token) : Bool :=
  match tokens with
  | t :: _ => t.isKeyword keywords
  | [] => false

/-- The tokens after one of some keywords, if the next token is one. -/
def after? (keywords : List Text) : List Token → Option (List Token)
  | t :: rest => if t.isKeyword keywords then some rest else none
  | [] => none

/-- The tokens after a sequence of keywords, if they come next. -/
def afterPhrase? : List Text → List Token → Option (List Token)
  | [], tokens => some tokens
  | keyword :: phrase, t :: rest =>
      if t.isKeyword [keyword] then afterPhrase? phrase rest else none
  | _ :: _, [] => none

/-- The tokens without one of some keywords at the front. -/
def skip (keywords : List Text) (tokens : List Token) : List Token :=
  (after? keywords tokens).getD tokens

/-- The tokens without a phrase at the front. -/
def skipPhrase (phrase : List Text) (tokens : List Token) : List Token :=
  (afterPhrase? phrase tokens).getD tokens

/-- The tokens without a mark at the front. -/
def skipMark (symbol : CodePoint) : List Token → List Token
  | t :: rest => if t.isMark symbol then rest else t :: rest
  | [] => []

/-- The last part of a qualified name, whose first part has been read. -/
def qualifiedRest (name : Text) : List Token → Text × List Token
  | dot :: next :: rest =>
      if dot.isMark '.' then
        match next.name? with
        | some part => qualifiedRest part rest
        | none => (name, dot :: next :: rest)
      else (name, dot :: next :: rest)
  | tokens => (name, tokens)

/-- A name, of which the last part counts, trimmed.  A blank name is read but is no name. -/
def readName : List Token → Option Text × List Token
  | [] => (none, [])
  | t :: rest =>
      match t.name? with
      | none => (none, t :: rest)
      | some first =>
          let (last, rest) := qualifiedRest first rest
          let clean := last.trim
          (if clean.isEmpty then none else some clean, rest)

/-- The body of a group, if one comes next. -/
def readGroup : List Token → Option Text × List Token
  | [] => (none, [])
  | t :: rest =>
      match t.lexeme with
      | .group body => (some body, rest)
      | _ => (none, t :: rest)

/-- The names listed in a group: of each item its first token, where that is a name. -/
def namesIn (body : Option Text) : List Text :=
  (splitItems (body.getD [])).filterMap fun item => (tokenize item).head?.bind Token.name?

/-! ## The loop -/

/-- What a turn decides: to stop with these tokens left, or to go on with these, having found
something or not. -/
inductive Turn (α : Type) where
  | stop (rest : List Token)
  | next (found : Option α) (rest : List Token)

/-- Takes turns until one stops or no token is left, passing over the given number of tokens first.
A turn is given the next token and those after it; what it leaves is an end of the latter, so the
tokens it took are passed over. -/
def turnsFrom {α : Type} (turn : Token → List Token → Turn α) :
    Nat → List Token → List α × List Token
  | _, [] => ([], [])
  | passed + 1, _ :: rest => turnsFrom turn passed rest
  | 0, t :: rest =>
      match turn t rest with
      | .stop left => ([], left)
      | .next found left =>
          let (more, left) := turnsFrom turn (rest.length - left.length) rest
          (found.toList ++ more, left)

/-- Takes turns until one stops or no token is left: what was found, in order, and the tokens
left. -/
def turns {α : Type} (turn : Token → List Token → Turn α) (tokens : List Token) :
    List α × List Token :=
  turnsFrom turn 0 tokens

/-- Passing over tokens is dropping them. -/
theorem turnsFrom_eq_drop {α : Type} (turn : Token → List Token → Turn α) (passed : Nat)
    (tokens : List Token) :
    turnsFrom turn passed tokens = turnsFrom turn 0 (tokens.drop passed) := by
  induction tokens generalizing passed with
  | nil => cases passed <;> simp [turnsFrom]
  | cons t rest ih =>
      cases passed with
      | zero => simp
      | succ passed => simp [turnsFrom, ih]

end SchemaDesk.Sql
