/-!
# Texts

A text is a sequence of code points: of characters, and of surrogates.  A surrogate is half of a
pair in UTF-16 and no character, but written data may hold one that stands alone.  Lengths,
positions and the order of texts go by code points.

A text has UTF-8 bytes when all its code points are characters.  A name in a file system is more
liberal: bytes that are no UTF-8 are shown there as the surrogates from U+DC80 to U+DCFF, each of
which stands for one byte.

Main statement: a code point is determined by its number, which is what texts are ordered by.
-/

namespace SchemaDesk

/-- A character, or one of the 2048 surrogates, counted from U+D800 on. -/
inductive CodePoint where
  | char (c : Char)
  | surrogate (index : Fin 2048)
  deriving DecidableEq, Repr

/-- A character as a code point. -/
instance : Coe Char CodePoint := ⟨.char⟩

namespace CodePoint

/-- The number of a code point. -/
def toNat : CodePoint → Nat
  | .char c => c.toNat
  | .surrogate index => 0xD800 + index

/-- The code point of a number.  A number that none has gives the character of number zero. -/
def ofNat (n : Nat) : CodePoint :=
  if h : 0xD800 ≤ n ∧ n < 0xE000 then .surrogate ⟨n - 0xD800, by omega⟩
  else .char (Char.ofNat n)

/-- Code points are ordered by their numbers. -/
instance : LT CodePoint := ⟨fun a b => a.toNat < b.toNat⟩

instance : DecidableLT CodePoint := fun a b => inferInstanceAs (Decidable (a.toNat < b.toNat))

/-- Whether a code point is a character with a property. -/
def is (property : Char → Bool) : CodePoint → Bool
  | .char c => property c
  | .surrogate _ => false

/-- The character that a code point is, if it is one. -/
def char? : CodePoint → Option Char
  | .char c => some c
  | .surrogate _ => none

/-- The bytes of a code point in a name of a file system. -/
def nameBytes? : CodePoint → Option (List UInt8)
  | .char c => some (String.utf8EncodeChar c)
  | .surrogate index =>
      if 0x480 ≤ index.val ∧ index.val < 0x500 then some [UInt8.ofNat (index - 0x400)] else none

@[simp] theorem is_char (property : Char → Bool) (c : Char) :
    is property (.char c) = property c := rfl

theorem toNat_ofNat {n : Nat} (h : n < 0x110000) : (ofNat n).toNat = n := by
  by_cases hs : 0xD800 ≤ n ∧ n < 0xE000
  · simp only [ofNat, dif_pos hs, toNat]
    omega
  · have valid : n.isValidChar := by
      unfold Nat.isValidChar
      omega
    rw [ofNat, dif_neg hs, toNat, Char.ofNat, dif_pos valid]
    rfl

theorem toNat_inj {a b : CodePoint} : a.toNat = b.toNat ↔ a = b := by
  constructor
  · intro h
    cases a with
    | char c =>
        have hc : c.toNat.isValidChar := c.valid
        unfold Nat.isValidChar at hc
        cases b with
        | char d => exact congrArg char (Char.toNat_inj.1 h)
        | surrogate j =>
            have : c.toNat = 0xD800 + j.val := h
            omega
    | surrogate i =>
        cases b with
        | char d =>
            have hd : d.toNat.isValidChar := d.valid
            unfold Nat.isValidChar at hd
            have : 0xD800 + i.val = d.toNat := h
            omega
        | surrogate j =>
            have : 0xD800 + i.val = 0xD800 + j.val := h
            exact congrArg surrogate (Fin.ext (by omega))
  · rintro rfl
    rfl

end CodePoint

/-- A sequence of code points. -/
abbrev Text := List CodePoint

namespace Text

/-- The text of some characters. -/
def ofChars (cs : List Char) : Text :=
  cs.map .char

/-- The text of the characters of a string. -/
def ofString (s : String) : Text :=
  ofChars s.toList

/-- A string as a text. -/
instance : Coe String Text := ⟨ofString⟩

/-- A string literal is read as the list of its characters, with no need to decode its bytes. -/
theorem ofString_ofList (cs : List Char) : ofString (String.ofList cs) = ofChars cs := by
  rw [ofString, String.toList_ofList]

/-- The characters of a text without surrogates. -/
def chars? (t : Text) : Option (List Char) :=
  t.mapM CodePoint.char?

/-- The UTF-8 bytes of a text without surrogates. -/
def utf8? (t : Text) : Option ByteArray :=
  t.chars?.map fun cs => (String.ofList cs).toUTF8

/-- The bytes of a text as a name in a file system. -/
def nameBytes? (t : Text) : Option (List UInt8) :=
  (t.mapM CodePoint.nameBytes?).map List.flatten

/-- Texts with a separator between them. -/
def join (separator : Text) (parts : List Text) : Text :=
  separator.intercalate parts

/-- What stands before and after the first occurrence of a mark, which is not empty, in a text. -/
def around? (mark : Text) : Text → Option (Text × Text)
  | [] => none
  | c :: rest =>
      if mark.isPrefixOf (c :: rest) then some ([], (c :: rest).drop mark.length)
      else (around? mark rest).map fun (before, after) => (c :: before, after)

@[simp] theorem chars?_ofChars (cs : List Char) : (ofChars cs).chars? = some cs := by
  induction cs with
  | nil => rfl
  | cons c rest ih =>
      have : (ofChars rest).mapM CodePoint.char? = some rest := ih
      simp [chars?, ofChars, CodePoint.char?] at this ⊢
      simp [this]

example : around? ", " "a, b, c" =
    some (ofString "a", ofString "b, c") := by decide

end Text

end SchemaDesk
