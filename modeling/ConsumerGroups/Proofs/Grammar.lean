-- What a JSON text says, apart from how it is read: documents, and the texts that spell them. A
-- text literal is a sequence of UTF-16 units here, since an escape may name one half of a pair
-- alone. Such a literal is well formed although no text can be made of it.
import ConsumerGroups.Json.Node
import ConsumerGroups.Json.Value
import ConsumerGroups.Subscription.Tag

set_option autoImplicit false

namespace ConsumerGroups.Json

/-- What a JSON text says. The members of an object have an order and may share a key. -/
inductive Doc where
  | null
  | boolean (b : Bool)
  | number (n : Numeral)
  | text (units : List Nat)
  | array (items : List Doc)
  | object (members : List (List Nat × Doc))

/-! ## The spellings of a literal -/

/-- The characters between the quotation marks that spell these units. -/
inductive Spelling : List Nat → List Char → Prop
  | nil : Spelling [] []
  | plain {units : List Nat} {cs : List Char} (c : Char) (hquote : c ≠ '"') (hslash : c ≠ '\\')
      (hcontrol : 0x20 ≤ c.toNat) :
      Spelling units cs → Spelling (charUnits c ++ units) (c :: cs)
  | escape {units : List Nat} {cs : List Char} (letter c : Char)
      (hescape : escapeOf? letter = some c) :
      Spelling units cs → Spelling (c.toNat :: units) ('\\' :: letter :: cs)
  | digits {units : List Nat} {cs : List Char} {a b c d : Char} {w x y z : Nat}
      (ha : hexDigit? a = some w) (hb : hexDigit? b = some x) (hc : hexDigit? c = some y)
      (hd : hexDigit? d = some z) :
      Spelling units cs →
        Spelling ((16 * (16 * (16 * w + x) + y) + z) :: units)
          ('\\' :: 'u' :: a :: b :: c :: d :: cs)

/-- A whole literal. -/
inductive Literal : List Nat → List Char → Prop
  | quoted {units : List Nat} {cs : List Char} :
      Spelling units cs → Literal units ('"' :: cs ++ ['"'])

/-! ## The spellings of a number -/

def Digits (ds : List Char) : Prop := ds ≠ [] ∧ ∀ d ∈ ds, d.isDigit

theorem digits_single {d : Char} (hd : d.isDigit) : Digits [d] := by simp [Digits, hd]

inductive Fraction : Option (List Char) → List Char → Prop
  | none : Fraction none []
  | some {ds : List Char} : Digits ds → Fraction (some ds) ('.' :: ds)

inductive Exponent : Option (Bool × List Char) → List Char → Prop
  | none : Exponent none []
  | bare {ds : List Char} (e : Char) (he : e = 'e' ∨ e = 'E') :
      Digits ds → Exponent (some (false, ds)) (e :: ds)
  | plus {ds : List Char} (e : Char) (he : e = 'e' ∨ e = 'E') :
      Digits ds → Exponent (some (false, ds)) (e :: '+' :: ds)
  | minus {ds : List Char} (e : Char) (he : e = 'e' ∨ e = 'E') :
      Digits ds → Exponent (some (true, ds)) (e :: '-' :: ds)

def signChars (minus : Bool) : List Char := if minus then ['-'] else []

/-- The parts of a number one behind the other. A zero in front is followed by no other digit. -/
inductive Numeral.Spelled : Numeral → List Char → Prop
  | parts {minus : Bool} {whole fractionChars exponentChars : List Char}
      {fraction : Option (List Char)} {exponent : Option (Bool × List Char)} :
      Digits whole → (∀ ds, whole = '0' :: ds → ds = []) → Fraction fraction fractionChars →
      Exponent exponent exponentChars →
      Numeral.Spelled ⟨minus, whole, fraction, exponent⟩
        (signChars minus ++ whole ++ fractionChars ++ exponentChars)

/-! ## The spellings of a document -/

/-- What may stand between tokens. -/
def Gap (cs : List Char) : Prop := ∀ c ∈ cs, isGap c

instance (cs : List Char) : Decidable (Gap cs) := List.decidableBAll _ cs

theorem gap_nil : Gap [] := by decide

theorem gap_space : Gap [' '] := by decide

mutual

/-- The characters of a document, from its first to its last. -/
inductive Doc.Spelled : Doc → List Char → Prop
  | null : Doc.Spelled .null "null".toList
  | yes : Doc.Spelled (.boolean true) "true".toList
  | no : Doc.Spelled (.boolean false) "false".toList
  | number {n : Numeral} {cs : List Char} : n.Spelled cs → Doc.Spelled (.number n) cs
  | text {units : List Nat} {cs : List Char} : Literal units cs → Doc.Spelled (.text units) cs
  | noItems {gap : List Char} : Gap gap → Doc.Spelled (.array []) ('[' :: gap ++ [']'])
  | items {gap cs tail : List Char} {item : Doc} {items : List Doc} :
      Gap gap → item.Spelled cs → ItemsSpelled items tail →
      Doc.Spelled (.array (item :: items)) ('[' :: gap ++ cs ++ tail)
  | noMembers {gap : List Char} : Gap gap → Doc.Spelled (.object []) ('\x7b' :: gap ++ ['\x7d'])
  | members {gap cs tail : List Char} {key : List Nat} {value : Doc}
      {members : List (List Nat × Doc)} :
      Gap gap → MemberSpelled key value cs → MembersSpelled members tail →
      Doc.Spelled (.object ((key, value) :: members)) ('\x7b' :: gap ++ cs ++ tail)

/-- The rest of an array, from behind an item to the closing bracket. -/
inductive ItemsSpelled : List Doc → List Char → Prop
  | nil {gap : List Char} : Gap gap → ItemsSpelled [] (gap ++ [']'])
  | cons {gap gap' cs tail : List Char} {item : Doc} {items : List Doc} :
      Gap gap → Gap gap' → item.Spelled cs → ItemsSpelled items tail →
      ItemsSpelled (item :: items) (gap ++ ',' :: gap' ++ cs ++ tail)

inductive MemberSpelled : List Nat → Doc → List Char → Prop
  | pair {gap gap' literal cs : List Char} {key : List Nat} {value : Doc} :
      Literal key literal → Gap gap → Gap gap' → value.Spelled cs →
      MemberSpelled key value (literal ++ gap ++ ':' :: gap' ++ cs)

/-- The rest of an object, from behind a member to the closing brace. -/
inductive MembersSpelled : List (List Nat × Doc) → List Char → Prop
  | nil {gap : List Char} : Gap gap → MembersSpelled [] (gap ++ ['\x7d'])
  | cons {gap gap' cs tail : List Char} {key : List Nat} {value : Doc}
      {members : List (List Nat × Doc)} :
      Gap gap → Gap gap' → MemberSpelled key value cs → MembersSpelled members tail →
      MembersSpelled ((key, value) :: members) (gap ++ ',' :: gap' ++ cs ++ tail)

end

/-- Whether a text holds this document and nothing else but gaps. -/
def Doc.Spells (doc : Doc) (s : String) : Prop :=
  ∃ gap cs gap', Gap gap ∧ doc.Spelled cs ∧ Gap gap' ∧ s.toList = gap ++ cs ++ gap'

/-- An array of an object whose only key is half a pair, over a number with every part. -/
def Doc.stranger : Doc :=
  .array [.object [([0xD800], .number ⟨true, ['0'], some ['5'], some (false, ['2'])⟩)]]

theorem stranger_spelled : Doc.stranger.Spelled "[\x7b\"\\ud800\":-0.5e+2\x7d]".toList := by
  have hnumber : Numeral.Spelled ⟨true, ['0'], some ['5'], some (false, ['2'])⟩
      (['-'] ++ ['0'] ++ ['.', '5'] ++ ['e', '+', '2']) :=
    .parts (digits_single rfl) (by simp) (.some (digits_single rfl))
      (.plus 'e' (.inl rfl) (digits_single rfl))
  have hkey := Literal.quoted
    (.digits (a := 'd') (b := '8') (c := '0') (d := '0') rfl rfl rfl rfl .nil)
  have hobject := Doc.Spelled.members gap_nil (.pair hkey gap_nil gap_nil (.number hnumber))
    (.nil gap_nil)
  exact .items gap_nil hobject (.nil gap_nil)

/-! ## Documents for values -/

/-- An integer in decimal, with neither a point nor an exponent. -/
def Numeral.ofInt (n : Int) : Numeral := ⟨decide (n < 0), Nat.toDigits 10 n.natAbs, none, none⟩

namespace Doc

/-- The literal of a text. -/
def string (s : String) : Doc := .text (textUnits s)

def integer (n : Int) : Doc := .number (Numeral.ofInt n)

def record (members : List (String × Doc)) : Doc :=
  .object (members.map (fun m => (textUnits m.1, m.2)))

end Doc

end ConsumerGroups.Json
