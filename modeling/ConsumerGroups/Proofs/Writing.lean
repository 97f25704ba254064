-- What is written for a value spells a document: the one that says the same.
import ConsumerGroups.Proofs.Literals
import ConsumerGroups.Proofs.Numerals

set_option autoImplicit false

namespace ConsumerGroups.Json

mutual

def Value.doc : Value → Doc
  | .null => .null
  | .boolean b => .boolean b
  | .integer n => .integer n
  | .text s => .string s
  | .array items => .array (Value.docs items)
  | .object members => .object (Value.memberDocs members)

def Value.docs : List Value → List Doc
  | [] => []
  | v :: rest => v.doc :: Value.docs rest

def Value.memberDocs : List (String × Value) → List (List Nat × Doc)
  | [] => []
  | (k, v) :: rest => (textUnits k, v.doc) :: Value.memberDocs rest

end

theorem docs_eq_map (items : List Value) : Value.docs items = items.map Value.doc := by
  induction items with
  | nil => rfl
  | cons v rest ih => rw [Value.docs, ih, List.map_cons]

theorem doc_object (members : List (String × Value)) :
    (Value.object members).doc = .record (members.map (fun m => (m.1, m.2.doc))) := by
  rw [Value.doc, Doc.record]
  congr 1
  induction members with
  | nil => rfl
  | cons m rest ih => rw [Value.memberDocs, ih]; rfl

/-! ## Writing spells -/

/-- What stands behind the first of several pieces. -/
def commaTail (pieces : List (List Char)) : List Char := pieces.flatMap (',' :: ·)

theorem joinComma_cons (piece : List Char) (pieces : List (List Char)) :
    joinComma (piece :: pieces) = piece ++ commaTail pieces := by
  induction pieces generalizing piece with
  | nil => simp [joinComma, commaTail]
  | cons next pieces ih => rw [joinComma, ih]; rfl

theorem write_array (v : Value) (rest : List Value) :
    (Value.array (v :: rest)).write =
      '[' :: (v.write ++ commaTail (Value.writeItems rest)) ++ [']'] := by
  rw [← joinComma_cons]
  rfl

theorem write_object (k : String) (v : Value) (rest : List (String × Value)) :
    (Value.object ((k, v) :: rest)).write =
      '\x7b' :: (writeLiteral k ++ ':' :: v.write ++ commaTail (Value.writeMembers rest)) ++
        ['\x7d'] := by
  rw [← joinComma_cons]
  rfl

mutual

theorem spelled_write : ∀ v : Value, v.doc.Spelled v.write
  | .null => .null
  | .boolean true => .yes
  | .boolean false => .no
  | .integer n => .number (ofInt_spelled n)
  | .text s => .text (literal_writeLiteral s)
  | .array [] => .noItems gap_nil
  | .array (v :: rest) => by
    have h := Doc.Spelled.items gap_nil (spelled_write v) (spelled_items rest)
    rw [Value.doc, Value.docs, write_array]
    simpa using h
  | .object [] => .noMembers gap_nil
  | .object ((k, v) :: rest) => by
    have h := Doc.Spelled.members gap_nil (spelled_member k v) (spelled_members rest)
    rw [Value.doc, Value.memberDocs, write_object]
    simpa using h

theorem spelled_items : ∀ items : List Value,
    ItemsSpelled (Value.docs items) (commaTail (Value.writeItems items) ++ [']'])
  | [] => .nil gap_nil
  | v :: rest => by
    have h := ItemsSpelled.cons gap_nil gap_nil (spelled_write v) (spelled_items rest)
    simpa [Value.docs, Value.writeItems, commaTail] using h

theorem spelled_member (k : String) : ∀ v : Value,
    MemberSpelled (textUnits k) v.doc (writeLiteral k ++ ':' :: v.write)
  | v => by
    have h := MemberSpelled.pair (literal_writeLiteral k) gap_nil gap_nil (spelled_write v)
    simpa using h

theorem spelled_members : ∀ members : List (String × Value),
    MembersSpelled (Value.memberDocs members) (commaTail (Value.writeMembers members) ++ ['\x7d'])
  | [] => .nil gap_nil
  | (k, v) :: rest => by
    have h := MembersSpelled.cons gap_nil gap_nil (spelled_member k v) (spelled_members rest)
    simpa [Value.memberDocs, Value.writeMembers, commaTail] using h

end

/-- What is written for a value spells the document that says the same. -/
theorem spells_render (v : Value) : v.doc.Spells v.render :=
  ⟨[], v.write, [], gap_nil, spelled_write v, gap_nil, by simp [Value.render]⟩

end ConsumerGroups.Json
