-- A text that spells a document is read as the tree of that document, whatever gaps and escapes
-- it uses. What is written for a value spells its document, and a tree without faults is skipped.
import ConsumerGroups.Proofs.Literals
import ConsumerGroups.Proofs.Numerals
import ConsumerGroups.Json.Decode

set_option autoImplicit false

namespace ConsumerGroups.Json

/-! ## The tree of a document -/

mutual

def Doc.node : Doc → Node
  | .null => .null
  | .boolean b => .boolean b
  | .number n => .number ⟨n.value, .ok ()⟩
  | .text units => .text (literalLeaf units)
  | .array items => .array (Doc.nodes items)
  | .object members => .object (Doc.entries members)

def Doc.nodes : List Doc → Items
  | [] => .nil
  | item :: items => .cons item.node (Doc.nodes items)

def Doc.entries : List (List Nat × Doc) → Members
  | [] => .nil
  | (key, value) :: members => .cons (literalLeaf key) value.node (Doc.entries members)

end

mutual

/-- Whatever a document holds, a reader that has no use for it passes over it. -/
theorem skip_node : ∀ doc : Doc, doc.node.skip = .ok ()
  | .null => rfl
  | .boolean _ => rfl
  | .number _ => rfl
  | .text _ => rfl
  | .array items => by rw [Doc.node, Node.skip, skip_nodes items]
  | .object members => by rw [Doc.node, Node.skip, skip_entries members]

theorem skip_nodes : ∀ items : List Doc, (Doc.nodes items).skip = .ok ()
  | [] => rfl
  | item :: items => by simp only [Doc.nodes, Items.skip, skip_node item, skip_nodes items]

theorem skip_entries : ∀ members : List (List Nat × Doc), (Doc.entries members).skip = .ok ()
  | [] => rfl
  | (key, value) :: members => by
    simp only [Doc.entries, Members.skip, literalLeaf, skip_node value, skip_entries members]

end

/-! ## Gaps and what follows them -/

theorem skipGap_append {gap rest : List Char} (hgap : Gap gap) :
    skipGap (gap ++ rest) = skipGap rest := List.dropWhile_append_of_pos hgap

theorem skipGap_cons {c : Char} (hc : isGap c = false) (rest : List Char) :
    skipGap (c :: rest) = c :: rest := by simp [skipGap, hc]

theorem Gap.stops {gap rest : List Char} (hgap : Gap gap) (hrest : Stops rest) :
    Stops (gap ++ rest) := by
  cases gap with
  | nil => exact hrest
  | cons c tail =>
    intro d hd
    cases hd
    have hc := hgap c (by simp)
    simp only [isGap, Bool.or_eq_true, decide_eq_true_eq] at hc
    rcases hc with ((rfl | rfl) | rfl) | rfl <;> decide

theorem stops_of_gap {gap : List Char} (hgap : Gap gap) : Stops gap := by
  rw [← List.append_nil gap]
  exact hgap.stops (by simp [Stops])

/-- A comma or a closing bracket, with or without a gap in front, ends a number. -/
theorem Gap.stops_at {gap : List Char} (hgap : Gap gap) {c : Char}
    (hc : c = ',' ∨ c = ']' ∨ c = '\x7d') (rest : List Char) : Stops (gap ++ c :: rest) := by
  refine hgap.stops ?_
  rcases hc with rfl | rfl | rfl <;> simp [Stops, Char.isDigit]

theorem ItemsSpelled.stops {items : List Doc} {cs : List Char} (h : ItemsSpelled items cs)
    (rest : List Char) : Stops (cs ++ rest) := by
  cases h with
  | nil hgap => simpa using hgap.stops_at (by simp) rest
  | cons hgap => simpa using hgap.stops_at (by simp) _

theorem MembersSpelled.stops {members : List (List Nat × Doc)} {cs : List Char}
    (h : MembersSpelled members cs) (rest : List Char) : Stops (cs ++ rest) := by
  cases h with
  | nil hgap => simpa using hgap.stops_at (by simp) rest
  | cons hgap => simpa using hgap.stops_at (by simp) _

/-! ## First characters -/

theorem Numeral.Spelled.first {n : Numeral} {cs : List Char} (h : n.Spelled cs) :
    ∃ c tail, cs = c :: tail ∧ (c = '-' ∨ c.isDigit) := by
  obtain @⟨minus, whole, _, _, _, _, hwhole, -, -, -⟩ := h
  cases minus with
  | true => exact ⟨'-', _, rfl, .inl rfl⟩
  | false =>
    obtain ⟨d, tail, rfl⟩ := List.exists_cons_of_ne_nil hwhole.1
    exact ⟨d, _, rfl, .inr (hwhole.2 d (by simp))⟩

/-- What a number begins with begins nothing else and is no gap. -/
theorem not_first_of_number {c : Char} (hc : c = '-' ∨ c.isDigit) :
    isGap c = false ∧ c ≠ 'n' ∧ c ≠ 't' ∧ c ≠ 'f' ∧ c ≠ '"' ∧ c ≠ ']' := by
  rcases hc with rfl | hc
  · decide
  · have hne (d : Char) (hd : d.isDigit = false) : c ≠ d := by
      rintro rfl
      simp [hd] at hc
    simp only [isGap, Bool.or_eq_false_iff, decide_eq_false_iff_not]
    exact ⟨⟨⟨⟨hne _ rfl, hne _ rfl⟩, hne _ rfl⟩, hne _ rfl⟩, hne _ rfl, hne _ rfl, hne _ rfl,
      hne _ rfl, hne _ rfl⟩

/-- A document begins with a character that is neither a gap nor a closing bracket. -/
theorem Doc.Spelled.first {doc : Doc} {cs : List Char} (h : doc.Spelled cs) :
    ∃ c tail, cs = c :: tail ∧ isGap c = false ∧ c ≠ ']' := by
  cases h with
  | number hn =>
    obtain ⟨c, tail, rfl, hc⟩ := hn.first
    obtain ⟨hgapless, -, -, -, -, hclose⟩ := not_first_of_number hc
    exact ⟨c, tail, rfl, hgapless, hclose⟩
  | text hl => cases hl; exact ⟨_, _, rfl, by decide, by decide⟩
  | null => exact ⟨_, _, rfl, by decide, by decide⟩
  | yes => exact ⟨_, _, rfl, by decide, by decide⟩
  | no => exact ⟨_, _, rfl, by decide, by decide⟩
  | noItems => exact ⟨_, _, rfl, by decide, by decide⟩
  | items => exact ⟨_, _, rfl, by decide, by decide⟩
  | noMembers => exact ⟨_, _, rfl, by decide, by decide⟩
  | members => exact ⟨_, _, rfl, by decide, by decide⟩

/-! ## One step of the reader

A gap in front makes no difference. What the reader does next follows from the first character
behind the gap. -/

section

variable (fuel : Nat)

theorem takeNode_gap {gap : List Char} (hgap : Gap gap) (cs : List Char) :
    takeNode fuel (gap ++ cs) = takeNode fuel cs := by
  cases fuel with
  | zero => rfl
  | succ fuel => rw [takeNode, takeNode, skipGap_append hgap]

theorem takeMember_gap {gap : List Char} (hgap : Gap gap) (cs : List Char) :
    takeMember fuel (gap ++ cs) = takeMember fuel cs := by
  cases fuel with
  | zero => rfl
  | succ fuel => rw [takeMember, takeMember, skipGap_append hgap]

theorem takeNode_number {n : Numeral} {cs : List Char} (h : n.Spelled cs) {rest : List Char}
    (hrest : Stops rest) :
    takeNode (fuel + 1) (cs ++ rest) = (.number ⟨n.value, .ok ()⟩, rest) := by
  obtain ⟨c, tail, hcs, hc⟩ := h.first
  obtain ⟨hgapless, hn, ht, hf, hquote, -⟩ := not_first_of_number hc
  have htake := takeNumeral_append h hrest
  rw [hcs, List.cons_append] at htake
  rw [hcs, List.cons_append, takeNode, skipGap_cons hgapless]
  simp only [hn, ht, hf, hquote, hc, if_false, if_true, takeNumber, htake]

theorem takeNode_quote (cs : List Char) :
    takeNode (fuel + 1) ('"' :: cs) = (.text (takeLiteral cs).1, (takeLiteral cs).2) := rfl

section

variable {gap : List Char} (hgap : Gap gap) {c : Char} (hc : isGap c = false) (rest : List Char)
include hgap hc

theorem skipGap_to : skipGap (gap ++ c :: rest) = c :: rest := by
  rw [skipGap_append hgap, skipGap_cons hc]

theorem takeNode_bracket :
    takeNode (fuel + 1) ('[' :: (gap ++ c :: rest)) =
      if c = ']' then (.array .nil, rest)
      else
        let (item, behind) := takeNode fuel (c :: rest)
        let (items, behind) := takeItems fuel behind
        (.array (.cons item items), behind) := by
  rw [takeNode, skipGap_cons (by decide)]
  simp only [skipGap_to hgap hc]
  rfl

theorem takeNode_brace :
    takeNode (fuel + 1) ('\x7b' :: (gap ++ c :: rest)) =
      if c = '\x7d' then (.object .nil, rest)
      else
        let (members, behind) := takeMember fuel (c :: rest)
        (.object members, behind) := by
  rw [takeNode, skipGap_cons (by decide)]
  simp only [skipGap_to hgap hc]
  rfl

theorem takeItems_to :
    takeItems (fuel + 1) (gap ++ c :: rest) =
      if c = ']' then (.nil, rest)
      else if c = ',' then
        let (item, behind) := takeNode fuel rest
        let (items, behind) := takeItems fuel behind
        (.cons item items, behind)
      else (.broken .malformed, []) := by
  rw [takeItems, skipGap_to hgap hc]

theorem takeMembers_to :
    takeMembers (fuel + 1) (gap ++ c :: rest) =
      if c = '\x7d' then (.nil, rest)
      else if c = ',' then takeMember fuel rest
      else (.broken .malformed, []) := by
  rw [takeMembers, skipGap_to hgap hc]

end

theorem takeMember_literal {gap literal : List Char} {key : List Nat} (hkey : Literal key literal)
    (hgap : Gap gap) (rest : List Char) :
    takeMember (fuel + 1) (literal ++ (gap ++ ':' :: rest)) =
      let (value, behind) := takeNode fuel rest
      let (members, behind) := takeMembers fuel behind
      (.cons (literalLeaf key) value members, behind) := by
  obtain ⟨hs⟩ := hkey
  rw [List.append_assoc, List.cons_append, takeMember, skipGap_cons (by decide)]
  simp only [List.singleton_append, takeLiteral_spelling hs, skipGap_to hgap (c := ':') (by decide),
    if_true]

end

/-! ## The whole reader -/

/-- With this much fuel the reader gets through everything that is no longer than the fuel. -/
structure Reads (fuel : Nat) : Prop where
  node : ∀ {doc : Doc} {cs rest : List Char}, doc.Spelled cs → Stops rest → cs.length ≤ fuel →
    takeNode fuel (cs ++ rest) = (doc.node, rest)
  items : ∀ {items : List Doc} {cs : List Char}, ItemsSpelled items cs → cs.length ≤ fuel →
    ∀ rest, takeItems fuel (cs ++ rest) = (Doc.nodes items, rest)
  member : ∀ {key : List Nat} {value : Doc} {members : List (List Nat × Doc)} {cs tail : List Char},
    MemberSpelled key value cs → MembersSpelled members tail → (cs ++ tail).length ≤ fuel →
    ∀ rest, takeMember fuel (cs ++ (tail ++ rest)) = (Doc.entries ((key, value) :: members), rest)
  members : ∀ {members : List (List Nat × Doc)} {cs : List Char}, MembersSpelled members cs →
    cs.length ≤ fuel → ∀ rest, takeMembers fuel (cs ++ rest) = (Doc.entries members, rest)

theorem MemberSpelled.first {key : List Nat} {value : Doc} {cs : List Char}
    (h : MemberSpelled key value cs) : ∃ tail, cs = '"' :: tail := by
  obtain ⟨⟨_⟩, _, _, _⟩ := h
  exact ⟨_, rfl⟩

theorem reads_zero : Reads 0 := by
  refine ⟨fun h _ hlen => ?_, fun h hlen => ?_, fun h _ hlen => ?_, fun h hlen => ?_⟩
  · obtain ⟨c, tail, rfl, -⟩ := h.first
    simp at hlen
  · cases h <;> simp at hlen
  · obtain ⟨tail, rfl⟩ := h.first
    simp at hlen
  · cases h <;> simp at hlen

/-! Every step takes a character at least, so the fuel that is left is enough for the rest. -/

section

variable {fuel : Nat} (ih : Reads fuel)
include ih

theorem Reads.node_succ {doc : Doc} {cs rest : List Char} (h : doc.Spelled cs) (hrest : Stops rest)
    (hlen : cs.length ≤ fuel + 1) : takeNode (fuel + 1) (cs ++ rest) = (doc.node, rest) := by
  cases h with
  | null => rfl
  | yes => rfl
  | no => rfl
  | number hn => exact takeNode_number fuel hn hrest
  | text hl =>
    obtain ⟨hs⟩ := hl
    rw [List.append_assoc, List.cons_append, takeNode_quote, List.singleton_append,
      takeLiteral_spelling hs, Doc.node]
  | noItems hgap =>
    simp only [List.cons_append, List.append_assoc]
    exact takeNode_bracket fuel hgap (by decide) rest
  | @items gap cs tail item items hgap hitem hitems =>
    obtain ⟨c, front, hcs, hc, hclose⟩ := hitem.first
    have hread := ih.node hitem (hitems.stops rest) (by simp at hlen; omega)
    have hreads := ih.items hitems (by simp at hlen; omega) rest
    simp only [List.cons_append, List.append_assoc]
    rw [hcs, List.cons_append] at hread ⊢
    rw [takeNode_bracket fuel hgap hc, if_neg hclose, hread]
    simp only [hreads, Doc.node, Doc.nodes]
  | noMembers hgap =>
    simp only [List.cons_append, List.append_assoc]
    exact takeNode_brace fuel hgap (by decide) rest
  | @members gap cs tail key value members hgap hmember hmembers =>
    obtain ⟨front, hcs⟩ := hmember.first
    have hread := ih.member hmember hmembers (by simp at hlen ⊢; omega) rest
    simp only [List.cons_append, List.append_assoc]
    rw [hcs, List.cons_append] at hread ⊢
    rw [takeNode_brace fuel hgap (by decide), if_neg (by decide), hread]
    rfl

theorem Reads.items_succ {items : List Doc} {cs : List Char} (h : ItemsSpelled items cs)
    (hlen : cs.length ≤ fuel + 1) (rest : List Char) :
    takeItems (fuel + 1) (cs ++ rest) = (Doc.nodes items, rest) := by
  cases h with
  | nil hgap =>
    simp only [List.append_assoc, List.singleton_append]
    exact takeItems_to fuel hgap (by decide) rest
  | @cons gap gap' cs tail item items hgap hgap' hitem hitems =>
    have hread := ih.node hitem (hitems.stops rest) (by simp at hlen; omega)
    have hreads := ih.items hitems (by simp at hlen; omega) rest
    simp only [List.append_assoc, List.cons_append]
    rw [takeItems_to fuel hgap (by decide), if_neg (by decide), if_pos rfl,
      takeNode_gap fuel hgap', hread]
    simp only [hreads, Doc.nodes]

theorem Reads.member_succ {key : List Nat} {value : Doc} {members : List (List Nat × Doc)}
    {cs tail : List Char} (h : MemberSpelled key value cs) (htail : MembersSpelled members tail)
    (hlen : (cs ++ tail).length ≤ fuel + 1) (rest : List Char) :
    takeMember (fuel + 1) (cs ++ (tail ++ rest)) =
      (Doc.entries ((key, value) :: members), rest) := by
  obtain @⟨gap, gap', literal, cs, _, _, hkey, hgap, hgap', hvalue⟩ := h
  have hread := ih.node hvalue (htail.stops rest) (by simp at hlen; omega)
  have hreads := ih.members htail (by simp at hlen; omega) rest
  simp only [List.append_assoc, List.cons_append]
  rw [takeMember_literal fuel hkey hgap, takeNode_gap fuel hgap', hread]
  simp only [hreads, Doc.entries]

theorem Reads.members_succ {members : List (List Nat × Doc)} {cs : List Char}
    (h : MembersSpelled members cs) (hlen : cs.length ≤ fuel + 1) (rest : List Char) :
    takeMembers (fuel + 1) (cs ++ rest) = (Doc.entries members, rest) := by
  cases h with
  | nil hgap =>
    simp only [List.append_assoc, List.singleton_append]
    exact takeMembers_to fuel hgap (by decide) rest
  | cons hgap hgap' hmember hmembers =>
    have hread := ih.member hmember hmembers (by simp at hlen ⊢; omega) rest
    simp only [List.append_assoc, List.cons_append]
    rw [takeMembers_to fuel hgap (by decide), if_neg (by decide), if_pos rfl,
      takeMember_gap fuel hgap', hread]

end

theorem reads (fuel : Nat) : Reads fuel := by
  induction fuel with
  | zero => exact reads_zero
  | succ fuel ih => exact ⟨ih.node_succ, ih.items_succ, ih.member_succ, ih.members_succ⟩

/-- A text that spells a document decodes as the document does. -/
theorem decodeText_of_spells {α : Type} (decode : Node → Decoded α) {doc : Doc} {s : String}
    (h : doc.Spells s) : decodeText decode s = decode doc.node := by
  obtain ⟨gap, cs, gap', hgap, hdoc, hgap', hs⟩ := h
  have hlen : cs.length ≤ 3 * s.toList.length + 3 := by simp [hs]; omega
  have hread : Node.ofChars s.toList = (doc.node, gap') := by
    rw [Node.ofChars]
    generalize 3 * s.toList.length + 3 = fuel at hlen
    rw [hs, List.append_assoc, takeNode_gap _ hgap, (reads _).node hdoc (stops_of_gap hgap') hlen]
  have hbehind : skipGap gap' = [] := by
    rw [← List.append_nil gap', skipGap_append hgap']
    rfl
  simp only [decodeText, hread, hbehind]
  cases decode doc.node <;> rfl

end ConsumerGroups.Json
