-- What decoders make of documents: each kind of value leads back to the value that it was made
-- for, and a record is filled the same way whatever the order of its members and whatever other
-- members stand between them.
import ConsumerGroups.Proofs.Parsing
import Mathlib.Data.Finset.Lattice.Lemmas

set_option autoImplicit false

namespace ConsumerGroups.Json

/-! ## Single values -/

@[simp] theorem text?_string (expected s : String) :
    (Doc.string s).node.text? expected = .ok s := by
  simp [Doc.string, Doc.node, Node.text?, orFault]

@[simp] theorem boolean?_boolean (b : Bool) : (Doc.boolean b).node.boolean? = .ok b := rfl

theorem integer?_integer {low high n : Int} (hrange : low ≤ n ∧ n ≤ high)
    (hlow : n < 0 → n.natAbs ≤ Nat.pow 2 63) (hhigh : n < UInt64.size) (expected : String) :
    (Doc.integer n).node.integer? low high expected = .ok n := by
  rw [Doc.integer, Doc.node]
  by_cases hneg : n < 0
  · rw [ofInt_value_negative hneg (hlow hneg)]
    simp [Node.integer?, hrange]
  · obtain ⟨m, rfl⟩ := Int.eq_ofNat_of_zero_le (Int.not_lt.mp hneg)
    rw [ofInt_value_natural (by exact_mod_cast hhigh)]
    simp [Node.integer?, hrange]

@[simp] theorem word64?_integer (n : UInt64) : (Doc.integer n.toNat).node.word64? = .ok n := by
  have hn := n.toNat_lt_size
  rw [Node.word64?, integer?_integer (by omega) (by omega) (by omega)]
  simp [Except.map]

@[simp] theorem int32?_integer (n : Int32) : (Doc.integer n.toInt).node.int32? = .ok n := by
  have hlow := n.le_toInt
  have hhigh := n.toInt_lt
  have hnegative : n.toInt.natAbs ≤ Nat.pow 2 63 :=
    Nat.le_trans (by omega : n.toInt.natAbs ≤ 2147483648) (by decide)
  have hsize : n.toInt < UInt64.size := Int.lt_of_lt_of_le hhigh (by decide)
  rw [Node.int32?,
    integer?_integer ⟨n.minValue_le_toInt, n.toInt_le⟩ (fun _ => hnegative) hsize]
  simp [Except.map]

theorem choice?_string {α : Type} [Labelled α] {a : α} (h : choice? α (Labelled.label a) = some a) :
    (Doc.string (Labelled.label a)).node.choice? α = .ok a := by
  simp [Doc.string, Doc.node, Node.choice?, orFault, labelled?, h, bind, Except.bind]

theorem set?_nodes {α : Type} [Ord α] [Std.TransOrd α] {item? : Node → Decoded α} {doc : α → Doc}
    (hdoc : ∀ a, item? (doc a).node = .ok a) (as : List α) (s : SortedSet α) :
    (Doc.nodes (as.map doc)).set? item? s = .ok (as.foldl SortedSet.add s) := by
  induction as generalizing s with
  | nil => rfl
  | cons a as ih => rw [List.map_cons, Doc.nodes, Items.set?, hdoc a, List.foldl_cons, ← ih]

/-- An array is read as the set of its items. -/
theorem set?_array {α : Type} [Ord α] [Std.TransOrd α] {item? : Node → Decoded α} {doc : α → Doc}
    (hdoc : ∀ a, item? (doc a).node = .ok a) (as : List α) :
    (Doc.array (as.map doc)).node.set? item? = .ok (SortedSet.ofList as) :=
  set?_nodes hdoc as Table.empty

/-! ## Records -/

/-- The member for a value, when there is one. -/
def said {α : Type} (name : String) (doc : α → Doc) (value : Option α) : List (String × Doc) :=
  (value.map (fun a => (name, doc a))).toList

@[simp] theorem said_none {α : Type} (name : String) (doc : α → Doc) : said name doc none = [] :=
  rfl

@[simp] theorem said_some {α : Type} (name : String) (doc : α → Doc) (a : α) :
    said name doc (some a) = [(name, doc a)] := rfl

theorem mem_said {α : Type} {name : String} {doc : α → Doc} {value : Option α}
    {m : String × Doc} : m ∈ said name doc value ↔ ∃ a, value = some a ∧ (name, doc a) = m := by
  cases value <;> simp [eq_comm]

/-- Fields that may be missing are passed over at the end of an array. -/
theorem record?_nil {σ : Type} (expected : String) {fields : List (Field σ)}
    (h : ∀ f ∈ fields, f.optional = true) (place : Nat) (s : σ) :
    Items.nil.record? expected fields place s = .ok s := by
  induction fields generalizing place with
  | nil => rfl
  | cons field fields ih =>
    rw [Items.record?, if_pos (h field (by simp))]
    exact ih (fun f hf => h f (List.mem_cons_of_mem _ hf)) (place + 1)

/-- How a record is filled: each of the `given` members fills a field of its own, and `draft` is
the record when the fields with these names are filled. -/
structure Fills {σ : Type} (fields : List (Field σ)) (given : List (String × Doc))
    (draft : Finset String → σ) : Prop where
  nodup : (given.map Prod.fst).Nodup
  fill : ∀ m ∈ given, ∃ field, fieldNamed? fields m.1 = some field ∧ ∀ seen, m.1 ∉ seen →
    field.given (draft seen) = false ∧
      field.fill m.2.node (draft seen) = .ok (draft (insert m.1 seen))

section

variable {σ : Type} {fields : List (Field σ)} {given : List (String × Doc)}
  {draft : Finset String → σ} (hfills : Fills fields given draft)
include hfills

/-- Members may come in any order, with others between them that name no field. -/
theorem Fills.entries {members left others : List (String × Doc)} {seen : Finset String}
    (hperm : members.Perm (left ++ others)) (hothers : ∀ m ∈ others, fieldNamed? fields m.1 = none)
    (hleft : ∀ m ∈ left, m ∈ given ∧ m.1 ∉ seen) (hnodup : (left.map Prod.fst).Nodup) :
    (Doc.entries (members.map (fun m => (textUnits m.1, m.2)))).record? fields (draft seen) =
      checkGiven fields (draft (seen ∪ (left.map Prod.fst).toFinset)) := by
  induction members generalizing left others seen with
  | nil =>
    obtain ⟨rfl, rfl⟩ := List.append_eq_nil_iff.mp hperm.nil_eq.symm
    simp [Doc.entries, Members.record?]
  | cons m members ih =>
    rw [List.map_cons, Doc.entries, Members.record?, literalLeaf_textUnits]
    rcases List.mem_append.mp (hperm.subset (List.mem_cons_self ..)) with hm | hm
    -- the member fills its field, and the others that were given are still to come
    · obtain ⟨before, behind, rfl⟩ := List.append_of_mem hm
      obtain ⟨hgiven, hseen⟩ := hleft m hm
      obtain ⟨field, hfield, hfill⟩ := hfills.fill m hgiven
      obtain ⟨hempty, hfilled⟩ := hfill seen hseen
      have hrest : members.Perm ((before ++ behind) ++ others) := by
        refine (hperm.trans ?_).cons_inv
        simp
      have hnames : ((before ++ m :: behind).map Prod.fst).Perm
          (m.1 :: (before ++ behind).map Prod.fst) := by simp
      obtain ⟨hfresh, hnodup⟩ := List.nodup_cons.mp (hnames.nodup hnodup)
      have hleft' : ∀ m' ∈ before ++ behind, m' ∈ given ∧ m'.1 ∉ insert m.1 seen := by
        intro m' hm'
        have hin : m' ∈ before ++ m :: behind := by
          simp only [List.mem_append, List.mem_cons] at hm' ⊢
          exact hm'.imp id .inr
        have hne : m'.1 ≠ m.1 := fun he => hfresh (he ▸ List.mem_map_of_mem hm')
        simp [hleft m' hin, hne]
      simp only [hfield, hempty, hfilled, Bool.false_eq_true, if_false]
      rw [ih hrest hothers hleft' hnodup, List.toFinset_eq_of_perm _ _ hnames, List.toFinset_cons,
        Finset.insert_union, Finset.union_insert]
    -- the member names no field and is passed over
    · obtain ⟨before, behind, rfl⟩ := List.append_of_mem hm
      have hrest : members.Perm (left ++ (before ++ behind)) := by
        refine (hperm.trans ?_).cons_inv
        rw [← List.append_assoc, ← List.append_assoc]
        exact List.perm_middle
      simp only [hothers m hm, skip_node]
      exact ih hrest (fun m' hm' => hothers m' (by simp at hm' ⊢; tauto)) hleft hnodup

/-- A record is filled from an object that has the given members, in any order, and any others. -/
theorem Fills.record? {members others : List (String × Doc)} (title : String)
    (hperm : members.Perm (given ++ others))
    (hothers : ∀ m ∈ others, m.1 ∉ fields.map Field.name) :
    (Doc.record members).node.record? title fields (draft ∅) =
      checkGiven fields (draft (given.map Prod.fst).toFinset) := by
  have hunnamed : ∀ m ∈ others, fieldNamed? fields m.1 = none := by
    intro m hm
    rw [fieldNamed?, List.find?_eq_none]
    intro field hfield hname
    exact hothers m hm (List.mem_map.mpr ⟨field, hfield, by simpa using hname⟩)
  have hstart : ∀ m ∈ given, m ∈ given ∧ m.1 ∉ (∅ : Finset String) := by simp
  have hentries := hfills.entries hperm hunnamed hstart hfills.nodup
  rw [Finset.empty_union] at hentries
  exact hentries

/-- Items fill the fields one after the other, and the fields behind may be missing. -/
theorem Fills.items {left : List (String × Doc)} {front back : List (Field σ)}
    {seen : Finset String} (expected : String) (place : Nat)
    (hnames : left.map Prod.fst = front.map Field.name)
    (hfront : ∀ f ∈ front, fieldNamed? fields f.name = some f)
    (hback : ∀ f ∈ back, f.optional = true)
    (hleft : ∀ m ∈ left, m ∈ given ∧ m.1 ∉ seen) (hnodup : (left.map Prod.fst).Nodup) :
    (Doc.nodes (left.map Prod.snd)).record? expected (front ++ back) place (draft seen) =
      .ok (draft (seen ∪ (left.map Prod.fst).toFinset)) := by
  induction left generalizing front seen place with
  | nil =>
    obtain rfl := List.map_eq_nil_iff.mp hnames.symm
    rw [List.nil_append, List.map_nil, List.map_nil, List.toFinset_nil, Finset.union_empty]
    exact record?_nil expected hback place (draft seen)
  | cons m left ih =>
    obtain ⟨field, front, rfl⟩ : ∃ field tail, front = field :: tail := by
      cases front with
      | nil => simp at hnames
      | cons field tail => exact ⟨field, tail, rfl⟩
    rw [List.map_cons, List.map_cons, List.cons.injEq] at hnames
    obtain ⟨hname, hnames⟩ := hnames
    obtain ⟨hgiven, hseen⟩ := hleft m (by simp)
    obtain ⟨field', hfield', hfill⟩ := hfills.fill m hgiven
    obtain rfl : field' = field := by
      rw [hname, hfront field (by simp)] at hfield'
      exact (Option.some.inj hfield').symm
    rw [List.map_cons, List.nodup_cons] at hnodup
    have hleft' : ∀ m' ∈ left, m' ∈ given ∧ m'.1 ∉ insert m.1 seen := by
      intro m' hm'
      have hne : m'.1 ≠ m.1 := fun he => hnodup.1 (he ▸ List.mem_map_of_mem hm')
      simp [hleft m' (List.mem_cons_of_mem _ hm'), hne]
    rw [List.map_cons, Doc.nodes, List.cons_append, Items.record?]
    simp only [(hfill seen hseen).2]
    rw [ih (place + 1) hnames (fun f hf => hfront f (List.mem_cons_of_mem _ hf)) hleft' hnodup.2,
      List.map_cons, List.toFinset_cons, Finset.insert_union, Finset.union_insert]

/-- A record is filled from an array that has the given members in the order of declaration, if no
field behind them must be there. -/
theorem Fills.record?_array {front back : List (Field σ)} (title : String)
    (hfields : fields = front ++ back) (hnames : given.map Prod.fst = front.map Field.name)
    (hdistinct : ∀ f ∈ front, fieldNamed? fields f.name = some f)
    (hback : ∀ f ∈ back, f.optional = true) :
    (Doc.array (given.map Prod.snd)).node.record? title fields (draft ∅) =
      .ok (draft (given.map Prod.fst).toFinset) := by
  have hstart : ∀ m ∈ given, m ∈ given ∧ m.1 ∉ (∅ : Finset String) := by simp
  have hitems := hfills.items s!"struct {title} with {fields.length} elements" 0 hnames hdistinct
    hback hstart hfills.nodup
  rw [Finset.empty_union, ← hfields] at hitems
  exact hitems

end

end ConsumerGroups.Json
