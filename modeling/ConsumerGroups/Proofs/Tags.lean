-- The tags of an expression are its pieces between double bars, without the blanks around them and
-- without the empty ones. So tags that are put together with double bars between them come apart
-- again, in whatever order they stand and however often.
import ConsumerGroups.Subscription.Basic

set_option autoImplicit false

namespace ConsumerGroups

/-! ## Trimming -/

/-- Without the blanks at both ends of it, a text is `core`. -/
def Trims (cs core : List Char) : Prop :=
  ∃ before behind, cs = before ++ core ++ behind ∧ (∀ c ∈ before, isBlank c = true) ∧
    (∀ c ∈ behind, isBlank c = true) ∧ (∀ c ∈ core.head?, isBlank c = false) ∧
    ∀ c ∈ core.getLast?, isBlank c = false

theorem trimLeft_of_shown {cs : List Char} (h : ∀ c ∈ cs.head?, isBlank c = false) :
    trimLeft cs = cs := by
  cases cs with
  | nil => rfl
  | cons c rest =>
    have hc : isBlank c = false := h c rfl
    rw [trimLeft, List.dropWhile_cons, hc]
    rfl

theorem shown_of_trimLeft (cs : List Char) : ∀ c ∈ (trimLeft cs).head?, isBlank c = false := by
  intro c hc
  have h := List.head?_dropWhile_not isBlank cs
  rw [← trimLeft, Option.mem_def.mp hc] at h
  simpa using h

theorem Trims.trimChars_eq {cs core : List Char} (h : Trims cs core) : trimChars cs = core := by
  obtain ⟨before, behind, rfl, hbefore, hbehind, hfirst, hlast⟩ := h
  have hleft : trimLeft (before ++ core ++ behind) = trimLeft (core ++ behind) := by
    rw [List.append_assoc]
    exact List.dropWhile_append_of_pos hbefore
  cases core with
  | nil =>
    rw [trimChars_eq_nil_iff]
    simpa [or_imp, forall_and] using ⟨hbefore, hbehind⟩
  | cons c rest =>
    have hkept : trimLeft (c :: rest ++ behind) = c :: rest ++ behind :=
      trimLeft_of_shown hfirst
    have hright : trimLeft (c :: rest ++ behind).reverse = (c :: rest).reverse := by
      have hblank : ∀ c ∈ behind.reverse, isBlank c = true := by simpa using hbehind
      rw [List.reverse_append, trimLeft, List.dropWhile_append_of_pos hblank]
      apply trimLeft_of_shown
      rwa [List.head?_reverse]
    rw [trimChars, hleft, hkept, trimRight, hright, List.reverse_reverse]

theorem trims_trimChars (cs : List Char) : Trims cs (trimChars cs) := by
  let rest := trimLeft cs
  let core := (trimLeft rest.reverse).reverse
  let behind := (rest.reverse.takeWhile isBlank).reverse
  have hrest : rest = core ++ behind := by
    rw [← List.reverse_append, trimLeft, List.takeWhile_append_dropWhile, List.reverse_reverse]
  have hcs : cs = cs.takeWhile isBlank ++ core ++ behind := by
    rw [List.append_assoc, ← hrest]
    exact List.takeWhile_append_dropWhile.symm
  refine ⟨cs.takeWhile isBlank, behind, hcs, ?_, ?_, ?_, ?_⟩
  · exact List.all_eq_true.mp List.all_takeWhile
  · intro c hc
    exact List.all_eq_true.mp List.all_takeWhile c (List.mem_reverse.mp hc)
  · -- what is left begins as it did before the blanks at its end were taken away
    intro c hc
    apply shown_of_trimLeft cs c
    have hfirst : core.head? = some c := hc
    change c ∈ rest.head?
    rw [hrest, List.head?_append, hfirst]
    rfl
  · intro c hc
    apply shown_of_trimLeft rest.reverse c
    rwa [← List.getLast?_reverse]

theorem trims_iff {cs core : List Char} : Trims cs core ↔ trimChars cs = core := by
  constructor
  · intro h
    exact h.trimChars_eq
  · rintro rfl
    exact trims_trimChars cs

theorem trimChars_blanks_before {before : List Char} (h : ∀ c ∈ before, isBlank c = true)
    (cs : List Char) : trimChars (before ++ cs) = trimChars cs := by
  obtain ⟨before', behind, hcs, hbefore, hrest⟩ := trims_trimChars cs
  refine Trims.trimChars_eq ⟨before ++ before', behind, ?_, ?_, hrest⟩
  · simpa only [List.append_assoc] using congrArg (before ++ ·) hcs
  · simpa [or_imp, forall_and] using ⟨h, hbefore⟩

theorem trimChars_blanks_behind {behind : List Char} (h : ∀ c ∈ behind, isBlank c = true)
    (cs : List Char) : trimChars (cs ++ behind) = trimChars cs := by
  obtain ⟨before, behind', hcs, hbefore, hbehind, hrest⟩ := trims_trimChars cs
  refine Trims.trimChars_eq ⟨before, behind' ++ behind, ?_, hbefore, ?_, hrest⟩
  · simpa only [List.append_assoc] using congrArg (· ++ behind) hcs
  · simpa [or_imp, forall_and] using ⟨hbehind, h⟩

/-! ## Double bars -/

def bars : List Char := ['|', '|']

/-- Whether a double bar stands somewhere in a text. -/
def Barred (cs : List Char) : Prop := bars <:+: cs

instance (cs : List Char) : Decidable (Barred cs) := inferInstanceAs (Decidable (bars <:+: cs))

theorem barred_cons {c : Char} {cs : List Char} :
    Barred (c :: cs) ↔ (c = '|' ∧ ∃ rest, cs = '|' :: rest) ∨ Barred cs := by
  have hfirst : bars <+: c :: cs ↔ c = '|' ∧ ∃ rest, cs = '|' :: rest := by
    rw [bars, List.cons_prefix_cons, eq_comm]
    cases cs <;> simp [eq_comm]
  rw [Barred, List.infix_cons_iff, hfirst, Barred]

/-- A double bar does not reach over a character that is no bar. -/
theorem barred_append_cons {c : Char} (hc : c ≠ '|') (cs ds : List Char) :
    Barred (cs ++ c :: ds) ↔ Barred cs ∨ Barred ds := by
  induction cs with
  | nil => simp [barred_cons, hc, show ¬ Barred [] by decide]
  | cons d cs ih =>
    rw [List.cons_append, barred_cons, barred_cons, ih, or_assoc]
    refine or_congr_left (and_congr_right fun _ => ?_)
    cases cs <;> simp [hc]

theorem not_bar_of_blank {c : Char} (h : isBlank c = true) : c ≠ '|' := by
  rintro rfl
  contradiction

theorem barred_blanks_before {before : List Char} (h : ∀ c ∈ before, isBlank c = true)
    (cs : List Char) : Barred (before ++ cs) ↔ Barred cs := by
  induction before with
  | nil => rfl
  | cons c before ih =>
    have hc : c ≠ '|' := not_bar_of_blank (h c List.mem_cons_self)
    rw [List.cons_append, barred_cons, ih fun d hd => h d (List.mem_cons_of_mem c hd)]
    simp [hc]

theorem barred_blanks_behind {behind : List Char} (h : ∀ c ∈ behind, isBlank c = true)
    (cs : List Char) : Barred (cs ++ behind) ↔ Barred cs := by
  cases behind with
  | nil => rw [List.append_nil]
  | cons c behind =>
    have hrest : ¬ Barred behind := by
      have hall := barred_blanks_before (fun d hd => h d (List.mem_cons_of_mem c hd)) []
      rw [List.append_nil] at hall
      rw [hall]
      decide
    rw [barred_append_cons (not_bar_of_blank (h c List.mem_cons_self))]
    simp [hrest]

/-! ## The pieces of a text -/

/-- The pieces of a text between its double bars. A piece ends at the first double bar that there
is: there is none yet when one bar is put behind it. What follows has its pieces in turn. -/
inductive Pieces : List Char → List (List Char) → Prop where
  | last {cs : List Char} (h : ¬ Barred cs) : Pieces cs [cs]
  | cut {piece rest : List Char} {pieces : List (List Char)}
      (hfirst : ¬ Barred (piece ++ ['|'])) (h : Pieces rest pieces) :
      Pieces (piece ++ bars ++ rest) (piece :: pieces)

theorem splitBars_cons {c : Char} {cs piece : List Char} {pieces : List (List Char)}
    (hfirst : ¬ (c = '|' ∧ ∃ rest, cs = '|' :: rest)) (h : splitBars cs = piece :: pieces) :
    splitBars (c :: cs) = (c :: piece) :: pieces := by
  rw [splitBars, h]
  rintro rest rfl rfl
  exact hfirst ⟨rfl, rest, rfl⟩

theorem splitBars_of_unbarred {cs : List Char} (h : ¬ Barred cs) : splitBars cs = [cs] := by
  induction cs with
  | nil => rfl
  | cons c cs ih =>
    rw [barred_cons, not_or] at h
    exact splitBars_cons h.1 (ih h.2)

/-- What comes next is the same character whether one bar follows a piece or two. -/
theorem bar_ahead_iff (piece rest : List Char) :
    (∃ behind, piece ++ bars ++ rest = '|' :: behind) ↔
      ∃ behind, piece ++ ['|'] = '|' :: behind := by
  cases piece <;> simp [bars]

theorem splitBars_append {piece : List Char} (h : ¬ Barred (piece ++ ['|'])) (rest : List Char) :
    splitBars (piece ++ bars ++ rest) = piece :: splitBars rest := by
  induction piece with
  | nil => rfl
  | cons c piece ih =>
    rw [List.cons_append, barred_cons, not_or] at h
    refine splitBars_cons ?_ (ih h.2)
    rintro ⟨hc, hahead⟩
    exact h.1 ⟨hc, (bar_ahead_iff piece rest).mp hahead⟩

theorem Pieces.eq_splitBars {cs : List Char} {pieces : List (List Char)} (h : Pieces cs pieces) :
    pieces = splitBars cs := by
  induction h with
  | last h => exact (splitBars_of_unbarred h).symm
  | @cut piece rest pieces hfirst _ ih => rw [splitBars_append hfirst, ih]

theorem pieces_splitBars (cs : List Char) : Pieces cs (splitBars cs) := by
  fun_induction splitBars cs with
  | case1 => exact .last (by decide)
  | case2 rest ih => exact @Pieces.cut [] rest _ (by decide) ih
  | case3 c rest _ hnone => exact absurd hnone (splitBars_ne_nil rest)
  | case4 c rest hno piece pieces hrest ih =>
    have hfirst : ¬ (c = '|' ∧ ∃ behind, rest = '|' :: behind) := by
      rintro ⟨hc, behind, hbehind⟩
      exact hno behind hc hbehind
    rw [hrest] at ih
    cases ih with
    | last h =>
      apply Pieces.last
      rw [barred_cons, not_or]
      exact ⟨hfirst, h⟩
    | @cut _ behind _ hpiece h =>
      refine @Pieces.cut (c :: piece) _ _ ?_ h
      rw [List.cons_append, barred_cons, not_or]
      refine ⟨?_, hpiece⟩
      rintro ⟨hc, hahead⟩
      exact hfirst ⟨hc, (bar_ahead_iff piece behind).mpr hahead⟩

theorem pieces_iff {cs : List Char} {pieces : List (List Char)} :
    Pieces cs pieces ↔ pieces = splitBars cs := by
  constructor
  · intro h
    exact h.eq_splitBars
  · rintro rfl
    exact pieces_splitBars cs

/-- The first two of three bars end a piece, and the third begins the next. -/
example : splitBars "a|||b".toList = ["a".toList, "|b".toList] := by decide

namespace Pieces

variable {cs : List Char} {pieces : List (List Char)}

theorem ne_nil (h : Pieces cs pieces) : pieces ≠ [] := by
  cases h <;> simp

theorem unbarred (h : Pieces cs pieces) : ∀ piece ∈ pieces, ¬ Barred piece := by
  induction h with
  | last h => simpa using h
  | @cut piece rest pieces hfirst _ ih =>
    intro p hp
    rcases List.mem_cons.mp hp with rfl | hp
    · exact fun hbarred => hfirst (hbarred.trans (List.prefix_append p ['|']).isInfix)
    · exact ih p hp

/-- The text is its pieces with double bars between them. -/
theorem joined (h : Pieces cs pieces) : bars.intercalate pieces = cs := by
  induction h with
  | last => exact List.intercalate_singleton
  | cut _ h ih => rw [List.intercalate_cons_of_ne_nil h.ne_nil, ih]

/-- Blanks in front of a text come to its first piece. -/
theorem blanks_before (h : Pieces cs pieces) {before : List Char}
    (hblank : ∀ c ∈ before, isBlank c = true) :
    ∃ pieces', Pieces (before ++ cs) pieces' ∧
      pieces'.map trimChars = pieces.map trimChars := by
  cases h with
  | last h =>
    refine ⟨[before ++ cs], .last ?_, ?_⟩
    · rwa [barred_blanks_before hblank]
    · simp [trimChars_blanks_before hblank]
  | @cut piece rest pieces hfirst h =>
    refine ⟨(before ++ piece) :: pieces, ?_, ?_⟩
    · have hcut : Pieces (before ++ piece ++ bars ++ rest) ((before ++ piece) :: pieces) := by
        refine .cut ?_ h
        rwa [List.append_assoc, barred_blanks_before hblank]
      simpa only [List.append_assoc] using hcut
    · simp [trimChars_blanks_before hblank]

/-- Blanks behind a text come to its last piece. -/
theorem blanks_behind (h : Pieces cs pieces) {behind : List Char}
    (hblank : ∀ c ∈ behind, isBlank c = true) :
    ∃ pieces', Pieces (cs ++ behind) pieces' ∧
      pieces'.map trimChars = pieces.map trimChars := by
  induction h with
  | @last cs h =>
    refine ⟨[cs ++ behind], .last ?_, ?_⟩
    · rwa [barred_blanks_behind hblank]
    · simp [trimChars_blanks_behind hblank]
  | @cut piece rest pieces hfirst _ ih =>
    obtain ⟨pieces', hpieces, htrimmed⟩ := ih
    refine ⟨piece :: pieces', ?_, ?_⟩
    · rw [List.append_assoc]
      exact .cut hfirst hpieces
    · rw [List.map_cons, htrimmed, List.map_cons]

end Pieces

/-- It does not matter to the pieces, trimmed, whether the whole text was trimmed before. -/
theorem map_trimChars_splitBars (cs : List Char) :
    (splitBars (trimChars cs)).map trimChars = (splitBars cs).map trimChars := by
  obtain ⟨before, behind, hcs, hbefore, hbehind, -⟩ := trims_trimChars cs
  obtain ⟨some, hsome, hfirst⟩ := (pieces_splitBars (trimChars cs)).blanks_before hbefore
  obtain ⟨all, hall, hlast⟩ := hsome.blanks_behind hbehind
  rw [← hcs, pieces_iff] at hall
  rw [← hall, hlast, hfirst]

/-! ## Tags -/

/-- A text that can stand as a tag. -/
structure IsTag (tag : String) : Prop where
  nonempty : tag ≠ ""
  trimmed : Trims tag.toList tag.toList
  unbarred : ¬ Barred tag.toList

theorem isTag_iff {tag : String} :
    IsTag tag ↔ tag ≠ "" ∧ trimChars tag.toList = tag.toList ∧ ¬ Barred tag.toList := by
  rw [← trims_iff]
  constructor
  · rintro ⟨hsome, htrimmed, hbars⟩
    exact ⟨hsome, htrimmed, hbars⟩
  · rintro ⟨hsome, htrimmed, hbars⟩
    exact ⟨hsome, htrimmed, hbars⟩

instance (tag : String) : Decidable (IsTag tag) := decidable_of_iff' _ isTag_iff

theorem mem_tagsOf {tag expression : String} :
    tag ∈ tagsOf expression ↔
      tag ≠ "" ∧ tag.toList ∈ (splitBars expression.toList).map trimChars := by
  simp only [tagsOf, List.mem_map, List.mem_filter, Bool.not_eq_true', List.isEmpty_eq_false_iff]
  constructor
  · rintro ⟨core, ⟨⟨piece, hpiece, rfl⟩, hsome⟩, rfl⟩
    refine ⟨by simpa using hsome, piece, hpiece, by simp⟩
  · rintro ⟨hsome, piece, hpiece, htag⟩
    refine ⟨tag.toList, ⟨⟨piece, hpiece, htag⟩, ?_⟩, by simp⟩
    simpa using hsome

theorem mem_tagsOf_trimText {tag expression : String} :
    tag ∈ tagsOf (trimText expression) ↔ tag ∈ tagsOf expression := by
  rw [mem_tagsOf, mem_tagsOf, trimText, String.toList_ofList, map_trimChars_splitBars]

theorem isTag_of_mem {tag expression : String} (h : tag ∈ tagsOf expression) : IsTag tag := by
  obtain ⟨hsome, hmem⟩ := mem_tagsOf.mp h
  obtain ⟨piece, hpiece, htag⟩ := List.mem_map.mp hmem
  obtain ⟨before, behind, hcs, hbefore, hbehind, hends⟩ := trims_trimChars piece
  rw [htag] at hcs hends
  refine ⟨hsome, ⟨[], [], by simp, by simp, by simp, hends⟩, ?_⟩
  intro hbarred
  apply (pieces_splitBars expression.toList).unbarred piece hpiece
  rw [hcs]
  exact hbarred.trans (List.infix_append before tag.toList behind)

/-- A text without tags is nothing but blanks and double bars. -/
theorem gaps_of_tagsOf_nil {expression : String} (h : tagsOf expression = []) :
    ∃ gaps, (∀ gap ∈ gaps, ∀ c ∈ gap, isBlank c = true) ∧
      expression.toList = bars.intercalate gaps := by
  refine ⟨splitBars expression.toList, ?_, (pieces_splitBars _).joined.symm⟩
  intro gap hgap
  rw [← trimChars_eq_nil_iff]
  refine Decidable.byContradiction fun hsome => ?_
  have hmem : String.ofList (trimChars gap) ∈ tagsOf expression := by
    rw [mem_tagsOf, String.toList_ofList]
    exact ⟨by simpa using hsome, List.mem_map_of_mem hgap⟩
  rw [h] at hmem
  cases hmem

/-! ## Tags put together -/

def separator : List Char := [' ', '|', '|', ' ']

/-- Tags with double bars between them come apart into these tags. -/
theorem pieces_of_tags {tag : String} {tags : List String} (h : ∀ t ∈ tag :: tags, IsTag t) :
    ∃ pieces, Pieces (separator.intercalate ((tag :: tags).map String.toList)) pieces ∧
      pieces.map trimChars = (tag :: tags).map String.toList := by
  have hspace : ∀ c ∈ [' '], isBlank c = true := List.all_eq_true.mp (by decide)
  have htag := h tag List.mem_cons_self
  have hcore : trimChars tag.toList = tag.toList := htag.trimmed.trimChars_eq
  induction tags generalizing tag with
  | nil =>
    refine ⟨[tag.toList], ?_, by simp [hcore]⟩
    simpa using Pieces.last htag.unbarred
  | cons next tags ih =>
    have hnext := h next (by simp)
    obtain ⟨pieces, hpieces, htrimmed⟩ := ih (fun t ht => h t (List.mem_cons_of_mem tag ht)) hnext
      hnext.trimmed.trimChars_eq
    obtain ⟨pieces', hpieces', htrimmed'⟩ := hpieces.blanks_before hspace
    refine ⟨(tag.toList ++ [' ']) :: pieces', ?_, ?_⟩
    · have hcut : Pieces (tag.toList ++ [' '] ++ bars ++ ([' '] ++
          separator.intercalate ((next :: tags).map String.toList)))
          ((tag.toList ++ [' ']) :: pieces') := by
        refine .cut ?_ hpieces'
        rw [List.append_assoc, List.singleton_append, barred_append_cons (by decide)]
        simp [htag.unbarred, show ¬ Barred ['|'] by decide]
      simpa [separator, bars] using hcut
    · rw [List.map_cons, htrimmed', htrimmed, trimChars_blanks_behind hspace, hcore]
      rfl

theorem mem_tagsOf_joined {tags : List String} (h : ∀ t ∈ tags, IsTag t) (hsome : tags ≠ [])
    {tag : String} : tag ∈ tagsOf (" || ".intercalate tags) ↔ tag ∈ tags := by
  cases tags with
  | nil => exact absurd rfl hsome
  | cons first rest =>
    obtain ⟨pieces, hpieces, htrimmed⟩ := pieces_of_tags h
    have hseparator : " || ".toList = separator := by decide
    have hmem : tag.toList ∈ (first :: rest).map String.toList ↔ tag ∈ first :: rest := by
      simp only [List.mem_map, String.toList_inj, exists_eq_right]
    rw [mem_tagsOf, String.toList_intercalate, hseparator, ← pieces_iff.mp hpieces, htrimmed, hmem]
    constructor
    · exact fun htag => htag.2
    · exact fun htag => ⟨(h tag htag).nonempty, htag⟩

/-! ## Subscriptions of expressions -/

namespace Subscription

variable {topic expression : String} {version : UInt64}

theorem wantsAll_ofTags_iff : (ofTags topic expression version).wantsAll = true ↔
    trimText expression = "" ∨ trimText expression = everything := by
  by_cases h : trimText expression = ""
  · simp [wantsAll, ofTags, h]
  · simp [wantsAll, ofTags, h]

theorem tags_ofTags (h : (ofTags topic expression version).wantsAll = false) :
    (ofTags topic expression version).tags = SortedSet.ofList (tagsOf (trimText expression)) := by
  rw [← Bool.not_eq_true, wantsAll_ofTags_iff, not_or] at h
  simp [ofTags, h.1, h.2]

theorem mem_tags_ofTags (h : (ofTags topic expression version).wantsAll = false) {tag : String} :
    tag ∈ (ofTags topic expression version).tags.toList ↔ tag ∈ tagsOf expression := by
  rw [tags_ofTags h, SortedSet.mem_toList_ofList, mem_tagsOf_trimText]

theorem tags_ofTags_of_wantsAll (h : (ofTags topic expression version).wantsAll = true) :
    (ofTags topic expression version).tags = Table.empty ∧
      (ofTags topic expression version).codes = Table.empty := by
  rw [wantsAll_ofTags_iff] at h
  rcases h with h | h <;> simp [ofTags, h, SortedSet.ofList]

/-- The codes are those of the tags. -/
theorem mem_codes_ofTags {code : Int32} : code ∈ (ofTags topic expression version).codes.toList ↔
    ∃ tag ∈ (ofTags topic expression version).tags.toList, tagCode tag = code := by
  simp only [ofTags, SortedSet.mem_toList_ofList, List.mem_map]

theorem trims_iff_trimText {core : String} :
    Trims expression.toList core.toList ↔ trimText expression = core := by
  rw [trims_iff, trimText, ← String.toList_inj, String.toList_ofList]

/-- What a subscription makes of an expression. -/
structure Takes (s : Subscription) (expression : String) : Prop where
  /-- it wants everything when the expression is empty or a star, but for blanks -/
  all : s.wantsAll = true ↔ Trims expression.toList [] ∨ Trims expression.toList ['*']
  none_of_all : s.wantsAll = true → s.tags = Table.empty ∧ s.codes = Table.empty
  /-- else its tags are the pieces of the expression, trimmed, which are not empty then -/
  tags : s.wantsAll = false → ∃ pieces, Pieces expression.toList pieces ∧
    ∀ tag, tag ∈ s.tags.toList ↔ tag ≠ "" ∧ ∃ piece ∈ pieces, Trims piece tag.toList
  gaps : s.wantsAll = false → s.tags.toList = [] →
    ∃ gaps, (∀ gap ∈ gaps, ∀ c ∈ gap, isBlank c = true) ∧
      expression.toList = bars.intercalate gaps
  isTag : ∀ tag ∈ s.tags.toList, IsTag tag
  codes : ∀ code, code ∈ s.codes.toList ↔ ∃ tag ∈ s.tags.toList, tagCode tag = code

theorem takes_ofTags (topic expression : String) (version : UInt64) :
    (ofTags topic expression version).Takes expression := by
  have hstar : everything.toList = ['*'] := by decide
  refine ⟨?_, tags_ofTags_of_wantsAll, ?_, ?_, ?_, fun code => mem_codes_ofTags⟩
  · rw [wantsAll_ofTags_iff, ← trims_iff_trimText, ← trims_iff_trimText, hstar]
    rfl
  · intro h
    refine ⟨splitBars expression.toList, pieces_splitBars _, fun tag => ?_⟩
    simp only [mem_tags_ofTags h, mem_tagsOf, List.mem_map, trims_iff]
  · intro h hnone
    apply gaps_of_tagsOf_nil
    rw [List.eq_nil_iff_forall_not_mem]
    intro tag htag
    rw [← mem_tags_ofTags h, hnone] at htag
    cases htag
  · intro tag htag
    cases h : (ofTags topic expression version).wantsAll with
    | true =>
      rw [(tags_ofTags_of_wantsAll h).1] at htag
      cases htag
    | false => exact isTag_of_mem ((mem_tags_ofTags h).mp htag)

/-- Tags that are put together want everything only when there are none, or no others than a
star. -/
theorem wantsAll_ofTags_joined {tags : List String} (h : ∀ t ∈ tags, IsTag t) (hsome : tags ≠ [])
    (hall : (ofTags topic (" || ".intercalate tags) version).wantsAll = true) {tag : String} :
    tag ∈ tags ↔ tag = "*" := by
  have hempty : tagsOf "" = [] := by decide
  have hstar : tagsOf everything = ["*"] := by decide
  rw [← mem_tagsOf_joined h hsome, ← mem_tagsOf_trimText]
  rcases wantsAll_ofTags_iff.mp hall with hnone | heverything
  · obtain ⟨first, hfirst⟩ := List.exists_mem_of_ne_nil tags hsome
    rw [← mem_tagsOf_joined h hsome, ← mem_tagsOf_trimText, hnone, hempty] at hfirst
    cases hfirst
  · rw [heverything, hstar, List.mem_singleton]

/-- A subscription takes an expression at its word: it wants everything or what the pieces of the
expression say. And any tags that are put together, in whatever order and however often, are the
tags of their expression, unless there are none or no others than a star. -/
theorem an_expression_means_its_tags (topic expression : String) (version : UInt64) :
    (ofTags topic expression version).Takes expression ∧
    ∀ (wanted : SortedSet String) (tags : List String),
      (∀ tag, tag ∈ tags ↔ tag ∈ wanted.toList) → (∀ tag ∈ wanted.toList, IsTag tag) →
      wanted ≠ SortedSet.ofList [] → wanted ≠ SortedSet.ofList ["*"] →
      (ofTags topic (" || ".intercalate tags) version).tags = wanted := by
  refine ⟨takes_ofTags topic expression version, ?_⟩
  intro wanted tags hwanted htags hsome hstar
  have hnotag : tags ≠ [] := by
    rintro rfl
    apply hsome
    apply SortedSet.ext_toList
    intro tag
    rw [← hwanted, SortedSet.mem_toList_ofList]
  have htags : ∀ tag ∈ tags, IsTag tag := fun tag htag => htags tag ((hwanted tag).mp htag)
  cases hall : (ofTags topic (" || ".intercalate tags) version).wantsAll with
  | true =>
    refine absurd (SortedSet.ext_toList fun tag => ?_) hstar
    rw [← hwanted, wantsAll_ofTags_joined htags hnotag hall, SortedSet.mem_toList_ofList,
      List.mem_singleton]
  | false =>
    apply SortedSet.ext_toList
    intro tag
    rw [mem_tags_ofTags hall, mem_tagsOf_joined htags hnotag, hwanted]

/-- Tags that begin or end with a bar come apart again, and so does a star among others. -/
theorem odd_tags_come_apart : (ofTags "topic" "|b || * || a| || *" 1).tags =
    SortedSet.ofList ["a|", "|b", "*"] := by
  have hjoined : " || ".intercalate ["|b", "*", "a|", "*"] = "|b || * || a| || *" := by decide
  rw [← hjoined]
  refine (an_expression_means_its_tags "topic" "" 1).2 _ _ ?_ ?_ ?_ ?_
  · intro tag
    simp only [SortedSet.mem_toList_ofList, List.mem_cons, List.not_mem_nil, or_false]
    grind
  · decide
  · decide
  · decide

end Subscription

end ConsumerGroups
