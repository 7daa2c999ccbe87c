import GridMq.Tools.StringLists

set_option autoImplicit false

/-!
# Lists with several formatted options

The second formatted option of a list has `realloc` take the items for the strings to be
released.  From then on the two arrays are one, or one of them is gone, and this is what
`grid_free_options` comes upon.
-/

namespace GridMq.Tools

open GridMq.Library

variable {options : List ListOption} {ctx ctx' : ParseContext} {opt : ListOption} {str : Str}
  {arrays arrays' : Arrays} {array source : Option Nat} {num num' addr offset : Nat}

/-! ## What a step does to the memory -/

theorem storeLast_later (h : storeLast arrays addr num str = some arrays') :
    arrays.Later arrays' := by
  obtain ⟨items, -, h⟩ := Option.bind_eq_some_iff.mp h
  split at h
  · exact Heap.later_write h
  · cases h

theorem enlarge_cases (h : enlarge arrays array source num = some ((arrays', addr), num')) :
    arrays.Later arrays' ∧ addr < arrays'.next ∧
      ∀ a, array ≠ none → source = some a →
        arrays.blocks a ≠ none ∧
          (addr = a ∨ (arrays'.blocks a = none ∧ a < arrays.next ∧ arrays.next ≤ addr)) := by
  unfold enlarge at h
  split at h
  · cases h
    exact ⟨Heap.later_malloc .., Nat.lt_succ_self _, fun _ hne => absurd rfl hne⟩
  · cases h
    refine ⟨Heap.later_malloc .., Nat.lt_succ_self _, ?_⟩
    intro a _ hsource
    cases hsource
  · rename_i old
    obtain ⟨⟨heap, a'⟩, hrealloc, heq⟩ := Option.map_eq_some_iff.mp h
    cases heq
    obtain ⟨hlater, hlt, hcases⟩ := Heap.realloc_cases hrealloc
    refine ⟨hlater, hlt, ?_⟩
    intro a _ hsource
    cases hsource
    refine ⟨?_, hcases⟩
    intro hnone
    rw [Heap.realloc_gone hnone] at hrealloc
    cases hrealloc

/-- An array grows: nothing that is gone comes back, and what `realloc` works on is there, and
stays where it is or goes. -/
theorem grow_cases (h : grow arrays array source num str = some (arrays', addr, num')) :
    arrays.Later arrays' ∧ addr < arrays'.next ∧
      ∀ a, array ≠ none → source = some a →
        arrays.blocks a ≠ none ∧
          (addr = a ∨ (arrays'.blocks a = none ∧ a < arrays.next)) := by
  obtain ⟨⟨⟨heap, a'⟩, n⟩, henlarge, h⟩ := Option.bind_eq_some_iff.mp h
  obtain ⟨heap', hstore, h⟩ := Option.bind_eq_some_iff.mp h
  cases h
  obtain ⟨hlater, hlt, hsource⟩ := enlarge_cases henlarge
  have hlater' := storeLast_later hstore
  refine ⟨hlater.trans hlater', Nat.lt_of_lt_of_le hlt hlater'.next_le, ?_⟩
  intro a hne hs
  obtain ⟨halive, hcases⟩ := hsource a hne hs
  refine ⟨halive, ?_⟩
  rcases hcases with heq | ⟨hgone, ha, -⟩
  · exact Or.inl heq
  · exact Or.inr ⟨hlater'.gone a (Nat.lt_of_lt_of_le ha hlater.next_le) hgone, ha⟩

theorem appendString_cases (h : ctx.appendString opt str = some ctx') :
    ∃ items num, ctx'.target = Function.update ctx.target opt.offset
        { ctx.target opt.offset with items := some items, num := num } ∧
      ctx.arrays.Later ctx'.arrays ∧ items < ctx'.arrays.next ∧
      ∀ a, (ctx.target opt.offset).items = some a →
        ctx.arrays.blocks a ≠ none ∧
          (items = a ∨ (ctx'.arrays.blocks a = none ∧ a < ctx.arrays.next)) := by
  obtain ⟨⟨heap, items, num⟩, hgrow, h⟩ := Option.bind_eq_some_iff.mp h
  cases h
  obtain ⟨hlater, hlt, hsource⟩ := grow_cases hgrow
  refine ⟨items, num, rfl, hlater, hlt, ?_⟩
  intro a ha
  exact hsource a (by rw [ha]; exact Option.some_ne_none a) ha

theorem appendStringToFree_cases (h : ctx.appendStringToFree opt str = some ctx') :
    ∃ toFree num, ctx'.target = Function.update ctx.target opt.offset
        { ctx.target opt.offset with toFree := some toFree, toFreeNum := num } ∧
      ctx.arrays.Later ctx'.arrays ∧ toFree < ctx'.arrays.next ∧
      ((ctx.target opt.offset).toFree ≠ none → ∀ a, (ctx.target opt.offset).items = some a →
        toFree = a ∨ (ctx'.arrays.blocks a = none ∧ a < ctx.arrays.next)) := by
  obtain ⟨⟨heap, toFree, num⟩, hgrow, h⟩ := Option.bind_eq_some_iff.mp h
  cases h
  obtain ⟨hlater, hlt, hsource⟩ := grow_cases hgrow
  exact ⟨toFree, num, rfl, hlater, hlt, fun hne a ha => (hsource a hne ha).2⟩

/-! ## A list that is broken -/

/-- The arrays of a list were given out. -/
def Placed (ctx : ParseContext) (offset : Nat) : Prop :=
  (∀ a, (ctx.target offset).items = some a → a < ctx.arrays.next) ∧
    ∀ b, (ctx.target offset).toFree = some b → b < ctx.arrays.next

/-- The arrays of a list are one, or one of them is gone. -/
def Broken (ctx : ParseContext) (offset : Nat) : Prop :=
  ∃ a b, (ctx.target offset).items = some a ∧ (ctx.target offset).toFree = some b ∧
    (ctx.arrays.blocks a = none ∨ ctx.arrays.blocks b = none ∨ a = b)

/-- There is an array of strings to be released. -/
def HasToFree (ctx : ParseContext) (offset : Nat) : Prop := (ctx.target offset).toFree ≠ none

/-- A step for another list. -/
theorem Placed.other (h : Placed ctx offset) (htarget : ctx'.target offset = ctx.target offset)
    (hlater : ctx.arrays.Later ctx'.arrays) : Placed ctx' offset := by
  unfold Placed
  rw [htarget]
  exact ⟨fun a ha => Nat.lt_of_lt_of_le (h.1 a ha) hlater.next_le,
    fun b hb => Nat.lt_of_lt_of_le (h.2 b hb) hlater.next_le⟩

theorem Broken.other (h : Broken ctx offset) (hplaced : Placed ctx offset)
    (htarget : ctx'.target offset = ctx.target offset)
    (hlater : ctx.arrays.Later ctx'.arrays) : Broken ctx' offset := by
  obtain ⟨a, b, ha, hb, hbad⟩ := h
  refine ⟨a, b, by rw [htarget, ha], by rw [htarget, hb], ?_⟩
  rcases hbad with hgone | hgone | heq
  · exact Or.inl (hlater.gone a (hplaced.1 a ha) hgone)
  · exact Or.inr (Or.inl (hlater.gone b (hplaced.2 b hb) hgone))
  · exact Or.inr (Or.inr heq)

theorem placed_appendString (h : ctx.appendString opt str = some ctx')
    (hplaced : Placed ctx offset) : Placed ctx' offset := by
  obtain ⟨items, num, htarget, hlater, hlt, -⟩ := appendString_cases h
  by_cases ho : offset = opt.offset
  · subst ho
    unfold Placed
    rw [htarget, Function.update_self]
    refine ⟨fun a ha => ?_, fun b hb => Nat.lt_of_lt_of_le (hplaced.2 b hb) hlater.next_le⟩
    cases ha
    exact hlt
  · exact hplaced.other (by rw [htarget, Function.update_of_ne ho]) hlater

theorem placed_appendStringToFree (h : ctx.appendStringToFree opt str = some ctx')
    (hplaced : Placed ctx offset) : Placed ctx' offset := by
  obtain ⟨toFree, num, htarget, hlater, hlt, -⟩ := appendStringToFree_cases h
  by_cases ho : offset = opt.offset
  · subst ho
    unfold Placed
    rw [htarget, Function.update_self]
    refine ⟨fun a ha => Nat.lt_of_lt_of_le (hplaced.1 a ha) hlater.next_le, fun b hb => ?_⟩
    cases hb
    exact hlt
  · exact hplaced.other (by rw [htarget, Function.update_of_ne ho]) hlater

theorem hasToFree_appendString (h : ctx.appendString opt str = some ctx')
    (hfree : HasToFree ctx offset) : HasToFree ctx' offset := by
  obtain ⟨items, num, htarget, -⟩ := appendString_cases h
  unfold HasToFree
  rw [htarget]
  by_cases ho : offset = opt.offset
  · subst ho
    rw [Function.update_self]
    exact hfree
  · rw [Function.update_of_ne ho]
    exact hfree

theorem hasToFree_appendStringToFree (h : ctx.appendStringToFree opt str = some ctx')
    (hfree : HasToFree ctx offset ∨ offset = opt.offset) : HasToFree ctx' offset := by
  obtain ⟨toFree, num, htarget, -⟩ := appendStringToFree_cases h
  unfold HasToFree
  rw [htarget]
  by_cases ho : offset = opt.offset
  · rw [ho, Function.update_self]
    exact Option.some_ne_none toFree
  · rw [Function.update_of_ne ho]
    exact hfree.resolve_right ho

theorem broken_appendString (h : ctx.appendString opt str = some ctx')
    (hplaced : Placed ctx offset) (hbroken : Broken ctx offset) : Broken ctx' offset := by
  obtain ⟨items, num, htarget, hlater, -, hsource⟩ := appendString_cases h
  by_cases ho : offset = opt.offset
  · subst ho
    obtain ⟨a, b, ha, hb, hbad⟩ := hbroken
    obtain ⟨halive, hmoved⟩ := hsource a ha
    refine ⟨items, b, by rw [htarget, Function.update_self],
      by rw [htarget, Function.update_self, ← hb], ?_⟩
    rcases hbad with hgone | hgone | heq
    · exact absurd hgone halive
    · exact Or.inr (Or.inl (hlater.gone b (hplaced.2 b hb) hgone))
    · rcases hmoved with hsame | ⟨hgone, -⟩
      · exact Or.inr (Or.inr (hsame.trans heq))
      · exact Or.inr (Or.inl (heq ▸ hgone))
  · exact hbroken.other hplaced (by rw [htarget, Function.update_of_ne ho]) hlater

/-- A further string to be released breaks the list. -/
theorem broken_appendStringToFree (h : ctx.appendStringToFree opt str = some ctx')
    (hplaced : Placed ctx offset)
    (hbroken : Broken ctx offset ∨ (offset = opt.offset ∧ HasToFree ctx offset ∧
      ∃ a, (ctx.target offset).items = some a)) : Broken ctx' offset := by
  obtain ⟨toFree, num, htarget, hlater, -, hsource⟩ := appendStringToFree_cases h
  by_cases ho : offset = opt.offset
  · subst ho
    have hhas : HasToFree ctx opt.offset ∧ ∃ a, (ctx.target opt.offset).items = some a := by
      rcases hbroken with ⟨a, b, ha, hb, -⟩ | ⟨-, hfree, hitems⟩
      · exact ⟨by rw [HasToFree, hb]; exact Option.some_ne_none b, a, ha⟩
      · exact ⟨hfree, hitems⟩
    obtain ⟨hfree, a, ha⟩ := hhas
    refine ⟨a, toFree, by rw [htarget, Function.update_self]; exact ha,
      by rw [htarget, Function.update_self], ?_⟩
    rcases hsource hfree a ha with heq | ⟨hgone, -⟩
    · exact Or.inr (Or.inr heq.symm)
    · exact Or.inl hgone
  · rcases hbroken with hb | ⟨heq, -⟩
    · exact hb.other hplaced (by rw [htarget, Function.update_of_ne ho]) hlater
    · exact absurd heq ho

/-! ## Runs -/

/-- The option is formatted, and for this list. -/
def FormattedFor (occ : Occurrence options) (offset : Nat) : Prop :=
  occ.opt.offset = offset ∧ occ.opt.pointer.isSome = true

/-- What one option does to the list: it stays broken, and the second formatted one breaks it. -/
theorem processOption_broken {occ : Occurrence options}
    (h : ctx.processOption options occ = some ctx') (hplaced : Placed ctx offset) :
    Placed ctx' offset ∧ (HasToFree ctx offset ∨ FormattedFor occ offset → HasToFree ctx' offset) ∧
      (Broken ctx offset ∨ (HasToFree ctx offset ∧ FormattedFor occ offset) →
        Broken ctx' offset) := by
  unfold ParseContext.processOption at h
  split at h
  · rename_i hpointer
    have hnot : ¬FormattedFor occ offset := by
      intro hf
      rw [FormattedFor, hpointer] at hf
      cases hf.2
    refine ⟨placed_appendString h hplaced, ?_, ?_⟩
    · intro hfree
      exact hasToFree_appendString h (hfree.resolve_right hnot)
    · intro hbroken
      rcases hbroken with hb | ⟨-, hf⟩
      · exact broken_appendString h hplaced hb
      · exact absurd hf hnot
  · rename_i before after hpointer
    simp only at h
    split at h
    · obtain ⟨mid, hstring, hfree⟩ := Option.bind_eq_some_iff.mp h
      have hplaced' : Placed mid offset := placed_appendString hstring hplaced
      refine ⟨placed_appendStringToFree hfree hplaced', ?_, ?_⟩
      · intro hhas
        refine hasToFree_appendStringToFree hfree ?_
        rcases hhas with hhas | ⟨heq, -⟩
        · exact Or.inl (hasToFree_appendString hstring hhas)
        · exact Or.inr heq.symm
      · intro hbroken
        refine broken_appendStringToFree hfree hplaced' ?_
        rcases hbroken with hb | ⟨hhas, hf⟩
        · exact Or.inl (broken_appendString hstring hplaced hb)
        · refine Or.inr ⟨hf.1.symm, hasToFree_appendString hstring hhas, ?_⟩
          obtain ⟨items, num, htarget, -⟩ := appendString_cases hstring
          refine ⟨items, ?_⟩
          rw [htarget, hf.1, Function.update_self]
    · cases h

theorem formattedFor_cons (occ : Occurrence options) (occs : List (Occurrence options))
    (offset : Nat) :
    (FormattedFor occ offset ∧ formattedFor (occ :: occs) offset = formattedFor occs offset + 1) ∨
      (¬FormattedFor occ offset ∧ formattedFor (occ :: occs) offset = formattedFor occs offset) := by
  by_cases hf : FormattedFor occ offset
  · refine Or.inl ⟨hf, ?_⟩
    rw [formattedFor, List.countP_cons_of_pos]
    · rfl
    · simp [hf.1, hf.2]
  · refine Or.inr ⟨hf, ?_⟩
    rw [formattedFor, List.countP_cons_of_neg]
    · rfl
    · intro htrue
      simp only [Bool.and_eq_true, decide_eq_true_eq] at htrue
      exact hf htrue

/-- After two formatted options for it a list is broken. -/
theorem parseOptions_broken (occs : List (Occurrence options)) :
    ∀ ctx ctx', ParseContext.parseOptions options ctx occs = some ctx' → Placed ctx offset →
      (Broken ctx offset ∨ (HasToFree ctx offset ∧ 1 ≤ formattedFor occs offset) ∨
        2 ≤ formattedFor occs offset) →
      Placed ctx' offset ∧ Broken ctx' offset := by
  induction occs with
  | nil =>
    intro ctx ctx' h hplaced hbroken
    cases h
    refine ⟨hplaced, ?_⟩
    rcases hbroken with hb | ⟨-, hcount⟩ | hcount
    · exact hb
    · simp [formattedFor] at hcount
    · simp [formattedFor] at hcount
  | cons occ occs ih =>
    intro ctx ctx' h hplaced hbroken
    rw [ParseContext.parseOptions, List.foldlM_cons] at h
    obtain ⟨mid, hstep, hrest⟩ := Option.bind_eq_some_iff.mp h
    obtain ⟨hplaced', hfree, hbreak⟩ := processOption_broken hstep hplaced
    refine ih mid ctx' hrest hplaced' ?_
    rcases formattedFor_cons occ occs offset with ⟨hf, hcount⟩ | ⟨hf, hcount⟩
    · rcases hbroken with hb | ⟨hhas, -⟩ | htwo
      · exact Or.inl (hbreak (Or.inl hb))
      · exact Or.inl (hbreak (Or.inr ⟨hhas, hf⟩))
      · exact Or.inr (Or.inl ⟨hfree (Or.inr hf), by omega⟩)
    · rcases hbroken with hb | ⟨hhas, hone⟩ | htwo
      · exact Or.inl (hbreak (Or.inl hb))
      · exact Or.inr (Or.inl ⟨hfree (Or.inl hhas), by omega⟩)
      · exact Or.inr (Or.inr (by omega))

/-! ## The release of a broken list -/

theorem freeList_broken (h : Broken ctx opt.offset) : ctx.freeList opt = none := by
  obtain ⟨a, b, ha, hb, hbad⟩ := h
  rw [Option.eq_none_iff_forall_ne_some]
  intro ctx' hfree
  simp only [ParseContext.freeList, freeArray, ha, hb] at hfree
  obtain ⟨heap, hitems, hfree⟩ := Option.bind_eq_some_iff.mp hfree
  obtain ⟨texts, -, hfree⟩ := Option.bind_eq_some_iff.mp hfree
  obtain ⟨heap', htoFree, -⟩ := Option.bind_eq_some_iff.mp hfree
  have hgone : heap.blocks a = none := by
    unfold Heap.free at hitems
    split at hitems
    · cases hitems
      exact Function.update_self ..
    · cases hitems
  rcases hbad with hdead | hdead | heq
  · rw [Heap.free_gone hdead] at hitems
    cases hitems
  · have hdead' : heap.blocks b = none := by
      unfold Heap.free at hitems
      split at hitems
      · cases hitems
        by_cases hba : b = a
        · rw [hba]
          exact Function.update_self ..
        · rw [← hdead]
          exact Function.update_of_ne hba ..
      · cases hitems
    rw [Heap.free_gone hdead'] at htoFree
    cases htoFree
  · rw [← heq, Heap.free_gone hgone] at htoFree
    cases htoFree

/-- The release of another list. -/
theorem freeList_other (h : ctx.freeList opt = some ctx') (ho : offset ≠ opt.offset) :
    ctx'.target offset = ctx.target offset ∧ ctx.arrays.Later ctx'.arrays := by
  obtain ⟨heap, hitems, h⟩ := Option.bind_eq_some_iff.mp h
  have hlater : ctx.arrays.Later heap := by
    unfold freeArray at hitems
    split at hitems
    · cases hitems
      exact Heap.Later.refl _
    · exact Heap.later_free hitems
  split at h
  · cases h
    exact ⟨Function.update_of_ne ho .., hlater⟩
  · obtain ⟨texts, -, h⟩ := Option.bind_eq_some_iff.mp h
    obtain ⟨heap', hfree, h⟩ := Option.bind_eq_some_iff.mp h
    cases h
    exact ⟨Function.update_of_ne ho .., hlater.trans (Heap.later_free hfree)⟩

theorem freeOptions_broken (table : List ListOption) :
    ∀ ctx, Placed ctx offset → Broken ctx offset → (∃ opt ∈ table, opt.offset = offset) →
      ParseContext.freeOptions table ctx = none := by
  induction table with
  | nil =>
    intro ctx _ _ hmem
    obtain ⟨opt, hopt, -⟩ := hmem
    cases hopt
  | cons opt table ih =>
    intro ctx hplaced hbroken hmem
    rw [ParseContext.freeOptions, List.foldlM_cons]
    by_cases ho : offset = opt.offset
    · rw [freeList_broken (ho ▸ hbroken)]
      rfl
    · cases hfree : ctx.freeList opt with
      | none => rfl
      | some ctx' =>
        obtain ⟨htarget, hlater⟩ := freeList_other hfree ho
        refine ih ctx' (hplaced.other htarget hlater) (hbroken.other hplaced htarget hlater) ?_
        obtain ⟨o, hmem, heq⟩ := hmem
        rcases List.mem_cons.mp hmem with rfl | hmem
        · exact absurd heq.symm ho
        · exact ⟨o, hmem, heq⟩

/-- Two formatted options for one list are not released. -/
theorem not_appends_of_two {texts : Heap (List UInt8)} {occs : List (Occurrence options)}
    (htwo : 2 ≤ formattedFor occs offset) : ¬AppendsRight texts arrays occs := by
  intro h
  obtain ⟨ctx, hparse, -, ctx', hfree, -⟩ := h
  have hplaced : Placed { texts := texts, arrays := arrays } offset := by
    refine ⟨fun a ha => ?_, fun b hb => ?_⟩
    · cases ha
    · cases hb
  obtain ⟨hplaced', hbroken⟩ :=
    parseOptions_broken occs _ ctx hparse hplaced (Or.inr (Or.inr htwo))
  have hmem : ∃ opt ∈ options, opt.offset = offset := by
    have hpos : 0 < formattedFor occs offset := by omega
    obtain ⟨occ, -, hocc⟩ := List.countP_pos_iff.mp hpos
    simp only [Bool.and_eq_true, decide_eq_true_eq] at hocc
    exact ⟨occ.opt, List.get_mem .., hocc.1⟩
  rw [freeOptions_broken options ctx hplaced' hbroken hmem] at hfree
  cases hfree

end GridMq.Tools
