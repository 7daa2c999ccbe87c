import GridMq.Tools.StringListsRuns

set_option autoImplicit false

/-!
# Lists with one formatted option at most

Each list has a part of the memory of its own: its items, and where one of them was formatted
that string and the array it is in.
-/

namespace GridMq.Tools

open GridMq.Library

variable {options : List ListOption} {ctx ctx' : ParseContext} {opt : ListOption} {str : Str}
  {arrays arrays' : Arrays} {array source : Option Nat} {num addr offset : Nat}
  {strs : List Str} {owned : Option Nat}
  {arrayBase : Nat → Option (List (Option Str))}
  {arrayParts : Nat → Nat → Option (List (Option Str))}
  {textBase : Nat → Option (List UInt8)} {textParts : Nat → Nat → Option (List UInt8)}

/-! ## An array grows -/

/-- A part in which an array has a new content at an address. -/
def movedTo (part : Nat → Option (List (Option Str))) (array : Option Nat) (addr : Nat)
    (items : List (Option Str)) : Nat → Option (List (Option Str)) :=
  fun x => if x = addr then some items else if array = some x then none else part x

theorem enlarge_ok (h : Heap.Shares arrayBase arrayParts arrays.blocks)
    (hnone : array = none → strs = [])
    (hsome : ∀ a, array = some a → source = some a ∧ num = strs.length ∧
      arrayParts offset a = some (strs.map some)) :
    ∃ arrays' addr, enlarge arrays array source num = some ((arrays', addr), strs.length + 1) ∧
      (array = some addr ∨ arrayParts offset addr = none) ∧
      Heap.Shares arrayBase (Function.update arrayParts offset
        (movedTo (arrayParts offset) array addr (strs.map some ++ [none]))) arrays'.blocks := by
  cases array with
  | none =>
    have hempty := hnone rfl
    subst hempty
    refine ⟨(arrays.malloc [none]).1, arrays.next, rfl, Or.inr ?_, ?_⟩
    · by_contra hne
      have hblock := h.part_le offset _ hne
      rw [arrays.fresh _ (Nat.le_refl _)] at hblock
      exact hne hblock.symm
    · have hnew := h.malloc offset [none]
      have heq : Function.update (arrayParts offset) arrays.next (some [none]) =
          movedTo (arrayParts offset) none arrays.next [none] := by
        funext x
        simp [movedTo, Function.update_apply]
      rw [heq] at hnew
      exact hnew
  | some a =>
    obtain ⟨hsource, hnum, hpart⟩ := hsome a rfl
    obtain ⟨heap, addr, hrealloc, hwhere, hshares⟩ :=
      h.realloc hpart (resized (strs.length + 1))
    have hresized : resized (strs.length + 1) (strs.map some) = strs.map some ++ [none] := by
      rw [resized, List.take_of_length_le (by simp)]
      simp
    refine ⟨heap, addr, ?_, ?_, ?_⟩
    · subst hsource hnum
      simp only [enlarge, hrealloc, Option.map_some]
    · rcases hwhere with heq | hfree
      · exact Or.inl (by rw [heq])
      · exact Or.inr hfree
    · have heq : Function.update (Function.update (arrayParts offset) a none) addr
          (some (resized (strs.length + 1) (strs.map some))) =
          movedTo (arrayParts offset) (some a) addr (strs.map some ++ [none]) := by
        funext x
        simp only [movedTo, Function.update_apply, hresized, Option.some.injEq, eq_comm (a := a)]
      rw [heq] at hshares
      exact hshares

theorem storeLast_ok (h : Heap.Shares arrayBase arrayParts arrays.blocks)
    (hpart : arrayParts offset addr = some (strs.map some ++ [none])) (str : Str) :
    ∃ arrays', storeLast arrays addr (strs.length + 1) str = some arrays' ∧
      Heap.Shares arrayBase (Function.update arrayParts offset
        (Function.update (arrayParts offset) addr (some ((strs ++ [str]).map some))))
        arrays'.blocks := by
  have hblock : arrays.blocks addr = some (strs.map some ++ [none]) := by
    rw [← hpart]
    exact h.part_le offset addr (by simp [hpart])
  have hset : (strs.map some ++ [none]).set strs.length (some str) = (strs ++ [str]).map some := by
    rw [List.set_append_right _ _ (by simp)]
    simp
  obtain ⟨arrays', hwrite, hshares⟩ := h.write hpart ((strs ++ [str]).map some)
  refine ⟨arrays', ?_, hshares⟩
  simp only [storeLast, hblock, Option.bind_eq_bind, Option.bind_some, Nat.add_sub_cancel, hset]
  rw [if_pos (by simp)]
  exact hwrite

theorem grow_ok (h : Heap.Shares arrayBase arrayParts arrays.blocks)
    (hnone : array = none → strs = [])
    (hsome : ∀ a, array = some a → source = some a ∧ num = strs.length ∧
      arrayParts offset a = some (strs.map some)) (str : Str) :
    ∃ arrays' addr, grow arrays array source num str = some (arrays', addr, strs.length + 1) ∧
      (array = some addr ∨ arrayParts offset addr = none) ∧
      Heap.Shares arrayBase (Function.update arrayParts offset
        (movedTo (arrayParts offset) array addr ((strs ++ [str]).map some))) arrays'.blocks := by
  obtain ⟨mid, addr, henlarge, hwhere, hshares⟩ := enlarge_ok h hnone hsome
  have hpart : Function.update arrayParts offset
      (movedTo (arrayParts offset) array addr (strs.map some ++ [none])) offset addr =
      some (strs.map some ++ [none]) := by
    rw [Function.update_self, movedTo, if_pos rfl]
  obtain ⟨arrays', hstore, hshares'⟩ := storeLast_ok hshares hpart str
  refine ⟨arrays', addr, ?_, hwhere, ?_⟩
  · simp only [grow, henlarge, Option.bind_eq_bind, Option.bind_some, hstore]
    rfl
  · have heq : Function.update (movedTo (arrayParts offset) array addr (strs.map some ++ [none]))
        addr (some ((strs ++ [str]).map some)) =
        movedTo (arrayParts offset) array addr ((strs ++ [str]).map some) := by
      funext x
      by_cases hx : x = addr
      · rw [hx, Function.update_self, movedTo, if_pos rfl]
      · rw [Function.update_of_ne hx, movedTo, if_neg hx, movedTo, if_neg hx]
    rw [Function.update_self, Function.update_idem, heq] at hshares'
    exact hshares'

/-! ## What a list keeps -/

/-- The arrays of a list: its strings, and the one of them that has to be released. -/
structure KeepsStrings (part : Nat → Option (List (Option Str))) (lst : StringList)
    (strs : List Str) (owned : Option Nat) : Prop where
  num : lst.num = strs.length
  items : lst.items = none ↔ strs = []
  toFree : lst.toFree = none ↔ owned = none
  toFreeNum : lst.toFree ≠ none → lst.toFreeNum = 1
  apart : ∀ a, lst.items = some a → lst.toFree ≠ some a
  part : ∀ x, part x =
    if lst.items = some x then some (strs.map some)
    else if lst.toFree = some x then some (owned.toList.map (fun s => some (.allocated s)))
    else none

/-- The bytes of a string, where `part` is the memory of its list. -/
def textIn (part : Nat → Option (List UInt8)) : Str → Option (List UInt8)
  | .argument text => some text
  | .allocated addr => part addr

/-- The strings of a list read as they should, and the one that was allocated is there. -/
structure OwnsTexts (part : Nat → Option (List UInt8)) (strs : List Str) (owned : Option Nat)
    (texts : List (List UInt8)) : Prop where
  shows : strs.map (textIn part) = texts.map some
  there : ∀ s, owned = some s → part s ≠ none
  only : ∀ x, part x ≠ none → owned = some x

theorem KeepsStrings.empty : KeepsStrings (fun _ => none) {} [] none where
  num := rfl
  items := ⟨fun _ => rfl, fun _ => rfl⟩
  toFree := ⟨fun _ => rfl, fun _ => rfl⟩
  toFreeNum := fun h => absurd rfl h
  apart := by
    intro a ha
    cases ha
  part := fun _ => rfl

theorem OwnsTexts.empty : OwnsTexts (fun _ => none) [] none [] where
  shows := rfl
  there := by
    intro s hs
    cases hs
  only := fun _ h => absurd rfl h

theorem appendString_ok (h : Heap.Shares arrayBase arrayParts ctx.arrays.blocks)
    (hkeeps : KeepsStrings (arrayParts opt.offset) (ctx.target opt.offset) strs owned)
    (str : Str) :
    ∃ ctx' lst part, ctx.appendString opt str = some ctx' ∧ ctx'.texts = ctx.texts ∧
      ctx'.target = Function.update ctx.target opt.offset lst ∧
      Heap.Shares arrayBase (Function.update arrayParts opt.offset part) ctx'.arrays.blocks ∧
      KeepsStrings part lst (strs ++ [str]) owned := by
  have hsome : ∀ a, (ctx.target opt.offset).items = some a →
      (ctx.target opt.offset).items = some a ∧
        (ctx.target opt.offset).num = strs.length ∧
        arrayParts opt.offset a = some (strs.map some) := by
    intro a ha
    refine ⟨ha, hkeeps.num, ?_⟩
    rw [hkeeps.part, if_pos ha]
  obtain ⟨arrays', addr, hgrow, hwhere, hshares⟩ :=
    grow_ok h hkeeps.items.mp hsome str
  have hapart : (ctx.target opt.offset).toFree ≠ some addr := by
    rcases hwhere with heq | hfree
    · exact hkeeps.apart addr heq
    · intro heq
      rw [hkeeps.part] at hfree
      split at hfree
      · cases hfree
      · cases hfree
  let lst : StringList :=
    { ctx.target opt.offset with items := some addr, num := strs.length + 1 }
  refine ⟨{ ctx with
      arrays := arrays', target := Function.update ctx.target opt.offset lst }, lst, _,
    ?_, rfl, rfl, hshares, ?_⟩
  · simp only [ParseContext.appendString, hgrow]
    rfl
  refine ⟨by simp [lst], ?_, hkeeps.toFree, hkeeps.toFreeNum, ?_, ?_⟩
  · simp [lst]
  · intro a ha
    cases ha
    exact hapart
  · intro x
    simp only [lst, movedTo, Option.some.injEq]
    by_cases hx : x = addr
    · rw [if_pos hx, if_pos hx.symm]
    · rw [if_neg hx, if_neg (fun heq : addr = x => hx heq.symm)]
      by_cases hitems : (ctx.target opt.offset).items = some x
      · rw [if_pos hitems, if_neg (hkeeps.apart x hitems)]
      · rw [if_neg hitems, hkeeps.part, if_neg hitems]

theorem appendStringToFree_ok (h : Heap.Shares arrayBase arrayParts ctx.arrays.blocks)
    (hkeeps : KeepsStrings (arrayParts opt.offset) (ctx.target opt.offset) strs none) (s : Nat) :
    ∃ ctx' lst part, ctx.appendStringToFree opt (.allocated s) = some ctx' ∧
      ctx'.texts = ctx.texts ∧ ctx'.target = Function.update ctx.target opt.offset lst ∧
      Heap.Shares arrayBase (Function.update arrayParts opt.offset part) ctx'.arrays.blocks ∧
      KeepsStrings part lst strs (some s) := by
  have hnone : (ctx.target opt.offset).toFree = none := hkeeps.toFree.mpr rfl
  have hgrow : ∃ arrays' addr, grow ctx.arrays none (ctx.target opt.offset).items
      (ctx.target opt.offset).toFreeNum (.allocated s) = some (arrays', addr, 1) ∧
      arrayParts opt.offset addr = none ∧
      Heap.Shares arrayBase (Function.update arrayParts opt.offset
        (movedTo (arrayParts opt.offset) none addr [some (.allocated s)])) arrays'.blocks := by
    have hother : ∀ a, (none : Option Nat) = some a →
        (ctx.target opt.offset).items = some a ∧
          (ctx.target opt.offset).toFreeNum = ([] : List Str).length ∧
          arrayParts opt.offset a = some (([] : List Str).map some) := by
      intro a ha
      cases ha
    obtain ⟨arrays', addr, hgrow, hwhere, hshares⟩ :=
      grow_ok h (fun _ => rfl) hother (.allocated s)
    refine ⟨arrays', addr, hgrow, hwhere.resolve_left ?_, hshares⟩
    intro heq
    cases heq
  obtain ⟨arrays', addr, hgrow, hfree, hshares⟩ := hgrow
  rw [← hnone] at hgrow
  have hitems : (ctx.target opt.offset).items ≠ some addr := by
    intro heq
    rw [hkeeps.part, if_pos heq] at hfree
    cases hfree
  let lst : StringList := { ctx.target opt.offset with toFree := some addr, toFreeNum := 1 }
  refine ⟨{ ctx with
      arrays := arrays', target := Function.update ctx.target opt.offset lst }, lst, _,
    ?_, rfl, rfl, hshares, ?_⟩
  · simp only [ParseContext.appendStringToFree, hgrow]
    rfl
  refine ⟨hkeeps.num, hkeeps.items, ?_, fun _ => rfl, ?_, ?_⟩
  · constructor
    · intro heq
      cases heq
    · intro heq
      cases heq
  · intro a ha heq
    cases heq
    exact hitems ha
  · intro x
    simp only [lst, movedTo, Option.some.injEq, reduceCtorEq, if_false]
    by_cases hx : x = addr
    · rw [if_pos hx, if_pos hx.symm, if_neg (hx ▸ hitems)]
      rfl
    · rw [if_neg hx, if_neg (fun heq : addr = x => hx heq.symm), hkeeps.part, hnone]
      rfl

/-! ## What the parser keeps -/

/-- Each list has its arguments, in a part of the memory that is its own. -/
def Rep (texts : Nat → Option (List UInt8)) (arrays : Nat → Option (List (Option Str)))
    (ctx : ParseContext) (occs : List (Occurrence options)) : Prop :=
  ∃ (arrayParts : Nat → Nat → Option (List (Option Str)))
    (textParts : Nat → Nat → Option (List UInt8)) (strs : Nat → List Str)
    (owned : Nat → Option Nat),
    Heap.Shares arrays arrayParts ctx.arrays.blocks ∧
    Heap.Shares texts textParts ctx.texts.blocks ∧
    ∀ offset, KeepsStrings (arrayParts offset) (ctx.target offset) (strs offset) (owned offset) ∧
      OwnsTexts (textParts offset) (strs offset) (owned offset) (argumentsFor occs offset) ∧
      (formattedFor occs offset = 0 → owned offset = none)

theorem argumentsFor_append (occs : List (Occurrence options)) (occ : Occurrence options)
    (offset : Nat) :
    argumentsFor (occs ++ [occ]) offset = argumentsFor occs offset ++
      if occ.opt.offset = offset then [occ.opt.formatted occ.2] else [] := by
  rw [argumentsFor, List.filter_append, List.map_append]
  by_cases ho : occ.opt.offset = offset
  · simp [argumentsFor, ho]
  · simp [argumentsFor, ho]

theorem formattedFor_append (occs occs' : List (Occurrence options)) (offset : Nat) :
    formattedFor (occs ++ occs') offset = formattedFor occs offset + formattedFor occs' offset :=
  List.countP_append ..

theorem OwnsTexts.plain {part : Nat → Option (List UInt8)} {texts : List (List UInt8)}
    (h : OwnsTexts part strs owned texts) (text : List UInt8) :
    OwnsTexts part (strs ++ [.argument text]) owned (texts ++ [text]) := by
  refine ⟨?_, h.there, h.only⟩
  rw [List.map_append, List.map_append, h.shows]
  rfl

/-- A string is allocated in a list that has none yet. -/
theorem OwnsTexts.format {part : Nat → Option (List UInt8)} {texts : List (List UInt8)}
    (h : OwnsTexts part strs none texts) (s : Nat) (text : List UInt8) :
    OwnsTexts (Function.update part s (some text)) (strs ++ [.allocated s]) (some s)
      (texts ++ [text]) := by
  have hno : ∀ x, part x = none := by
    intro x
    by_contra hne
    have hnone := h.only x hne
    cases hnone
  refine ⟨?_, ?_, ?_⟩
  · rw [List.map_append, List.map_append, ← h.shows]
    congr 1
    · refine List.map_congr_left ?_
      intro str hstr
      cases str with
      | argument text => rfl
      | allocated addr =>
        -- no string of the list was allocated: it would have to be shown
        have hshown : textIn part (.allocated addr) ∈ texts.map some := by
          rw [← h.shows]
          exact List.mem_map_of_mem hstr
        obtain ⟨t, -, ht⟩ := List.mem_map.mp hshown
        rw [textIn, hno addr] at ht
        cases ht
    · simp [textIn]
  · intro s' hs'
    cases hs'
    rw [Function.update_self]
    exact Option.some_ne_none text
  · intro x hx
    by_cases heq : x = s
    · rw [heq]
    · rw [Function.update_of_ne heq, hno x] at hx
      exact absurd rfl hx

variable {texts : Nat → Option (List UInt8)} {occs : List (Occurrence options)}
  {occ : Occurrence options}

theorem processOption_rep (h : Rep texts arrayBase ctx occs)
    (hone : occ.opt.pointer.isSome = true → formattedFor occs occ.opt.offset = 0) :
    ∃ ctx', ctx.processOption options occ = some ctx' ∧
      Rep texts arrayBase ctx' (occs ++ [occ]) := by
  obtain ⟨arrayParts, textParts, strs, owned, harrays, htexts, hlists⟩ := h
  obtain ⟨hkeeps, howns, hformat⟩ := hlists occ.opt.offset
  unfold ParseContext.processOption
  cases hpointer : occ.opt.pointer with
  | none =>
    obtain ⟨ctx', lst, part, happend, hsame, htarget, hshares, hkeeps'⟩ :=
      appendString_ok harrays hkeeps (.argument occ.2)
    refine ⟨ctx', happend, Function.update arrayParts occ.opt.offset part, textParts,
      Function.update strs occ.opt.offset (strs occ.opt.offset ++ [.argument occ.2]), owned,
      hshares, by rw [hsame]; exact htexts, ?_⟩
    intro offset
    rw [argumentsFor_append, formattedFor_append]
    by_cases ho : offset = occ.opt.offset
    · subst ho
      rw [if_pos rfl, htarget]
      simp only [Function.update_self]
      refine ⟨hkeeps', ?_, fun hzero => hformat (by omega)⟩
      have htext : occ.opt.formatted occ.2 = occ.2 := by
        rw [ListOption.formatted, hpointer]
      rw [htext]
      exact howns.plain occ.2
    · rw [if_neg (fun heq => ho heq.symm), List.append_nil, htarget]
      simp only [Function.update_of_ne ho]
      obtain ⟨hk, hw, hf⟩ := hlists offset
      exact ⟨hk, hw, fun hzero => hf (by omega)⟩
  | some format =>
    obtain ⟨before, after⟩ := format
    have hzero := hone (by rw [hpointer]; rfl)
    have hnone := hformat hzero
    rw [hnone] at hkeeps howns
    have hlt : (occ.opt.formatted occ.2).length <
        occ.2.length + (before.length + 2 + after.length) := by
      simp only [ListOption.formatted, hpointer, List.length_append]
      omega
    simp only [if_pos hlt]
    have htexts' := htexts.malloc occ.opt.offset (occ.opt.formatted occ.2)
    let start : ParseContext :=
      { ctx with texts := (ctx.texts.malloc (occ.opt.formatted occ.2)).1 }
    have hstart : Heap.Shares arrayBase arrayParts start.arrays.blocks := harrays
    obtain ⟨mid, lst, part, happend, hsame, htarget, hshares, hkeeps'⟩ :=
      appendString_ok hstart hkeeps (.allocated ctx.texts.next)
    have hmid : KeepsStrings (Function.update arrayParts occ.opt.offset part occ.opt.offset)
        (mid.target occ.opt.offset) (strs occ.opt.offset ++ [.allocated ctx.texts.next]) none := by
      rw [htarget, Function.update_self, Function.update_self]
      exact hkeeps'
    obtain ⟨ctx', lst', part', hfree, hsame', htarget', hshares', hkeeps''⟩ :=
      appendStringToFree_ok hshares hmid ctx.texts.next
    rw [Function.update_idem] at hshares'
    rw [htarget, Function.update_idem] at htarget'
    refine ⟨ctx', ?_, Function.update arrayParts occ.opt.offset part', _,
      Function.update strs occ.opt.offset
        (strs occ.opt.offset ++ [.allocated ctx.texts.next]),
      Function.update owned occ.opt.offset (some ctx.texts.next), hshares',
      by rw [hsame', hsame]; exact htexts', ?_⟩
    · simp only [start] at happend
      rw [happend]
      exact hfree
    · intro offset
      rw [argumentsFor_append, formattedFor_append]
      by_cases ho : offset = occ.opt.offset
      · subst ho
        rw [if_pos rfl, htarget']
        simp only [Function.update_self]
        refine ⟨hkeeps'', howns.format ctx.texts.next _, ?_⟩
        intro hcount
        rcases formattedFor_cons occ [] occ.opt.offset with ⟨-, hc⟩ | ⟨hf, -⟩
        · omega
        · exact absurd ⟨rfl, by rw [hpointer]; rfl⟩ hf
      · rw [if_neg (fun heq => ho heq.symm), List.append_nil, htarget']
        simp only [Function.update_of_ne ho]
        obtain ⟨hk, hw, hf⟩ := hlists offset
        exact ⟨hk, hw, fun hzero => hf (by omega)⟩

theorem parseOptions_rep (rest : List (Occurrence options)) :
    ∀ ctx occs, Rep texts arrayBase ctx occs →
      (∀ offset, formattedFor (occs ++ rest) offset ≤ 1) →
      ∃ ctx', ParseContext.parseOptions options ctx rest = some ctx' ∧
        Rep texts arrayBase ctx' (occs ++ rest) := by
  induction rest with
  | nil =>
    intro ctx occs h _
    refine ⟨ctx, rfl, ?_⟩
    rw [List.append_nil]
    exact h
  | cons occ rest ih =>
    intro ctx occs h hone
    have hzero : occ.opt.pointer.isSome = true → formattedFor occs occ.opt.offset = 0 := by
      intro hsome
      have hle := hone occ.opt.offset
      rw [formattedFor_append] at hle
      rcases formattedFor_cons occ rest occ.opt.offset with ⟨-, hc⟩ | ⟨hf, -⟩
      · omega
      · exact absurd ⟨rfl, hsome⟩ hf
    obtain ⟨mid, hstep, hmid⟩ := processOption_rep h hzero
    have hone' : ∀ offset, formattedFor ((occs ++ [occ]) ++ rest) offset ≤ 1 := by
      intro offset
      rw [List.append_assoc]
      exact hone offset
    obtain ⟨ctx', hrest, hrep⟩ := ih mid (occs ++ [occ]) hmid hone'
    refine ⟨ctx', ?_, ?_⟩
    · rw [ParseContext.parseOptions, List.foldlM_cons, hstep]
      exact hrest
    · rw [List.append_assoc] at hrep
      exact hrep

/-- The lists can be read, and have the right number. -/
theorem Rep.listed (h : Rep texts arrayBase ctx occs) (offset : Nat) :
    (ctx.target offset).num = (argumentsFor occs offset).length ∧
      ctx.listed offset = (argumentsFor occs offset).map some := by
  obtain ⟨arrayParts, textParts, strs, owned, harrays, htexts, hlists⟩ := h
  obtain ⟨hkeeps, howns, -⟩ := hlists offset
  have hlen : (strs offset).length = (argumentsFor occs offset).length := by
    have heq := congrArg List.length howns.shows
    rwa [List.length_map, List.length_map] at heq
  refine ⟨hkeeps.num.trans hlen, ?_⟩
  have htext : (strs offset).map (fun str => ctx.text (some str)) =
      (strs offset).map (textIn (textParts offset)) := by
    refine List.map_congr_left ?_
    intro str hstr
    cases str with
    | argument text => rfl
    | allocated addr =>
      have hshown : textIn (textParts offset) (.allocated addr) ∈
          (argumentsFor occs offset).map some := by
        rw [← howns.shows]
        exact List.mem_map_of_mem hstr
      obtain ⟨t, -, ht⟩ := List.mem_map.mp hshown
      have hne : textParts offset addr ≠ none := by
        intro hnone
        rw [textIn, hnone] at ht
        cases ht
      exact htexts.part_le offset addr hne
  unfold ParseContext.listed
  cases hitems : (ctx.target offset).items with
  | none =>
    have hempty := hkeeps.items.mp hitems
    rw [← howns.shows, hempty]
    rfl
  | some a =>
    have hpart : arrayParts offset a = some ((strs offset).map some) := by
      rw [hkeeps.part, if_pos hitems]
    have hblock : ctx.arrays.blocks a = some ((strs offset).map some) := by
      rw [harrays.part_le offset a (by simp [hpart]), hpart]
    simp only [hblock, Option.getD_some, List.map_map]
    rw [← howns.shows, ← htext]
    rfl

/-! ## The release -/

/-- What can be released: the items, and the string that was allocated with its array. -/
structure Releasable (arrayPart : Nat → Option (List (Option Str)))
    (textPart : Nat → Option (List UInt8)) (lst : StringList) : Prop where
  items : ∀ a, lst.items = some a → arrayPart a ≠ none
  toFree : ∀ b, lst.toFree = some b → lst.toFreeNum = 1 ∧ lst.items ≠ some b ∧
    ∃ s, arrayPart b = some [some (.allocated s)] ∧ textPart s ≠ none ∧
      ∀ x, textPart x ≠ none → x = s
  plain : lst.toFree = none → ∀ x, textPart x = none
  only : ∀ x, arrayPart x ≠ none → lst.items = some x ∨ lst.toFree = some x

/-- Nothing of a list is left. -/
def Clean (lst : StringList) : Prop := lst.items = none ∧ lst.toFree = none

theorem Clean.releasable {lst : StringList} (h : Clean lst) :
    Releasable (fun _ => none) (fun _ => none) lst where
  items := by
    intro a ha
    rw [h.1] at ha
    cases ha
  toFree := by
    intro b hb
    rw [h.2] at hb
    cases hb
  plain := fun _ _ => rfl
  only := fun _ hne => absurd rfl hne

theorem Releasable.none_of_clean {arrayPart : Nat → Option (List (Option Str))}
    {textPart : Nat → Option (List UInt8)} {lst : StringList}
    (h : Releasable arrayPart textPart lst) (hclean : Clean lst) :
    (∀ x, arrayPart x = none) ∧ ∀ x, textPart x = none := by
  refine ⟨?_, h.plain hclean.2⟩
  intro x
  by_contra hne
  rcases h.only x hne with hitems | hfree
  · rw [hclean.1] at hitems
    cases hitems
  · rw [hclean.2] at hfree
    cases hfree

theorem KeepsStrings.releasable {part : Nat → Option (List (Option Str))} {lst : StringList}
    {textPart : Nat → Option (List UInt8)} {shown : List (List UInt8)}
    (h : KeepsStrings part lst strs owned) (hw : OwnsTexts textPart strs owned shown) :
    Releasable part textPart lst where
  items := by
    intro a ha
    rw [h.part, if_pos ha]
    exact Option.some_ne_none _
  toFree := by
    intro b hb
    have hne : lst.toFree ≠ none := by
      rw [hb]
      exact Option.some_ne_none b
    have hitems : lst.items ≠ some b := fun heq => h.apart b heq hb
    cases hs : owned with
    | none => exact absurd (h.toFree.mpr hs) hne
    | some s =>
      refine ⟨h.toFreeNum hne, hitems, s, ?_, hw.there s hs, ?_⟩
      · rw [h.part, if_neg hitems, if_pos hb, hs]
        rfl
      · intro x hx
        have hown := hw.only x hx
        rw [hs] at hown
        exact (Option.some.inj hown).symm
  plain := by
    intro hnone x
    by_contra hne
    have hown := hw.only x hne
    rw [h.toFree.mp hnone] at hown
    cases hown
  only := by
    intro x hx
    rw [h.part] at hx
    split at hx
    · exact Or.inl ‹_›
    · split at hx
      · exact Or.inr ‹_›
      · exact absurd rfl hx

theorem freeArray_ok (h : Heap.Shares arrayBase arrayParts arrays.blocks)
    (harray : ∀ a, array = some a → arrayParts offset a ≠ none) :
    ∃ arrays', freeArray arrays array = some arrays' ∧
      Heap.Shares arrayBase (Function.update arrayParts offset
        (fun x => if array = some x then none else arrayParts offset x)) arrays'.blocks := by
  cases array with
  | none =>
    refine ⟨arrays, rfl, ?_⟩
    simp only [reduceCtorEq, if_false, Function.update_eq_self]
    exact h
  | some a =>
    obtain ⟨v, hv⟩ := Option.ne_none_iff_exists'.mp (harray a rfl)
    obtain ⟨arrays', hfree, hshares⟩ := h.free hv
    refine ⟨arrays', hfree, ?_⟩
    have heq : Function.update (arrayParts offset) a none =
        fun x => if some a = some x then none else arrayParts offset x := by
      funext x
      simp only [Function.update_apply, Option.some.injEq, eq_comm (a := a)]
    rw [heq] at hshares
    exact hshares

/-- A list is released: its parts of the memory are gone, and nothing else. -/
theorem freeList_ok (harrays : Heap.Shares arrayBase arrayParts ctx.arrays.blocks)
    (htexts : Heap.Shares textBase textParts ctx.texts.blocks)
    (hlist : Releasable (arrayParts opt.offset) (textParts opt.offset)
      (ctx.target opt.offset)) :
    ∃ ctx' lst, ctx.freeList opt = some ctx' ∧ Clean lst ∧
      ctx'.target = Function.update ctx.target opt.offset lst ∧
      Heap.Shares arrayBase (Function.update arrayParts opt.offset (fun _ => none))
        ctx'.arrays.blocks ∧
      Heap.Shares textBase (Function.update textParts opt.offset (fun _ => none))
        ctx'.texts.blocks := by
  obtain ⟨mid, hmid, hshares⟩ := freeArray_ok harrays hlist.items
  cases hfree : (ctx.target opt.offset).toFree with
  | none =>
    refine ⟨{ ctx with
        arrays := mid
        target := Function.update ctx.target opt.offset
          { ctx.target opt.offset with items := none } },
      { ctx.target opt.offset with items := none }, ?_, ⟨rfl, hfree⟩, rfl, ?_, ?_⟩
    · simp only [ParseContext.freeList, hmid, hfree]
      rfl
    · have hnone : (fun x => if (ctx.target opt.offset).items = some x then none
          else arrayParts opt.offset x) = fun _ => none := by
        funext x
        by_cases hx : (ctx.target opt.offset).items = some x
        · rw [if_pos hx]
        · rw [if_neg hx]
          by_contra hne
          rcases hlist.only x hne with hi | hf
          · exact hx hi
          · rw [hfree] at hf
            cases hf
      rw [hnone] at hshares
      exact hshares
    · have hnone : textParts opt.offset = fun _ => none := funext (hlist.plain hfree)
      rw [← hnone, Function.update_eq_self]
      exact htexts
  | some b =>
    obtain ⟨hnum, hitems, s, hb, hs, honly⟩ := hlist.toFree b hfree
    have hpart : Function.update arrayParts opt.offset
        (fun x => if (ctx.target opt.offset).items = some x then none
          else arrayParts opt.offset x) opt.offset b = some [some (.allocated s)] := by
      rw [Function.update_self, if_neg hitems, hb]
    have hblock : mid.blocks b = some [some (.allocated s)] := by
      rw [hshares.part_le opt.offset b (by rw [hpart]; exact Option.some_ne_none _), hpart]
    obtain ⟨arrays', hfreeb, hshares'⟩ := hshares.free hpart
    obtain ⟨t, ht⟩ := Option.ne_none_iff_exists'.mp hs
    obtain ⟨texts', hfrees, htexts'⟩ := htexts.free ht
    refine ⟨{
        texts := texts'
        arrays := arrays'
        target := Function.update ctx.target opt.offset
          { ctx.target opt.offset with items := none, toFree := none } },
      { ctx.target opt.offset with items := none, toFree := none }, ?_, ⟨rfl, rfl⟩, rfl,
      ?_, ?_⟩
    · have hstring : (List.range 1).foldlM (freeString mid b) ctx.texts = some texts' := by
        simp [List.range_succ, freeString, hblock, hfrees]
      simp only [ParseContext.freeList, hmid, hfree, hnum, Option.bind_eq_bind, Option.bind_some,
        hstring, hfreeb]
      rfl
    · have hnone : Function.update (fun x => if (ctx.target opt.offset).items = some x then none
          else arrayParts opt.offset x) b none = fun _ => none := by
        funext x
        by_cases hx : x = b
        · rw [hx, Function.update_self]
        · rw [Function.update_of_ne hx]
          split
          · rfl
          · rename_i hi
            by_contra hne
            rcases hlist.only x hne with hi' | hf
            · exact hi hi'
            · rw [hfree] at hf
              exact hx (Option.some.inj hf).symm
      rw [Function.update_self, Function.update_idem, hnone] at hshares'
      exact hshares'
    · have hnone : Function.update (textParts opt.offset) s none = fun _ => none := by
        funext x
        by_cases hx : x = s
        · rw [hx, Function.update_self]
        · rw [Function.update_of_ne hx]
          by_contra hne
          exact hx (honly x hne)
      rw [hnone] at htexts'
      exact htexts'

theorem freeOptions_ok (table : List ListOption) :
    ∀ ctx arrayParts textParts, Heap.Shares arrayBase arrayParts ctx.arrays.blocks →
      Heap.Shares textBase textParts ctx.texts.blocks →
      (∀ offset, Releasable (arrayParts offset) (textParts offset) (ctx.target offset)) →
      (∀ offset, (∃ opt ∈ table, opt.offset = offset) ∨ Clean (ctx.target offset)) →
      ∃ ctx', ParseContext.freeOptions table ctx = some ctx' ∧
        ctx'.arrays.blocks = arrayBase ∧ ctx'.texts.blocks = textBase := by
  induction table with
  | nil =>
    intro ctx arrayParts textParts harrays htexts hlists hclean
    have hnone : ∀ offset, (∀ x, arrayParts offset x = none) ∧ ∀ x, textParts offset x = none := by
      intro offset
      rcases hclean offset with ⟨opt, hmem, -⟩ | hc
      · cases hmem
      · exact (hlists offset).none_of_clean hc
    exact ⟨ctx, rfl, harrays.finish (fun offset => (hnone offset).1),
      htexts.finish (fun offset => (hnone offset).2)⟩
  | cons opt table ih =>
    intro ctx arrayParts textParts harrays htexts hlists hclean
    obtain ⟨mid, lst, hfree, hlst, htarget, harrays', htexts'⟩ :=
      freeList_ok harrays htexts (hlists opt.offset)
    obtain ⟨ctx', hrest, hbase⟩ := ih mid _ _ harrays' htexts' (by
      intro offset
      rw [htarget]
      by_cases ho : offset = opt.offset
      · subst ho
        simp only [Function.update_self]
        exact hlst.releasable
      · simp only [Function.update_of_ne ho]
        exact hlists offset) (by
      intro offset
      rw [htarget]
      by_cases ho : offset = opt.offset
      · subst ho
        rw [Function.update_self]
        exact Or.inr hlst
      · rw [Function.update_of_ne ho]
        rcases hclean offset with ⟨o, hmem, heq⟩ | hc
        · rcases List.mem_cons.mp hmem with rfl | hmem
          · exact absurd heq.symm ho
          · exact Or.inl ⟨o, hmem, heq⟩
        · exact Or.inr hc)
    refine ⟨ctx', ?_, hbase⟩
    rw [ParseContext.freeOptions, List.foldlM_cons, hfree]
    exact hrest

/-! ## Lists that are right -/

theorem rep_start (texts : Heap (List UInt8)) (arrays : Arrays) :
    Rep texts.blocks arrays.blocks { texts := texts, arrays := arrays }
      ([] : List (Occurrence options)) :=
  ⟨fun _ _ => none, fun _ _ => none, fun _ => [], fun _ => none, Heap.Shares.start _,
    Heap.Shares.start _, fun _ => ⟨KeepsStrings.empty, OwnsTexts.empty, fun _ => rfl⟩⟩

/-- Where nothing was appended there is nothing. -/
theorem Rep.clean (h : Rep texts arrayBase ctx occs) (offset : Nat) :
    (∃ opt ∈ options, opt.offset = offset) ∨ Clean (ctx.target offset) := by
  obtain ⟨arrayParts, textParts, strs, owned, -, -, hlists⟩ := h
  obtain ⟨hkeeps, howns, hformat⟩ := hlists offset
  by_cases hmem : ∃ opt ∈ options, opt.offset = offset
  · exact Or.inl hmem
  have hno : ∀ occ : Occurrence options, occ.opt.offset ≠ offset :=
    fun occ heq => hmem ⟨occ.opt, List.get_mem .., heq⟩
  have hempty : argumentsFor occs offset = [] := by
    simp [argumentsFor, hno]
  have hzero : formattedFor occs offset = 0 := by
    simp [formattedFor, hno]
  have hstrs : strs offset = [] := by
    have heq := howns.shows
    rw [hempty] at heq
    exact List.map_eq_nil_iff.mp heq
  exact Or.inr ⟨hkeeps.items.mpr hstrs, hkeeps.toFree.mpr (hformat hzero)⟩

theorem appends_of_one {texts : Heap (List UInt8)} {occs : List (Occurrence options)}
    (hone : ∀ offset, formattedFor occs offset ≤ 1) : AppendsRight texts arrays occs := by
  obtain ⟨ctx, hparse, hrep⟩ := parseOptions_rep occs _ [] (rep_start texts arrays) hone
  rw [List.nil_append] at hrep
  refine ⟨ctx, hparse, hrep.listed, ?_⟩
  have hclean := hrep.clean
  obtain ⟨arrayParts, textParts, strs, owned, harrays, htexts, hlists⟩ := hrep
  obtain ⟨ctx', hfree, hblocks, htextBlocks⟩ :=
    freeOptions_ok options ctx arrayParts textParts harrays htexts
      (fun offset => (hlists offset).1.releasable (hlists offset).2.1) hclean
  exact ⟨ctx', hfree, htextBlocks, hblocks⟩

/-- The lists are right when no more than one formatted option is given for each. -/
theorem appends_iff (texts : Heap (List UInt8)) (arrays : Arrays)
    (occs : List (Occurrence options)) :
    AppendsRight texts arrays occs ↔ ∀ offset, formattedFor occs offset ≤ 1 := by
  constructor
  · intro h offset
    by_contra hmany
    have htwo : 2 ≤ formattedFor occs offset := by omega
    exact not_appends_of_two htwo h
  · exact appends_of_one

/-- `--bind-ipc` of `gridcat`: the path comes behind `ipc://`. -/
def bindIpc : ListOption := { offset := 0, pointer := some ([105, 112, 99, 58, 47, 47], []) }

/-- `--bind-ipc a --bind-ipc b`. -/
theorem not_appends : ¬AppendsRight {} {}
    ([(⟨0, by decide⟩, [97]), (⟨0, by decide⟩, [98])] : List (Occurrence [bindIpc])) := by
  have htwo : 2 ≤ formattedFor
      ([(⟨0, by decide⟩, [97]), (⟨0, by decide⟩, [98])] : List (Occurrence [bindIpc])) 0 := by
    decide
  exact not_appends_of_two htwo

end GridMq.Tools
