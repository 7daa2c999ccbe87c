import Mathlib.Data.List.Basic
import Mathlib.Logic.Function.Basic

set_option autoImplicit false

/-!
# Journals of queues

Several queues have keys.  One journal says what came into which queue, another one what went
out of which, each in the order in which it happened.  A queue that is open holds what came in
and has not gone out; a queue that was closed has lost what it held.
-/

namespace GridMq.Library

variable {κ α β : Type} [DecidableEq κ]

/-- What a journal says about one key. -/
def entries (k : κ) (journal : List (κ × α)) : List α :=
  journal.filterMap fun e => if e.1 = k then some e.2 else none

@[simp] theorem entries_nil (k : κ) : entries k ([] : List (κ × α)) = [] := rfl

@[simp] theorem entries_append (k : κ) (journal later : List (κ × α)) :
    entries k (journal ++ later) = entries k journal ++ entries k later :=
  List.filterMap_append

@[simp] theorem entries_cons_self (k : κ) (a : α) (journal : List (κ × α)) :
    entries k ((k, a) :: journal) = a :: entries k journal := by
  simp [entries]

theorem entries_cons_of_ne {k k' : κ} (h : k' ≠ k) (a : α) (journal : List (κ × α)) :
    entries k ((k', a) :: journal) = entries k journal := by
  simp [entries, h]

theorem mem_entries {k : κ} {a : α} {journal : List (κ × α)} :
    a ∈ entries k journal ↔ (k, a) ∈ journal := by
  unfold entries
  rw [List.mem_filterMap]
  constructor
  · intro h
    obtain ⟨⟨k', b⟩, hmem, heq⟩ := h
    split at heq
    · rename_i hk
      obtain rfl := Option.some.inj heq
      exact hk ▸ hmem
    · exact absurd heq (by simp)
  · intro h
    exact ⟨(k, a), h, if_pos rfl⟩

/-- A key that nothing is said about has no entries. -/
theorem entries_eq_nil {k : κ} {journal : List (κ × α)} (h : ∀ e ∈ journal, e.1 ≠ k) :
    entries k journal = [] := by
  apply List.eq_nil_iff_forall_not_mem.mpr
  intro a ha
  exact h (k, a) (mem_entries.mp ha) rfl

/-- Keys that are renamed, each to a name of its own. -/
theorem entries_map {κ' : Type} [DecidableEq κ'] {f : κ → κ'} (hf : Function.Injective f) (k : κ)
    (journal : List (κ × α)) :
    entries (f k) (journal.map fun e => (f e.1, e.2)) = entries k journal := by
  induction journal with
  | nil => rfl
  | cons e journal ih =>
      obtain ⟨k', a⟩ := e
      rw [List.map_cons]
      rcases eq_or_ne k' k with rfl | hk
      · rw [entries_cons_self, entries_cons_self, ih]
      · rw [entries_cons_of_ne hk, entries_cons_of_ne fun h => hk (hf h), ih]

/-- A journal that is read off the steps of a run goes on with what the last step says. -/
theorem filterMap_concat {ι : Type} (f : ι → Option β) (labels : List ι) (l : ι) :
    (labels ++ [l]).filterMap f = labels.filterMap f ++ (f l).toList := by
  rw [List.filterMap_append]
  cases h : f l with
  | none => simp [h]
  | some b => simp [h]

/-- What is left of a journal when some of its entries are struck out keeps its order for each
key. -/
theorem entries_sublist {journal journal' : List (κ × α)} (h : journal'.Sublist journal) (k : κ) :
    (entries k journal').Sublist (entries k journal) :=
  h.filterMap _

/-- Copies for several keys are one entry of each. -/
theorem entries_copies {keys : List κ} (h : keys.Nodup) (k : κ) (a : α) :
    entries k (keys.map fun k => (k, a)) = if k ∈ keys then [a] else [] := by
  induction keys with
  | nil => rfl
  | cons k' keys ih =>
      obtain ⟨hnew, hrest⟩ := List.nodup_cons.mp h
      rw [List.map_cons]
      rcases eq_or_ne k' k with rfl | hk
      · rw [entries_cons_self, ih hrest, if_neg hnew, if_pos List.mem_cons_self]
      · rw [entries_cons_of_ne hk, ih hrest]
        simp [hk.symm]

/-- What the steps of a run say about one key, where each step says at most what another journal
has from it. -/
theorem entries_flatMap_sublist {ι : Type} {f : ι → List (κ × α)} {g : ι → Option α} {k : κ}
    {labels : List ι} (h : ∀ l ∈ labels, (entries k (f l)).Sublist (g l).toList) :
    (entries k (labels.flatMap f)).Sublist (labels.filterMap g) := by
  induction labels with
  | nil => exact List.Sublist.refl _
  | cons l labels ih =>
      have hrest := ih fun l' hl' => h l' (List.mem_cons_of_mem l hl')
      have hsplit : (l :: labels).filterMap g = (g l).toList ++ labels.filterMap g := by
        cases hl : g l with
        | none => simp [hl]
        | some b => simp [hl]
      rw [List.flatMap_cons, entries_append, hsplit]
      exact (h l List.mem_cons_self).append hrest

/-! ## Queues that lose nothing while they are open -/

/-- Each open queue holds what came in and has not gone out, and what went out of any queue is
what came in first. -/
structure Conserves (came went : List (κ × α)) (inside : κ → Option (List α)) : Prop where
  balance : ∀ k l, inside k = some l → entries k came = entries k went ++ l
  front : ∀ k, entries k went <+: entries k came

namespace Conserves

variable {came went : List (κ × α)} {inside : κ → Option (List α)} {k : κ} {a : α} {l : List α}

theorem init : Conserves ([] : List (κ × α)) [] fun _ => none where
  balance k l h := absurd h (by simp)
  front k := List.prefix_refl _

/-- A queue is opened that nothing came into before. -/
theorem opens (h : Conserves came went inside) (hnew : entries k came = []) :
    Conserves came went (Function.update inside k (some [])) where
  balance k' l' h' := by
    rcases eq_or_ne k' k with rfl | hk
    · rw [Function.update_self] at h'
      obtain rfl := Option.some.inj h'
      have hwent : entries k' went = [] := List.prefix_nil.mp (hnew ▸ h.front k')
      rw [hnew, hwent, List.append_nil]
    · rw [Function.update_of_ne hk] at h'
      exact h.balance k' l' h'
  front := h.front

/-- A queue is closed. -/
theorem closes (h : Conserves came went inside) :
    Conserves came went (Function.update inside k none) where
  balance k' l' h' := by
    rcases eq_or_ne k' k with rfl | hk
    · rw [Function.update_self] at h'
      exact absurd h' (by simp)
    · rw [Function.update_of_ne hk] at h'
      exact h.balance k' l' h'
  front := h.front

/-- An entry comes in at the end of an open queue. -/
theorem comes (h : Conserves came went inside) (hopen : inside k = some l) :
    Conserves (came ++ [(k, a)]) went (Function.update inside k (some (l ++ [a]))) where
  balance k' l' h' := by
    rcases eq_or_ne k' k with rfl | hk
    · rw [Function.update_self] at h'
      obtain rfl := Option.some.inj h'
      rw [entries_append, entries_cons_self, entries_nil, h.balance k' l hopen, List.append_assoc]
    · rw [Function.update_of_ne hk] at h'
      rw [entries_append, entries_cons_of_ne hk.symm, entries_nil, List.append_nil]
      exact h.balance k' l' h'
  front k' := by
    rw [entries_append]
    exact (h.front k').trans (List.prefix_append _ _)

/-- The first entry of an open queue goes out. -/
theorem goes (h : Conserves came went inside) (hopen : inside k = some (a :: l)) :
    Conserves came (went ++ [(k, a)]) (Function.update inside k (some l)) where
  balance k' l' h' := by
    rcases eq_or_ne k' k with rfl | hk
    · rw [Function.update_self] at h'
      obtain rfl := Option.some.inj h'
      rw [entries_append, entries_cons_self, entries_nil, h.balance k' _ hopen, List.append_assoc,
        List.singleton_append]
    · rw [Function.update_of_ne hk] at h'
      rw [entries_append, entries_cons_of_ne hk.symm, entries_nil, List.append_nil]
      exact h.balance k' l' h'
  front k' := by
    rcases eq_or_ne k' k with rfl | hk
    · rw [entries_append, entries_cons_self, entries_nil, h.balance k' _ hopen]
      exact ⟨l, by rw [List.append_assoc, List.singleton_append]⟩
    · rw [entries_append, entries_cons_of_ne hk.symm, entries_nil, List.append_nil]
      exact h.front k'

end Conserves

end GridMq.Library
