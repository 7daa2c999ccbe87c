import GridMq.Core.Assemble
import GridMq.Library.Walk

set_option autoImplicit false

/-!
# The walk over the control data (`grid_cmsg_nxthdr_`, `grid_sendmsg`)

When the loop that searches for `SP_HDR` ends, and when what it reads lies within the control
data.  The headers it comes to always do; the lengths in them need not lead anywhere else, and
the length of `SP_HDR` need not be one.
-/

namespace GridMq.Core

open GridMq.Library

namespace Control

/-! ## The walk -/

/-- The properties that the loop comes to. -/
inductive Visits (self : Control) : Nat → Prop where
  | first {pos : Nat} (h : self.nxthdr none = some pos) : Visits self pos
  | next {pos pos' : Nat} (hv : Visits self pos) (hp : ¬self.IsSpHdr pos)
      (h : self.nxthdr (some pos) = some pos') : Visits self pos'

/-- What a walk over control data has to be: it ends, the headers it comes to lie within the
data, and of `SP_HDR` neither the length of the data underflows nor anything outside of the
control data is read. -/
structure WalksSafely (control : Control) : Prop where
  ends : ∃ fuel r, control.search fuel none = .ok r
  inside : ∀ pos, control.Visits pos → pos + cmsgSpace ≤ control.length
  noUnderflow : ∀ pos, control.Visits pos → control.IsSpHdr pos → cmsgSpace ≤ control.cmsgLen pos
  reads : ∀ pos, control.Visits pos → control.IsSpHdr pos → control.Within pos

/-- The property after another one, if the loop goes on. -/
def onward (self : Control) (pos : Nat) : Option Nat :=
  if self.IsSpHdr pos then none else self.nxthdr (some pos)

/-- The length of a property `SP_HDR` is one: it holds the header of the property, and it does
not go beyond the control data, or else the size and the data of the protocol header do not. -/
def Holds (self : Control) (pos : Nat) : Prop :=
  cmsgSpace ≤ self.cmsgLen pos ∧
    (pos + self.cmsgLen pos ≤ self.length ∨
      pos + cmsgSpace + 8 ≤ self.length ∧
        (self.spsz pos + (cmsgSpace + 8) ≤ self.cmsgLen pos →
          pos + cmsgSpace + 8 + self.spsz pos ≤ self.length))

/-- The lengths of the properties lead to no property twice, and `SP_HDR` is as long as what it
holds. -/
structure Leads (control : Control) : Prop where
  new : NeverBack control.onward (control.nxthdr none)
  holds : ∀ pos, control.Visits pos → control.IsSpHdr pos → control.Holds pos

variable {self : Control}

/-! ## Where the walk goes -/

theorem visits_iff {pos : Nat} :
    self.Visits pos ↔ ∃ k, place self.onward (self.nxthdr none) k = some pos := by
  constructor
  · intro h
    induction h with
    | first h => exact ⟨0, h⟩
    | next _ hp h ih =>
        obtain ⟨k, hk⟩ := ih
        refine ⟨k + 1, ?_⟩
        rw [place_succ, hk, Option.bind_some, onward, if_neg hp, h]
  · rintro ⟨k, hk⟩
    induction k generalizing pos with
    | zero => exact .first hk
    | succ k ih =>
        rw [place_succ] at hk
        obtain ⟨p, hp, hnext⟩ := Option.bind_eq_some_iff.mp hk
        unfold onward at hnext
        split at hnext
        · exact absurd hnext (by simp)
        · rename_i hnot
          exact .next (ih hp) hnot hnext

/-- The walk from a property on has an end where it has no place any more. -/
theorem Finds.ends {cmsg r : Option Nat} (h : Finds self cmsg r) :
    ∃ n, place self.onward (self.nxthdr cmsg) n = none := by
  induction h with
  | nothing hnone => exact ⟨0, hnone⟩
  | found hsome hp =>
      refine ⟨1, ?_⟩
      rw [hsome, place_next, onward, if_pos hp, place_zero]
  | next hsome hp _ ih =>
      obtain ⟨n, hn⟩ := ih
      refine ⟨n + 1, ?_⟩
      rw [hsome, place_next, onward, if_neg hp, hn]

theorem finds_of_place {n : Nat} :
    ∀ {cmsg : Option Nat}, place self.onward (self.nxthdr cmsg) n = none → ∃ r, Finds self cmsg r := by
  induction n with
  | zero =>
      intro cmsg h
      exact ⟨none, .nothing h⟩
  | succ n ih =>
      intro cmsg h
      cases hnext : self.nxthdr cmsg with
      | none => exact ⟨none, .nothing hnext⟩
      | some pos =>
          by_cases hp : self.IsSpHdr pos
          · exact ⟨some pos, .found hnext hp⟩
          · rw [hnext, place_next, onward, if_neg hp] at h
            obtain ⟨r, hr⟩ := ih h
            exact ⟨r, .next hnext hp hr⟩

/-- The loop ends when the walk does. -/
theorem search_ends_iff : (∃ fuel r, self.search fuel none = .ok r) ↔
    ∃ n, place self.onward (self.nxthdr none) n = none := by
  constructor
  · rintro ⟨fuel, r, h⟩
    exact (search_finds fuel h).ends
  · rintro ⟨n, h⟩
    obtain ⟨r, hr⟩ := finds_of_place h
    obtain ⟨fuel, hfuel⟩ := hr.search
    exact ⟨fuel, r, hfuel⟩

/-! ## Headers -/

/-- Where the property after another one begins. -/
def begins (self : Control) : Option Nat → Nat
  | none => 0
  | some pos => (pos + cmsgAlign (self.cmsgLen pos)) % 2 ^ 64

theorem nxthdr_eq (cmsg : Option Nat) : self.nxthdr cmsg =
    if self.length < cmsgSpace then none
    else if (self.begins cmsg + cmsgSpace) % 2 ^ 64 > self.length ∨
        (self.begins cmsg + cmsgAlign (self.cmsgLen (self.begins cmsg))) % 2 ^ 64 > self.length
      then none
    else some (self.begins cmsg) := by
  cases cmsg with
  | none => rfl
  | some pos => rfl

/-- What `grid_cmsg_nxthdr_` has checked of the property that it returns. -/
theorem nxthdr_spec {cmsg : Option Nat} {pos : Nat} (h : self.nxthdr cmsg = some pos) :
    pos = self.begins cmsg ∧ (pos + cmsgSpace) % 2 ^ 64 ≤ self.length ∧
      (pos + cmsgAlign (self.cmsgLen pos)) % 2 ^ 64 ≤ self.length := by
  rw [nxthdr_eq] at h
  split at h
  · exact absurd h (by simp)
  · split at h
    · exact absurd h (by simp)
    · rename_i hroom
      obtain ⟨hhead, hafter⟩ := not_or.mp hroom
      have hpos := Option.some.inj h
      rw [← hpos]
      exact ⟨rfl, Nat.not_lt.mp hhead, Nat.not_lt.mp hafter⟩

/-- The next property begins where the length of the one before leads to, and its header lies
within the data, and so does what its length leads to. -/
theorem nxthdr_inside {cmsg : Option Nat} {pos : Nat} (hfits : Fits self.length)
    (hstart : ∀ p, cmsg = some p → (p + cmsgAlign (self.cmsgLen p)) % 2 ^ 64 ≤ self.length)
    (h : self.nxthdr cmsg = some pos) :
    pos + cmsgSpace ≤ self.length ∧
      (pos + cmsgAlign (self.cmsgLen pos)) % 2 ^ 64 ≤ self.length := by
  have hlen : chunkHdrsize + self.length ≤ ptrdiffMax := hfits
  have hmax : ptrdiffMax = 2 ^ 63 - 1 := rfl
  have hspace : cmsgSpace = 16 := rfl
  obtain ⟨heq, hhead, hafter⟩ := nxthdr_spec h
  have hle : pos ≤ self.length := by
    cases cmsg with
    | none => exact heq ▸ Nat.zero_le _
    | some p => exact heq ▸ hstart p rfl
  rw [Nat.mod_eq_of_lt (by omega)] at hhead
  exact ⟨hhead, hafter⟩

theorem Visits.inside {pos : Nat} (hfits : Fits self.length) (h : self.Visits pos) :
    pos + cmsgSpace ≤ self.length ∧
      (pos + cmsgAlign (self.cmsgLen pos)) % 2 ^ 64 ≤ self.length := by
  induction h with
  | first h => exact nxthdr_inside hfits (by simp) h
  | next _ _ h ih =>
      refine nxthdr_inside hfits ?_ h
      intro p hp
      obtain rfl := Option.some.inj hp
      exact ih.2

/-! ## The property `SP_HDR` -/

theorem read_lt (pos n : Nat) : self.read pos n < 256 ^ n := by
  have hlen : ((self.drop pos).take n).length ≤ n := List.length_take_le n _
  exact (native_lt _).trans_le (Nat.pow_le_pow_right (by decide) hlen)

theorem cmsgLen_lt (pos : Nat) : self.cmsgLen pos < 2 ^ 64 := self.read_lt pos 8

/-- The length of the data of a property that has room for its header. -/
theorem clen_eq {pos : Nat} (h : cmsgSpace ≤ self.cmsgLen pos) :
    self.clen pos = self.cmsgLen pos - cmsgSpace := by
  have hlt := self.cmsgLen_lt pos
  have hspace : cmsgSpace = 16 := rfl
  rw [clen, Nat.add_comm, Nat.add_sub_assoc h, Nat.add_mod_left, Nat.mod_eq_of_lt (by omega)]

/-- The least multiple of eight that is not below a small number. -/
theorem cmsgAlign_eq {len : Nat} (h : len + 7 < 2 ^ 64) : cmsgAlign len = (len + 7) / 8 * 8 := by
  rw [cmsgAlign, Nat.mod_eq_of_lt h]

/-- What is read of a property within the data lies within them, where its length is one. -/
theorem within_iff {pos : Nat} (hfits : Fits self.length) (hspace : cmsgSpace ≤ self.cmsgLen pos)
    (hhead : pos + cmsgSpace ≤ self.length)
    (hlead : (pos + cmsgAlign (self.cmsgLen pos)) % 2 ^ 64 ≤ self.length) :
    self.Within pos ↔ self.Holds pos := by
  have hlen : chunkHdrsize + self.length ≤ ptrdiffMax := hfits
  have hmax : ptrdiffMax = 2 ^ 63 - 1 := rfl
  have hsize : cmsgSpace = 16 := rfl
  unfold Within Holds
  rw [clen_eq hspace]
  constructor
  · intro h
    refine ⟨hspace, ?_⟩
    rcases Nat.lt_or_ge 8 (self.cmsgLen pos - cmsgSpace) with hlong | hshort
    · obtain ⟨hread, hcopy⟩ := h hlong
      exact Or.inr ⟨hread, fun hfit => hcopy (by omega)⟩
    · rw [cmsgAlign_eq (by omega), Nat.mod_eq_of_lt (by omega)] at hlead
      exact Or.inl (by omega)
  · rintro ⟨-, hin | ⟨hread, hcopy⟩⟩ hlong
    · exact ⟨by omega, fun hfit => by omega⟩
    · exact ⟨hread, fun hfit => hcopy (by omega)⟩

theorem holds_iff {pos : Nat} (hfits : Fits self.length) (hv : self.Visits pos) :
    self.Holds pos ↔ cmsgSpace ≤ self.cmsgLen pos ∧ self.Within pos := by
  obtain ⟨hhead, hlead⟩ := hv.inside hfits
  constructor
  · intro h
    exact ⟨h.1, (within_iff hfits h.1 hhead hlead).mpr h⟩
  · rintro ⟨hspace, hw⟩
    exact (within_iff hfits hspace hhead hlead).mp hw

/-! ## The walk as a whole -/

/-- The walk ends if it does not come back, because all its properties lie within the data. -/
theorem ends_iff_new (hfits : Fits self.length) :
    (∃ fuel r, self.search fuel none = .ok r) ↔ NeverBack self.onward (self.nxthdr none) := by
  rw [search_ends_iff]
  constructor
  · rintro ⟨n, hn⟩
    exact neverBack_of_ends hn
  · intro hnew
    refine ends_of_neverBack hnew (Set.finite_le_nat self.length) ?_
    intro k pos hk
    have hin := (visits_iff.mpr ⟨k, hk⟩).inside hfits
    exact (Nat.le_add_right pos cmsgSpace).trans hin.1

/-- A walk is safe exactly if the lengths in the properties lead. -/
theorem safe_iff_leads (hfits : Fits self.length) : self.WalksSafely ↔ self.Leads := by
  constructor
  · intro h
    refine ⟨(ends_iff_new hfits).mp h.ends, fun pos hv hp => ?_⟩
    exact (holds_iff hfits hv).mpr ⟨h.noUnderflow pos hv hp, h.reads pos hv hp⟩
  · intro h
    exact
      { ends := (ends_iff_new hfits).mpr h.new
        inside := fun pos hv => (hv.inside hfits).1
        noUnderflow := fun pos hv hp => (h.holds pos hv hp).1
        reads := fun pos hv hp => ((holds_iff hfits hv).mp (h.holds pos hv hp)).2 }

end Control

/-! ## Control data of a call -/

/-- The walk over the control data of a call is safe exactly if their lengths lead. -/
theorem walksSafely_iff {heap : ChunkHeap} {control : MsgControl}
    {r : ChunkHeap × Chunkref × Control} (h : initHdrs heap control = .ok r) :
    r.2.2.WalksSafely ↔ r.2.2.Leads :=
  Control.safe_iff_leads (fits_of_initHdrs h)

/-- A property of length zero, of no protocol: the next property is itself. -/
def zeroLength : Control := List.replicate 16 0

/-- `SP_HDR` whose length is shorter than the header of a property. -/
def shortHeader : Control := [8, 0, 0, 0, 0, 0, 0, 0, 1, 0, 0, 0, 1, 0, 0, 0]

theorem walksSafely_iff_zeroLength : zeroLength.WalksSafely ↔ zeroLength.Leads :=
  @walksSafely_iff {} (.buffer zeroLength) ({}, .small zeroLength, zeroLength) rfl

theorem zeroLength_again : ∀ k, place zeroLength.onward (zeroLength.nxthdr none) k = some 0 := by
  intro k
  induction k with
  | zero => decide
  | succ k ih =>
      rw [place_succ, ih, Option.bind_some]
      decide

/-- The first walk has no end, and in the second one the length of the data underflows, so that
the size of the header is read behind the end of the control data. -/
theorem not_walksSafely :
    ¬(∃ fuel r, zeroLength.search fuel none = .ok r) ∧
      (shortHeader.Visits 0 ∧ shortHeader.IsSpHdr 0 ∧ ¬cmsgSpace ≤ shortHeader.cmsgLen 0 ∧
        ¬shortHeader.Within 0) ∧
      ¬∀ (heap : ChunkHeap) (control : MsgControl) (r : ChunkHeap × Chunkref × Control),
        initHdrs heap control = .ok r → r.2.2.WalksSafely := by
  have hendless : ¬∃ fuel r, zeroLength.search fuel none = .ok r := by
    rw [Control.search_ends_iff]
    rintro ⟨n, hn⟩
    rw [zeroLength_again n] at hn
    exact absurd hn (by simp)
  refine ⟨hendless, ⟨.first (by decide), by decide, by decide, ?_⟩, ?_⟩
  · intro h
    exact absurd (h (by decide)).1 (by decide)
  · intro hall
    exact hendless (hall {} (.buffer zeroLength) ({}, .small zeroLength, zeroLength) rfl).ends

end GridMq.Core
