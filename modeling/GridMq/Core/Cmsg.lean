import GridMq.Utils.Err
import GridMq.Utils.Wire

set_option autoImplicit false

/-!
# Control data (`struct grid_cmsghdr` in `src/grid.h`, and `grid_sendmsg`)

The control data of a message are a list of properties.  Each begins with its length, its
level and its type; the next one follows after that length.  The lengths are written by the
application, and the walk from one property to the next trusts them as far as the checks of
`grid_cmsg_nxthdr_` go.

A walk can go round in circles, so it is given a bound on its steps; and what is copied from
the property `SP_HDR` can lie behind the end of the data.
-/

namespace GridMq.Core

/-- What becomes of a call that neither returns nor waits. -/
inductive SendAbort where
  /-- the assertion of a socket type that the protocol header is empty -/
  | header
  /-- the bound on the steps of a walk was reached -/
  | endless
  /-- memory behind the end of the control data is read -/
  | outOfBounds
  | other (a : Abort)
  deriving DecidableEq, Repr

/-- `GRID_CMSG_ALIGN_`. -/
def cmsgAlign (len : Nat) : Nat := (len + 7) % 2 ^ 64 / 8 * 8

/-- `GRID_CMSG_SPACE (0)`, which is the size of `struct grid_cmsghdr`. -/
def cmsgSpace : Nat := 16

/-- `PROTO_SP` and `SP_HDR`. -/
def protoSp : Nat := 1

def spHdrType : Nat := 1

/-- The control data that a property is looked for in. -/
abbrev Control := List UInt8

namespace Control

/-- An unsigned integer of some bytes at a position. -/
def read (self : Control) (pos n : Nat) : Nat := native ((self.drop pos).take n)

/-- The fields of the `struct grid_cmsghdr` at a position. -/
def cmsgLen (self : Control) (pos : Nat) : Nat := self.read pos 8

def cmsgLevel (self : Control) (pos : Nat) : Nat := self.read (pos + 8) 4

def cmsgType (self : Control) (pos : Nat) : Nat := self.read (pos + 12) 4

/-- `grid_cmsg_nxthdr_`: the position of the property after `cmsg`, or of the first one. -/
def nxthdr (self : Control) (cmsg : Option Nat) : Option Nat :=
  let sz := self.length
  if sz < cmsgSpace then none
  else
    let next := match cmsg with
      | none => 0
      | some pos => (pos + cmsgAlign (self.cmsgLen pos)) % 2 ^ 64
    if (next + cmsgSpace) % 2 ^ 64 > sz ∨
        (next + cmsgAlign (self.cmsgLen next)) % 2 ^ 64 > sz then none
    else some next

/-- The property is the header of the protocol. -/
def IsSpHdr (self : Control) (pos : Nat) : Prop :=
  self.cmsgLevel pos = protoSp ∧ self.cmsgType pos = spHdrType

instance (self : Control) (pos : Nat) : Decidable (self.IsSpHdr pos) :=
  inferInstanceAs (Decidable (_ ∧ _))

/-- The size of the data in the property at a position, as `grid_sendmsg` computes it. -/
def clen (self : Control) (pos : Nat) : Nat :=
  (self.cmsgLen pos + 2 ^ 64 - cmsgSpace) % 2 ^ 64

/-- The size that the data of the property give for the header. -/
def spsz (self : Control) (pos : Nat) : Nat := self.read (pos + cmsgSpace) 8

/-- The body of the property `SP_HDR`, which is taken for the header; `none` when its sizes
do not fit together. -/
def body (self : Control) (pos : Nat) : Except SendAbort (Option (List UInt8)) :=
  if self.clen pos > 8 then
    if pos + cmsgSpace + 8 > self.length then .error .outOfBounds
    else if self.spsz pos ≤ self.clen pos - 8 then
      if pos + cmsgSpace + 8 + self.spsz pos > self.length then .error .outOfBounds
      else .ok (some ((self.drop (pos + cmsgSpace + 8)).take (self.spsz pos)))
    else .ok none
  else .ok none

/-- The loop of `grid_sendmsg` that searches for the property `SP_HDR`: its position. -/
def search (self : Control) : Nat → Option Nat → Except SendAbort (Option Nat)
  | 0, _ => .error .endless
  | n + 1, cmsg =>
      match self.nxthdr cmsg with
      | none => .ok none
      | some pos => if self.IsSpHdr pos then .ok (some pos) else self.search n (some pos)

/-- What is done with the position that the loop has found. -/
def found (self : Control) : Option Nat → Except SendAbort (Option (List UInt8))
  | none => .ok none
  | some pos => self.body pos

/-- The header that the control data give a message; `none` where they leave it as it is. -/
def spHdr (self : Control) (fuel : Nat) : Except SendAbort (Option (List UInt8)) :=
  self.search fuel none >>= self.found

/-! ## Walks that end -/

/-- The walk from a property on comes to its end, with the position of `SP_HDR` if there
is one. -/
inductive Finds (self : Control) : Option Nat → Option Nat → Prop where
  | nothing {cmsg : Option Nat} (h : self.nxthdr cmsg = none) : Finds self cmsg none
  | found {cmsg : Option Nat} {pos : Nat} (h : self.nxthdr cmsg = some pos)
      (hp : self.IsSpHdr pos) : Finds self cmsg (some pos)
  | next {cmsg : Option Nat} {pos : Nat} {r : Option Nat} (h : self.nxthdr cmsg = some pos)
      (hp : ¬self.IsSpHdr pos) (hr : Finds self (some pos) r) : Finds self cmsg r

/-- The sizes of the property `SP_HDR` lie within the data. -/
def Within (self : Control) (pos : Nat) : Prop :=
  self.clen pos > 8 → pos + cmsgSpace + 8 ≤ self.length ∧
    (self.spsz pos ≤ self.clen pos - 8 → pos + cmsgSpace + 8 + self.spsz pos ≤ self.length)

/-- The control data can be read: the walk over them ends, and the property `SP_HDR` lies
within them. -/
def Readable (self : Control) : Prop :=
  ∃ r, Finds self none r ∧ ∀ pos, r = some pos → self.Within pos

/-- The control data carry a header that is not empty. -/
def HasHeader (self : Control) : Prop :=
  ∃ pos, Finds self none (some pos) ∧ self.clen pos > 8 ∧ self.spsz pos ≤ self.clen pos - 8 ∧
    0 < self.spsz pos

variable {self : Control}

theorem Finds.unique {cmsg r r' : Option Nat} (h : Finds self cmsg r) (h' : Finds self cmsg r') :
    r = r' := by
  induction h with
  | nothing hnone =>
      cases h' with
      | nothing _ => rfl
      | found hsome _ => exact absurd (hnone.symm.trans hsome) (by simp)
      | next hsome _ _ => exact absurd (hnone.symm.trans hsome) (by simp)
  | found hsome hp =>
      cases h' with
      | nothing hnone => exact absurd (hsome.symm.trans hnone) (by simp)
      | found hsome' _ => exact hsome.symm.trans hsome'
      | next hsome' hnot _ =>
          obtain rfl := Option.some.inj (hsome.symm.trans hsome')
          exact absurd hp hnot
  | next hsome hnot _ ih =>
      cases h' with
      | nothing hnone => exact absurd (hsome.symm.trans hnone) (by simp)
      | found hsome' hp =>
          obtain rfl := Option.some.inj (hsome.symm.trans hsome')
          exact absurd hp hnot
      | next hsome' _ hr =>
          obtain rfl := Option.some.inj (hsome.symm.trans hsome')
          exact ih hr

/-- What the loop returns is where the walk ends. -/
theorem search_finds (n : Nat) :
    ∀ {cmsg r : Option Nat}, self.search n cmsg = .ok r → Finds self cmsg r := by
  induction n with
  | zero =>
      intro cmsg r h
      exact absurd h (by simp [search])
  | succ n ih =>
      intro cmsg r h
      unfold search at h
      split at h
      · rename_i hnone
        obtain rfl := Except.ok.inj h
        exact .nothing hnone
      · rename_i pos hsome
        split at h
        · rename_i hp
          obtain rfl := Except.ok.inj h
          exact .found hsome hp
        · rename_i hp
          exact .next hsome hp (ih h)

/-- A walk that ends is one that some bound is enough for. -/
theorem Finds.search {cmsg r : Option Nat} (h : Finds self cmsg r) :
    ∃ n, self.search n cmsg = .ok r := by
  induction h with
  | nothing hnone => exact ⟨1, by simp [Control.search, hnone]⟩
  | found hsome hp => exact ⟨1, by simp [Control.search, hsome, hp]⟩
  | next hsome hp _ ih =>
      obtain ⟨n, hn⟩ := ih
      exact ⟨n + 1, by simp [Control.search, hsome, hp, hn]⟩

theorem search_error (n : Nat) :
    ∀ {cmsg : Option Nat} {e : SendAbort}, self.search n cmsg = .error e → e = .endless := by
  induction n with
  | zero =>
      intro cmsg e h
      exact (Except.error.inj h).symm
  | succ n ih =>
      intro cmsg e h
      unfold Control.search at h
      split at h
      · exact absurd h (by simp)
      · split at h
        · exact absurd h (by simp)
        · exact ih h

/-- The three outcomes of the body of `SP_HDR`. -/
theorem body_cases (pos : Nat) :
    ¬self.Within pos ∧ self.body pos = .error .outOfBounds ∨
    self.Within pos ∧ ¬(self.clen pos > 8 ∧ self.spsz pos ≤ self.clen pos - 8) ∧
      self.body pos = .ok none ∨
    self.Within pos ∧ (self.clen pos > 8 ∧ self.spsz pos ≤ self.clen pos - 8) ∧
      ∃ hdr, self.body pos = .ok (some hdr) ∧ hdr.length = self.spsz pos := by
  unfold body Within
  generalize self.clen pos = clen
  generalize self.spsz pos = spsz
  by_cases hclen : clen > 8
  · by_cases hread : pos + cmsgSpace + 8 > self.length
    · refine Or.inl ⟨fun hw => ?_, by rw [if_pos hclen, if_pos hread]⟩
      exact absurd (hw hclen).1 (Nat.not_le.mpr hread)
    · by_cases hfit : spsz ≤ clen - 8
      · by_cases hcopy : pos + cmsgSpace + 8 + spsz > self.length
        · refine Or.inl ⟨fun hw => ?_, ?_⟩
          · exact absurd ((hw hclen).2 hfit) (Nat.not_le.mpr hcopy)
          · rw [if_pos hclen, if_neg hread, if_pos hfit, if_pos hcopy]
        · refine Or.inr (Or.inr ⟨fun _ => ⟨Nat.not_lt.mp hread, fun _ => Nat.not_lt.mp hcopy⟩,
            ⟨hclen, hfit⟩, (self.drop (pos + cmsgSpace + 8)).take (spsz), ?_, ?_⟩)
          · rw [if_pos hclen, if_neg hread, if_pos hfit, if_neg hcopy]
          · rw [List.length_take, List.length_drop]
            omega
      · refine Or.inr (Or.inl ⟨fun _ => ⟨Nat.not_lt.mp hread, fun h => absurd h hfit⟩,
          fun h => hfit h.2, ?_⟩)
        rw [if_pos hclen, if_neg hread, if_neg hfit]
  · refine Or.inr (Or.inl ⟨fun h => absurd h hclen, fun h => hclen h.1, ?_⟩)
    rw [if_neg hclen]

theorem body_length {pos : Nat} {hdr : List UInt8} (h : self.body pos = .ok (some hdr)) :
    hdr.length ≤ self.length := by
  unfold body at h
  split at h
  · split at h
    · exact absurd h (by simp)
    · split at h
      · split at h
        · exact absurd h (by simp)
        · obtain rfl := Option.some.inj (Except.ok.inj h)
          rw [List.length_take, List.length_drop]
          exact (Nat.min_le_right _ _).trans (Nat.sub_le _ _)
      · exact absurd h (by simp)
  · exact absurd h (by simp)

theorem spHdr_length {fuel : Nat} {hdr : List UInt8} (h : self.spHdr fuel = .ok (some hdr)) :
    hdr.length ≤ self.length := by
  obtain ⟨r, -, hfound⟩ := bind_eq_ok_iff.mp h
  cases r with
  | none => exact absurd hfound (by simp [found])
  | some pos => exact body_length hfound

/-- Where the walk has ended, the property it has found is copied or lies behind the end. -/
theorem found_cases {r : Option Nat} (h : Finds self none r) :
    ¬self.Readable ∧ self.found r = .error .outOfBounds ∨
    self.Readable ∧ ∃ hdr, self.found r = .ok hdr ∧ (self.HasHeader ↔ hdr.getD [] ≠ []) := by
  cases r with
  | none =>
      refine Or.inr ⟨⟨none, h, by simp⟩, none, rfl, iff_of_false ?_ (by simp)⟩
      rintro ⟨pos, hpos, -⟩
      exact absurd (h.unique hpos) (by simp)
  | some pos =>
      have hread : self.Readable ↔ self.Within pos := by
        refine ⟨?_, fun hw => ⟨some pos, h, ?_⟩⟩
        · rintro ⟨r, hr, hall⟩
          exact hall pos (hr.unique h)
        · intro pos' heq
          exact Option.some.inj heq ▸ hw
      have hhas : self.HasHeader ↔
          (self.clen pos > 8 ∧ self.spsz pos ≤ self.clen pos - 8) ∧ 0 < self.spsz pos := by
        refine ⟨?_, fun hp => ⟨pos, h, hp.1.1, hp.1.2, hp.2⟩⟩
        rintro ⟨pos', hpos', h1, h2, h3⟩
        obtain rfl := Option.some.inj (h.unique hpos')
        exact ⟨⟨h1, h2⟩, h3⟩
      rw [hread, hhas]
      rcases self.body_cases pos with ⟨hout, hbody⟩ | ⟨hin, hnot, hbody⟩ |
        ⟨hin, hfit, hdr, hbody, hlen⟩
      · exact Or.inl ⟨hout, hbody⟩
      · refine Or.inr ⟨hin, none, hbody, iff_of_false (fun hp => hnot hp.1) (by simp)⟩
      · refine Or.inr ⟨hin, some hdr, hbody, ?_⟩
        rw [Option.getD_some, ← List.length_pos_iff, hlen]
        exact ⟨fun hp => hp.2, fun hp => ⟨hfit, hp⟩⟩

/-- With any bound: the header of control data that can be read is found, or the bound is too
small; control data that cannot be read give none. -/
theorem spHdr_cases (fuel : Nat) :
    (∃ hdr, self.spHdr fuel = .ok hdr ∧ self.Readable ∧ (self.HasHeader ↔ hdr.getD [] ≠ [])) ∨
    self.spHdr fuel = .error .outOfBounds ∧ ¬self.Readable ∨
    self.spHdr fuel = .error .endless := by
  unfold spHdr
  cases hsearch : self.search fuel none with
  | error e =>
      obtain rfl := search_error fuel hsearch
      exact Or.inr (Or.inr rfl)
  | ok r =>
      rw [ok_bind]
      rcases found_cases (search_finds fuel hsearch) with ⟨hnot, hout⟩ | ⟨hread, hdr, hok, hhas⟩
      · exact Or.inr (Or.inl ⟨hout, hnot⟩)
      · exact Or.inl ⟨hdr, hok, hread, hhas⟩

/-- The bound can be chosen large enough for control data that can be read. -/
theorem Readable.spHdr (h : self.Readable) : ∃ fuel hdr, self.spHdr fuel = .ok hdr := by
  have hread := h
  obtain ⟨r, hfinds, -⟩ := h
  obtain ⟨fuel, hsearch⟩ := hfinds.search
  rcases found_cases hfinds with ⟨hnot, -⟩ | ⟨-, hdr, hok, -⟩
  · exact absurd hread hnot
  · refine ⟨fuel, hdr, ?_⟩
    rw [Control.spHdr, hsearch, ok_bind, hok]

end Control

end GridMq.Core
