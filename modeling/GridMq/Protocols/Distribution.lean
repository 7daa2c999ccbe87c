import GridMq.Protocols.Dist
import GridMq.Protocols.PipeJournals

set_option autoImplicit false

/-!
# A message for every pipe that is ready (`src/protocols/utils/dist.c`)

What the distributor does to the pipes of a socket.  Each pipe that is ready takes a copy and is
ready no longer, but for the one that is left out, which stays ready.
-/

namespace GridMq.Protocols

open GridMq.Aio GridMq.Core GridMq.Library

/-- The pipes that a message is given to. -/
def Dist.targets (d : Dist) (exclude : Option Nat) : List Nat :=
  d.pipes.filter fun p => exclude ≠ some p

theorem Dist.mem_targets {d : Dist} {exclude : Option Nat} {p : Nat} :
    p ∈ d.targets exclude ↔ p ∈ d.pipes ∧ exclude ≠ some p := by
  rw [targets, List.mem_filter, decide_eq_true_eq]

theorem Dist.targets_none (d : Dist) : d.targets none = d.pipes := by
  simp [targets]

theorem Dist.nodup_targets {d : Dist} (h : d.pipes.Nodup) (exclude : Option Nat) :
    (d.targets exclude).Nodup := h.filter _

/-- A message is given to some pipes, and nothing else happens. -/
structure Distributing (w w' : SocketPipes) (wire : List UInt8) (targets : List Nat) : Prop where
  named : w'.Named
  attached : ∀ q, w'.Attached q ↔ w.Attached q
  inward : ∀ ready, Staged inward w ready → Staged inward w' ready
  queued : ∀ l, Queued (·.rcvprio) w l → Queued (·.rcvprio) w' l
  received : ∀ mine came went, Received mine came went w → Received mine came went w'
  given : ∀ mine sent, Given mine sent w →
    Given mine (sent ++ targets.map fun p => (p, wire)) w'

variable {w w' w'' : SocketPipes} {wire : List UInt8} {targets : List Nat} {p : Nat}
  {pipe pipe' : WirePipe}

namespace Distributing

theorem refl (hn : w.Named) : Distributing w w wire [] where
  named := hn
  attached _ := Iff.rfl
  inward _ h := h
  queued _ h := h
  received _ _ _ h := h
  given _ sent h := (List.append_nil sent).symm ▸ h

/-- One more pipe takes a copy. -/
theorem give (h : Distributing w w' wire targets) (hg : Giving w' w'' p wire pipe pipe') :
    Distributing w w'' wire (targets ++ [p]) where
  named := h.named.replace hg.was hg.pipes hg.used fun e he => Or.inl (hg.events ▸ he)
  attached q := (SocketPipes.attached_replace hg.was hg.pipes q).trans (h.attached q)
  inward ready hready := (h.inward ready hready).other hg.was hg.pipes
    (fun q => by rw [hg.events]) (inward_alike hg.instate hg.inbox)
  queued l hl := (h.queued l hl).replace hg.was hg.pipes hg.rcvprio
  received mine came went hr := (h.received mine came went hr).keep
    (SocketPipes.inboxes_same hg.was hg.pipes hg.inbox) hg.used
  given mine sent hs := by
    rw [List.map_append, ← List.append_assoc]
    exact (h.given mine sent hs).give hg h.named

end Distributing

/-- `grid_dist_send` under way: some pipes of the distributor are done with, others are left. -/
structure Underway (d : Dist) (exclude : Option Nat) (w : SocketPipes) (wire : List UInt8)
    (rest : List Nat) (w' : SocketPipes) (done : List Nat) : Prop where
  split : d.pipes = done ++ rest
  nodup : d.pipes.Nodup
  distributing : Distributing w w' wire (done.filter fun p => exclude ≠ some p)
  ready : Staged outward w' fun q => q ∈ rest ∨ q ∈ done ∧ exclude = some q

namespace Underway

variable {d : Dist} {exclude : Option Nat} {rest done : List Nat}

theorem not_mem_rest (h : Underway d exclude w wire (p :: rest) w' done) : p ∉ rest := by
  have hnodup := h.nodup
  rw [h.split] at hnodup
  exact (List.nodup_cons.mp (List.nodup_append.mp hnodup).2.1).1

theorem split_next (h : Underway d exclude w wire (p :: rest) w' done) :
    d.pipes = (done ++ [p]) ++ rest := by
  rw [h.split, List.append_assoc, List.singleton_append]

/-- The next pipe is left out. -/
theorem skip (h : Underway d exclude w wire (p :: rest) w' done) (hp : exclude = some p) :
    Underway d exclude w wire rest w' (done ++ [p]) where
  split := h.split_next
  nodup := h.nodup
  distributing := by
    have hsame : ((done ++ [p]).filter fun q => exclude ≠ some q) =
        done.filter fun q => exclude ≠ some q := by
      rw [List.filter_append, List.filter_cons_of_neg (by simpa using hp), List.filter_nil,
        List.append_nil]
    rw [hsame]
    exact h.distributing
  ready := by
    have hsame : (fun q => q ∈ rest ∨ q ∈ done ++ [p] ∧ exclude = some q) =
        fun q => q ∈ p :: rest ∨ q ∈ done ∧ exclude = some q := by
      funext q
      apply propext
      rcases eq_or_ne q p with rfl | hq
      · simp [hp]
      · simp [hq]
    rw [hsame]
    exact h.ready

/-- The next pipe takes its copy. -/
theorem step {msg : Msg} (h : Underway d exclude w msg.wire (p :: rest) w' done)
    (hp : exclude ≠ some p) :
    ∃ w'', SocketPipes.send msg w' p = .ok (w'', true) ∧
      Underway d exclude w msg.wire rest w'' (done ++ [p]) := by
  have hless : ∀ q, (q ∈ rest ∨ q ∈ done ++ [p] ∧ exclude = some q) ↔
      (q ∈ p :: rest ∨ q ∈ done ∧ exclude = some q) ∧ q ≠ p := by
    intro q
    rcases eq_or_ne q p with rfl | hq
    · exact ⟨fun hor => (hor.elim h.not_mem_rest fun hand => hp hand.2).elim,
        fun hand => absurd rfl hand.2⟩
    · simp [hq]
  obtain ⟨w'', pipe, pipe', hcall, hgive, -, hready⟩ :=
    h.ready.give (Or.inl List.mem_cons_self) hless msg
  refine ⟨w'', hcall, h.split_next, h.nodup, ?_, hready⟩
  have hmore : ((done ++ [p]).filter fun q => exclude ≠ some q) =
      (done.filter fun q => exclude ≠ some q) ++ [p] := by
    rw [List.filter_append, List.filter_cons_of_pos (by simpa using hp), List.filter_nil]
  rw [hmore]
  exact h.distributing.give hgive

end Underway

/-- The distributor gives the message to every pipe that is ready, but for the one that is left
out. -/
theorem Staged.distribute {d : Dist} (h : Staged outward w (· ∈ d.pipes)) (hn : w.Named)
    (hcount : d.count = d.pipes.length) (hnodup : d.pipes.Nodup) (exclude : Option Nat)
    (msg : Msg) :
    ∃ w' d', d.send (SocketPipes.send msg) exclude w = .ok (d', w') ∧
      Distributing w w' msg.wire (d.targets exclude) ∧ Staged outward w' (· ∈ d'.pipes) ∧
      d'.count = d'.pipes.length ∧ d'.pipes.Nodup := by
  have hstart : ∃ done, Underway d exclude w msg.wire d.pipes w done := by
    refine ⟨[], rfl, hnodup, .refl hn, ?_⟩
    have hsame : (fun q => q ∈ d.pipes ∨ q ∈ ([] : List Nat) ∧ exclude = some q) =
        fun q => q ∈ d.pipes := by
      funext q
      simp
    rw [hsame]
    exact h
  have hstep : ∀ p rest w', exclude ≠ some p →
      (∃ done, Underway d exclude w msg.wire (p :: rest) w' done) →
      ∃ w'', SocketPipes.send msg w' p = .ok (w'', true) ∧
        ∃ done, Underway d exclude w msg.wire rest w'' done := by
    intro p rest w' hp hunder
    obtain ⟨done, hdone⟩ := hunder
    obtain ⟨w'', hsend, hnext⟩ := hdone.step hp
    exact ⟨w'', hsend, _, hnext⟩
  have hskip : ∀ p rest w', exclude = some p →
      (∃ done, Underway d exclude w msg.wire (p :: rest) w' done) →
      ∃ done, Underway d exclude w msg.wire rest w' done := by
    intro p rest w' hp hunder
    obtain ⟨done, hdone⟩ := hunder
    exact ⟨_, hdone.skip hp⟩
  obtain ⟨w', hcall, done, hend⟩ := Dist.send_spec
    (J := fun rest w' => ∃ done, Underway d exclude w msg.wire rest w' done)
    hstep hskip hcount hstart
  have hdone : d.pipes = done := by
    rw [hend.split, List.append_nil]
  refine ⟨w', _, hcall, ?_, ?_, rfl, hnodup.filter _⟩
  · rw [Dist.targets, hdone]
    exact hend.distributing
  · have hsame : (fun q => q ∈ d.pipes.filter fun p => exclude = some p) =
        fun q => q ∈ ([] : List Nat) ∨ q ∈ done ∧ exclude = some q := by
      funext q
      rw [hdone]
      simp
    rw [hsame]
    exact hend.ready

end GridMq.Protocols
